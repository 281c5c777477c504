import Mathlib
import RelayWorkbench.Text.Basic

/-! Cutting and splitting texts. A cut at the first occurrence of a needle does not depend on
what follows the needle, and the parts of a text are found again by their widths. -/

namespace RelayWorkbench.Text

theorem forall_of_all {holds : Char → Prop} [DecidablePred holds] {text : Text}
    (every : text.all fun char => holds char) : ∀ char ∈ text, holds char := by
  simpa using every

theorem width_pos {text : Text} (written : text ≠ []) : 0 < text.width := by
  cases text with
  | nil => exact absurd rfl written
  | cons char rest => have := char.utf8Size_pos; rw [width_cons]; omega

theorem eq_of_cut? {needle text before after : Text}
    (found : cut? needle text = some (before, after)) : text = before ++ needle ++ after := by
  induction text generalizing before with
  | nil =>
    simp only [cut?] at found
    split at found
    · next empty =>
      cases found
      simp [List.isEmpty_iff.mp empty]
    · cases found
  | cons char rest ih =>
    simp only [cut?] at found
    split at found
    · next starts =>
      cases found
      simpa using (List.prefix_iff_eq_append.mp (List.isPrefixOf_iff_prefix.mp starts)).symm
    · obtain ⟨⟨front, back⟩, cut, equal⟩ := Option.map_eq_some_iff.mp found
      cases equal
      rw [ih cut]
      rfl

private theorem isPrefixOf_append_left {needle front : Text}
    (short : needle.length ≤ front.length) (back : Text) :
    needle.isPrefixOf (front ++ back) = needle.isPrefixOf front := by
  rw [Bool.eq_iff_iff, List.isPrefixOf_iff_prefix, List.isPrefixOf_iff_prefix]
  exact ⟨fun starts => List.prefix_of_prefix_length_le starts (List.prefix_append ..) short,
    fun starts => starts.trans (List.prefix_append ..)⟩

/-- Whatever stands behind the needle, the cut is the same. -/
theorem cut?_append {needle text before after : Text} (written : needle ≠ [])
    (found : cut? needle text = some (before, after)) (other : Text) :
    cut? needle (before ++ needle ++ other) = some (before, other) := by
  have parts := eq_of_cut? found
  subst parts
  induction before with
  | nil =>
    cases needle with
    | nil => exact absurd rfl written
    | cons char rest =>
      have starts : (char :: rest).isPrefixOf (char :: (rest ++ other)) :=
        List.isPrefixOf_iff_prefix.mpr (List.prefix_append (char :: rest) other)
      simp only [List.nil_append, List.cons_append, cut?, if_pos starts, List.length_cons,
        List.drop_succ_cons, List.drop_left]
  | cons char before ih =>
    simp only [List.cons_append, cut?] at found ⊢
    have reach : ∀ back : Text, needle.isPrefixOf (char :: (before ++ needle ++ back)) =
        needle.isPrefixOf (char :: (before ++ needle)) := by
      intro back
      have short : needle.length ≤ (char :: (before ++ needle)).length := by simp; omega
      exact isPrefixOf_append_left short back
    rw [reach] at found ⊢
    split at found
    · cases found
    · next later =>
      obtain ⟨⟨front, back⟩, cut, equal⟩ := Option.map_eq_some_iff.mp found
      cases equal
      rw [if_neg later, ih cut]
      rfl

theorem isSome_cut? {needle text : Text} (inside : needle <:+: text) :
    (cut? needle text).isSome := by
  obtain ⟨front, back, rfl⟩ := inside
  induction front with
  | nil =>
    rw [List.nil_append]
    cases whole : needle ++ back with
    | nil => simp [cut?, (List.append_eq_nil_iff.mp whole).1]
    | cons char rest =>
      have starts : needle.isPrefixOf (char :: rest) :=
        List.isPrefixOf_iff_prefix.mpr (whole ▸ List.prefix_append needle back)
      simp [cut?, starts]
  | cons char front ih =>
    simp only [List.cons_append, cut?]
    split
    · rfl
    · rw [Option.isSome_map]
      exact ih

theorem occursIn_iff {needle text : Text} : occursIn needle text ↔ needle <:+: text := by
  constructor
  · intro found
    obtain ⟨⟨before, after⟩, cut⟩ := Option.isSome_iff_exists.mp found
    exact ⟨before, after, (eq_of_cut? cut).symm⟩
  · exact isSome_cut?

theorem cut?_of_notMem {needle text : Text} {char : Char} (member : char ∈ needle)
    (absent : char ∉ text) : cut? needle text = none := by
  refine Option.eq_none_iff_forall_ne_some.mpr fun (before, after) found => absent ?_
  rw [eq_of_cut? found]
  exact List.mem_append_left _ (List.mem_append_right _ member)

/-- A needle of two characters that is not in a text is looked for behind it. -/
theorem cut?_append_of_none {first second : Char} {text back : Text}
    (none : cut? [first, second] text = none) (apart : back.head? ≠ some second) :
    cut? [first, second] (text ++ back) =
      (cut? [first, second] back).map fun (before, after) => (text ++ before, after) := by
  induction text with
  | nil => cases found : cut? [first, second] back <;> simp [found]
  | cons char rest ih =>
    simp only [cut?] at none
    split at none
    · cases none
    next other =>
    have stays : [first, second].isPrefixOf (char :: (rest ++ back)) = false := by
      cases rest with
      | nil =>
        cases back with
        | nil => exact Bool.eq_false_iff.mpr other
        | cons next back =>
          have differs : second ≠ next := fun same => apart (congrArg some same.symm)
          simp [List.isPrefixOf, differs]
      | cons next rest =>
        have short : [first, second].isPrefixOf (char :: next :: rest ++ back) =
            [first, second].isPrefixOf (char :: next :: rest) :=
          isPrefixOf_append_left (by simp) back
        rw [← List.cons_append, short]
        exact Bool.eq_false_iff.mpr other
    rw [List.cons_append, cut?, if_neg (Bool.eq_false_iff.mp stays),
      ih (Option.map_eq_none_iff.mp none)]
    rcases cut? [first, second] back with _ | ⟨before, after⟩ <;> rfl

theorem cut?_eq_none_iff {needle text : Text} : cut? needle text = none ↔ ¬ needle <:+: text := by
  rw [← occursIn_iff, occursIn, Option.not_isSome_iff_eq_none]

/-- What stands in front of the first occurrence holds none. -/
theorem not_infix_of_cut? {needle text before after : Text} (written : needle ≠ [])
    (found : cut? needle text = some (before, after)) : ¬ needle <:+: before := by
  intro inside
  obtain ⟨⟨front, back⟩, early⟩ := Option.isSome_iff_exists.mp (isSome_cut? inside)
  have parts := eq_of_cut? early
  have same := cut?_append written early (back ++ needle ++ after)
  rw [← List.append_assoc, ← List.append_assoc, ← parts, ← eq_of_cut? found, found] at same
  obtain rfl : before = front := congrArg Prod.fst (Option.some.inj same)
  have length := congrArg List.length parts
  have long := List.length_pos_iff.mpr written
  simp only [List.length_append] at length
  omega

/-- A needle of two different characters is found behind a text that does not hold it. -/
theorem cut?_append_pair {first second : Char} {text : Text} (apart : first ≠ second)
    (plain : ¬ [first, second] <:+: text) (other : Text) :
    cut? [first, second] (text ++ [first, second] ++ other) = some (text, other) := by
  have here : cut? [first, second] ([first, second] ++ other) = some ([], other) := by
    simp [cut?]
  rw [List.append_assoc, cut?_append_of_none (cut?_eq_none_iff.mpr plain) (by simpa using apart),
    here]
  simp

@[simp] theorem splitAt?_append (front back : Text) :
    splitAt? front.width (front ++ back) = some (front, back) := by
  induction front with
  | nil => cases back <;> simp [splitAt?]
  | cons char rest ih =>
    have wide := char.utf8Size_pos
    have apart : char.utf8Size + width rest ≠ 0 := by omega
    simp only [List.cons_append, splitAt?, width_cons, if_neg apart, Nat.le_add_right, if_true,
      Nat.add_sub_cancel_left, ih, Option.map_some]

theorem slice?_append (before middle after : Text) :
    slice? (before ++ middle ++ after) before.width (before.width + middle.width) =
      some middle := by
  simp [slice?]

/-- What holds of some texts, and of two such texts with the separator in between, holds of the
texts when they are joined. -/
theorem joinWith_induction {motive : Text → Prop} {separator : Text}
    (between : ∀ {front back}, motive front → motive back → motive (front ++ separator ++ back))
    {texts : List Text} (each : ∀ text ∈ texts, motive text) (written : texts ≠ []) :
    motive (joinWith separator texts) := by
  induction texts with
  | nil => exact absurd rfl written
  | cons first rest ih =>
    obtain ⟨own, others⟩ := List.forall_mem_cons.mp each
    cases rest with
    | nil => rwa [joinWith, List.intercalate_singleton]
    | cons second rest =>
      rw [joinWith, List.intercalate_cons_cons]
      exact between own (ih others (List.cons_ne_nil _ _))

/-- What is joined with a separator is split where its parts are. -/
theorem splitOn_joinWith (separator : Char) (first : Text) (more : List Text) :
    (joinWith [separator] (first :: more)).splitOn separator =
      (first :: more).flatMap (·.splitOn separator) := by
  induction more generalizing first with
  | nil => simp [joinWith, List.intercalate_singleton]
  | cons second more ih =>
    have split := List.splitOnP_append_cons (p := (· == separator)) first
      (joinWith [separator] (second :: more)) (beq_self_eq_true separator)
    have parts : joinWith [separator] (first :: second :: more) =
        first ++ separator :: joinWith [separator] (second :: more) := by
      simp [joinWith, List.intercalate_cons_cons]
    rw [parts, List.flatMap_cons, ← ih]
    exact split

theorem splitOn_injective (separator : Char) {first second : Text}
    (same : first.splitOn separator = second.splitOn separator) : first = second := by
  have joined := congrArg (List.intercalate [separator]) same
  rwa [List.intercalate_splitOn, List.intercalate_splitOn] at joined

theorem flatMap_splitOn {separator : Char} {texts : List Text}
    (plain : ∀ text ∈ texts, separator ∉ text) : texts.flatMap (·.splitOn separator) = texts := by
  induction texts with
  | nil => rfl
  | cons first more ih =>
    obtain ⟨own, others⟩ := List.forall_mem_cons.mp plain
    have whole : first.splitOn separator = [first] :=
      List.splitOnP_eq_singleton fun char member => by
        simpa using fun same : char = separator => own (same ▸ member)
    rw [List.flatMap_cons, whole, ih others, List.singleton_append]

end RelayWorkbench.Text
