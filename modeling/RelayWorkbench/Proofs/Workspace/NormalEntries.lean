import RelayWorkbench.Proofs.Text.Cutting
import RelayWorkbench.Proofs.Workspace.PathLocations
import RelayWorkbench.Workspace.SchemaFiles

/-! Entries of a schema in normal form. Where neighbouring slashes are made one, a path keeps its
steps and its start, and so it does without a leading `./`, unless a further slash stands behind
that: such an entry starts at the root afterwards. -/

namespace RelayWorkbench.Workspace.SchemaEntry

/-- One text is another one in which some pairs of neighbouring slashes are made one. -/
inductive Merges : Text → Text → Prop where
  | refl (text : Text) : Merges text text
  | pair {front back merged : Text} (rest : Merges (front ++ '/' :: back) merged) :
      Merges (front ++ '/' :: '/' :: back) merged

/-- What does not tell a pair of slashes from one does not tell the texts apart. -/
theorem Merges.view_eq {α : Type} (view : Text → α)
    (once : ∀ front back, view (front ++ '/' :: '/' :: back) = view (front ++ '/' :: back))
    {text merged : Text} (merges : Merges text merged) : view merged = view text := by
  induction merges with
  | refl text => rfl
  | pair _ ih => rw [ih, once]

section Slashes

theorem head?_pair (front back : Text) :
    (front ++ '/' :: '/' :: back).head? = (front ++ '/' :: back).head? := by
  cases front <;> rfl

theorem merges_collapseSlashes (front text : Text) :
    Merges (front ++ text) (front ++ collapseSlashes text) := by
  fun_induction collapseSlashes text generalizing front with
  | case1 rest ih => exact .pair (ih front)
  | case2 char rest _ ih => simpa using ih (front ++ [char])
  | case3 => exact .refl _

theorem head?_collapseSlashes (text : Text) : (collapseSlashes text).head? = text.head? :=
  (merges_collapseSlashes [] text).view_eq List.head? head?_pair

theorem not_pair_collapseSlashes (text : Text) : ¬ ['/', '/'] <:+: collapseSlashes text := by
  fun_induction collapseSlashes text with
  | case1 rest ih => exact ih
  | case2 char rest single ih =>
    rw [List.infix_cons_iff, not_or]
    refine ⟨fun ⟨_, begins⟩ => ?_, ih⟩
    obtain ⟨rfl, behind⟩ := List.cons_eq_cons.mp begins
    have next : rest.head? = some '/' := by rw [← head?_collapseSlashes, ← behind]; rfl
    obtain ⟨more, rfl⟩ := List.head?_eq_some_iff.mp next
    exact single more rfl rfl
  | case3 => simp

theorem collapseSlashes_cons (char : Char) (rest : Text) :
    collapseSlashes (char :: rest) =
      if char = '/' ∧ rest.head? = some '/' then collapseSlashes rest
      else char :: collapseSlashes rest := by
  split
  · next pair =>
    obtain ⟨rfl, next⟩ := pair
    obtain ⟨more, rfl⟩ := List.head?_eq_some_iff.mp next
    rw [collapseSlashes]
  · next single =>
    rw [collapseSlashes]
    rintro more rfl rfl
    exact single ⟨rfl, rfl⟩

/-- Whether a pair of slashes was made one before makes no difference. -/
theorem collapseSlashes_pair (front back : Text) :
    collapseSlashes (front ++ '/' :: '/' :: back) = collapseSlashes (front ++ '/' :: back) := by
  induction front with
  | nil => rw [List.nil_append, collapseSlashes, List.nil_append]
  | cons char rest ih =>
    rw [List.cons_append, List.cons_append, collapseSlashes_cons, collapseSlashes_cons, ih,
      head?_pair]

theorem collapseSlashes_of_single {text : Text} (single : ¬ ['/', '/'] <:+: text) :
    collapseSlashes text = text := by
  fun_induction collapseSlashes text with
  | case1 rest _ => exact absurd (List.prefix_append ['/', '/'] rest).isInfix single
  | case2 char rest _ ih => rw [ih fun inside => single (List.infix_cons inside)]
  | case3 => rfl

end Slashes

section Passes

/-- The text with each pair of slashes made one, in one pass from left to right. -/
def mergePass : Text → Text
  | '/' :: '/' :: rest => '/' :: mergePass rest
  | char :: rest => char :: mergePass rest
  | [] => []

theorem merges_mergePass (front text : Text) :
    Merges (front ++ text) (front ++ mergePass text) := by
  fun_induction mergePass text generalizing front with
  | case1 rest ih => exact .pair (by simpa using ih (front ++ ['/']))
  | case2 char rest _ ih => simpa using ih (front ++ [char])
  | case3 => exact .refl _

theorem length_mergePass_le (text : Text) : (mergePass text).length ≤ text.length := by
  fun_induction mergePass text with
  | case1 rest ih | case2 _ rest _ ih =>
    simp only [List.length_cons]
    omega
  | case3 => exact Nat.le_refl 0

/-- A pass over a text with a pair of slashes makes it shorter. -/
theorem length_mergePass_lt {text : Text} (pair : Text.occursIn ['/', '/'] text) :
    (mergePass text).length < text.length := by
  rw [Text.occursIn_iff] at pair
  fun_induction mergePass text with
  | case1 rest _ =>
    have := length_mergePass_le rest
    simp only [List.length_cons]
    omega
  | case2 char rest single ih =>
    rcases List.infix_cons_iff.mp pair with ⟨more, begins⟩ | later
    · obtain ⟨rfl, rfl⟩ := List.cons_eq_cons.mp begins
      exact absurd rfl (single more rfl)
    · have := ih later
      simp only [List.length_cons]
      omega
  | case3 => simp at pair

/-- Passes over a text for as long as it has a pair of slashes; each one makes it shorter. -/
def mergeAll (text : Text) : Text :=
  if _ : Text.occursIn ['/', '/'] text then mergeAll (mergePass text) else text
termination_by text.length
decreasing_by exact length_mergePass_lt ‹_›

theorem mergeAll_eq (text : Text) : mergeAll text = collapseSlashes text := by
  fun_induction mergeAll text with
  | case1 text _ ih =>
    have same := (merges_mergePass [] text).view_eq collapseSlashes collapseSlashes_pair
    simp only [List.nil_append] at same
    rw [ih, same]
  | case2 text single =>
    exact (collapseSlashes_of_single fun pair => single (Text.occursIn_iff.mpr pair)).symm

end Passes

/-- An entry without a leading `./`. -/
def withoutCurrent : Text → Text
  | '.' :: '/' :: rest => rest
  | entry => entry

theorem normalize_eq (entry : Text) : normalize entry = collapseSlashes (withoutCurrent entry) :=
  rfl

section Views

theorem withoutCurrent_cases (entry : Text) :
    withoutCurrent entry = entry ∨ entry = '.' :: '/' :: withoutCurrent entry := by
  unfold withoutCurrent
  split
  · exact .inr rfl
  · exact .inl rfl

/-- What tells neither a pair of slashes from one nor a text with a leading `./` from one without
it does not tell an entry from its normal form. -/
theorem view_normalize {α : Type} (view : Text → α)
    (once : ∀ front back, view (front ++ '/' :: '/' :: back) = view (front ++ '/' :: back))
    (current : ∀ rest, view ('.' :: '/' :: rest) = view rest) (entry : Text) :
    view (normalize entry) = view entry := by
  have same := (merges_collapseSlashes [] (withoutCurrent entry)).view_eq view once
  rw [List.nil_append, List.nil_append] at same
  rw [normalize_eq, same]
  rcases withoutCurrent_cases entry with whole | begins
  · rw [whole]
  · rw [← current, ← begins]

theorem steps_pair (front back : Text) :
    (Path.mk (front ++ '/' :: '/' :: back)).steps = (Path.mk (front ++ '/' :: back)).steps := by
  rw [Path.steps_append, Path.steps_append, ← List.nil_append ('/' :: back), Path.steps_append]
  rfl

theorem lastPiece_pair (front back : Text) :
    (Path.mk (front ++ '/' :: '/' :: back)).lastPiece =
      (Path.mk (front ++ '/' :: back)).lastPiece := by
  rw [Path.lastPiece_append, Path.lastPiece_append, ← List.nil_append ('/' :: back),
    Path.lastPiece_append]

/-- An entry and its normal form take the same steps. -/
theorem steps_normalize (entry : Text) :
    (Path.mk (normalize entry)).steps = (Path.mk entry).steps :=
  view_normalize (fun text => (Path.mk text).steps) steps_pair
    (Path.steps_append ['.']) entry

theorem lastPiece_normalize (entry : Text) :
    (Path.mk (normalize entry)).lastPiece = (Path.mk entry).lastPiece :=
  view_normalize (fun text => (Path.mk text).lastPiece) lastPiece_pair
    (Path.lastPiece_append ['.']) entry

/-- An entry that does not start at the root has a normal form that does exactly if further slashes
stand behind its leading `./`. -/
theorem isAbsolute_normalize (entry : Text) :
    (Path.mk (normalize entry)).isAbsolute ↔
      (Path.mk entry).isAbsolute ∨ ['.', '/', '/'] <+: entry := by
  rw [normalize_eq, Path.isAbsolute, head?_collapseSlashes, beq_iff_eq]
  unfold withoutCurrent
  split
  · next rest => cases rest <;> simp [Path.isAbsolute, eq_comm]
  · next other =>
    have single : ¬ ['.', '/', '/'] <+: entry := by
      rintro ⟨rest, begins⟩
      exact other _ begins.symm
    simp [Path.isAbsolute, single]

end Views

section Places

variable {entry : Text}

theorem normalize_eq_nil_iff : normalize entry = [] ↔ entry = [] ∨ entry = ['.', '/'] := by
  rw [← List.head?_eq_none_iff, normalize_eq, head?_collapseSlashes, List.head?_eq_none_iff]
  unfold withoutCurrent
  split
  · next rest => simp
  · next other => exact (or_iff_left fun same => other [] same).symm

/-- Below any directory an entry and its normal form start at the same place and take the same
steps, unless the entry loses the `.` in front of its slashes. -/
theorem route_join_normalize (single : ¬ ['.', '/', '/'] <+: entry) (base : Path) :
    (base.join ⟨normalize entry⟩).route = (base.join ⟨entry⟩).route := by
  have start : (Path.mk (normalize entry)).isAbsolute ↔ (Path.mk entry).isAbsolute := by
    rw [isAbsolute_normalize, or_iff_left single]
  by_cases absolute : (Path.mk entry).isAbsolute
  · rw [Path.join_of_isAbsolute absolute, Path.join_of_isAbsolute (start.mpr absolute), Path.route,
      Path.route, steps_normalize, absolute, start.mpr absolute]
  · have relative := Bool.eq_false_iff.mpr (mt start.mp absolute)
    rw [Path.route_join relative, Path.route_join (Bool.eq_false_iff.mpr absolute),
      steps_normalize]

theorem locate_join_normalize (single : ¬ ['.', '/', '/'] <+: entry) (system : FileSystem)
    (base : Path) (written : base.text ≠ [] ∨ entry ≠ ['.', '/']) :
    system.locate (base.join ⟨normalize entry⟩) = system.locate (base.join ⟨entry⟩) := by
  by_cases blank : entry = []
  · rw [blank]
    rfl
  · refine FileSystem.locate_congr ?_ ?_ (route_join_normalize single base) ?_
    · rw [Ne, Path.text_join_eq_nil_iff, normalize_eq_nil_iff]
      tauto
    · rw [Ne, Path.text_join_eq_nil_iff]
      exact fun both => blank both.2
    · rw [Path.lastPiece_join, Path.lastPiece_join, lastPiece_normalize]

/-- The normal form of an entry is what is left when passes over the entry without its leading `./`
find no neighbouring slashes any more. It takes the steps of the entry, from where the entry
starts, and leads to the same place in every tree of files; but an entry with further slashes
behind its leading `./` starts at the root afterwards, whatever it is joined to. Of `./` alone
nothing is left, which leads nowhere without a directory to stand behind. -/
theorem normalize_points (entry : Text) :
    normalize entry = mergeAll (withoutCurrent entry) ∧
    ¬ ['/', '/'] <:+: normalize entry ∧
    (Path.mk (normalize entry)).steps = (Path.mk entry).steps ∧
    ((Path.mk (normalize entry)).isAbsolute ↔
      (Path.mk entry).isAbsolute ∨ ['.', '/', '/'] <+: entry) ∧
    ((∀ base : Path, (base.join ⟨normalize entry⟩).route = (base.join ⟨entry⟩).route) ↔
      ¬ ['.', '/', '/'] <+: entry) ∧
    (¬ ['.', '/', '/'] <+: entry → ∀ (system : FileSystem) (base : Path),
      base.text ≠ [] ∨ entry ≠ ['.', '/'] →
        system.locate (base.join ⟨normalize entry⟩) = system.locate (base.join ⟨entry⟩)) := by
  refine ⟨(mergeAll_eq _).symm, not_pair_collapseSlashes _, steps_normalize entry,
    isAbsolute_normalize entry, ⟨fun same slips => ?_, route_join_normalize⟩,
    locate_join_normalize⟩
  -- below a relative directory the entry stays relative
  have absolute := (isAbsolute_normalize entry).mpr (.inr slips)
  have relative : (Path.mk entry).isAbsolute = false := by
    obtain ⟨rest, rfl⟩ := slips
    rfl
  have starts := congrArg Prod.fst (same ⟨['w']⟩)
  rw [Path.join_of_isAbsolute absolute, Path.route_join relative, Path.route, absolute] at starts
  cases starts

/-- Slashes and dots in front of, between and behind names do not count. -/
theorem normalize_points_below :
    normalize "././/a/../b//".toList = "./a/../b/".toList ∧
      FileSystem.locate
          ⟨.directory [("w".toList, .directory [("a".toList, .directory []),
            ("b".toList, .directory [])])], []⟩
          ((Path.mk "w".toList).join ⟨normalize "././/a/../b//".toList⟩) =
        .ok ["w".toList, "b".toList] := by
  refine ⟨rfl, ?_⟩
  rw [(normalize_points "././/a/../b//".toList).2.2.2.2.2 (by decide) _ _ (.inl (by decide))]
  rfl

/-- An entry in the directory of its configuration becomes one at the root. -/
theorem normalize_moves :
    ¬ ∀ entry : Text, entry ≠ [] →
      ¬ ['/', '/'] <:+: normalize entry ∧
      ((Path.mk (normalize entry)).isAbsolute ↔ (Path.mk entry).isAbsolute) ∧
      (Path.mk (normalize entry)).steps = (Path.mk entry).steps ∧
      ∀ base : Path, (base.join ⟨normalize entry⟩).route = (base.join ⟨entry⟩).route := by
  intro always
  exact absurd (always ".//a.gql".toList (by decide)).2.1 (by decide)

end Places

end RelayWorkbench.Workspace.SchemaEntry
