import RelayWorkbench.Proofs.Host.TemplateSteps
import RelayWorkbench.Proofs.Host.Weaving

/-! Scripts are woven of code and tagged template literals. Where a template ends depends on its
body alone, and whether one is tagged depends on the text back to the last backtick alone. -/

namespace RelayWorkbench.Host.TemplateLiteral

variable {language : Language}

/-- The text has a body of `count` characters that ends there whatever stands behind it. -/
private def ClosesAt (frames : List Frame) (text : Text) (count : Nat) : Prop :=
  ∃ body rest, text = body ++ '\x60' :: rest ∧ body.length = count ∧
    ∀ other, closing? frames (body ++ '\x60' :: other) = some count

private theorem ClosesAt.step (passed : Text) {frames inner : List Frame} {rest : Text}
    {count : Nat}
    (closes : (closing? inner rest).map (· + passed.length) = some count)
    (ih : ∀ {count}, closing? inner rest = some count → ClosesAt inner rest count)
    (leads : ∀ text : Text, text.head? = rest.head? → Leads frames passed inner text) :
    ClosesAt frames (passed ++ rest) count := by
  obtain ⟨less, found, rfl⟩ := Option.map_eq_some_iff.mp closes
  obtain ⟨body, after, rfl, rfl, stays⟩ := ih found
  refine ⟨passed ++ body, after, (List.append_assoc ..).symm, by simp [Nat.add_comm], ?_⟩
  intro other
  rw [List.append_assoc, leads _ (by cases body <;> rfl), stays other]
  rfl

theorem closing?_local {frames : List Frame} {text : Text} {count : Nat}
    (closes : closing? frames text = some count) : ClosesAt frames text count := by
  fun_induction closing? frames text generalizing count with
  | case1 | case2 | case5 | case8 => cases closes
  | case3 quote outer char rest ih =>
    exact ClosesAt.step ['\\', char] closes ih fun _ _ => .escapeQuoted
  | case4 outer char rest other ih =>
    exact ClosesAt.step [char] closes ih fun _ _ => .closeQuote other
  | case6 quote outer char rest escapes closes' ends ih =>
    exact ClosesAt.step [char] closes ih fun _ _ => .inQuotes escapes closes' ends
  | case7 outer char rest frames =>
    rename_i ih
    exact ClosesAt.step [char] closes ih fun _ _ => .inSubstitution
  | case9 frames unquoted unbraced char rest ih =>
    exact ClosesAt.step ['\\', char] closes ih fun _ _ =>
      .escape (inTemplate_of unquoted unbraced)
  | case10 rest =>
    cases closes
    exact ⟨[], rest, rfl, rfl, closing?_backtick⟩
  | case11 rest frame outer unquoted unbraced plain ih =>
    rcases inTemplate_of unquoted unbraced with none | ⟨outer, same⟩
    · cases none
    · cases same
      exact ClosesAt.step ['\x60'] closes ih fun _ _ => .close
  | case12 frames unquoted unbraced rest plain open' ih =>
    exact ClosesAt.step ['$', '{'] closes ih fun _ _ =>
      .substitution (inTemplate_of unquoted unbraced)
  | case13 frames unquoted unbraced rest single plain open' ih =>
    refine ClosesAt.step ['$'] closes ih fun text same => ?_
    refine .plain (inTemplate_of unquoted unbraced) (by decide) (by decide) fun _ opens => ?_
    obtain ⟨more, rfl⟩ := List.head?_eq_some_iff.mp (same.symm.trans opens)
    exact single more rfl
  | case14 frames char rest unquoted unbraced escapes closes' dollar ih =>
    exact ClosesAt.step [char] closes ih fun _ _ =>
      .plain (inTemplate_of unquoted unbraced) escapes closes' (absurd · dollar)

theorem closing?_append {text : Text} (here : closing? [] (text ++ ['\x60']) = some text.length)
    (other : Text) : closing? [] (text ++ '\x60' :: other) = some text.length := by
  obtain ⟨body, rest, same, long, stays⟩ := closing?_local here
  obtain ⟨rfl, -⟩ := List.append_inj same long.symm
  exact stays other

/-- A text that a script closes ends there in whatever document it stands. -/
theorem closing?_of_closesAfter (script : language.usesTemplateTags) {text : Text}
    (closes : language.closesAfter text) (other : Text) :
    closing? [] (text ++ '\x60' :: other) = some text.length :=
  closing?_append (by simpa [Language.closesAfter, script] using closes) other

theorem closesAfter_of_closing? (script : language.usesTemplateTags)
    {inside : Text} {count : Nat} (closes : closing? [] inside = some count) :
    ∃ body rest, inside = body ++ '\x60' :: rest ∧ body.length = count ∧
      language.closesAfter body := by
  obtain ⟨body, rest, split, rfl, stays⟩ := closing?_local closes
  exact ⟨body, rest, split, rfl, by simpa [Language.closesAfter, script] using stays []⟩

/-- The text before a place, backwards, up to the last backtick. -/
def reach (before : Text) : Text := before.takeWhile (· != '\x60')

theorem reach_cons (char : Char) (before : Text) :
    reach (char :: before) = if char = '\x60' then [] else char :: reach before := by
  by_cases quote : char = '\x60' <;> simp [reach, quote]

private theorem stands_reach {word : Text} (plain : '\x60' ∉ word) (before : Text) :
    (word.isPrefixOf (reach before) &&
        !((reach before).drop word.length).head?.any extendsWord) =
      (word.isPrefixOf before && !(before.drop word.length).head?.any extendsWord) := by
  induction word generalizing before with
  | nil =>
    cases before with
    | nil => rfl
    | cons char rest =>
      rw [reach_cons]
      split
      · next quote =>
        have apart : extendsWord '\x60' = false := by decide +kernel
        simp [quote, apart]
      · simp
  | cons letter word ih =>
    rw [List.mem_cons, not_or] at plain
    cases before with
    | nil => rfl
    | cons char rest =>
      rw [reach_cons]
      split
      · next quote => simp [quote, List.isPrefixOf, Ne.symm plain.1]
      · simp only [List.isPrefixOf, List.length_cons, List.drop_succ_cons, Bool.and_assoc,
          ih plain.2 rest]

private theorem endsWithTag_reach (before : Text) :
    endsWithTag (reach before) = endsWithTag before := by
  have stands : ∀ tag : Text, '\x60' ∉ tag →
      (tag.reverse.isPrefixOf (reach before) &&
          !((reach before).drop tag.length).head?.any extendsWord) =
        (tag.reverse.isPrefixOf before && !(before.drop tag.length).head?.any extendsWord) := by
    intro tag plain
    simpa using stands_reach (by simpa using plain : '\x60' ∉ tag.reverse) before
  simp only [endsWithTag, tags, List.any_cons, List.any_nil]
  rw [stands _ (by decide), stands _ (by decide), stands _ (by decide)]

theorem endsWithTag_congr {seen before : Text} (same : reach seen = reach before) :
    endsWithTag seen = endsWithTag before := by
  rw [← endsWithTag_reach, same, endsWithTag_reach]

private theorem taggedFrom_passing (before passed text : Text) (offset : Nat) :
    taggedFrom before offset passed.length (passed ++ text) =
      taggedFrom (passed.reverse ++ before) (offset + passed.width) 0 text := by
  induction passed generalizing before offset with
  | nil => simp
  | cons char rest ih =>
    simp only [List.cons_append, List.length_cons, taggedFrom, ih, Text.width_cons,
      List.reverse_cons, List.append_assoc, Nat.add_assoc]
    rfl

/-- The search finds whatever admitted texts stand in place of the strands. -/
private def Finds (language : Language) (before front : Text) (strands : List Strand) : Prop :=
  ∀ seen, reach seen = reach before → ∀ others, Strand.SameCode strands others →
    (∀ strand ∈ others, language.Admits strand.content) → ∀ offset,
      taggedFrom seen offset 0 (Strand.weave front others) =
        Strand.excerptsFrom (offset + front.width) others

private theorem finds_nil {before : Text} : Finds language before [] [] := by
  intro seen same others matched admits offset
  obtain rfl := matched.eq_nil
  rfl

/-- A character that does not begin a tagged template is code. -/
private theorem finds_passed {before front : Text} {char : Char} {strands : List Strand}
    (plain : (char = '\x60' && endsWithTag before) = false)
    (finds : Finds language (char :: before) front strands) :
    Finds language before (char :: front) strands := by
  intro seen same others matched admits offset
  have plain : (char = '\x60' && endsWithTag seen) = false := by rwa [endsWithTag_congr same]
  have reaches : reach (char :: seen) = reach (char :: before) := by simp only [reach_cons, same]
  rw [← List.singleton_append, ← Strand.append_weave, List.singleton_append, taggedFrom]
  simp only [plain, Bool.false_eq_true, if_false]
  rw [finds _ reaches others matched admits]
  simp only [Text.width_append, Text.width_cons, Text.width_nil, Nat.add_assoc, Nat.add_zero]

private theorem finds_endless {before rest : Text} (tagged : endsWithTag before)
    (endless : closing? [] rest = none) : Finds language before ('\x60' :: rest) [] := by
  intro seen same others matched admits offset
  obtain rfl := matched.eq_nil
  have tagged : endsWithTag seen := by rwa [endsWithTag_congr same]
  simp [Strand.weave, taggedFrom, tagged, endless, Strand.excerptsFrom]

/-- One step of the search over a tagged template. -/
theorem taggedFrom_template {before : Text} (tagged : endsWithTag before) (body : Text)
    (closes : ∀ other, closing? [] (body ++ '\x60' :: other) = some body.length)
    (offset : Nat) (rest : Text) :
    taggedFrom before offset 0 ('\x60' :: (body ++ '\x60' :: rest)) =
      (if body.isEmpty then [] else [Excerpt.startingAt (offset + 1) body]) ++
        taggedFrom ('\x60' :: (body.reverse ++ '\x60' :: before)) (offset + 1 + body.width + 1) 0
          rest := by
  have passes := taggedFrom_passing ('\x60' :: before) (body ++ ['\x60']) rest (offset + 1)
  simp only [List.append_assoc, List.singleton_append, List.length_append, List.length_singleton,
    List.reverse_append, List.reverse_singleton, Text.width_append, Text.width_cons,
    Text.width_nil] at passes
  have small : Char.utf8Size '\x60' = 1 := rfl
  rw [taggedFrom]
  simp only [tagged, closes, small, decide_true, Bool.and_true, if_true]
  cases body with
  | nil => simpa [small] using passes
  | cons char body => simpa [small, Nat.add_assoc] using passes

private theorem finds_empty {before front : Text} {strands : List Strand}
    (tagged : endsWithTag before)
    (finds : Finds language ['\x60'] front strands) :
    Finds language before ('\x60' :: '\x60' :: front) strands := by
  intro seen same others matched admits offset
  have tagged : endsWithTag seen := by rwa [endsWithTag_congr same]
  have step := taggedFrom_template tagged [] closing?_backtick offset (Strand.weave front others)
  have woven : Strand.weave ('\x60' :: '\x60' :: front) others =
      '\x60' :: ([] ++ '\x60' :: Strand.weave front others) := rfl
  rw [woven, step, finds _ (by simp [reach_cons]) others matched admits]
  simp only [List.isEmpty_nil, if_true, List.nil_append, Text.width_nil, Text.width_cons,
    show Char.utf8Size '\x60' = 1 from rfl]
  congr 1
  omega

private theorem finds_template {before body front : Text} {strands : List Strand}
    (script : language.usesTemplateTags) (tagged : endsWithTag before)
    (finds : Finds language ['\x60'] front strands) :
    Finds language before ['\x60'] (⟨body, '\x60' :: front⟩ :: strands) := by
  intro seen same others matched admits offset
  have tagged : endsWithTag seen := by rwa [endsWithTag_congr same]
  obtain ⟨other, others, rfl, tail⟩ := matched.eq_cons
  have admitted := admits _ (List.mem_cons_self ..)
  have written : other.isEmpty = false := by simpa using admitted.written
  have closes := closing?_of_closesAfter script admitted.closes
  have step := taggedFrom_template tagged other closes offset (Strand.weave front others)
  have woven : Strand.weave ['\x60'] (⟨other, '\x60' :: front⟩ :: others) =
      '\x60' :: (other ++ '\x60' :: Strand.weave front others) := by
    rw [Strand.weave_cons]
    rfl
  rw [woven, step, finds _ (by simp [reach_cons]) others tail
    fun strand member => admits strand (List.mem_cons_of_mem _ member)]
  simp [written, Strand.excerptsFrom, show Char.utf8Size '\x60' = 1 from rfl, Nat.add_assoc]

/-- A script is woven of code and tagged templates, whatever was read before it. -/
private theorem exists_finds (script : language.usesTemplateTags) (before text : Text) :
    ∃ front strands, text = Strand.weave front strands ∧
      (∀ strand ∈ strands, language.Admits strand.content ∧ strand.code ≠ []) ∧
      Finds language before front strands := by
  match text with
  | [] => exact ⟨[], [], rfl, by simp, finds_nil⟩
  | char :: rest =>
    cases begins : (char = '\x60' && endsWithTag before : Bool) with
    | false =>
      obtain ⟨front, strands, rfl, admitted, finds⟩ := exists_finds script (char :: before) rest
      exact ⟨char :: front, strands, rfl, admitted, finds_passed begins finds⟩
    | true =>
      obtain ⟨rfl, tagged⟩ : char = '\x60' ∧ endsWithTag before := by simpa using begins
      cases closes : closing? [] rest with
      | none => exact ⟨_, [], by simp [Strand.weave], by simp, finds_endless tagged closes⟩
      | some count =>
        obtain ⟨body, after, rfl, -, closed⟩ := closesAfter_of_closing? script closes
        obtain ⟨front, strands, rfl, admitted, finds⟩ := exists_finds script ['\x60'] after
        by_cases written : body = []
        · subst written
          exact ⟨_, strands, rfl, admitted, finds_empty tagged finds⟩
        · refine ⟨['\x60'], ⟨body, '\x60' :: front⟩ :: strands, ?_, ?_,
            finds_template script tagged finds⟩
          · rw [Strand.weave_cons]
            rfl
          · intro strand member
            rcases List.mem_cons.mp member with rfl | later
            · exact ⟨⟨written, closed⟩, by simp⟩
            · exact admitted strand later
termination_by text.length

/-- Every script is woven so that its tagged templates can be exchanged. -/
theorem exists_weave (script : language.usesTemplateTags) (text : Text) :
    ∃ front strands, text = Strand.weave front strands ∧ language.Weaves front strands := by
  obtain ⟨front, strands, woven, admitted, finds⟩ := exists_finds script [] text
  refine ⟨front, strands, woven, fun strand member => (admitted strand member).1,
    fun strand member => (admitted strand member).2, fun others same admits => ?_⟩
  simpa [embeddedExcerpts, script, taggedTemplates] using finds [] rfl others same admits 0

end RelayWorkbench.Host.TemplateLiteral
