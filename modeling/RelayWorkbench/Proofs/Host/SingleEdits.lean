import RelayWorkbench.Proofs.Host.Revising

/-! One edit of one region. Everything around the region stays, and the regions that are found
afterwards are the former ones with the new text in place of the edited one, exactly if the host
language reads the new text to its end. -/

namespace RelayWorkbench.Host

namespace Strand

/-- Where an excerpt stands, its strand can be exchanged. -/
theorem exists_split_of_getElem? {front : Text} {strands : List Strand} {index : Nat}
    {excerpt : Excerpt} (found : (excerptsFrom front.width strands)[index]? = some excerpt) :
    ∃ strand before after, strands[index]? = some strand ∧
      excerpt = Excerpt.startingAt before.width strand.content ∧
      weave front strands = before ++ strand.content ++ after ∧
      ∀ content, weave front (strands.set index { strand with content }) =
        before ++ content ++ after := by
  induction strands generalizing front index with
  | nil => simp [excerptsFrom] at found
  | cons strand rest ih =>
    cases index with
    | zero =>
      refine ⟨strand, front, weave strand.code rest, rfl, ?_, ?_, fun content => ?_⟩
      · simpa [excerptsFrom] using found.symm
      · rw [weave_cons, List.append_assoc]
      · rw [List.set_cons_zero, weave_cons, List.append_assoc]
    | succ index =>
      have moved : (excerptsFrom (front ++ strand.content ++ strand.code).width rest)[index]? =
          some excerpt := by
        simpa only [excerptsFrom, Text.width_append, List.getElem?_cons_succ] using found
      obtain ⟨other, before, after, there, placed, split, exchanged⟩ := ih moved
      have woven (others : List Strand) : weave front (strand :: others) =
          weave (front ++ strand.content ++ strand.code) others := by
        rw [weave_cons, append_weave, append_weave, List.append_assoc]
      refine ⟨other, before, after, there, placed, (woven rest).trans split, fun content => ?_⟩
      rw [List.set_cons_succ, woven, exchanged]

theorem sameCode_set {strands : List Strand} {index : Nat} {strand : Strand}
    (found : strands[index]? = some strand) (content : Text) :
    SameCode strands (strands.set index { strand with content }) := by
  obtain ⟨inside, rfl⟩ := List.getElem?_eq_some_iff.mp found
  rw [SameCode, List.map_set]
  have within : index < (strands.map code).length := by simpa using inside
  have same := List.set_getElem_self within
  rwa [List.getElem_map] at same

theorem map_content_excerptsFrom (offset : Nat) (strands : List Strand) :
    (excerptsFrom offset strands).map Excerpt.content = strands.map content := by
  induction strands generalizing offset with
  | nil => rfl
  | cons strand rest ih =>
    simp only [excerptsFrom, List.map_cons, ih]
    rfl

end Strand

theorem map_content_regionsIn {language : Language} (embeds : language ≠ .graphQL) (text : Text) :
    (regionsIn language text).map Region.content =
      (embeddedExcerpts language text).map Excerpt.content := by
  rw [regionsIn, if_neg embeds, List.map_map]
  rfl

/-- The contents of regions are texts that their language reads to their end. -/
theorem closesAfter_of_mem {language : Language} (embeds : language ≠ .graphQL)
    {text content : Text}
    (member : content ∈ (regionsIn language text).map Region.content) :
    language.closesAfter content := by
  obtain ⟨front, strands, rfl, weaves⟩ := Language.exists_weave embeds text
  rw [map_content_regionsIn embeds, weaves.finds strands rfl weaves.admits,
    Strand.map_content_excerptsFrom] at member
  obtain ⟨strand, inside, rfl⟩ := List.mem_map.mp member
  exact (weaves.admits strand inside).closes

/-- An edit of one region can be carried out. It changes the content of that region and of no other
one, exactly if the host language reads the new text to its end. -/
theorem revise_region {language : Language} (embeds : language ≠ .graphQL) {text : Text}
    (short : text.width < 2 ^ 32) {index : Nat} {region : Region}
    (found : (regionsIn language text)[index]? = some region) {newText : Text}
    (written : newText ≠ []) :
    ∃ revised, revise text [⟨region.hostRange, newText⟩] = .ok revised ∧
      ((regionsIn language revised).map Region.content =
          ((regionsIn language text).map Region.content).set index newText ↔
        language.closesAfter newText) := by
  obtain ⟨front, strands, rfl, weaves⟩ := Language.exists_weave embeds text
  have finds := weaves.finds strands rfl weaves.admits
  have here := found
  rw [regionsIn, if_neg embeds, finds, List.getElem?_map] at here
  obtain ⟨excerpt, there, rfl⟩ := Option.map_eq_some_iff.mp here
  obtain ⟨strand, before, after, inside, placed, split, exchanged⟩ :=
    Strand.exists_split_of_getElem? there
  have content : excerpt.content = strand.content := by rw [placed]; rfl
  refine ⟨before ++ newText ++ after, ?_, ?_, ?_⟩
  · have edit := ofEdit_excerpt short
      ⟨before, after, by rw [content, split], by rw [content, placed]⟩ newText
    have replaced := Replacement.resultIn?_slice before strand.content after newText
    rw [placed] at edit ⊢
    refine revise_of_replacement ?_ (split ▸ replaced)
    simp only [List.mapM_cons, List.mapM_nil, edit]
    rfl
  · intro same
    have inside := (List.getElem?_eq_some_iff.mp found).1
    refine closesAfter_of_mem embeds (?_ : newText ∈ (regionsIn language
      (before ++ newText ++ after)).map Region.content)
    rw [same]
    exact List.mem_set (by simpa using inside) newText
  · intro closes
    have admits : ∀ other ∈ strands.set index { strand with content := newText },
        language.Admits other.content := by
      intro other member
      rcases List.mem_or_eq_of_mem_set member with former | rfl
      · exact weaves.admits other former
      · exact ⟨written, closes⟩
    have findsAgain := weaves.finds _ (Strand.sameCode_set inside newText) admits
    rw [exchanged] at findsAgain
    rw [map_content_regionsIn embeds, map_content_regionsIn embeds, finds, findsAgain,
      Strand.map_content_excerptsFrom, Strand.map_content_excerptsFrom, List.map_set]

end RelayWorkbench.Host
