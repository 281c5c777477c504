import RelayWorkbench.Proofs.Host.BlockWeaving
import RelayWorkbench.Proofs.Host.TemplateWeaving

/-! The regions of host documents that embed GraphQL. -/

namespace RelayWorkbench.Host

/-- Every document of a language that embeds GraphQL is woven of code and its excerpts. -/
theorem Language.exists_weave {language : Language} (embeds : language ≠ .graphQL) (text : Text) :
    ∃ front strands, text = Strand.weave front strands ∧ language.Weaves front strands := by
  cases language with
  | graphQL => exact absurd rfl embeds
  | reason => exact QuotedBlock.exists_weave text
  | typeScript | javaScript | vue => exact TemplateLiteral.exists_weave rfl text

/-- An excerpt stands in the document at its span, with code behind it. -/
theorem exists_split_of_mem {language : Language} (embeds : language ≠ .graphQL) {text : Text}
    {excerpt : Excerpt} (member : excerpt ∈ embeddedExcerpts language text) :
    ∃ before after, text = before ++ excerpt.content ++ after ∧ after ≠ [] ∧
      excerpt = Excerpt.startingAt before.width excerpt.content := by
  obtain ⟨front, strands, rfl, weaves⟩ := Language.exists_weave embeds text
  rw [weaves.finds strands rfl weaves.admits] at member
  obtain ⟨strand, inside, before, after, split, placed⟩ := Strand.exists_split member
  subst placed
  exact ⟨before, strand.code ++ after, split, by simp [weaves.coded strand inside], rfl⟩

theorem width_content_le {language : Language} {text : Text} {region : Region}
    (member : region ∈ regionsIn language text) : region.content.width ≤ text.width := by
  rw [regionsIn] at member
  split at member
  · rw [List.mem_singleton.mp member]
    exact Nat.le_refl _
  · next embeds =>
    obtain ⟨excerpt, among, rfl⟩ := List.mem_map.mp member
    obtain ⟨before, after, split, -⟩ := exists_split_of_mem embeds among
    have wide := congrArg Text.width split
    simp only [Text.width_append] at wide
    have inside :
        (Region.ofExcerpt (LineIndex.ofText text) excerpt).content = excerpt.content := rfl
    rw [inside]
    omega

theorem mem_of_selectRegion? {regions : List Region} {position : Position} {region : Region}
    (selected : selectRegion? regions position = some region) : region ∈ regions := by
  rcases Option.or_eq_some_iff.mp selected with whole | ⟨-, onLine⟩
  · exact List.mem_of_find?_eq_some whole
  · exact List.mem_reverse.mp (List.mem_of_find?_eq_some onLine)

end RelayWorkbench.Host
