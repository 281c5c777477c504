import RelayWorkbench.Host.Region
import RelayWorkbench.Proofs.Text.Cutting

/-! Host documents as woven texts: host code and stretches of GraphQL in turn. The GraphQL can
be exchanged without the rest of the document being read differently, as long as each new
stretch is one that its host language closes where it ends. -/

namespace RelayWorkbench.Host

/-- An excerpt stands in a text at its bytes. -/
def Excerpt.StandsIn (excerpt : Excerpt) (text : Text) : Prop :=
  ∃ before after, text = before ++ excerpt.content ++ after ∧
    excerpt = Excerpt.startingAt before.width excerpt.content

/-- A stretch of GraphQL and the host code up to the next one. -/
structure Strand where
  content : Text
  code : Text

namespace Strand

/-- A host document: the code in front, and then strands. -/
def weave (front : Text) (strands : List Strand) : Text :=
  front ++ strands.flatMap fun strand => strand.content ++ strand.code

/-- The contents of strands with the bytes they stand at, when the first begins at `offset`. -/
def excerptsFrom (offset : Nat) : List Strand → List Excerpt
  | [] => []
  | strand :: rest =>
    Excerpt.startingAt offset strand.content ::
      excerptsFrom (offset + strand.content.width + strand.code.width) rest

theorem weave_cons (front : Text) (strand : Strand) (rest : List Strand) :
    weave front (strand :: rest) = front ++ (strand.content ++ weave strand.code rest) := by
  simp [weave, List.append_assoc]

theorem append_weave (before front : Text) (strands : List Strand) :
    before ++ weave front strands = weave (before ++ front) strands := by
  simp [weave, List.append_assoc]

/-- An excerpt of a woven document stands between what comes before and after it. -/
theorem exists_split {front : Text} {strands : List Strand} {excerpt : Excerpt}
    (member : excerpt ∈ excerptsFrom front.width strands) :
    ∃ strand ∈ strands, ∃ before after,
      weave front strands = before ++ strand.content ++ (strand.code ++ after) ∧
        excerpt = Excerpt.startingAt before.width strand.content := by
  induction strands generalizing front with
  | nil => simp [excerptsFrom] at member
  | cons strand rest ih =>
    rcases List.mem_cons.mp member with rfl | later
    · refine ⟨strand, List.mem_cons_self .., front, weave [] rest, ?_, rfl⟩
      simp [weave, List.append_assoc]
    · have moved : excerpt ∈ excerptsFrom (front ++ strand.content ++ strand.code).width rest := by
        simpa only [Text.width_append] using later
      obtain ⟨found, inside, before, after, split, placed⟩ := ih moved
      refine ⟨found, List.mem_cons_of_mem strand inside, before, after, ?_, placed⟩
      rw [weave_cons, ← split, append_weave, append_weave, List.append_assoc]

theorem standsIn_weave {front : Text} {strands : List Strand} {excerpt : Excerpt}
    (member : excerpt ∈ excerptsFrom front.width strands) :
    excerpt.StandsIn (weave front strands) := by
  obtain ⟨strand, -, before, after, split, rfl⟩ := exists_split member
  exact ⟨before, strand.code ++ after, split, rfl⟩

/-- Strands with the same code between them. -/
def SameCode (strands others : List Strand) : Prop := others.map code = strands.map code

theorem SameCode.eq_nil {others : List Strand} (same : SameCode [] others) : others = [] := by
  simpa [SameCode] using same

theorem SameCode.eq_cons {content code : Text} {strands others : List Strand}
    (same : SameCode (⟨content, code⟩ :: strands) others) :
    ∃ other rest, others = ⟨other, code⟩ :: rest ∧ SameCode strands rest := by
  cases others with
  | nil => simp [SameCode] at same
  | cons first rest =>
    obtain ⟨rfl, tail⟩ : first.code = code ∧ SameCode strands rest := by
      simpa [SameCode] using same
    exact ⟨first.content, rest, rfl, tail⟩

end Strand

/-- Whether a text that stands in a document where GraphQL begins is read up to its end, and no
further, by the host language. -/
def Language.closesAfter (language : Language) (text : Text) : Bool :=
  if language.usesTemplateTags then
    TemplateLiteral.closing? [] (text ++ ['\x60']) == some text.length
  else Text.cut? "|\x7d".toList (text ++ "|\x7d".toList) == some (text, [])

/-- Whether a text can stand in a document of the language as a stretch of GraphQL. -/
structure Language.Admits (language : Language) (text : Text) : Prop where
  written : text ≠ []
  closes : language.closesAfter text

/-- A document woven so that its language finds the strands, and would find any others that it
admits in their place. -/
structure Language.Weaves (language : Language) (front : Text) (strands : List Strand) :
    Prop where
  admits : ∀ strand ∈ strands, language.Admits strand.content
  coded : ∀ strand ∈ strands, strand.code ≠ []
  finds : ∀ others, Strand.SameCode strands others →
    (∀ strand ∈ others, language.Admits strand.content) →
    embeddedExcerpts language (Strand.weave front others) = Strand.excerptsFrom front.width others

end RelayWorkbench.Host
