import RelayWorkbench.Proofs.Host.TemplateSteps
import RelayWorkbench.Proofs.Host.Weaving

/-! Texts that a host language reads over. A script looks for backticks and for `$` before `{`,
a Reason file looks for `|` before `}`; a text that holds none of these neither opens nor closes
anything. -/

namespace RelayWorkbench.Host

namespace Language

/-- Whether two characters side by side mean nothing to the language. -/
def Apart (language : Language) (first second : Char) : Prop :=
  match language with
  | .typeScript | .javaScript | .vue => first = '$' → second ≠ '\x7b'
  | .reason => first = '|' → second ≠ '\x7d'
  | .graphQL => True

/-- A text in which the language finds nothing that opens or closes something. -/
structure Spares (language : Language) (text : Text) : Prop where
  plain : language.usesTemplateTags → '\x60' ∉ text
  apart : text.IsChain language.Apart

instance (language : Language) (first second : Char) : Decidable (language.Apart first second) :=
  match language with
  | .typeScript | .javaScript | .vue => inferInstanceAs (Decidable (first = '$' → second ≠ '\x7b'))
  | .reason => inferInstanceAs (Decidable (first = '|' → second ≠ '\x7d'))
  | .graphQL => inferInstanceAs (Decidable True)

instance (language : Language) (text : Text) : Decidable (language.Spares text) :=
  decidable_of_iff (_ ∧ _) ⟨fun ⟨plain, apart⟩ => ⟨plain, apart⟩,
    fun ⟨plain, apart⟩ => ⟨plain, apart⟩⟩

/-- Whether a character means the same whatever stands behind it. -/
def isSettled (char : Char) : Bool := char != '$' && char != '|' && char != '\\'

/-- A text that a language reads over, whatever stands behind it. -/
structure Harmless (language : Language) (text : Text) : Prop extends language.Spares text where
  settled : ∀ last ∈ text.getLast?, isSettled last

variable {language : Language} {front back text : Text}

theorem Apart.of_first {first : Char} (dollar : first ≠ '$') (bar : first ≠ '|') (second : Char) :
    language.Apart first second := by
  cases language with
  | graphQL => trivial
  | reason => exact fun same => absurd same bar
  | typeScript | javaScript | vue => exact fun same => absurd same dollar

theorem Apart.of_second {second : Char} (opens : second ≠ '\x7b') (closes : second ≠ '\x7d')
    (first : Char) : language.Apart first second := by
  cases language with
  | graphQL => trivial
  | reason => exact fun _ => closes
  | typeScript | javaScript | vue => exact fun _ => opens

theorem Apart.of_isSettled {first : Char} (settled : isSettled first) (second : Char) :
    language.Apart first second := by
  simp only [isSettled, Bool.and_eq_true, bne_iff_ne] at settled
  exact .of_first settled.1.1 settled.1.2 second

theorem spares_graphQL (text : Text) : Language.graphQL.Spares text where
  plain := nofun
  apart := by
    induction text with
    | nil => exact .nil
    | cons char rest ih => exact ih.cons fun _ _ => trivial

namespace Spares

theorem nil : language.Spares [] := ⟨fun _ => nofun, .nil⟩

theorem cons {char : Char} (spares : language.Spares text) (plain : char ≠ '\x60')
    (apart : ∀ next ∈ text.head?, language.Apart char next) : language.Spares (char :: text) where
  plain script member := by
    rcases List.mem_cons.mp member with same | later
    · exact plain same.symm
    · exact spares.plain script later
  apart := spares.apart.cons apart

theorem head {char : Char} (spares : language.Spares (char :: text)) :
    ∀ next ∈ text.head?, language.Apart char next := fun _ here => spares.apart.rel_head? here

theorem cons_of_head {char : Char} (spares : language.Spares (char :: text))
    (others : language.Spares back)
    (begins : ∀ first ∈ back.head?, text.head? = some first ∨ first ≠ '\x7b' ∧ first ≠ '\x7d') :
    language.Spares (char :: back) where
  plain script member := by
    rcases List.mem_cons.mp member with rfl | later
    · exact spares.plain script (List.mem_cons_self ..)
    · exact others.plain script later
  apart := others.apart.cons fun first here => by
    rcases begins first here with same | ⟨opens, closes⟩
    · exact spares.head first same
    · exact .of_second opens closes char

theorem tail {char : Char} (spares : language.Spares (char :: text)) : language.Spares text where
  plain script member := spares.plain script (List.mem_cons_of_mem char member)
  apart := spares.apart.tail

theorem of_forall (begins : ∀ char ∈ text, char ≠ '\x60' ∧ char ≠ '$' ∧ char ≠ '|') :
    language.Spares text := by
  induction text with
  | nil => exact nil
  | cons char rest ih =>
    obtain ⟨⟨plain, dollar, bar⟩, others⟩ := List.forall_mem_cons.mp begins
    exact (ih others).cons plain fun next _ => .of_first dollar bar next

theorem append (spares : language.Spares front) (others : language.Spares back)
    (apart : ∀ last ∈ front.getLast?, ∀ first ∈ back.head?, language.Apart last first) :
    language.Spares (front ++ back) where
  plain script member := by
    rcases List.mem_append.mp member with here | there
    · exact spares.plain script here
    · exact others.plain script there
  apart := spares.apart.append others.apart apart

end Spares

namespace Harmless

theorem append_spares (harmless : language.Harmless front) (spares : language.Spares back) :
    language.Spares (front ++ back) :=
  harmless.toSpares.append spares fun last ends first _ =>
    .of_isSettled (harmless.settled last ends) first

theorem append (harmless : language.Harmless front) (others : language.Harmless back) :
    language.Harmless (front ++ back) where
  toSpares := harmless.append_spares others.toSpares
  settled last ends := by
    rw [List.getLast?_append] at ends
    rcases Option.or_eq_some_iff.mp ends with behind | ⟨-, here⟩
    · exact others.settled last behind
    · exact harmless.settled last here

theorem of_forall (means : ∀ char ∈ text, char ≠ '\x60' ∧ isSettled char) :
    language.Harmless text where
  toSpares := .of_forall fun char member => by
    have own := means char member
    simp only [isSettled, Bool.and_eq_true, bne_iff_ne] at own
    exact ⟨own.1, own.2.1.1, own.2.1.2⟩
  settled last ends := (means last (List.mem_of_getLast? ends)).2

theorem enclose {mark : Text} (harmless : language.Harmless mark) (begins : mark.head? = some '"')
    (spares : language.Spares text) : language.Harmless (mark ++ text ++ mark) where
  toSpares := (harmless.append_spares spares).append harmless.toSpares fun last _ first here => by
    cases begins.symm.trans here
    exact .of_second (by decide) (by decide) last
  settled last ends := by
    have written : mark ≠ [] := by
      rintro rfl
      cases begins
    rw [List.getLast?_append_of_ne_nil _ written] at ends
    exact harmless.settled last ends

theorem spaces (count : Nat) : language.Harmless (Text.spaces count) := by
  refine .of_forall fun char member => ?_
  rw [List.eq_of_mem_replicate member]
  decide

end Harmless

end Language

namespace TemplateLiteral

/-- A text that opens nothing and does not escape what stands behind is passed over. -/
private theorem leads_of_spares {text : Text} (plain : '\x60' ∉ text)
    (apart : text.IsChain fun first second => first = '$' → second ≠ '\x7b')
    (settled : ∀ last ∈ text.getLast?, last ≠ '\\') : Leads [] text [] ['\x60'] := by
  match text with
  | [] => exact .nil
  | [char] =>
    have own : char ≠ '\x60' := by simpa [eq_comm] using plain
    exact .plain (.inl rfl) (settled char rfl) own (by simp)
  | char :: next :: rest =>
    simp only [List.mem_cons, not_or] at plain
    have ends : ∀ last ∈ rest.getLast?, last ≠ '\\' := fun last ends =>
      settled last (by cases rest <;> simp_all)
    by_cases escapes : char = '\\'
    · subst escapes
      have later := leads_of_spares plain.2.2 apart.tail.tail ends
      exact (Leads.escape (.inl rfl)).append later
    · have later : Leads [] (next :: rest) [] ['\x60'] :=
        leads_of_spares (by simpa using plain.2) apart.tail settled
      refine Leads.cons (.plain (.inl rfl) escapes (Ne.symm plain.1) ?_) later
      rintro dollar ⟨⟩
      exact apart.rel_head? rfl dollar rfl
termination_by text.length

private theorem closing?_of_spares {text : Text} (plain : '\x60' ∉ text)
    (apart : text.IsChain fun first second => first = '$' → second ≠ '\x7b')
    (settled : ∀ last ∈ text.getLast?, last ≠ '\\') :
    closing? [] (text ++ ['\x60']) = some text.length := by
  rw [leads_of_spares plain apart settled, closing?_backtick, Option.map_some, Nat.zero_add]

end TemplateLiteral

namespace QuotedBlock

private theorem cut?_of_apart {text : Text}
    (apart : text.IsChain fun first second => first = '|' → second ≠ '\x7d') :
    Text.cut? "|\x7d".toList (text ++ "|\x7d".toList) = some (text, []) := by
  induction text with
  | nil => rfl
  | cons char rest ih =>
    have stays : "|\x7d".toList.isPrefixOf (char :: (rest ++ "|\x7d".toList)) = false := by
      by_cases bar : char = '|'
      · cases rest with
        | nil => simp [bar, List.isPrefixOf]
        | cons next rest =>
          have other : next ≠ '\x7d' := apart.rel_head? rfl bar
          simp [bar, List.isPrefixOf, Ne.symm other]
      · simp [List.isPrefixOf, Ne.symm bar]
    rw [List.cons_append, Text.cut?, if_neg (Bool.eq_false_iff.mp stays), ih apart.tail]
    rfl

end QuotedBlock

theorem Language.Harmless.closesAfter {language : Language} {text : Text}
    (embeds : language ≠ .graphQL)
    (harmless : language.Harmless text) : language.closesAfter text := by
  have escapes : ∀ last ∈ text.getLast?, last ≠ '\\' := by
    rintro last ends rfl
    cases harmless.settled _ ends
  cases language with
  | graphQL => exact absurd rfl embeds
  | reason =>
    have cut := QuotedBlock.cut?_of_apart harmless.apart
    simpa [Language.closesAfter, Language.usesTemplateTags] using cut
  | typeScript | javaScript | vue =>
    have closes := TemplateLiteral.closing?_of_spares (harmless.plain rfl) harmless.apart escapes
    simp [Language.closesAfter, Language.usesTemplateTags, closes]

end RelayWorkbench.Host
