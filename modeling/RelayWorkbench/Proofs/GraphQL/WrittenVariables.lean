import RelayWorkbench.Proofs.GraphQL.Names
import RelayWorkbench.Proofs.GraphQL.PlainDefinitions
import RelayWorkbench.Proofs.GraphQL.ReadingVariables
import RelayWorkbench.Proofs.GraphQL.WrittenLexemes

/-! Variables that are defined with a written type. The type is read where it stands in front of a
closing parenthesis, so that a type with a parenthesis of its own is read no further than that. -/

namespace RelayWorkbench.GraphQL

namespace Document

theorem ofContent?_eq_some_iff {content : List Lexeme.Piece} {document : Document} :
    ofContent? content = some document ↔
      read (lexemesOf content) = (document, true) ∧ content.all (· != .fault) := by
  simp only [ofContent?, Option.ite_none_right_eq_some, Bool.and_eq_true, Option.some.injEq,
    Prod.ext_iff]
  constructor
  · rintro ⟨⟨clean, sound⟩, same⟩
    exact ⟨⟨same, clean⟩, sound⟩
  · rintro ⟨⟨same, clean⟩, sound⟩
    exact ⟨⟨clean, sound⟩, same⟩

/-- The comments of a text do not count. -/
theorem ofContent?_congr {first second : List Lexeme.Piece}
    (lexemes : lexemesOf first = lexemesOf second)
    (sound : first.all (· != .fault) = second.all (· != .fault)) :
    ofContent? first = ofContent? second := by
  rw [ofContent?, ofContent?, lexemes, sound]

end Document

namespace TypeRef

theorem plain_of_mem_lexemes {type : TypeRef} :
    ∀ lexeme ∈ type.lexemes, lexeme.Plain ∧ lexeme ≠ .mark ')' := by
  intro lexeme member
  rcases name_or_mark_of_mem_lexemes lexeme member with ⟨name, rfl⟩ | ⟨char, own, rfl⟩
  · exact ⟨trivial, nofun⟩
  · refine ⟨trivial, ?_⟩
    rintro ⟨⟩
    revert own
    decide

theorem flatMap_spelling (type : TypeRef) :
    type.lexemes.flatMap Lexeme.spelling = type.print := by
  induction type with
  | named name required =>
    have parts : (named name required).lexemes =
        .name name :: if required then [.mark '!'] else [] := by cases required <;> rfl
    cases required <;> simp [parts, Lexeme.spelling, print]
  | list item required ih =>
    have parts : (list item required).lexemes = .mark '[' :: (item.lexemes ++ .mark ']' ::
        if required then [.mark '!'] else []) := by cases required <;> rfl
    cases required <;> simp [parts, Lexeme.spelling, print, ih]

theorem closing_notMem_print {type : TypeRef} (named : ∀ leaf ∈ type.leaves, leaf.Named) :
    ')' ∉ type.print := by
  induction type with
  | named name required =>
    have own : Lexeme.isName name := named _ (List.mem_singleton_self _)
    have apart := Lexeme.notMem_of_isName own (by decide : Text.isWordChar ')' = false)
    cases required <;> simpa [print] using apart
  | list item required ih =>
    cases required <;> simpa [print] using ih named

end TypeRef

namespace VariableDefinition

theorem eq_plain_iff {declared : VariableDefinition} {name : Name} :
    declared = { name, type := declared.type } ↔
      declared.name = name ∧ declared.default = none ∧ declared.directives = [] := by
  constructor
  · intro plain
    rw [plain]
    exact ⟨rfl, rfl, rfl⟩
  · obtain ⟨_, type, default, directives⟩ := declared
    rintro ⟨rfl, rfl, rfl⟩
    rfl

theorem respan_eq_iff {declared moved : VariableDefinition} {name : Name} {move : Respan}
    (plain : moved = { name, type := moved.type }) :
    declared.respan move = moved ↔ declared = moved := by
  obtain ⟨called, noDefault, noDirectives⟩ := eq_plain_iff.mp plain
  obtain ⟨_, type, default, directives⟩ := declared
  obtain ⟨_, type', _, _⟩ := moved
  cases noDefault
  cases noDirectives
  simp [VariableDefinition.respan]

/-- A variable is defined exactly where the operation that declares it says nothing else. -/
theorem ofWritten?_eq_some_iff {name type : Text} {declared : VariableDefinition} :
    ofWritten? name type = some declared ↔
      ∃ document stated, Document.ofContent? (Lexeme.content (probe name type)) = some document ∧
        document.definitions = [.operation stated] ∧ stated.variableDefinitions = [declared] ∧
        declared = { name, type := declared.type } := by
  rw [ofWritten?, Document.parse?_eq]
  generalize Document.locate _ = move
  cases Document.ofContent? (Lexeme.content (probe name type)) with
  | none => simp
  | some document =>
    obtain ⟨definitions⟩ := document
    constructor
    · intro written
      simp only [Option.map_some, Option.bind_eq_bind, Option.bind_some, Document.respan] at written
      split at written
      · next moved only =>
        split at written
        · next single alone =>
          split at written
          · next checked =>
            cases written
            simp only [Bool.and_eq_true, decide_eq_true_eq, Option.isNone_iff_eq_none,
              List.isEmpty_iff, and_assoc] at checked
            have plain := eq_plain_iff.mpr checked
            obtain ⟨stated, rfl, same⟩ := List.map_eq_singleton_iff.mp only
            cases stated with
            | operation stated =>
              cases same
              obtain ⟨former, own, same⟩ := List.map_eq_singleton_iff.mp alone
              cases (respan_eq_iff plain).mp same
              exact ⟨_, stated, rfl, rfl, own, plain⟩
            | _ => cases same
          · cases written
        · cases written
      · cases written
    · rintro ⟨_, stated, ⟨⟩, rfl, alone, plain⟩
      have kept : declared.respan move = declared := (respan_eq_iff plain).mpr rfl
      obtain ⟨called, default, directives⟩ := eq_plain_iff.mp plain
      simp [Document.respan, Definition.respan, Operation.respan, alone, kept, called, default,
        directives]

section Probing

/-- What stands behind the type in the operation that declares a variable. -/
private def closing : Text := " \x7b id \x7d".toList

private theorem content_probe (name type : Text) :
    Lexeme.content (probe name type) = .lexeme (.name OperationKind.mutation.keyword) ::
      .lexeme (.mark '(') :: .lexeme (.mark '$') ::
        Lexeme.content (name ++ ':' :: ' ' :: (type ++ ')' :: closing)) := by
  have parts : probe name type = (OperationKind.mutation.keyword ++ ['(', '$']) ++ name ++
      [':', ' '] ++ type ++ (')' :: closing) := rfl
  rw [parts]
  simp only [List.append_assoc, List.cons_append, List.nil_append]
  rw [Lexeme.content_name (by decide) rfl, Lexeme.content_mark (by decide),
    Lexeme.content_mark (by decide)]

private theorem content_typed {name : Text} (named : Lexeme.isName name) (type : Text) :
    Lexeme.content (name ++ ':' :: ' ' :: (type ++ ')' :: closing)) =
      .lexeme (.name name) :: .lexeme (.mark ':') :: Lexeme.content (type ++ ')' :: closing) := by
  rw [Lexeme.content_name named rfl, Lexeme.content_mark (by decide),
    Lexeme.content_ignored (by decide)]

end Probing

/-- What defines a variable writes its type, all of it or its front up to a parenthesis. -/
theorem written_of_ofWritten? {name type : Text} {declared : VariableDefinition}
    (accepted : ofWritten? name type = some declared) :
    Lexeme.isName name ∧ declared.type.Legible ∧ declared = { name, type := declared.type } ∧
      ∃ rest, Lexeme.Writes declared.type.lexemes type rest ∧ rest.head?.all (· == ')') := by
  obtain ⟨document, stated, found, only, alone, plain⟩ := ofWritten?_eq_some_iff.mp accepted
  obtain ⟨called, noDefault, noDirectives⟩ := eq_plain_iff.mp plain
  rw [content_probe] at found
  obtain ⟨read, sound⟩ := Document.ofContent?_eq_some_iff.mp found
  obtain ⟨shallow, more, begins⟩ :=
    Reading.lexemes_of_read read only alone noDefault noDirectives
  have said : Document.lexemesOf (Lexeme.content (name ++ ':' :: ' ' :: (type ++ ')' :: closing))) =
      .name declared.name :: .mark ':' :: (declared.type.lexemes ++ .mark ')' :: more) :=
    (List.cons.inj begins).2
  have stands : .lexeme (.name declared.name) ∈
      Lexeme.content (name ++ ':' :: ' ' :: (type ++ ')' :: closing)) :=
    Document.mem_lexemesOf.mp (said ▸ List.mem_cons_self)
  have named : Lexeme.isName name := called ▸ Lexeme.named_of_mem stands
  rw [content_typed named] at said sound
  have said : Document.lexemesOf (Lexeme.content (type ++ ')' :: closing)) =
      declared.type.lexemes ++ .mark ')' :: more := (List.cons.inj (List.cons.inj said).2).2
  have line : ∀ char ∈ closing, StringValue.isLineEnd char = false :=
    Text.forall_of_all (by decide)
  obtain ⟨rest, writes, ends⟩ :=
    Lexeme.exists_writes TypeRef.plain_of_mem_lexemes line said (by simpa using sound)
  refine ⟨named, ⟨fun leaf member => ?_, shallow⟩, plain, rest, writes, ends⟩
  have inside := TypeRef.mem_lexemes_of_mem_leaves leaf member
  exact Lexeme.named_of_mem (Document.mem_lexemesOf.mp (said ▸ List.mem_append_left _ inside))

/-- A type may be written with comments and with characters that mean nothing. -/
theorem ofWritten?_of_writes {name type : Text} {reference : TypeRef}
    (named : Lexeme.isName name) (legible : reference.Legible)
    (writes : Lexeme.Writes reference.lexemes type []) :
    ofWritten? name type = some { name, type := reference } := by
  obtain ⟨lexemes, sound⟩ := (writes.append (')' :: closing) rfl).content
  have printed := TypeRef.spells_print legible.named (')' :: closing) rfl
  have said : Document.lexemesOf (Lexeme.content (type ++ ')' :: closing)) =
      Document.lexemesOf (Lexeme.content (reference.print ++ ')' :: closing)) := by
    rw [lexemes, printed, Document.lexemesOf_append, Document.lexemesOf_map, List.nil_append]
  have alike : (Lexeme.content (type ++ ')' :: closing)).all (· != .fault) =
      (Lexeme.content (reference.print ++ ')' :: closing)).all (· != .fault) := by
    have plain : (reference.lexemes.map Lexeme.Piece.lexeme).all (· != .fault) := by simp
    rw [sound, printed, List.all_append, plain, Bool.true_and, List.nil_append]
  have same : Document.ofContent? (Lexeme.content (probe name type)) =
      Document.ofContent? (Lexeme.content (probe name reference.print)) := by
    simp only [content_probe, content_typed named]
    exact Document.ofContent?_congr (by simp only [Document.lexemesOf_lexeme, said])
      (by simp only [List.all_cons, alike])
  obtain ⟨document, stated, found, declares⟩ :=
    ofWritten?_eq_some_iff.mp (ofWritten?_print named legible)
  exact ofWritten?_eq_some_iff.mpr ⟨document, stated, same.trans found, declares⟩

/-- A variable that is defined with a written type has the name that was asked for, no default value
and no directives. Its type stands at the front of the text, and behind it there is nothing or a
closing parenthesis: without comments and characters that mean nothing the text is the type exactly
if it has no such parenthesis. Wherever a type of names that is not nested too deep is written, the
variable is defined. -/
theorem ofWritten?_laws (name type : Text) :
    (∀ declared, ofWritten? name type = some declared →
      Lexeme.isName name ∧ declared.type.Legible ∧ declared = { name, type := declared.type } ∧
      (∃ rest, Lexeme.Writes declared.type.lexemes type rest ∧ rest.head?.all (· == ')')) ∧
      (Lexeme.bare type = declared.type.print ↔ ')' ∉ Lexeme.bare type)) ∧
    ∀ reference : TypeRef, Lexeme.isName name → reference.Legible →
      ofWritten? name reference.print = some { name, type := reference } ∧
      (Lexeme.Writes reference.lexemes type [] →
        ofWritten? name type = some { name, type := reference }) := by
  refine ⟨fun declared accepted => ?_, fun reference named legible =>
    ⟨ofWritten?_print named legible, ofWritten?_of_writes named legible⟩⟩
  obtain ⟨named, legible, plain, rest, writes, ends⟩ := written_of_ofWritten? accepted
  refine ⟨named, legible, plain, ⟨rest, writes, ends⟩, ?_⟩
  have outside := TypeRef.closing_notMem_print legible.named
  rw [writes.bare_eq, TypeRef.flatMap_spelling]
  cases rest with
  | nil => simpa using outside
  | cons char rest =>
    obtain rfl : char = ')' := by simpa using ends
    have written := Lexeme.bare_cons (by decide : ')' ≠ '#') rest
    rw [if_neg (by decide)] at written
    simp [written]

/-- A parenthesis in a comment closes nothing. -/
theorem ofWritten?_laws_commented :
    let type : Text := "[ID #)\n,!]".toList
    let reference : TypeRef := .list (.named "ID".toList true) false
    ofWritten? "x".toList type = some { name := "x".toList, type := reference } ∧
      Lexeme.bare type = reference.print ∧ reference.print = "[ID!]".toList := by
  intro type reference
  have legible : reference.Legible := ⟨by decide, by decide +kernel⟩
  have writes : Lexeme.Writes reference.lexemes type [] :=
    .mark (by decide) <|
      @Lexeme.Writes.name _ "ID".toList " #)\n,!]".toList [] (by decide) (by decide) <|
        .blank (by decide) <|
          @Lexeme.Writes.comment _ [')'] '\n' ",!]".toList []
            (Text.forall_of_all (by decide)) (by decide) <|
            .blank (by decide) <| .mark (by decide) <| .mark (by decide) <| .nil []
  obtain ⟨sound, complete⟩ := ofWritten?_laws "x".toList type
  have accepted := (complete reference (by decide) legible).2 writes
  obtain ⟨-, -, -, -, whole⟩ := sound _ accepted
  exact ⟨accepted, whole.mpr (by decide), by decide⟩

/-- A type may close the parenthesis of the variables, give the operation another body, and comment
out the one it was to have. -/
theorem ofWritten?_smuggles :
    let type : Text := "Int) \x7b id \x7d #".toList
    let read : TypeRef := .named "Int".toList false
    (ofWritten? "x".toList type).map (·.type) = some read ∧
      Lexeme.bare type = "Int)\x7bid\x7d".toList ∧ Lexeme.bare type ≠ read.print := by
  decide +kernel

end VariableDefinition

end RelayWorkbench.GraphQL
