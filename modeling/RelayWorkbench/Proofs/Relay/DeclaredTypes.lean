import RelayWorkbench.Proofs.GraphQL.PlainDefinitions
import RelayWorkbench.Proofs.GraphQL.VariableUses
import RelayWorkbench.Proofs.Relay.OfferedEdits

/-! The types that variables are declared with. An operation declares a variable with the type that
is expected where the variable stands, a fragment with the type of the whole argument. -/

namespace RelayWorkbench.GraphQL

/-- Whether a variable of one type may stand where another type is expected. -/
def TypeRef.fits : TypeRef → TypeRef → Bool
  | named name required, named expected demanded => name == expected && (required || !demanded)
  | list item required, list expected demanded => item.fits expected && (required || !demanded)
  | _, _ => false

theorem TypeRef.fits_refl (type : TypeRef) : type.fits type := by
  induction type with
  | named name required => cases required <;> simp [fits]
  | list item required ih => cases required <;> simp [fits, ih]

end RelayWorkbench.GraphQL

namespace RelayWorkbench.Relay

open RelayWorkbench.GraphQL RelayWorkbench.Host

namespace Refactoring

variable {scene : Scene} {offer : Offer}

/-- All other titles begin with another letter. -/
theorem declares_of_title {decision : Decision} (member : decision ∈ decisions)
    (offered : decision scene = some offer) (adds : offer.title.head? = some 'A') :
    decision = declareVariable? ∨ decision = declareArgument? := by
  simp only [decisions, List.mem_cons, List.not_mem_nil, or_false] at member
  rcases member with rfl | rfl | rfl | rfl | rfl | rfl | rfl | rfl
  · exact .inl rfl
  · obtain ⟨_, _, -, -, -, rfl⟩ := Pagination.offer?_eq_some_iff.mp offered
    cases adds
  · obtain ⟨_, -, -, rfl⟩ := markTestOperation?_eq_some offered
    cases adds
  · obtain ⟨_, _, _, -, -, -, rfl⟩ := expandUnion?_eq_some offered
    cases adds
  · exact .inr rfl
  · obtain ⟨_, -, -, rfl⟩ := makeInline?_eq_some offered
    cases adds
  · obtain ⟨_, -, -, rfl⟩ := makeRefetchable?_eq_some offered
    cases adds
  · obtain ⟨_, -, -, rfl⟩ := makePlural?_eq_some offered
    cases adds

end Refactoring

section Titles

variable {name other : Name}

private theorem operationTitle_ne : operationTitle name ≠ fragmentTitle other := by
  intro same
  -- The title of a fragment would end as the title of an operation does.
  have ends : "\" to operation variables".toList <:+ fragmentTitle other := same ▸ ⟨_, rfl⟩
  rcases List.suffix_or_suffix_of_suffix ends ⟨_, rfl⟩ with longer | shorter
  · exact absurd longer (by decide)
  · exact absurd shorter (by decide)

private theorem operationTitle_inj (same : operationTitle name = operationTitle other) :
    name = other :=
  List.append_cancel_left (List.append_cancel_right same)

private theorem fragmentTitle_inj (same : fragmentTitle name = fragmentTitle other) :
    name = other :=
  List.append_cancel_left (List.append_cancel_right same)

end Titles

/-- The use of a variable at a byte of a document: the argument it stands in, the type that the
schema gives this argument, and the type that is expected where the variable stands. -/
structure UseAt (schema : Schema) (document : Document) (offset : Nat) (name : Name) (index : Nat)
    (argument : Argument) (declared expected : Option TypeRef) : Prop where
  gives : ∃ definition, document.definitions[index]? = some definition ∧
    definition.Gives schema argument declared
  stands : Value.Stands schema offset name declared argument.value expected

theorem exists_useAt {schema : Schema} {document : Document} {offset : Nat} {name : Name}
    (token : (CursorContext.ofOffset schema document offset).place.token = .ofVariable name) :
    ∃ argument, UseAt schema document offset name
      (CursorContext.ofOffset schema document offset).definition argument
      (CursorContext.ofOffset schema document offset).place.argumentType
      (CursorContext.ofOffset schema document offset).place.inputType := by
  obtain ⟨definition, argument, there, gives, stands⟩ :=
    CursorContext.exists_argument_of_ofOffset token
  exact ⟨argument, ⟨definition, there, gives⟩, stands⟩

theorem UseAt.isName {schema : Schema} {document : Document} {offset index : Nat} {name : Name}
    {argument : Argument} {declared expected : Option TypeRef}
    (use : UseAt schema document offset name index argument declared expected)
    (named : ∀ leaf ∈ document.leaves, leaf.Named) : Lexeme.isName name := by
  obtain ⟨⟨definition, there, gives⟩, stands⟩ := use
  have written := Document.forall_leaves.mp named definition (List.mem_of_getElem? there)
  exact stands.of_leaves (Argument.forall_leaves.mp (gives.of_leaves written)).2

theorem UseAt.legible {files : List Text} {document : Document} {offset index : Nat} {name : Name}
    {argument : Argument} {declared expected : Option TypeRef}
    (use : UseAt (clientSchema files) document offset name index argument declared expected) :
    ∀ type ∈ expected, type.Legible := by
  obtain ⟨⟨definition, -, gives⟩, stands⟩ := use
  have known := legible_clientSchema files
  exact stands.legible known (gives.legible known)

/-- The edit declares a variable in the operation at an index, which has not declared it yet. -/
def DeclaresInOperation (region : Region) (document : Document) (index : Nat)
    (declared : VariableDefinition) (edit : TextEdit) : Prop :=
  ∃ stated updated, document.definitions[index]? = some (.operation stated) ∧
    stated.declares declared.name = false ∧
    document.replaceAt? (.operation { stated with
      variableDefinitions := stated.variableDefinitions ++ [declared] }) [index] = some updated ∧
    edit = replacement region updated

/-- The edit declares an argument of the first fragment. -/
def DeclaresInFragment (region : Region) (document : Document) (declared : Argument)
    (edit : TextEdit) : Prop :=
  ∃ stated updated, document.definitions[0]? = some (.fragment stated) ∧
    document.replaceAt? (.fragment (Directed.addDirective "argumentDefinitions".toList [declared]
      stated)) [0] = some updated ∧
    edit = replacement region updated

namespace CodeAction

section Cursor

variable {request : Request} {schema : Schema} {region : Region} {document : Document}
  {offset : Nat} {name : Name} {edit : TextEdit}

private theorem declares_of_available_of_head {title : Text} (adds : title.head? = some 'A')
    (cursor : CursorAt request region document offset)
    (offered : Offered request (some schema) (.replace title edit)) :
    ∃ offer updated, (Refactoring.declareVariable? (sceneAt request schema document offset) =
        some offer ∨ Refactoring.declareArgument? (sceneAt request schema document offset) =
        some offer) ∧
      offer.title = title ∧ offer.result? document = some updated ∧
      edit = replacement region updated := by
  obtain ⟨_, _, _, _, decision, offer, updated, ⟨⟩, there, among, decided, called, result, same⟩ :=
    decided_of_offered offered
  obtain ⟨rfl, rfl, rfl⟩ := cursor.unique there
  refine ⟨offer, updated, ?_, called, result, same⟩
  rcases Refactoring.declares_of_title among decided (called ▸ adds) with rfl | rfl
  · exact .inl decided
  · exact .inr decided

/-- The offer to declare a variable in an operation. -/
theorem declaresInOperation_of_available (cursor : CursorAt request region document offset)
    (offered : Offered request (some schema) (.replace (operationTitle name) edit)) :
    (CursorContext.ofOffset schema document offset).place.token = .ofVariable name ∧
    ∃ type declared, (CursorContext.ofOffset schema document offset).place.inputType = some type ∧
      VariableDefinition.ofWritten? name type.print = some declared ∧
      DeclaresInOperation region document (CursorContext.ofOffset schema document offset).definition
        declared edit := by
  obtain ⟨offer, updated, decided, called, result, same⟩ :=
    declares_of_available_of_head rfl cursor offered
  rcases decided with decided | decided
  · obtain ⟨other, stated, type, declared, under, here, undeclared, expected, written, rfl⟩ :=
      Refactoring.declareVariable?_eq_some decided
    have token := Scene.cursorVariable?_iff.mp under
    obtain rfl := operationTitle_inj called
    obtain ⟨changed, -⟩ := Scene.edits_operation (Document.ownersApart_of_parse? cursor.parsed) []
      here result
    refine ⟨token, type, declared, expected, written, stated, updated, ?_, ?_, changed, same⟩
    · exact Scene.definition?_of_operation? here
    · rw [VariableDefinition.name_of_ofWritten? written]
      exact undeclared
  · obtain ⟨other, stated, type, -, -, -, -, rfl⟩ := Refactoring.declareArgument?_eq_some decided
    exact absurd called.symm operationTitle_ne

/-- The offer to declare a variable as an argument of a fragment. -/
theorem declaresInFragment_of_available (cursor : CursorAt request region document offset)
    (offered : Offered request (some schema) (.replace (fragmentTitle name) edit)) :
    (CursorContext.ofOffset schema document offset).place.token = .ofVariable name ∧
    ∃ type, (CursorContext.ofOffset schema document offset).place.argumentType = some type ∧
      DeclaresInFragment region document (Argument.declaring name type.print none) edit := by
  obtain ⟨offer, updated, decided, called, result, same⟩ :=
    declares_of_available_of_head rfl cursor offered
  rcases decided with decided | decided
  · obtain ⟨other, stated, type, declared, -, -, -, -, -, rfl⟩ :=
      Refactoring.declareVariable?_eq_some decided
    exact absurd called operationTitle_ne
  · obtain ⟨other, stated, type, under, first, -, expected, rfl⟩ :=
      Refactoring.declareArgument?_eq_some decided
    have token := Scene.cursorVariable?_iff.mp under
    obtain rfl := fragmentTitle_inj called
    obtain ⟨changed, -⟩ := Scene.edits_firstFragment
      (Document.ownersApart_of_parse? cursor.parsed) [] first result
    exact ⟨token, type, expected, stated, updated, Scene.getElem?_of_firstFragment? first,
      changed, same⟩

end Cursor

/-- Both declarations are about one use of a variable. The operation declares it with the type that
is expected where it stands, so that it may stand there. The fragment declares it with the type of
the argument around it: the same type if the variable is the value of the argument. -/
theorem declares_of_available {files : List Text} {request : Request} {name : Name} {title : Text}
    {edit : TextEdit}
    (offered : Offered request (some (clientSchema files)) (.replace title edit))
    (adds : title = operationTitle name ∨ title = fragmentTitle name) :
    ∃ region document offset index argument declared expected,
      CursorAt request region document offset ∧
      UseAt (clientSchema files) document offset name index argument declared expected ∧
      (∀ edit,
        Offered request (some (clientSchema files)) (.replace (operationTitle name) edit) →
          ∃ type, expected = some type ∧ (∀ place ∈ expected, type.fits place) ∧
            DeclaresInOperation region document index { name, type } edit) ∧
      ∀ edit,
        Offered request (some (clientSchema files)) (.replace (fragmentTitle name) edit) →
          ∃ type, declared = some type ∧
            DeclaresInFragment region document (Argument.declaring name type.print none) edit ∧
            (argument.value.IsVariable name → expected = some type) := by
  obtain ⟨_, region, document, offset, ⟨⟩, cursor⟩ := exists_cursor_of_offered offered
  have token : (CursorContext.ofOffset (clientSchema files) document offset).place.token =
      .ofVariable name := by
    rcases adds with rfl | rfl
    · exact (declaresInOperation_of_available cursor offered).1
    · exact (declaresInFragment_of_available cursor offered).1
  obtain ⟨argument, use⟩ := exists_useAt token
  refine ⟨region, document, offset, _, argument, _, _, cursor, use, fun made there => ?_,
    fun made there => ?_⟩
  · obtain ⟨-, type, declared, expected, written, declares⟩ :=
      declaresInOperation_of_available cursor there
    have named := use.isName (Document.named_of_parse? cursor.parsed)
    have plain := VariableDefinition.ofWritten?_print named (use.legible type expected)
    obtain rfl := Option.some.inj (plain.symm.trans written)
    refine ⟨type, expected, fun place same => ?_, declares⟩
    obtain rfl := Option.some.inj (expected.symm.trans same)
    exact type.fits_refl
  · obtain ⟨-, type, given, declares⟩ := declaresInFragment_of_available cursor there
    exact ⟨type, given, declares, fun whole => (use.stands.eq_of_isVariable whole).trans given⟩

/-- A variable in a list in an input object, in an operation. -/
theorem declares_of_available_nested :
    let files :=
      ["type Query \x7b top(by: Order): Int \x7d input Order \x7b tags: [ID!] \x7d".toList]
    let request : Request := {
      language := "graphql"
      text := "query Q \x7b top(by: \x7btags: [$t]\x7d) \x7d".toList
      selection := ⟨⟨0, 26⟩, ⟨0, 26⟩⟩
      moduleName := "Page".toList }
    let edit : TextEdit := ⟨⟨⟨0, 0⟩, ⟨0, 33⟩⟩,
      "query Q($t: ID!) \x7b\n  top(by: \x7btags: [$t]\x7d)\n\x7d\n".toList⟩
    Offered request (some (clientSchema files)) (.replace (operationTitle "t".toList) edit) ∧
      ∃ region document offset index argument declared expected type,
        UseAt (clientSchema files) document offset "t".toList index argument declared expected ∧
        expected = some type ∧
        DeclaresInOperation region document index { name := "t".toList, type } edit := by
  intro files request edit
  have offered : Offered request (some (clientSchema files))
      (.replace (operationTitle "t".toList) edit) := by
    decide +kernel
  obtain ⟨region, document, offset, index, argument, declared, expected, -, use, inOperation, -⟩ :=
    declares_of_available offered (.inl rfl)
  obtain ⟨type, same, -, declares⟩ := inOperation edit offered
  exact ⟨offered, region, document, offset, index, argument, declared, expected, type, use, same,
    declares⟩

/-- The fragment declares a variable that stands deeper with a type that does not fit there. -/
theorem declares_unfit_type :
    let files :=
      ["type Query \x7b top(by: Order): Int \x7d input Order \x7b tags: [ID!] \x7d".toList]
    let request : Request := {
      language := "graphql"
      text := "fragment F on Query \x7b top(by: \x7btags: [$t]\x7d) \x7d".toList
      selection := ⟨⟨0, 39⟩, ⟨0, 39⟩⟩
      moduleName := "Page".toList }
    let edit : TextEdit := ⟨⟨⟨0, 0⟩, ⟨0, 45⟩⟩,
      ("fragment F on Query @argumentDefinitions(t: \x7btype: \"Order\"\x7d) \x7b\n" ++
        "  top(by: \x7btags: [$t]\x7d)\n\x7d\n").toList⟩
    let type : TypeRef := .named "Order".toList false
    let place : TypeRef := .named "ID".toList true
    Offered request (some (clientSchema files)) (.replace (fragmentTitle "t".toList) edit) ∧
      ∃ region document offset index argument,
        CursorAt request region document offset ∧
        UseAt (clientSchema files) document offset "t".toList index argument (some type)
          (some place) ∧
        DeclaresInFragment region document (Argument.declaring "t".toList type.print none) edit ∧
        type ≠ place ∧ type.fits place = false := by
  intro files request edit type place
  have offered : Offered request (some (clientSchema files))
      (.replace (fragmentTitle "t".toList) edit) := by
    decide +kernel
  have types : (request.region?.bind fun region => (Document.parse? region.content).bind
      fun document => (request.offsetIn region).toOption.join.map fun offset =>
          let found := (CursorContext.ofOffset (clientSchema files) document offset).place
          (found.argumentType, found.inputType)) = some (some type, some place) := by
    decide +kernel
  obtain ⟨_, region, document, offset, ⟨⟩, cursor⟩ := exists_cursor_of_offered offered
  rw [cursor.here, Option.bind_some, cursor.parsed, Option.bind_some, cursor.located] at types
  obtain ⟨typed, expects⟩ := Prod.mk.inj (Option.some.inj types)
  obtain ⟨token, given, same, declares⟩ := declaresInFragment_of_available cursor offered
  obtain ⟨argument, use⟩ := exists_useAt token
  rw [typed, expects] at use
  obtain rfl := Option.some.inj (typed.symm.trans same)
  exact ⟨offered, region, document, offset, _, argument, cursor, use, declares, by decide,
    by decide⟩

end CodeAction

end RelayWorkbench.Relay
