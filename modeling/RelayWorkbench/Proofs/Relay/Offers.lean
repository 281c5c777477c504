import RelayWorkbench.Proofs.GraphQL.Owners
import RelayWorkbench.Relay.Refactoring

/-! What is offered in a scene. Each refactoring is offered where the node that it edits is the one
under the cursor or the first of the document, and where its result is not there yet. -/

namespace RelayWorkbench.Relay

open RelayWorkbench.GraphQL

abbrev operationTitle (name : Name) : Text :=
  "Add \"$".toList ++ name ++ "\" to operation variables".toList

abbrev fragmentTitle (name : Name) : Text :=
  "Add \"$".toList ++ name ++ "\" to @argumentDefinitions".toList

variable {scene : Scene}

namespace Scene

theorem operation?_iff {stated : Operation} :
    scene.operation? = some stated ↔
      scene.document.nodeAt? [scene.context.definition] = some (.operation stated) := by
  rw [Document.nodeAt?_singleton, operation?, definition?]
  cases scene.document.definitions[scene.context.definition]? with
  | none => simp
  | some definition => cases definition <;> simp [Node.ofDefinition?]

theorem definition?_of_operation? {stated : Operation} (here : scene.operation? = some stated) :
    scene.definition? = some (.operation stated) := by
  unfold operation? at here
  split at here
  · next same =>
    cases here
    exact same
  · cases here

theorem fragment?_iff {stated : Fragment} :
    scene.fragment? = some stated ↔
      scene.document.nodeAt? [scene.context.definition] = some (.fragment stated) := by
  rw [Document.nodeAt?_singleton, fragment?, definition?]
  cases scene.document.definitions[scene.context.definition]? with
  | none => simp
  | some definition => cases definition <;> simp [Node.ofDefinition?]

theorem firstFragment?_iff {stated : Fragment} :
    scene.firstFragment? = some stated ↔
      scene.document.nodeAt? [0] = some (.fragment stated) := by
  rw [Document.nodeAt?_singleton, firstFragment?]
  cases scene.document.definitions with
  | nil => simp
  | cons definition rest => cases definition <;> simp [Node.ofDefinition?]

theorem getElem?_of_firstFragment? {stated : Fragment}
    (first : scene.firstFragment? = some stated) :
    scene.document.definitions[0]? = some (.fragment stated) := by
  unfold firstFragment? at first
  split at first
  · next same =>
    cases first
    simp [same]
  · cases first

theorem cursorField?_iff {made : Field} {type : TypeDefinition} :
    scene.cursorField? = some (made, type) ↔
      scene.context.place.field = some made ∧
        scene.context.place.fieldType.bind scene.schema.type? = some type := by
  simp [cursorField?, Option.bind_eq_some_iff]

theorem cursorVariable?_iff {name : Name} :
    scene.cursorVariable? = some name ↔ scene.context.place.token = .ofVariable name := by
  unfold cursorVariable?
  split <;> simp_all

end Scene

namespace Refactoring

variable {offer : Offer}

/-- What is offered of a node unless it is done already. -/
private theorem unless_eq_some {α β : Type} {found : Option α} {done : α → Bool} {make : α → β}
    {made : β}
    (offered : (do
      let node ← found
      if done node then none
      return make node) = some made) :
    ∃ node, found = some node ∧ done node = false ∧ made = make node := by
  simp only [Option.bind_eq_bind, Option.bind_eq_some_iff] at offered
  obtain ⟨node, same, offered⟩ := offered
  split at offered
  · cases offered
  · next undone =>
    cases offered
    exact ⟨node, same, Bool.eq_false_iff.mpr undone, rfl⟩

theorem declareVariable?_eq_some (offered : declareVariable? scene = some offer) :
    ∃ name stated type declared, scene.cursorVariable? = some name ∧
      scene.operation? = some stated ∧ stated.declares name = false ∧
      scene.context.place.inputType = some type ∧
      VariableDefinition.ofWritten? name type.print = some declared ∧
      offer = ⟨operationTitle name, Replacer.onOperation stated.span fun former =>
        { former with variableDefinitions := former.variableDefinitions ++ [declared] }⟩ := by
  simp only [declareVariable?, Option.bind_eq_bind, Option.bind_eq_some_iff] at offered
  obtain ⟨name, cursor, stated, here, offered⟩ := offered
  split at offered
  · cases offered
  · next undeclared =>
    simp only [Option.bind_eq_some_iff] at offered
    obtain ⟨type, expected, declared, written, offered⟩ := offered
    cases offered
    exact ⟨name, stated, type, declared, cursor, here, Bool.eq_false_iff.mpr undeclared, expected,
      written, rfl⟩

theorem markTestOperation?_eq_some (offered : markTestOperation? scene = some offer) :
    ∃ stated, scene.operation? = some stated ∧
      Directed.hasDirective "relay_test_operation".toList stated = false ∧
      offer = ⟨"Make operation @relay_test_operation".toList, Replacer.onOperation stated.span
        (Directed.addDirective "relay_test_operation".toList [])⟩ :=
  unless_eq_some offered

theorem expandUnion?_eq_some (offered : expandUnion? scene = some offer) :
    ∃ made type members, scene.cursorField? = some (made, type) ∧ type.body = .union members ∧
      made.selections = [] ∧
      offer = ⟨"Expand union on \"".toList ++ made.head.name.name ++ ['"'],
        Replacer.onField made.head.span fun former =>
          { former with selections := unionSelections scene members }⟩ := by
  simp only [expandUnion?, Option.bind_eq_bind, Option.bind_eq_some_iff] at offered
  obtain ⟨⟨made, type⟩, here, offered⟩ := offered
  dsimp only at offered
  split at offered
  · next members body =>
    split at offered
    · cases offered
    · next bare =>
      cases offered
      exact ⟨made, type, members, here, body, by simpa using bare, rfl⟩
  · cases offered

theorem declareArgument?_eq_some (offered : declareArgument? scene = some offer) :
    ∃ name stated type, scene.cursorVariable? = some name ∧ scene.firstFragment? = some stated ∧
      Directed.hasDirectiveWith "argumentDefinitions".toList (Argument.anyNamed name) stated =
        false ∧
      scene.context.place.argumentType = some type ∧
      offer = offerDirective stated (fragmentTitle name) "argumentDefinitions".toList
        [Argument.declaring name type.print none] := by
  simp only [declareArgument?, Option.bind_eq_bind, Option.bind_eq_some_iff] at offered
  obtain ⟨stated, first, name, cursor, offered⟩ := offered
  split at offered
  · cases offered
  · next undeclared =>
    simp only [Option.bind_eq_some_iff] at offered
    obtain ⟨type, expected, offered⟩ := offered
    cases offered
    exact ⟨name, stated, type, cursor, first, Bool.eq_false_iff.mpr undeclared, expected, rfl⟩

theorem makeInline?_eq_some (offered : makeInline? scene = some offer) :
    ∃ stated, scene.firstFragment? = some stated ∧
      Directed.hasDirective "inline".toList stated = false ∧
      offer = offerDirective stated "Make fragment @inline".toList "inline".toList [] :=
  unless_eq_some offered

theorem makeRefetchable?_eq_some (offered : makeRefetchable? scene = some offer) :
    ∃ stated, scene.firstFragment? = some stated ∧
      Directed.hasDirective "refetchable".toList stated = false ∧
      offer = offerDirective stated "Make fragment @refetchable".toList "refetchable".toList
        [Argument.ofString "queryName".toList (scene.moduleName ++ "RefetchQuery".toList)] :=
  unless_eq_some offered

theorem makePlural?_eq_some (offered : makePlural? scene = some offer) :
    ∃ stated, scene.firstFragment? = some stated ∧
      Directed.hasDirectiveWith "relay".toList (Argument.anyNamed "plural".toList) stated = false ∧
      offer = offerDirective stated "Make fragment plural".toList "relay".toList
        [Argument.ofBoolean "plural".toList true] :=
  unless_eq_some offered

end Refactoring

end RelayWorkbench.Relay
