import RelayWorkbench.GraphQL.Construction
import RelayWorkbench.GraphQL.Directed
import RelayWorkbench.Relay.Scene

/-! Refactorings of the operation, the field or the fragment a cursor is concerned with. Each
one is offered only while its result is not there yet. -/

namespace RelayWorkbench.Relay.Refactoring

open RelayWorkbench.GraphQL

/-- Declare the variable under the cursor in its operation, with the type expected there. -/
def declareVariable? (scene : Scene) : Option Offer := do
  let name ← scene.cursorVariable?
  let operation ← scene.operation?
  if operation.declares name then none
  let declared ← VariableDefinition.ofWritten? name (← scene.context.place.inputType).print
  return ⟨"Add \"$".toList ++ name ++ "\" to operation variables".toList,
    Replacer.onOperation operation.span fun former =>
      { former with variableDefinitions := former.variableDefinitions ++ [declared] }⟩

/-- Mark the operation under the cursor as one for tests. -/
def markTestOperation? (scene : Scene) : Option Offer := do
  let operation ← scene.operation?
  let directive := "relay_test_operation".toList
  if Directed.hasDirective directive operation then none
  return ⟨"Make operation @relay_test_operation".toList,
    Replacer.onOperation operation.span (Directed.addDirective directive [])⟩

/-- The selections that expand a union: the type name, and of each member the field to show. -/
def unionSelections (scene : Scene) (members : List Name) : List Selection :=
  Selection.ofField "__typename".toList [] ::
    members.map fun member =>
      Selection.onType member [Selection.ofField (scene.shownField (some member)) []]

/-- Select every member of the union under the cursor, of which nothing is selected. -/
def expandUnion? (scene : Scene) : Option Offer := do
  let (field, type) ← scene.cursorField?
  match type.body with
  | .union members =>
    if !field.selections.isEmpty then none
    return ⟨"Expand union on \"".toList ++ field.head.name.name ++ ['"'],
      Replacer.onField field.head.span fun former =>
        { former with selections := unionSelections scene members }⟩
  | _ => none

/-- The offer to add a directive to a fragment. -/
def offerDirective (fragment : Fragment) (title : Text) (directive : Name)
    (arguments : List Argument) : Offer :=
  ⟨title, Replacer.onFragment fragment.span (Directed.addDirective directive arguments)⟩

/-- Declare the variable under the cursor as an argument of the first fragment. -/
def declareArgument? (scene : Scene) : Option Offer := do
  let fragment ← scene.firstFragment?
  let name ← scene.cursorVariable?
  let directive := "argumentDefinitions".toList
  if Directed.hasDirectiveWith directive (Argument.anyNamed name) fragment then none
  let type ← scene.context.place.argumentType
  return offerDirective fragment ("Add \"$".toList ++ name ++ "\" to @argumentDefinitions".toList)
    directive [Argument.declaring name type.print none]

/-- Let the first fragment be read inline. -/
def makeInline? (scene : Scene) : Option Offer := do
  let fragment ← scene.firstFragment?
  if Directed.hasDirective "inline".toList fragment then none
  return offerDirective fragment "Make fragment @inline".toList "inline".toList []

/-- Let the first fragment be fetched again by a query of its own. -/
def makeRefetchable? (scene : Scene) : Option Offer := do
  let fragment ← scene.firstFragment?
  if Directed.hasDirective "refetchable".toList fragment then none
  return offerDirective fragment "Make fragment @refetchable".toList "refetchable".toList
    [Argument.ofString "queryName".toList (scene.moduleName ++ "RefetchQuery".toList)]

/-- Let the first fragment be on a list. -/
def makePlural? (scene : Scene) : Option Offer := do
  let fragment ← scene.firstFragment?
  let plural := "plural".toList
  if Directed.hasDirectiveWith "relay".toList (Argument.anyNamed plural) fragment then none
  return offerDirective fragment "Make fragment plural".toList "relay".toList
    [Argument.ofBoolean plural true]

end RelayWorkbench.Relay.Refactoring
