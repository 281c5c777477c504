import RelayWorkbench.GraphQL.Construction
import RelayWorkbench.GraphQL.Directed
import RelayWorkbench.Relay.Scene

/-! Pagination of a connection. The field becomes a connection that takes `first` and `after`
from variables; a fragment around it becomes refetchable and declares the two arguments. -/

namespace RelayWorkbench.Relay

open RelayWorkbench.GraphQL

structure Pagination where
  /-- Where the field stands. -/
  fieldSpan : Option Span
  /-- Where the fragment around the field stands, if there is one. -/
  fragmentSpan : Option Span
  queryName : Text
  key : Text
  /-- The field to select of the nodes of a connection without selections. -/
  shown : Name

namespace Pagination

def field (pagination : Pagination) (former : Field) : Field :=
  let connected := Directed.addDirective "connection".toList
    [Argument.ofString "key".toList pagination.key] former
  let arguments := Argument.merge connected.head.arguments
    [Argument.ofVariable "first".toList, Argument.ofVariable "after".toList]
  let selections :=
    if connected.selections.isEmpty then
      [Selection.ofField "edges".toList
        [Selection.ofField "node".toList [Selection.ofField pagination.shown []]]]
    else connected.selections
  ⟨{ connected.head with arguments }, selections⟩

def fragment (pagination : Pagination) (former : Fragment) : Fragment :=
  let refetchable := Directed.addDirective "refetchable".toList
    [Argument.ofString "queryName".toList pagination.queryName] former
  Directed.addDirective "argumentDefinitions".toList
    [Argument.declaring "first".toList "Int".toList (some 5),
      Argument.declaring "after".toList "String".toList none] refetchable

def replacer (pagination : Pagination) : Replacer Unit where
  field span former :=
    return if Replacer.isTarget pagination.fieldSpan span then some (pagination.field former)
      else none
  fragment span former :=
    return if Replacer.isTarget pagination.fragmentSpan span then
      some (pagination.fragment former)
      else none

/-- The key of a connection: the name of its fragment, if it is in one, and the names of the
fields that lead to it. -/
def connectionKey (fragment : Option Name) (path : List Name) : Text :=
  Text.joinWith ['_'] (fragment.toList ++ path)

/-- The type of `edges.node` of a connection. -/
def nodeType? (schema : Schema) (connection : Name) : Option Name := do
  let edges ← schema.field? connection "edges".toList
  let node ← schema.field? edges.type.innerName "node".toList
  return node.type.innerName

/-- Whether a type is a connection, which its name and kind tell. -/
def isConnection (definition : TypeDefinition) : Bool :=
  definition.body.isObject && "Connection".toList.isSuffixOf definition.name

/-- The pagination of the connection under the cursor, unless it is paginated. -/
def ofScene? (scene : Scene) : Option (Field × Pagination) := do
  let (field, type) ← scene.cursorField?
  if !isConnection type || Directed.hasDirective "connection".toList field then none
  return (field,
    { fieldSpan := field.head.span
      fragmentSpan := scene.fragment?.bind (·.span)
      queryName := scene.moduleName ++ "PaginationQuery".toList
      key := connectionKey (scene.fragment?.map (·.name)) scene.context.place.path
      shown := scene.shownField (nodeType? scene.schema type.name) })

def offer? (scene : Scene) : Option Offer := do
  let (field, pagination) ← ofScene? scene
  return ⟨"Set up pagination on \"".toList ++ field.head.name.name ++ "\" for fragment".toList,
    pagination.replacer⟩

end Pagination

end RelayWorkbench.Relay
