import RelayWorkbench.GraphQL.Directed

/-! The nodes of a document that can be edited, and the paths that lead to them. A path names
a definition by its index and then a selection by its index in each selection set. -/

namespace RelayWorkbench.GraphQL

inductive Node where
  | operation (operation : Operation)
  | fragment (fragment : Fragment)
  | field (field : Field)
  | inline (head : InlineHead) (selections : List Selection)
  | spread (spread : FragmentSpread)

namespace Node

def ofSelection : Selection → Node
  | .field head selections => .field ⟨head, selections⟩
  | .inline head selections => .inline head selections
  | .spread made => .spread made

def toSelection? : Node → Option Selection
  | .field made => some (.field made.head made.selections)
  | .inline head selections => some (.inline head selections)
  | .spread made => some (.spread made)
  | _ => none

def ofDefinition? : Definition → Option Node
  | .operation stated => some (.operation stated)
  | .fragment stated => some (.fragment stated)
  | _ => none

def toDefinition? : Node → Option Definition
  | .operation stated => some (.operation stated)
  | .fragment stated => some (.fragment stated)
  | _ => none

/-- The selection set of a node; a spread has none. -/
def selections? : Node → Option (List Selection)
  | .operation stated => some stated.selections
  | .fragment stated => some stated.selections
  | .field made => some made.selections
  | .inline _ selections => some selections
  | .spread _ => none

/-- The node with another selection set; a spread stays as it is. -/
def withSelections (selections : List Selection) : Node → Node
  | .operation stated => .operation { stated with selections }
  | .fragment stated => .fragment { stated with selections }
  | .field made => .field { made with selections }
  | .inline head _ => .inline head selections
  | .spread made => .spread made

instance : Directed Node where
  directives
    | .operation stated => stated.directives
    | .fragment stated => stated.directives
    | .field made => made.head.directives
    | .inline head _ => head.directives
    | .spread made => made.directives
  withDirectives node directives :=
    match node with
    | .operation stated => .operation { stated with directives }
    | .fragment stated => .fragment { stated with directives }
    | .field made => .field { made with head := { made.head with directives } }
    | .inline head selections => .inline { head with directives } selections
    | .spread made => .spread { made with directives }
  directives_withDirectives node _ := by cases node <;> rfl
  withDirectives_directives node := by cases node <;> rfl
  withDirectives_withDirectives node _ _ := by cases node <;> rfl

/-- The node a path leads to below this one. -/
def descend? (node : Node) : List Nat → Option Node
  | [] => some node
  | index :: path => do
    let selection ← (← node.selections?)[index]?
    (ofSelection selection).descend? path

/-- This node with the node at a path below it replaced. -/
def replaceBelow? (node replacement : Node) : List Nat → Option Node
  | [] => some replacement
  | index :: path => do
    let selections ← node.selections?
    let selection ← selections[index]?
    let replaced ← ((ofSelection selection).replaceBelow? replacement path).bind toSelection?
    return node.withSelections (selections.set index replaced)

end Node

namespace Document

def nodeAt? (document : Document) : List Nat → Option Node
  | [] => none
  | index :: path => do
    let node ← (← document.definitions[index]?) |> Node.ofDefinition?
    node.descend? path

def replaceAt? (document : Document) (replacement : Node) : List Nat → Option Document
  | [] => none
  | index :: path => do
    let node ← (← document.definitions[index]?) |> Node.ofDefinition?
    let replaced ← (node.replaceBelow? replacement path).bind Node.toDefinition?
    return ⟨document.definitions.set index replaced⟩

end Document

end RelayWorkbench.GraphQL
