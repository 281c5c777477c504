import RelayWorkbench.GraphQL.Argument

/-! Nodes that carry directives. -/

namespace RelayWorkbench.GraphQL

/-- A node with a list of directives that can be read and replaced. -/
class Directed (Node : Type) where
  directives : Node → List Directive
  withDirectives : Node → List Directive → Node
  directives_withDirectives : ∀ node list, directives (withDirectives node list) = list := by
    intros; rfl
  withDirectives_directives : ∀ node, withDirectives node (directives node) = node := by
    intros; rfl
  withDirectives_withDirectives : ∀ node first second,
    withDirectives (withDirectives node first) second = withDirectives node second := by
    intros; rfl

instance : Directed Operation where
  directives := (·.directives)
  withDirectives node directives := { node with directives }

instance : Directed Fragment where
  directives := (·.directives)
  withDirectives node directives := { node with directives }

instance : Directed FieldHead where
  directives := (·.directives)
  withDirectives node directives := { node with directives }

instance : Directed Field where
  directives := (·.head.directives)
  withDirectives node directives := { node with head := { node.head with directives } }

instance : Directed InlineHead where
  directives := (·.directives)
  withDirectives node directives := { node with directives }

instance : Directed FragmentSpread where
  directives := (·.directives)
  withDirectives node directives := { node with directives }

namespace Directive

/-- Directives after `@name(arguments)` is added. The first directive of that name moves to
the end and has the arguments merged into its own; without one a new directive is appended. -/
def add (name : Name) (arguments : List Argument) (directives : List Directive) :
    List Directive :=
  match directives.find? (·.name == name) with
  | some existing =>
    directives.eraseP (·.name == name) ++
      [{ existing with arguments := Argument.merge existing.arguments arguments }]
  | none => directives ++ [{ name, arguments }]

end Directive

namespace Directed

variable {Node : Type} [Directed Node]

/-- Whether a node carries a directive of this name whose arguments satisfy a condition. -/
def hasDirectiveWith (name : Name) (condition : List Argument → Bool) (node : Node) : Bool :=
  (directives node).any fun directive => directive.name == name && condition directive.arguments

def hasDirective (name : Name) (node : Node) : Bool := hasDirectiveWith name (fun _ => true) node

def addDirective (name : Name) (arguments : List Argument) (node : Node) : Node :=
  withDirectives node (Directive.add name arguments (directives node))

end Directed

end RelayWorkbench.GraphQL
