import RelayWorkbench.GraphQL.Document

/-! Documents with their spans moved or removed. Two documents that are equal after
`Document.erase` say the same and differ at most in where it was written. -/

namespace RelayWorkbench.GraphQL

/-- A change of spans, applied to every node of a document. -/
abbrev Respan := Option Span → Option Span

mutual

def Value.respan (move : Respan) : Value → Value
  | .scalar span leaf => .scalar (move span) leaf
  | .list span items => .list (move span) (Value.respanItems move items)
  | .object span fields => .object (move span) (Value.respanFields move fields)

def Value.respanItems (move : Respan) : List Value → List Value
  | [] => []
  | item :: rest => item.respan move :: Value.respanItems move rest

def Value.respanFields (move : Respan) : List (Name × Value) → List (Name × Value)
  | [] => []
  | (name, value) :: rest => (name, value.respan move) :: Value.respanFields move rest

end

def Argument.respan (move : Respan) (argument : Argument) : Argument :=
  { argument with span := move argument.span, value := argument.value.respan move }

def Directive.respan (move : Respan) (directive : Directive) : Directive :=
  { directive with
    span := move directive.span
    arguments := directive.arguments.map (·.respan move) }

def Ident.respan (move : Respan) (ident : Ident) : Ident := { ident with span := move ident.span }

def FieldHead.respan (move : Respan) (head : FieldHead) : FieldHead where
  span := move head.span
  label := head.label.map (·.respan move)
  name := head.name.respan move
  arguments := head.arguments.map (·.respan move)
  directives := head.directives.map (·.respan move)

def InlineHead.respan (move : Respan) (head : InlineHead) : InlineHead :=
  { head with span := move head.span, directives := head.directives.map (·.respan move) }

def FragmentSpread.respan (move : Respan) (spread : FragmentSpread) : FragmentSpread :=
  { spread with span := move spread.span, directives := spread.directives.map (·.respan move) }

mutual

def Selection.respan (move : Respan) : Selection → Selection
  | .field head selections => .field (head.respan move) (Selection.respanAll move selections)
  | .inline head selections => .inline (head.respan move) (Selection.respanAll move selections)
  | .spread made => .spread (made.respan move)

def Selection.respanAll (move : Respan) : List Selection → List Selection
  | [] => []
  | selection :: rest => selection.respan move :: Selection.respanAll move rest

end

def VariableDefinition.respan (move : Respan) (declared : VariableDefinition) :
    VariableDefinition :=
  { declared with
    default := declared.default.map (·.respan move)
    directives := declared.directives.map (·.respan move) }

def InputValue.respan (move : Respan) (input : InputValue) : InputValue :=
  { input with
    default := input.default.map (·.respan move)
    directives := input.directives.map (·.respan move) }

def FieldDefinition.respan (move : Respan) (field : FieldDefinition) : FieldDefinition :=
  { field with
    arguments := field.arguments.map (·.respan move)
    directives := field.directives.map (·.respan move) }

def EnumValue.respan (move : Respan) (value : EnumValue) : EnumValue :=
  { value with directives := value.directives.map (·.respan move) }

def TypeBody.respan (move : Respan) : TypeBody → TypeBody
  | .scalar => .scalar
  | .object interfaces fields => .object interfaces (fields.map (·.respan move))
  | .interface interfaces fields => .interface interfaces (fields.map (·.respan move))
  | .union members => .union members
  | .enum values => .enum (values.map (·.respan move))
  | .input fields => .input (fields.map (·.respan move))

def TypeDefinition.respan (move : Respan) (definition : TypeDefinition) : TypeDefinition :=
  { definition with
    directives := definition.directives.map (·.respan move)
    body := definition.body.respan move }

def SchemaDefinition.respan (move : Respan) (definition : SchemaDefinition) : SchemaDefinition :=
  { definition with directives := definition.directives.map (·.respan move) }

def Operation.respan (move : Respan) (operation : Operation) : Operation :=
  { operation with
    span := move operation.span
    variableDefinitions := operation.variableDefinitions.map (·.respan move)
    directives := operation.directives.map (·.respan move)
    selections := Selection.respanAll move operation.selections }

def Fragment.respan (move : Respan) (fragment : Fragment) : Fragment :=
  { fragment with
    span := move fragment.span
    directives := fragment.directives.map (·.respan move)
    selections := Selection.respanAll move fragment.selections }

def Definition.respan (move : Respan) : Definition → Definition
  | .operation stated => .operation (stated.respan move)
  | .fragment stated => .fragment (stated.respan move)
  | .directive definition =>
    .directive { definition with arguments := definition.arguments.map (·.respan move) }
  | .schema description definition => .schema description (definition.respan move)
  | .schemaExtension extension => .schemaExtension (extension.respan move)
  | .type description definition => .type description (definition.respan move)
  | .typeExtension extension => .typeExtension (extension.respan move)

namespace Document

def respan (move : Respan) (document : Document) : Document :=
  ⟨document.definitions.map (·.respan move)⟩

/-- The document without any span. -/
def erase (document : Document) : Document := document.respan fun _ => none

end Document

end RelayWorkbench.GraphQL
