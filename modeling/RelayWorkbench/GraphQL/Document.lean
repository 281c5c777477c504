import RelayWorkbench.GraphQL.TypeRef

/-! GraphQL documents. A node that was read from a text knows the bytes it stands at; a node
built anew knows none. -/

namespace RelayWorkbench.GraphQL

/-- A value without parts. -/
inductive Scalar where
  | null
  | boolean (value : Bool)
  | int (written : Text)
  | float (written : Text)
  | string (value : Text)
  | enum (name : Name)
  /-- A variable, named without its `$`. -/
  | ofVariable (name : Name)
  deriving DecidableEq, Repr

inductive Value where
  | scalar (span : Option Span) (scalar : Scalar)
  | list (span : Option Span) (items : List Value)
  | object (span : Option Span) (fields : List (Name × Value))

namespace Value

def span : Value → Option Span
  | scalar span _ => span
  | list span _ => span
  | object span _ => span

def ofScalar (leaf : Scalar) : Value := .scalar none leaf

/-- The variable `$name`. -/
def ofVariable (name : Name) : Value := ofScalar (.ofVariable name)

end Value

structure Argument where
  span : Option Span := none
  name : Name
  value : Value

structure Directive where
  span : Option Span := none
  name : Name
  arguments : List Argument := []

/-- A name with the bytes it stands at. -/
structure Ident where
  span : Option Span := none
  name : Name
  deriving DecidableEq, Repr

/-- A field without its selection set. -/
structure FieldHead where
  span : Option Span := none
  label : Option Ident := none
  name : Ident
  arguments : List Argument := []
  directives : List Directive := []

/-- An inline fragment without its selection set. -/
structure InlineHead where
  span : Option Span := none
  onType : Option Name := none
  directives : List Directive := []

structure FragmentSpread where
  span : Option Span := none
  name : Name
  directives : List Directive := []

inductive Selection where
  | field (head : FieldHead) (selections : List Selection)
  | inline (head : InlineHead) (selections : List Selection)
  | spread (spread : FragmentSpread)

namespace Selection

def span : Selection → Option Span
  | .field head _ => head.span
  | .inline head _ => head.span
  | .spread made => made.span

end Selection

structure Field where
  head : FieldHead
  selections : List Selection

inductive OperationKind where
  | query
  | mutation
  | subscription
  deriving DecidableEq, Repr

namespace OperationKind

def all : List OperationKind := [query, mutation, subscription]

def keyword : OperationKind → Text
  | query => "query".toList
  | mutation => "mutation".toList
  | subscription => "subscription".toList

def ofKeyword? (keyword : Text) : Option OperationKind := all.find? (·.keyword == keyword)

/-- Name of the object type that is the root when a schema names none. -/
def defaultRoot : OperationKind → Name
  | query => "Query".toList
  | mutation => "Mutation".toList
  | subscription => "Subscription".toList

end OperationKind

structure VariableDefinition where
  name : Name
  type : TypeRef
  default : Option Value := none
  directives : List Directive := []

structure Operation where
  span : Option Span := none
  kind : OperationKind
  name : Option Name := none
  variableDefinitions : List VariableDefinition := []
  directives : List Directive := []
  selections : List Selection

structure Fragment where
  span : Option Span := none
  name : Name
  onType : Name
  directives : List Directive := []
  selections : List Selection

/-- An argument of a field or directive definition, or a field of an input object. -/
structure InputValue where
  description : Option Text := none
  name : Name
  type : TypeRef
  default : Option Value := none
  directives : List Directive := []

structure FieldDefinition where
  description : Option Text := none
  name : Name
  arguments : List InputValue := []
  type : TypeRef
  directives : List Directive := []

structure EnumValue where
  description : Option Text := none
  name : Name
  directives : List Directive := []

structure DirectiveDefinition where
  description : Option Text := none
  name : Name
  arguments : List InputValue := []
  repeatable : Bool := false
  locations : List Name := []

/-- What a type consists of. -/
inductive TypeBody where
  | scalar
  | object (interfaces : List Name) (fields : List FieldDefinition)
  | interface (interfaces : List Name) (fields : List FieldDefinition)
  | union (members : List Name)
  | enum (values : List EnumValue)
  | input (fields : List InputValue)

/-- A named type, as a definition or an extension states it. -/
structure TypeDefinition where
  name : Name
  directives : List Directive := []
  body : TypeBody

/-- The root types of a schema. -/
structure SchemaDefinition where
  directives : List Directive := []
  roots : List (OperationKind × Name) := []

inductive Definition where
  | operation (operation : Operation)
  | fragment (fragment : Fragment)
  | directive (definition : DirectiveDefinition)
  | schema (description : Option Text) (definition : SchemaDefinition)
  | schemaExtension (extension : SchemaDefinition)
  | type (description : Option Text) (definition : TypeDefinition)
  | typeExtension (extension : TypeDefinition)

structure Document where
  definitions : List Definition

namespace Definition

def span : Definition → Option Span
  | .operation stated => stated.span
  | .fragment stated => stated.span
  | _ => none

end Definition

end RelayWorkbench.GraphQL
