import RelayWorkbench.GraphQL.Document

/-! Schemas: named types and directives in order of definition, and the root types. -/

namespace RelayWorkbench.GraphQL

/-- A type of a schema; the built-in ones are part of every schema. -/
structure SchemaType where
  definition : TypeDefinition
  builtIn : Bool := false

/-- A type system. Names of types are distinct, and so are names of directives. -/
structure Schema where
  types : List SchemaType
  directives : List DirectiveDefinition
  roots : List (OperationKind × Name)

namespace TypeBody

def fields : TypeBody → List FieldDefinition
  | object _ fields => fields
  | interface _ fields => fields
  | _ => []

def isObject : TypeBody → Bool
  | object .. => true
  | _ => false

end TypeBody

namespace TypeDefinition

/-- The field to show when nothing else is known of an object or interface: `id` if it has
one, otherwise its first field. -/
def displayField? (definition : TypeDefinition) : Option Name :=
  let names := definition.body.fields.map (·.name)
  if names.contains "id".toList then some "id".toList else names.head?

end TypeDefinition

namespace Schema

def type? (schema : Schema) (name : Name) : Option TypeDefinition :=
  (schema.types.find? (·.definition.name == name)).map (·.definition)

def isObject (schema : Schema) (name : Name) : Bool := (schema.type? name).any (·.body.isObject)

def field? (schema : Schema) (typeName fieldName : Name) : Option FieldDefinition := do
  (← schema.type? typeName).body.fields.find? (·.name == fieldName)

def inputField? (schema : Schema) (typeName fieldName : Name) : Option InputValue := do
  match (← schema.type? typeName).body with
  | .input fields => fields.find? (·.name == fieldName)
  | _ => none

def directive? (schema : Schema) (name : Name) : Option DirectiveDefinition :=
  schema.directives.find? (·.name == name)

/-- Name of the root type of an operation kind, whether or not there is such a type. -/
def root? (schema : Schema) (kind : OperationKind) : Option Name := schema.roots.lookup kind

def argumentType? (arguments : List InputValue) (name : Name) : Option TypeRef :=
  (arguments.find? (·.name == name)).map (·.type)

end Schema

end RelayWorkbench.GraphQL
