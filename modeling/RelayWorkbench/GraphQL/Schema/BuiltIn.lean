import RelayWorkbench.GraphQL.Schema

/-! The types and directives that every schema has: introspection, the five scalars and the
directives of the language. -/

namespace RelayWorkbench.GraphQL.Schema

/-- The nullable type of a name. -/
def plain (name : String) : TypeRef := .named name.toList false

def required (name : String) : TypeRef := .named name.toList true

/-- A nullable list of required items. -/
def listOf (name : String) : TypeRef := .list (required name) false

/-- A required list of required items. -/
def requiredListOf (name : String) : TypeRef := .list (required name) true

def member (name : String) (type : TypeRef) (arguments : List InputValue := []) :
    FieldDefinition := { name := name.toList, type, arguments }

/-- The argument that asks for deprecated members too. -/
def includeDeprecated : List InputValue :=
  [{ name := "includeDeprecated".toList, type := plain "Boolean"
     default := some (.ofScalar (.boolean false)) }]

def builtInType (name : String) (body : TypeBody) : SchemaType :=
  { definition := { name := name.toList, body }, builtIn := true }

def builtInEnum (name : String) (values : List String) : SchemaType :=
  builtInType name (.enum (values.map fun value => { name := value.toList }))

def introspectionTypes : List SchemaType :=
  [builtInType "__Schema" (.object []
    [member "description" (plain "String"),
     member "types" (requiredListOf "__Type"),
     member "queryType" (required "__Type"),
     member "mutationType" (plain "__Type"),
     member "subscriptionType" (plain "__Type"),
     member "directives" (requiredListOf "__Directive")]),
   builtInType "__Type" (.object []
    [member "kind" (required "__TypeKind"),
     member "name" (plain "String"),
     member "description" (plain "String"),
     member "fields" (listOf "__Field") includeDeprecated,
     member "interfaces" (listOf "__Type"),
     member "possibleTypes" (listOf "__Type"),
     member "enumValues" (listOf "__EnumValue") includeDeprecated,
     member "inputFields" (listOf "__InputValue") includeDeprecated,
     member "ofType" (plain "__Type"),
     member "specifiedByURL" (plain "String")]),
   builtInEnum "__TypeKind"
    ["SCALAR", "OBJECT", "INTERFACE", "UNION", "ENUM", "INPUT_OBJECT", "LIST", "NON_NULL"],
   builtInType "__Field" (.object []
    [member "name" (required "String"),
     member "description" (plain "String"),
     member "args" (requiredListOf "__InputValue") includeDeprecated,
     member "type" (required "__Type"),
     member "isDeprecated" (required "Boolean"),
     member "deprecationReason" (plain "String")]),
   builtInType "__InputValue" (.object []
    [member "name" (required "String"),
     member "description" (plain "String"),
     member "type" (required "__Type"),
     member "defaultValue" (plain "String"),
     member "isDeprecated" (required "Boolean"),
     member "deprecationReason" (plain "String")]),
   builtInType "__EnumValue" (.object []
    [member "name" (required "String"),
     member "description" (plain "String"),
     member "isDeprecated" (required "Boolean"),
     member "deprecationReason" (plain "String")]),
   builtInType "__Directive" (.object []
    [member "name" (required "String"),
     member "description" (plain "String"),
     member "locations" (requiredListOf "__DirectiveLocation"),
     member "args" (requiredListOf "__InputValue") includeDeprecated,
     member "isRepeatable" (required "Boolean")]),
   builtInEnum "__DirectiveLocation"
    ["QUERY", "MUTATION", "SUBSCRIPTION", "FIELD", "FRAGMENT_DEFINITION", "FRAGMENT_SPREAD",
     "INLINE_FRAGMENT", "VARIABLE_DEFINITION", "SCHEMA", "SCALAR", "OBJECT", "FIELD_DEFINITION",
     "ARGUMENT_DEFINITION", "INTERFACE", "UNION", "ENUM", "ENUM_VALUE", "INPUT_OBJECT",
     "INPUT_FIELD_DEFINITION"]]

def builtInScalars : List SchemaType :=
  ["Int", "Float", "String", "Boolean", "ID"].map (builtInType · .scalar)

/-- The types that are there before any definition is read. -/
def builtInTypes : List SchemaType := introspectionTypes ++ builtInScalars

def directive (name : String) (arguments : List (String × TypeRef)) (locations : List String) :
    DirectiveDefinition where
  name := name.toList
  arguments := arguments.map fun (name, type) => { name := name.toList, type }
  locations := locations.map String.toList

/-- The directives that are there before any definition is read. -/
def builtInDirectives : List DirectiveDefinition :=
  [directive "skip" [("if", required "Boolean")] ["FIELD", "FRAGMENT_SPREAD", "INLINE_FRAGMENT"],
   directive "include" [("if", required "Boolean")]
    ["FIELD", "FRAGMENT_SPREAD", "INLINE_FRAGMENT"],
   directive "deprecated" [("reason", plain "String")]
    ["FIELD_DEFINITION", "ARGUMENT_DEFINITION", "INPUT_FIELD_DEFINITION", "ENUM_VALUE"],
   directive "specifiedBy" [("url", required "String")] ["SCALAR"]]

end RelayWorkbench.GraphQL.Schema
