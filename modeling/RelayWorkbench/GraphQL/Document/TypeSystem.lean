import RelayWorkbench.GraphQL.Document.Values

/-! Reading the definitions and extensions of a type system. -/

namespace RelayWorkbench.GraphQL.Reading

def description : Reading (Option Text) := do
  match ← peek with
  | some (.string value) =>
    advance
    return some value
  | _ => return none

/-- Directives of a type system are constant. -/
def constantDirectives : Reading (List Directive) := directives true nestingLimit

def startsMember (lexeme : Lexeme) : Bool := isNameLexeme lexeme || isStringLexeme lexeme

def members {α : Type} (member : Reading (Option α)) : Reading (List α) := do
  expectMark '{'
  let read ← someOf startsMember member
  expectMark '}'
  return read

def inputValue : Reading (Option InputValue) := do
  let description ← description
  let name ← name?
  if ← acceptMark ':' then
    if (← peek).any startsType then
      let type ← typeRef nestingLimit
      let default ← defaultValue
      let directives ← constantDirectives
      return name.bind fun name => type.map fun type =>
        { description, name, type, default, directives }
    else
      fault
      return none
  else
    fault
    return none

/-- Argument definitions in parentheses, if any come next. -/
def argumentDefinitions : Reading (List InputValue) := do
  if ← acceptMark '(' then
    let read ← someOf startsMember inputValue
    expectMark ')'
    return read
  else return []

def fieldDefinition : Reading (Option FieldDefinition) := do
  let description ← description
  let name ← name?
  let arguments ← argumentDefinitions
  if ← acceptMark ':' then
    if (← peek).any startsType then
      let type ← typeRef nestingLimit
      let directives ← constantDirectives
      return name.bind fun name => type.map fun type =>
        { description, name, arguments, type, directives }
    else
      fault
      return none
  else
    fault
    return none

/-- Names that are values of their own and no enum values. -/
def reservedValues : List Name := ["true".toList, "false".toList, "null".toList]

def enumValue : Reading (Option EnumValue) := do
  let description ← description
  let name ← name?
  if name.any reservedValues.contains then fault
  let directives ← constantDirectives
  return name.map fun name => { description, name, directives }

/-- The interfaces after `implements`, if it comes next. -/
def interfaces : Reading (List Name) := do
  if ← acceptWord "implements".toList then separatedNames '&' else return []

/-- Members in braces, if any come next. -/
def optionalMembers {α : Type} (member : Reading (Option α)) : Reading (List α) := do
  if ← atMark '{' then members member else return []

inductive TypeKeyword where
  | scalar
  | object
  | interface
  | union
  | enum
  | input
  deriving DecidableEq, Repr

namespace TypeKeyword

def ofWord? (word : Text) : Option TypeKeyword :=
  [("scalar".toList, scalar), ("type".toList, object), ("interface".toList, interface),
    ("union".toList, union), ("enum".toList, enum), ("input".toList, input)].lookup word

end TypeKeyword

/-- The members of a union after `=`, if it comes next. -/
def unionMembers : Reading (List Name) := do
  if ← acceptMark '=' then separatedNames '|' else return []

/-- A type after its keyword. -/
def typeDefinition (keyword : TypeKeyword) : Reading (Option TypeDefinition) := do
  let name ← name?
  let interfaces ←
    match keyword with
    | .object | .interface => interfaces
    | _ => pure []
  let directives ← constantDirectives
  let body : TypeBody ←
    match keyword with
    | .scalar => pure .scalar
    | .object => pure (.object interfaces (← optionalMembers fieldDefinition))
    | .interface => pure (.interface interfaces (← optionalMembers fieldDefinition))
    | .union => pure (.union (← unionMembers))
    | .enum => pure (.enum (← optionalMembers enumValue))
    | .input => pure (.input (← optionalMembers inputValue))
  return name.map fun name => { name, directives, body }

def rootType : Reading (Option (OperationKind × Name)) := do
  let kind ← do
    match ← peek with
    | some (.name text) =>
      let kind := OperationKind.ofKeyword? text
      if kind.isNone then fault
      advance
      pure kind
    | _ =>
      fault
      pure none
  if ← acceptMark ':' then
    let name ← name?
    return kind.bind fun kind => name.map (kind, ·)
  else
    fault
    return none

def rootTypes : Reading (List (OperationKind × Name)) := do
  expectMark '{'
  let roots ← someOf isNameLexeme rootType
  expectMark '}'
  return roots

/-- Where directives may stand. -/
def directiveLocations : List Name :=
  ["QUERY", "MUTATION", "SUBSCRIPTION", "FIELD", "FRAGMENT_DEFINITION", "FRAGMENT_SPREAD",
    "INLINE_FRAGMENT", "VARIABLE_DEFINITION", "SCHEMA", "SCALAR", "OBJECT", "FIELD_DEFINITION",
    "ARGUMENT_DEFINITION", "INTERFACE", "UNION", "ENUM", "ENUM_VALUE", "INPUT_OBJECT",
    "INPUT_FIELD_DEFINITION"].map String.toList

def directiveLocation : Reading (Option Name) := do
  match ← peek with
  | some (.name text) =>
    if directiveLocations.contains text then
      advance
      return some text
    else
      fault
      return none
  | _ =>
    fault
    return none

def directiveDefinition (description : Option Text) : Reading (Option Definition) := do
  advance
  expectMark '@'
  let name ← name?
  let arguments ← argumentDefinitions
  let repeatable ← acceptWord "repeatable".toList
  if !(← acceptWord "on".toList) then fault
  let _ ← acceptMark '|'
  let first ← directiveLocation
  let more ← manyOf (· == .mark '|') do
    advance
    directiveLocation
  return name.map fun name =>
    .directive { description, name, arguments, repeatable, locations := first.toList ++ more }

def schemaDefinition (description : Option Text) : Reading (Option Definition) := do
  advance
  let directives ← constantDirectives
  let roots ← rootTypes
  return some (.schema description { directives, roots })

/-- Whether an extension adds anything. -/
def extendsType (extension : TypeDefinition) : Bool :=
  !extension.directives.isEmpty ||
    match extension.body with
    | .scalar => false
    | .object interfaces fields | .interface interfaces fields =>
      !interfaces.isEmpty || !fields.isEmpty
    | .union members => !members.isEmpty
    | .enum values => !values.isEmpty
    | .input fields => !fields.isEmpty

def schemaExtension : Reading (Option Definition) := do
  advance
  advance
  let directives ← constantDirectives
  let roots ← if ← atMark '{' then rootTypes else pure []
  if directives.isEmpty && roots.isEmpty then fault
  return some (.schemaExtension { directives, roots })

def typeExtension (keyword : TypeKeyword) : Reading (Option Definition) := do
  advance
  advance
  let extension ← typeDefinition keyword
  if !(extension.any extendsType) then fault
  return extension.map .typeExtension

/-- An extension; it begins with `extend`. -/
def extension : Reading (Option Definition) := do
  match ← second with
  | some (.name word) =>
    if word = "schema".toList then schemaExtension
    else
      match TypeKeyword.ofWord? word with
      | some keyword => typeExtension keyword
      | none =>
        fault
        advance
        return none
  | _ =>
    fault
    advance
    return none

end RelayWorkbench.GraphQL.Reading
