import RelayWorkbench.GraphQL.Document.Reading

/-! Reading types, values, arguments and directives. Nesting is bounded: `budget` says how
many levels may still be entered. -/

namespace RelayWorkbench.GraphQL.Reading

/-- How deep selection sets, list items, object fields and list types may nest. -/
def nestingLimit : Nat := 500

/-- What is read where nothing may nest any more. -/
def tooDeep {α : Type} : Reading (Option α) := do
  giveUp
  return none

/-- A type whose list items are read by `item`. -/
def typeWith (item : Reading (Option TypeRef)) : Reading (Option TypeRef) := do
  let read ← do
    match ← peek with
    | some (.name text) =>
      advance
      pure (some (TypeRef.named text false))
    | some (.mark '[') =>
      advance
      let inner ← item
      expectMark ']'
      pure (inner.map (TypeRef.list · false))
    | _ =>
      fault
      advance
      pure none
  if ← acceptMark '!' then return read.map TypeRef.require else return read

def typeRef : Nat → Reading (Option TypeRef)
  | 0 => typeWith tooDeep
  | budget + 1 => typeWith (typeRef budget)

def startsType (lexeme : Lexeme) : Bool := isNameLexeme lexeme || lexeme == .mark '['

/-- The value a name stands for. -/
def namedScalar (text : Name) : Scalar :=
  if text = "true".toList then .boolean true
  else if text = "false".toList then .boolean false
  else if text = "null".toList then .null
  else .enum text

/-- A scalar of one lexeme, unless the next lexeme is none. -/
def scalar? : Option Lexeme → Option Scalar
  | some (.int text) => some (.int text)
  | some (.float text) => some (.float text)
  | some (.string value) => some (.string value)
  | some (.name text) => some (namedScalar text)
  | _ => none

/-- A value whose parts are read by `part`. A constant has no variables; where an enclosing
value goes on, a lexeme that begins no value is passed over. -/
def valueWith (constant inside : Bool) (part : Reading (Option Value)) :
    Reading (Option Value) := do
  let start ← place
  let next ← peek
  match scalar? next with
  | some leaf =>
    advance
    return some (.scalar (← since start) leaf)
  | none =>
    if next == some (.mark '$') then
      if constant then fault
      advance
      let name ← name?
      let span ← since start
      return name.map fun name => .scalar span (.ofVariable name)
    else if next == some (.mark '[') then
      advance
      let items ← manyOf (· != .mark ']') part
      expectMark ']'
      return some (.list (← since start) items)
    else if next == some (.mark '{') then
      advance
      let fields ← manyOf isNameLexeme do
        let name ← name?
        let value ← if ← acceptMark ':' then part else pure none
        return name.bind fun name => value.map (name, ·)
      expectMark '}'
      return some (.object (← since start) fields)
    else
      fault
      if inside then advance
      return none

def nestedValue (constant : Bool) : Nat → Reading (Option Value)
  | 0 => tooDeep
  | budget + 1 => valueWith constant true (nestedValue constant budget)

def value (constant : Bool) (budget : Nat) : Reading (Option Value) :=
  valueWith constant false (nestedValue constant budget)

/-- An argument; one without a value is passed over. -/
def argument (constant : Bool) (budget : Nat) : Reading (Option Argument) := do
  let start ← place
  let name ← name?
  let value ← if ← acceptMark ':' then value constant budget else pure none
  let span ← since start
  return name.bind fun name => value.map fun value => { span, name, value }

/-- Arguments in parentheses, if any come next. -/
def arguments (constant : Bool) (budget : Nat) : Reading (List Argument) := do
  if ← acceptMark '(' then
    let read ← someOf isNameLexeme (argument constant budget)
    expectMark ')'
    return read
  else return []

def directive (constant : Bool) (budget : Nat) : Reading (Option Directive) := do
  let start ← place
  expectMark '@'
  let name ← name?
  let arguments ← arguments constant budget
  let span ← since start
  return name.map fun name => { span, name, arguments }

def directives (constant : Bool) (budget : Nat) : Reading (List Directive) :=
  manyOf (· == .mark '@') (directive constant budget)

def defaultValue : Reading (Option Value) := do
  if ← acceptMark '=' then value true nestingLimit else return none

end RelayWorkbench.GraphQL.Reading
