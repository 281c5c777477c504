import RelayWorkbench.GraphQL.Document.Values

/-! Reading selections, operations and fragments. -/

namespace RelayWorkbench.GraphQL.Reading

def startsSelection (lexeme : Lexeme) : Bool := isNameLexeme lexeme || lexeme == .spread

def field (budget : Nat) (set : Reading (List Selection)) : Reading (Option Selection) := do
  let start ← place
  let label ← do
    if (← second) == some (.mark ':') then
      let label ← ident?
      advance
      pure label
    else pure none
  let name ← ident?
  let arguments ← arguments false budget
  let directives ← directives false budget
  let selections ← if ← atMark '{' then set else pure []
  let span ← since start
  return name.map fun name => .field { span, label, name, arguments, directives } selections

def typeCondition : Reading (Option Name) := do
  if !(← acceptWord "on".toList) then fault
  name?

/-- A selection that begins with three dots. -/
def spreading (budget : Nat) (set : Reading (List Selection)) : Reading (Option Selection) := do
  let start ← place
  advance
  match ← peek with
  | some (.name text) =>
    if text = "on".toList then
      let onType ← typeCondition
      let directives ← directives false budget
      if !(← atMark '{') then fault
      let selections ← set
      return some (.inline { span := ← since start, onType, directives } selections)
    else
      advance
      let directives ← directives false budget
      return some (.spread { span := ← since start, name := text, directives })
  | some (.mark '@') | some (.mark '{') =>
    let directives ← directives false budget
    if !(← atMark '{') then fault
    let selections ← set
    return some (.inline { span := ← since start, directives } selections)
  | _ =>
    fault
    return none

/-- A selection set in braces; it must hold something. -/
def selectionSet : Nat → Reading (List Selection)
  | 0 => do
    if ← atMark '{' then giveUp
    return []
  | budget + 1 => do
    if ← acceptMark '{' then
      let selections ← someOf startsSelection do
        if (← peek) == some .spread then spreading budget (selectionSet budget)
        else field budget (selectionSet budget)
      expectMark '}'
      return selections
    else return []

/-- The selection set that ends a definition. -/
def body : Reading (List Selection) := do
  if ← atMark '{' then selectionSet nestingLimit
  else
    fault
    advance
    return []

def variableDefinition : Reading (Option VariableDefinition) := do
  expectMark '$'
  let name ← name?
  if ← acceptMark ':' then
    if (← peek).any startsType then
      let type ← typeRef nestingLimit
      let default ← defaultValue
      let directives ← directives true nestingLimit
      return name.bind fun name => type.map fun type => { name, type, default, directives }
    else
      fault
      return none
  else
    fault
    return none

/-- Variable definitions in parentheses, if any come next. -/
def variableDefinitions : Reading (List VariableDefinition) := do
  if ← acceptMark '(' then
    let read ← someOf (· == .mark '$') variableDefinition
    expectMark ')'
    return read
  else return []

def operation (kind : OperationKind) : Reading (Option Definition) := do
  let start ← place
  advance
  let name ← if ← atName then name? else pure none
  let variableDefinitions ← variableDefinitions
  let directives ← directives false nestingLimit
  let selections ← body
  return some (.operation
    { span := ← since start, kind, name, variableDefinitions, directives, selections })

/-- A query that is nothing but a selection set. -/
def shorthand : Reading (Option Definition) := do
  let start ← place
  let selections ← selectionSet nestingLimit
  return some (.operation { span := ← since start, kind := .query, selections })

def fragment : Reading (Option Definition) := do
  let start ← place
  advance
  let name ← do
    if ← atWord "on".toList then
      fault
      pure none
    else if ← atName then name?
    else
      fault
      advance
      pure none
  let onType ← typeCondition
  let directives ← directives false nestingLimit
  let selections ← body
  let span ← since start
  return name.bind fun name => onType.map fun onType =>
    .fragment { span, name, onType, directives, selections }

end RelayWorkbench.GraphQL.Reading
