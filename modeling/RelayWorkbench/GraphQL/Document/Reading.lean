import RelayWorkbench.GraphQL.Document

/-! Steps of reading a document from its lexemes. Reading never stops at a mistake: it marks
what was read as unclean and goes on, so that the sound parts of a document remain. Places
are counted in lexemes. -/

namespace RelayWorkbench.GraphQL

/-- The lexemes still to be read. -/
structure Cursor where
  rest : List Lexeme
  /-- Number of lexemes already read. -/
  index : Nat := 0
  /-- Whether everything so far was well formed. -/
  clean : Bool := true

/-- A step of reading. -/
abbrev Reading := StateM Cursor

namespace Reading

def peek : Reading (Option Lexeme) := do return (← get).rest.head?

def second : Reading (Option Lexeme) := do return (← get).rest[1]?

/-- Number of lexemes already read. -/
def place : Reading Nat := do return (← get).index

/-- Mark what was read as malformed. -/
def fault : Reading Unit := modify fun cursor => { cursor with clean := false }

def advance : Reading Unit :=
  modify fun cursor =>
    match cursor.rest with
    | [] => cursor
    | _ :: rest => { cursor with rest, index := cursor.index + 1 }

/-- Give up: nothing more is read. -/
def giveUp : Reading Unit := modify fun cursor => { cursor with rest := [], clean := false }

def atMark (char : Char) : Reading Bool := do return (← peek) == some (.mark char)

def atWord (word : Text) : Reading Bool := do return (← peek) == some (.name word)

def isNameLexeme : Lexeme → Bool
  | .name _ => true
  | _ => false

def isStringLexeme : Lexeme → Bool
  | .string _ => true
  | _ => false

def atName : Reading Bool := do return (← peek).any isNameLexeme

def acceptMark (char : Char) : Reading Bool := do
  if ← atMark char then
    advance
    return true
  else return false

def acceptWord (word : Text) : Reading Bool := do
  if ← atWord word then
    advance
    return true
  else return false

def expectMark (char : Char) : Reading Unit := do
  if !(← acceptMark char) then fault

def name? : Reading (Option Name) := do
  match ← peek with
  | some (.name text) =>
    advance
    return some text
  | _ =>
    fault
    return none

def ident? : Reading (Option Ident) := do
  let start ← place
  return (← name?).map fun name => ⟨some ⟨start, start + 1⟩, name⟩

/-- The lexemes since `start`. -/
def since (start : Nat) : Reading (Option Span) := do return some ⟨start, ← place⟩

/-- Items as long as the next lexeme announces one; `fuel` bounds their number. -/
def many {α : Type} (announces : Lexeme → Bool) (item : Reading (Option α)) :
    Nat → Reading (List α)
  | 0 => do
    fault
    return []
  | fuel + 1 => do
    if (← peek).any announces then
      let first ← item
      let more ← many announces item fuel
      return first.toList ++ more
    else return []

/-- Items as long as the next lexeme announces one. Each must pass over a lexeme. -/
def manyOf {α : Type} (announces : Lexeme → Bool) (item : Reading (Option α)) :
    Reading (List α) := do
  many announces item ((← get).rest.length + 1)

/-- At least one item; complains when the next lexeme announces none. -/
def someOf {α : Type} (announces : Lexeme → Bool) (item : Reading (Option α)) :
    Reading (List α) := do
  if !((← peek).any announces) then fault
  manyOf announces item

/-- Names with a separator between them and perhaps one in front. -/
def separatedNames (separator : Char) : Reading (List Name) := do
  let _ ← acceptMark separator
  let first ← name?
  let more ← manyOf (· == .mark separator) do
    advance
    name?
  return first.toList ++ more

end Reading

end RelayWorkbench.GraphQL
