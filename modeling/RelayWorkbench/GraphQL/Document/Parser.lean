import RelayWorkbench.GraphQL.Document.Executable
import RelayWorkbench.GraphQL.Document.Spans
import RelayWorkbench.GraphQL.Document.TypeSystem

/-! Documents from texts. `Document.read` depends on the lexemes of a text alone; their bytes
come in only when the places of the nodes are put in. -/

namespace RelayWorkbench.GraphQL

namespace Reading

/-- Pass over a lexeme that begins no definition. -/
def unexpected : Reading (Option Definition) := do
  fault
  advance
  return none

/-- A definition that begins with `word`; only those of a type system have a description. -/
def definitionOf (described : Bool) (word : Name) : Reading (Option Definition) := do
  match OperationKind.ofKeyword? word with
  | some kind => if described then unexpected else operation kind
  | none =>
    if word = "fragment".toList then
      if described then unexpected else fragment
    else if word = "extend".toList then
      if described then unexpected else extension
    else if word = "directive".toList then directiveDefinition (← description)
    else if word = "schema".toList then schemaDefinition (← description)
    else
      match TypeKeyword.ofWord? word with
      | some keyword =>
        let description ← description
        advance
        return (← typeDefinition keyword).map (.type description)
      | none => unexpected

def definition : Reading (Option Definition) := do
  match ← peek with
  | some (.name word) => definitionOf false word
  | some (.string _) =>
    match ← second with
    | some (.name word) => definitionOf true word
    | _ => unexpected
  | some (.mark '{') => shorthand
  | _ => unexpected

def document : Reading Document := do
  if (← peek).isNone then fault
  return ⟨← manyOf (fun _ => true) definition⟩

end Reading

namespace Document

/-- The document that lexemes make up, with places counted in lexemes, and whether it is well
formed. -/
def read (lexemes : List Lexeme) : Document × Bool :=
  let (document, cursor) := Reading.document.run { rest := lexemes }
  (document, cursor.clean)

/-- The bytes of a node, given the bytes of each lexeme. -/
def locate (spans : Array Span) : Option Span → Option Span
  | none => none
  | some span => do
    let first ← spans[span.start]?
    let last ← spans[span.stop - 1]?
    return ⟨first.start, last.stop⟩

/-- Whether no piece of a text is a fault. -/
def isLexed (pieces : List (Lexeme.Piece × Span)) : Bool :=
  pieces.all fun (piece, _) => piece != .fault

/-- The document of a text, as far as it can be read. -/
def recover (text : Text) : Document :=
  let placed := Lexeme.placedLexemes (Lexeme.pieces text)
  (read (placed.map (·.1))).1.respan (locate (placed.map (·.2)).toArray)

/-- The document of a text, if the text is well formed. -/
def parse? (text : Text) : Option Document :=
  let pieces := Lexeme.pieces text
  let placed := Lexeme.placedLexemes pieces
  let (document, clean) := read (placed.map (·.1))
  if clean && isLexed pieces then some (document.respan (locate (placed.map (·.2)).toArray))
  else none

end Document

end RelayWorkbench.GraphQL
