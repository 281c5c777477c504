import RelayWorkbench.Coordinates
import RelayWorkbench.GraphQL.StringValue
import RelayWorkbench.Text.Letter
import RelayWorkbench.Text.Numeral

/-! The lexemes of GraphQL. A text is cut into pieces: lexemes, comments, ignored characters
and faults. What a document means depends on its lexemes only. -/

namespace RelayWorkbench.GraphQL

abbrev Name := Text

/-- A significant token, without its place. -/
inductive Lexeme where
  /-- A punctuator of one character. -/
  | mark (char : Char)
  /-- Three dots. -/
  | spread
  | name (text : Name)
  | int (text : Text)
  | float (text : Text)
  | string (value : Text)
  deriving DecidableEq, Repr

namespace Lexeme

def isNameStart (char : Char) : Bool := char.isAlpha || char == '_'

/-- Whether a text is a name: it starts with a letter or underscore and goes on with word
characters, all of them ASCII. -/
def isName : Text → Bool
  | [] => false
  | char :: rest => isNameStart char && rest.all Text.isWordChar

def marks : List Char := ['!', '$', '&', '(', ')', ':', '=', '@', '[', ']', '{', '|', '}']

/-- Characters that separate tokens and mean nothing; the last one is the byte order mark. -/
def ignored : List Char := [' ', '\t', '\r', '\n', ',', '\uFEFF']

/-- What a stretch of text is. -/
inductive Piece where
  | ignored
  /-- A comment, with its `#`. -/
  | comment (text : Text)
  | lexeme (lexeme : Lexeme)
  | fault
  deriving DecidableEq, Repr

/-- Whether a character right after a number makes it malformed. -/
def extendsNumber (char : Char) : Bool := Text.isWordChar char || char == '.'

/-- A number at the start of a text: its piece, its characters and the text after it. -/
def readNumber (text : Text) : Piece × Text × Text :=
  let (sign, afterSign) := match text with
    | '-' :: rest => (['-'], rest)
    | text => ([], text)
  let (digits, afterDigits) := Text.run Char.isDigit afterSign
  let (decimals, afterDecimals) := Text.fraction afterDigits
  let (power, after) := Text.exponent afterDecimals
  let written := sign ++ digits ++ decimals ++ power
  if Text.isPlainInteger digits && !(after.head?.any extendsNumber) then
    if decimals.isEmpty && power.isEmpty then (.lexeme (.int written), written, after)
    else (.lexeme (.float written), written, after)
  else
    let (extra, after) := Text.run extendsNumber after
    (.fault, written ++ extra, after)

/-- The string at the start of a text, given without its first quote. -/
def readString (text : Text) : Piece × Text × Text :=
  match text with
  | '"' :: '"' :: rest =>
    match StringValue.splitBlock? rest with
    | some (raw, after) =>
      (.lexeme (.string (StringValue.blockValue raw)),
        StringValue.tripleQuote ++ raw ++ StringValue.tripleQuote, after)
    | none => (.fault, '"' :: text, [])
  | text =>
    match StringValue.splitQuoted? text with
    | some (raw, after) =>
      let written := '"' :: raw ++ ['"']
      match StringValue.decode? raw with
      | some value => (.lexeme (.string value), written, after)
      | none => (.fault, written, after)
    | none =>
      let (raw, after) := Text.run (fun char => !StringValue.isLineEnd char) text
      (.fault, '"' :: raw, after)

/-- The first piece of a text that begins with `char`: the piece, its characters and the text
after it. -/
def readPiece (char : Char) (rest : Text) : Piece × Text × Text :=
  if ignored.contains char then (.ignored, [char], rest)
  else if char = '#' then
    let (comment, after) := Text.run (fun char => !StringValue.isLineEnd char) rest
    (.comment (char :: comment), char :: comment, after)
  else if isNameStart char then
    let (more, after) := Text.run Text.isWordChar rest
    (.lexeme (.name (char :: more)), char :: more, after)
  else if marks.contains char then (.lexeme (.mark char), [char], rest)
  else if char = '"' then readString rest
  else if char.isDigit || char = '-' then readNumber (char :: rest)
  else
    match char, rest with
    | '.', '.' :: '.' :: rest => (.lexeme .spread, ['.', '.', '.'], rest)
    | char, rest => (.fault, [char], rest)

/-- The pieces of a text that starts at `offset`, each with its bytes; `fuel` bounds their
number. -/
def piecesFrom : Nat → Nat → Text → List (Piece × Span)
  | _, _, [] => []
  | 0, _, _ => []
  | fuel + 1, offset, char :: rest =>
    let (piece, written, after) := readPiece char rest
    let stop := offset + written.width
    (piece, ⟨offset, stop⟩) :: piecesFrom fuel stop after

def pieces (text : Text) : List (Piece × Span) := piecesFrom text.length 0 text

/-- The lexemes of a text with the bytes they stand at. -/
def placedLexemes (pieces : List (Piece × Span)) : List (Lexeme × Span) :=
  pieces.filterMap fun
    | (.lexeme lexeme, span) => some (lexeme, span)
    | _ => none

def comments (text : Text) : List Text :=
  (pieces text).filterMap fun
    | (.comment comment, _) => some comment
    | _ => none

def hasComments (text : Text) : Bool := !(comments text).isEmpty

end Lexeme

end RelayWorkbench.GraphQL
