import RelayWorkbench.Text.Escape

/-! String values of GraphQL in their two written forms. A quoted string stands on one line
and escapes with a backslash; a block string stands between triple quotes, and its common
indentation and its blank first and last lines are not part of the value. -/

namespace RelayWorkbench.GraphQL.StringValue

/-- Space and tab, the white space GraphQL knows within a line. -/
def isIndent (char : Char) : Bool := char == ' ' || char == '\t'

def isLineEnd (char : Char) : Bool := char == '\n' || char == '\r'

/-- A Unicode escape after its `u`: the character and the text after it. -/
def unicodeEscape? : Text → Option (Char × Text)
  | '{' :: rest =>
    let digits := rest.takeWhile (· ≠ '}')
    match rest.drop digits.length with
    | '}' :: after =>
      if digits.isEmpty then none else do return (← Text.scalar? (← Text.hexNumber? digits), after)
    | _ => none
  | text => Text.unitEscape? text

/-- The value of the text between two quotes; `fuel` bounds its length. -/
def decodeFrom : Nat → Text → Option Text
  | _, [] => some []
  | 0, _ => none
  | fuel + 1, '\\' :: 'u' :: rest => do
    let (char, after) ← unicodeEscape? rest
    return char :: (← decodeFrom fuel after)
  | fuel + 1, '\\' :: letter :: rest => do
    return (← Text.simpleEscape? letter) :: (← decodeFrom fuel rest)
  | _ + 1, ['\\'] => none
  | fuel + 1, char :: rest => do return char :: (← decodeFrom fuel rest)

/-- The value of the text between two quotes, unless an escape is malformed. -/
def decode? (raw : Text) : Option Text := decodeFrom raw.length raw

/-- Digits of a number below 256 in two upper-case hexadecimal places. -/
def hexPair (number : Nat) : Text :=
  [Nat.digitChar (number / 16), Nat.digitChar (number % 16)].map Char.toUpper

/-- A character as it is written between quotes. -/
def escape (char : Char) : Text :=
  match char with
  | '"' => ['\\', '"']
  | '\\' => ['\\', '\\']
  | '\x08' => ['\\', 'b']
  | '\x0c' => ['\\', 'f']
  | '\n' => ['\\', 'n']
  | '\r' => ['\\', 'r']
  | '\t' => ['\t']
  | char => if char.toNat < 0x20 then '\\' :: 'u' :: '0' :: '0' :: hexPair char.toNat else [char]

def quoted (value : Text) : Text := '"' :: value.flatMap escape ++ ['"']

/-- The text up to the quote that closes a quoted string, and the text after that quote. -/
def splitQuoted? : Text → Option (Text × Text)
  | [] => none
  | '"' :: rest => some ([], rest)
  | '\\' :: char :: rest =>
    if isLineEnd char then none
    else (splitQuoted? rest).map fun (raw, after) => ('\\' :: char :: raw, after)
  | char :: rest =>
    if isLineEnd char then none
    else (splitQuoted? rest).map fun (raw, after) => (char :: raw, after)

/-- The text up to the triple quote that closes a block string, and the text after it. -/
def splitBlock? : Text → Option (Text × Text)
  | [] => none
  | '"' :: '"' :: '"' :: rest => some ([], rest)
  | '\\' :: '"' :: '"' :: '"' :: rest =>
    (splitBlock? rest).map fun (raw, after) => ('\\' :: '"' :: '"' :: '"' :: raw, after)
  | char :: rest => (splitBlock? rest).map fun (raw, after) => (char :: raw, after)

/-- A block string's text with its escaped triple quotes resolved. -/
def unescapeBlock : Text → Text
  | [] => []
  | '\\' :: '"' :: '"' :: '"' :: rest => '"' :: '"' :: '"' :: unescapeBlock rest
  | char :: rest => char :: unescapeBlock rest

/-- A text with its triple quotes escaped. -/
def escapeBlock : Text → Text
  | [] => []
  | '"' :: '"' :: '"' :: rest => '\\' :: '"' :: '"' :: '"' :: escapeBlock rest
  | char :: rest => char :: escapeBlock rest

/-- The lines of a block string, which may end in a line feed, a carriage return or both. -/
def blockLines : Text → List Text
  | [] => [[]]
  | '\r' :: '\n' :: rest => [] :: blockLines rest
  | char :: rest =>
    if isLineEnd char then [] :: blockLines rest
    else
      match blockLines rest with
      | [] => [[char]]
      | line :: more => (char :: line) :: more

def isBlankLine (line : Text) : Bool := line.all isIndent

def indentation? (line : Text) : Option Nat :=
  if isBlankLine line then none else some (line.takeWhile isIndent).length

/-- The least indentation among the lines that are not blank. -/
def commonIndentation (lines : List Text) : Nat := ((lines.filterMap indentation?).min?).getD 0

/-- The value of the text between triple quotes. -/
def blockValue (raw : Text) : Text :=
  match blockLines raw with
  | [] => []
  | first :: more =>
    let dedented := first :: more.map (·.drop (commonIndentation more))
    let kept := (dedented.dropWhile isBlankLine).reverse.dropWhile isBlankLine
    unescapeBlock (Text.ofLines kept.reverse)

/-- Whether reading back a block string can give this value. -/
def fitsBlock (value : Text) : Bool :=
  let lines := Text.lines value
  !value.contains '\r' && !(lines.head?.any isBlankLine) && !(lines.getLast?.any isBlankLine) &&
    commonIndentation lines == 0

/-- Whether a block string of this value needs lines of its own for the triple quotes. -/
def needsOwnLines (value : Text) : Bool :=
  value.contains '\n' || 70 < value.width || value.getLast? == some '"' ||
    value.getLast? == some '\\'

def tripleQuote : Text := ['"', '"', '"']

/-- A value as a block string whose lines are indented by `indentation` spaces. -/
def block (indentation : Nat) (value : Text) : Text :=
  if needsOwnLines value then
    let start := '\n' :: Text.spaces indentation
    let written := (Text.lines value).map fun line =>
      if line.isEmpty then ['\n'] else start ++ escapeBlock line
    tripleQuote ++ written.flatten ++ start ++ tripleQuote
  else tripleQuote ++ escapeBlock value ++ tripleQuote

end RelayWorkbench.GraphQL.StringValue
