import RelayWorkbench.Markup.Datum
import RelayWorkbench.Text.Escape
import RelayWorkbench.Text.Numeral

/-! JSON texts: reading them strictly, and quoting strings. -/

namespace RelayWorkbench.Markup.Json

def isSpace (char : Char) : Bool :=
  char == ' ' || char == '\t' || char == '\n' || char == '\r'

def skipSpace (text : Text) : Text := text.dropWhile isSpace

/-- The value of a string given after its first quote, and the text after its last. Control
characters must be escaped; `fuel` bounds the length. -/
def string? : Nat → Text → Option (Text × Text)
  | 0, _ => none
  | _, [] => none
  | _ + 1, '"' :: rest => some ([], rest)
  | fuel + 1, '\\' :: 'u' :: rest => do
    let (char, rest) ← Text.unitEscape? rest
    let (value, after) ← string? fuel rest
    return (char :: value, after)
  | fuel + 1, '\\' :: letter :: rest => do
    let char ← Text.simpleEscape? letter
    let (value, after) ← string? fuel rest
    return (char :: value, after)
  | fuel + 1, char :: rest => do
    if char.toNat < 0x20 || char = '\\' then none
    let (value, after) ← string? fuel rest
    return (char :: value, after)

/-- The exponent that a written exponent means. -/
def powerOf (written : Text) : Int :=
  match written with
  | _ :: '-' :: digits => -(Text.decimalValue digits : Int)
  | _ :: '+' :: digits => Text.decimalValue digits
  | _ :: digits => Text.decimalValue digits
  | [] => 0

/-- The number at the start of a text, and the text after it. A number beyond all doubles is
refused. -/
def number? (text : Text) : Option (Datum × Text) :=
  let (sign, unsigned) := match text with
    | '-' :: rest => (['-'], rest)
    | text => ([], text)
  let (digits, rest) := Text.run Char.isDigit unsigned
  let (decimals, rest) := Text.fraction rest
  let (power, after) := Text.exponent rest
  let whole := sign.isEmpty && decimals.isEmpty && power.isEmpty
  let fits := Text.isFinite (digits ++ decimals.drop 1)
    (powerOf power - ((decimals.drop 1).length : Int))
  let extended := after.head?.any fun char => char == '.' || char == 'e' || char == 'E'
  if !Text.isPlainInteger digits || !fits || extended then none
  else if whole && Text.decimalValue digits < UInt64.size then
    some (.whole (Text.decimalValue digits), after)
  else some (.number (sign ++ digits ++ decimals ++ power), after)

/-- The text after a word, if it starts with that word. -/
def word? (word : String) (text : Text) : Option Text :=
  if word.toList.isPrefixOf text then some (text.drop word.length) else none

mutual

/-- The value at the start of a text, and the text after it; `fuel` bounds the work. -/
def value? : Nat → Text → Option (Datum × Text)
  | 0, _ => none
  | fuel + 1, text =>
    match skipSpace text with
    | [] => none
    | '"' :: rest => (string? (rest.length + 1) rest).map fun (value, after) => (.text value, after)
    | '[' :: rest =>
      match skipSpace rest with
      | ']' :: after => some (.list [], after)
      | rest => (items? fuel rest).map fun (items, after) => (.list items, after)
    | '{' :: rest =>
      match skipSpace rest with
      | '}' :: after => some (.map [], after)
      | rest => (entries? fuel rest).map fun (entries, after) => (.map entries, after)
    | 'n' :: rest => (word? "ull" rest).map (.null, ·)
    | 't' :: rest => (word? "rue" rest).map (.boolean true, ·)
    | 'f' :: rest => (word? "alse" rest).map (.boolean false, ·)
    | text => number? text

def items? : Nat → Text → Option (List Datum × Text)
  | 0, _ => none
  | fuel + 1, text => do
    let (first, rest) ← value? fuel text
    match skipSpace rest with
    | ']' :: after => return ([first], after)
    | ',' :: rest =>
      let (more, after) ← items? fuel rest
      return (first :: more, after)
    | _ => none

def entries? : Nat → Text → Option (List (Datum × Datum) × Text)
  | 0, _ => none
  | fuel + 1, text => do
    match skipSpace text with
    | '"' :: rest =>
      let (key, rest) ← string? (rest.length + 1) rest
      match skipSpace rest with
      | ':' :: rest =>
        let (value, rest) ← value? fuel rest
        match skipSpace rest with
        | '}' :: after => return ([(.text key, value)], after)
        | ',' :: rest =>
          let (more, after) ← entries? fuel rest
          return ((.text key, value) :: more, after)
        | _ => none
      | _ => none
    | _ => none

end

/-- How deep lists and maps may stand inside each other. -/
def depthLimit : Nat := 127

/-- The value of a text that is nothing but one value. -/
def parse? (text : Text) : Option Datum := do
  let (datum, rest) ← value? (2 * text.length + 1) text
  if (skipSpace rest).isEmpty && datum.depth ≤ depthLimit then some datum else none

/-- A character inside a quoted string. -/
def escape (char : Char) : Text :=
  match char with
  | '"' => ['\\', '"']
  | '\\' => ['\\', '\\']
  | '\x08' => ['\\', 'b']
  | '\x0c' => ['\\', 'f']
  | '\n' => ['\\', 'n']
  | '\r' => ['\\', 'r']
  | '\t' => ['\\', 't']
  | char =>
    if char.toNat < 0x20 then
      ['\\', 'u', '0', '0', Nat.digitChar (char.toNat / 16), Nat.digitChar (char.toNat % 16)]
    else [char]

def quoted (text : Text) : Text := '"' :: text.flatMap escape ++ ['"']

end RelayWorkbench.Markup.Json
