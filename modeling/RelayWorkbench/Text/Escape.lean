import RelayWorkbench.Text.Basic

/-! Escapes that quoted texts of several languages share: one letter after a backslash, and
code points in hexadecimal digits. -/

namespace RelayWorkbench.Text

def hexDigit? (char : Char) : Option Nat :=
  if char.isDigit then some (char.toNat - '0'.toNat)
  else if 'a' ≤ char && char ≤ 'f' then some (char.toNat - 'a'.toNat + 10)
  else if 'A' ≤ char && char ≤ 'F' then some (char.toNat - 'A'.toNat + 10)
  else none

/-- Value of a run of hexadecimal digits. -/
def hexNumber? (digits : Text) : Option Nat :=
  digits.foldl (fun number char => do return (← number) * 16 + (← hexDigit? char)) (some 0)

/-- The character of a code point, if it is one. -/
def scalar? (code : Nat) : Option Char := if code.isValidChar then some (Char.ofNat code) else none

/-- The code point of a pair of surrogates. -/
def surrogatePair? (high low : Nat) : Option Char :=
  if 0xD800 ≤ high && high < 0xDC00 && 0xDC00 ≤ low && low < 0xE000 then
    scalar? (0x10000 + (high - 0xD800) * 0x400 + (low - 0xDC00))
  else none

/-- The character of an escape of one letter. -/
def simpleEscape? (letter : Char) : Option Char :=
  match letter with
  | '"' => some '"'
  | '\\' => some '\\'
  | '/' => some '/'
  | 'b' => some '\x08'
  | 'f' => some '\x0c'
  | 'n' => some '\n'
  | 'r' => some '\r'
  | 't' => some '\t'
  | _ => none

/-- The character of an escape of four digits, given after its `u`, and the text after it. A
character outside the basic plane takes two such escapes. -/
def unitEscape? : Text → Option (Char × Text)
  | first :: second :: third :: fourth :: rest => do
    let code ← hexNumber? [first, second, third, fourth]
    match scalar? code, rest with
    | some char, _ => return (char, rest)
    | none, '\\' :: 'u' :: fifth :: sixth :: seventh :: eighth :: after =>
      return (← surrogatePair? code (← hexNumber? [fifth, sixth, seventh, eighth]), after)
    | none, _ => none
  | _ => none

end RelayWorkbench.Text
