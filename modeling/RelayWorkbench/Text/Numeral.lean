import RelayWorkbench.Text.Basic

/-! Numerals: an integer part, perhaps a fraction, perhaps an exponent. -/

namespace RelayWorkbench.Text

/-- Both sides of the leading run of characters satisfying a predicate. -/
def run (holds : Char → Bool) (text : Text) : Text × Text :=
  (text.takeWhile holds, text.dropWhile holds)

/-- The exponent of a number, if one begins here, and the text after it. A letter `e` without
digits after it is no exponent. -/
def exponent : Text → Text × Text
  | char :: rest =>
    if char = 'e' || char = 'E' then
      let (sign, rest) := match rest with
        | '+' :: rest => (['+'], rest)
        | '-' :: rest => (['-'], rest)
        | rest => ([], rest)
      let (digits, after) := run Char.isDigit rest
      if digits.isEmpty then ([], char :: sign ++ rest) else (char :: sign ++ digits, after)
    else ([], char :: rest)
  | [] => ([], [])

/-- The fraction of a number, if one begins here, and the text after it. -/
def fraction : Text → Text × Text
  | '.' :: rest =>
    let (digits, after) := run Char.isDigit rest
    if digits.isEmpty then ([], '.' :: rest) else ('.' :: digits, after)
  | text => ([], text)

/-- Whether digits are written without superfluous zeros. -/
def isPlainInteger (digits : Text) : Bool := digits == ['0'] || (digits.head?.any (· ≠ '0'))

def decimalValue (digits : Text) : Nat :=
  digits.foldl (fun value char => value * 10 + (char.toNat - '0'.toNat)) 0

/-- The least number that a double of 64 bits no longer rounds to a finite value. -/
def doubleLimit : Nat := 1 <<< 1024 - 1 <<< 970

/-- Whether `digits · 10 ^ power` is finite as a double of 64 bits. -/
def isFinite (digits : Text) (power : Int) : Bool :=
  let value := decimalValue digits
  if value = 0 then true
  else if 400 < power + digits.length then false
  else if power + digits.length < 300 then true
  else if 0 ≤ power then value * Nat.pow 10 power.toNat < doubleLimit
  else value < doubleLimit * Nat.pow 10 (-power).toNat

end RelayWorkbench.Text
