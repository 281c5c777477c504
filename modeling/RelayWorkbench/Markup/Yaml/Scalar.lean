import RelayWorkbench.Markup.Datum
import RelayWorkbench.Markup.Yaml.Place
import RelayWorkbench.Text.Escape
import RelayWorkbench.Text.Numeral

/-! Scalars of YAML: plain ones, which mean null, a boolean, a number or a text, and quoted
ones, which are always texts. -/

namespace RelayWorkbench.Markup.Yaml

/-! Plain scalars -/

/-- Characters that begin no plain scalar. -/
def indicators : List Char :=
  ['-', '?', ':', ',', '[', ']', '{', '}', '#', '&', '*', '!', '|', '>', '\x27', '"', '%', '@',
    '\x60']

/-- The characters that structure a flow collection. -/
def flowIndicators : List Char := [',', '[', ']', '{', '}']

/-- Whether a plain scalar begins here. -/
def startsPlain (flow : Bool) : Text → Bool
  | [] => false
  | char :: rest =>
    if isBlank char || char = '\n' then false
    else if indicators.contains char then
      !startsBlank rest && (char = '-' || (!flow && (char = '?' || char = ':')))
    else true

/-- The value of a plain scalar from a place on, and the place after it and the gap behind it.
Lines that continue it are indented by at least `least` columns, unless it stands in a flow
collection. -/
def plainFrom (flow : Bool) (least line column : Nat) (fresh : Bool) (gap : Gap) :
    Text → Option (Text × Place)
  | [] => some ([], ⟨[], line, column, fresh || gap.hasBreak⟩)
  | char :: rest =>
    if char = '\n' then plainFrom flow least (line + 1) 0 fresh gap.withBreak rest
    else if isBlank char then
      if char = '\t' && gap.hasBreak && column < least then none
      else plainFrom flow least line (column + 1) fresh (gap.withBlank char) rest
    else
      let here : Place := ⟨char :: rest, line, column, fresh || gap.hasBreak⟩
      let inGap := match gap with
        | .blanks [] => false
        | _ => true
      let outdented := gap.hasBreak && ((!flow && column < least) || here.isEnd)
      if outdented || (inGap && char = '#') then some ([], here)
      else if flow && char = ':' && rest.head?.any (fun next =>
          flowIndicators.contains next || next = '?') then none
      else if (char = ':' && startsBlank rest) || (flow && flowIndicators.contains char) then
        some ([], here)
      else do
        let (more, after) ← plainFrom flow least line (column + 1) false (.blanks []) rest
        return (gap.folded ++ char :: more, after)

/-- Whether a numeral has superfluous zeros, which make it a text. -/
def isPadded (numeral : Text) : Bool :=
  let digits := match numeral with
    | '-' :: rest => rest
    | '+' :: rest => rest
    | digits => digits
  1 < digits.length && digits.head? == some '0' && digits.all Char.isDigit

/-- Value of digits in a base. -/
def digitsValue? (base : Nat) (digits : Text) : Option Nat :=
  if digits.isEmpty then none
  else digits.foldl (fun value char => do
    let digit ← Text.hexDigit? char
    if digit < base then return (← value) * base + digit else none) (some 0)

/-- The integer that a text without sign means. -/
def unsigned? (text : Text) : Option Nat :=
  match text with
  | '0' :: 'x' :: digits => digitsValue? 16 digits
  | '0' :: 'o' :: digits => digitsValue? 8 digits
  | '0' :: 'b' :: digits => digitsValue? 2 digits
  | digits => if isPadded digits then none else digitsValue? 10 digits

/-- The sign of a text and what follows it. -/
def splitSign : Text → Bool × Text
  | '-' :: rest => (true, rest)
  | '+' :: rest => (false, rest)
  | text => (false, text)

/-- Whether a text is a decimal number that is finite as a double. -/
def isDecimal (text : Text) : Bool :=
  let (_, unsigned) := splitSign text
  let (digits, rest) := Text.run Char.isDigit unsigned
  let (decimals, rest) := match rest with
    | '.' :: rest => Text.run Char.isDigit rest
    | rest => ([], rest)
  let (power, rest) := Text.exponent rest
  let (negative, powerDigits) := splitSign (power.drop 1)
  let exponent : Int := Text.decimalValue powerDigits
  rest.isEmpty && !(digits.isEmpty && decimals.isEmpty) &&
    Text.isFinite (digits ++ decimals)
      ((if negative then -exponent else exponent) - (decimals.length : Int))

/-- The numbers that are no decimals: infinities and what is no number. -/
def specialNumbers : List Text :=
  [".inf", ".Inf", ".INF", "+.inf", "+.Inf", "+.INF", "-.inf", "-.Inf", "-.INF",
    ".nan", ".NaN", ".NAN"].map String.toList

/-- What a text means that is neither null nor a boolean nor an integer of 128 bits. -/
def decimalDatum (text : Text) : Datum :=
  if specialNumbers.contains text || (!isPadded text && isDecimal text) then .number text
  else .text text

/-- What a plain scalar means. Integers that fit 128 bits but not 64 are refused. -/
def plainDatum? (text : Text) : Option Datum :=
  if [[], "null".toList, "Null".toList, "NULL".toList, "~".toList].contains text then some .null
  else if ["true", "True", "TRUE"].any (·.toList == text) then some (.boolean true)
  else if ["false", "False", "FALSE"].any (·.toList == text) then some (.boolean false)
  else
    let (negative, magnitude) := splitSign text
    match unsigned? magnitude with
    | none => some (decimalDatum text)
    | some value =>
      if !negative && value < UInt64.size then some (.whole value)
      else if negative && value ≤ UInt64.size / 2 then some (.number text)
      else if value < 1 <<< (if negative then 127 else 128) then none
      else some (decimalDatum text)

/-! Quoted scalars -/

def letterEscape? (letter : Char) : Option Char :=
  match letter with
  | '0' => some '\x00'
  | 'a' => some '\x07'
  | '\t' => some '\t'
  | 'v' => some '\x0b'
  | 'e' => some '\x1b'
  | ' ' => some ' '
  | 'N' => some '\u0085'
  | '_' => some '\u00a0'
  | 'L' => some '\u2028'
  | 'P' => some '\u2029'
  | letter => Text.simpleEscape? letter

def escapeDigits? (letter : Char) : Option Nat :=
  match letter with
  | 'x' => some 2
  | 'u' => some 4
  | 'U' => some 8
  | _ => none

/-- The character of an escape given after its backslash, and the length of the escape. -/
def escape? : Text → Option (Char × Nat)
  | [] => none
  | letter :: rest =>
    match escapeDigits? letter with
    | none => (letterEscape? letter).map (·, 1)
    | some count => do
      let digits := rest.take count
      if digits.length < count then none
      return (← Text.scalar? (← Text.hexNumber? digits), count + 1)

/-- The value of a quoted scalar from a place on, and the place after its last quote; `fuel`
bounds the length. -/
def quotedFrom (quote : Char) : Nat → Gap → Place → Option (Text × Place)
  | 0, _, _ => none
  | fuel + 1, gap, place =>
    match place.rest with
    | [] => none
    | char :: rest =>
      if char = '\n' then
        quotedFrom quote fuel gap.withBreak { place with rest, line := place.line + 1, column := 0 }
      else if place.isMarker "---" || place.isMarker "..." then none
      else if isBlank char then quotedFrom quote fuel (gap.withBlank char) (place.after 1)
      else
        let continued := fun (value : Text) (count : Nat) =>
          (quotedFrom quote fuel (.blanks []) (place.after count)).map fun (more, after) =>
            (gap.folded ++ value ++ more, after)
        if char = quote then
          if quote = '\x27' && rest.head? = some quote then continued [quote] 2
          else some (gap.folded, place.after 1)
        else if quote = '"' && char = '\\' then
          match rest with
          | '\n' :: rest =>
            (quotedFrom quote fuel (.breaks 0 true)
              { place with rest, line := place.line + 1, column := 0 }).map fun (more, after) =>
                (gap.folded ++ more, after)
          | rest => do
            let (value, count) ← escape? rest
            continued [value] (count + 1)
        else continued [char] 1

end RelayWorkbench.Markup.Yaml
