import RelayWorkbench.Coordinates
import RelayWorkbench.Text.Basic
import RelayWorkbench.Trap

/-! Texts with marked cursors: a single `*`, or `$` with a digit where several are needed. Lines and
columns are counted in words of 32 bits along the whole text. -/

namespace RelayWorkbench.Text

/-- Why a text has no single cursor. -/
inductive MarkerError where
  | absent
  | repeated (count : Nat)
  | trapped (trap : Trap)
  deriving DecidableEq, Repr

def MarkerError.message : MarkerError → String
  | absent => "extract_cursor: input must contain exactly one '*' marker, found none"
  | repeated count =>
    s!"extract_cursor: input must contain exactly one '*' marker, found {count}"
  | trapped trap => trap.message

/-- The position after a character. -/
def advance (position : Position) (char : Char) : Except Trap Position := do
  if char = '\n' then return ⟨← Checked.sum position.line 1, 0⟩
  else
    return ⟨position.line, ← Checked.sum position.character (UInt32.ofNat char.utf8Size)⟩

/-- The text without `*`, and where the last `*` stood. -/
def withoutStars (position : Position) : Text → Except Trap (Text × Option Position)
  | [] => return ([], none)
  | '*' :: rest => do
    let (text, found) ← withoutStars position rest
    return (text, found.or (some position))
  | char :: rest => do
    let (text, found) ← withoutStars (← advance position char) rest
    return (char :: text, found)

/-- The text without its only `*`, and where it stood. -/
def cursor (marked : Text) : Except MarkerError (Text × Position) :=
  match marked.count '*', withoutStars ⟨0, 0⟩ marked with
  | 0, _ => .error .absent
  | 1, .ok (text, some position) => .ok (text, position)
  | 1, .error trap => .error (.trapped trap)
  | count, _ => .error (.repeated count)

/-- The text without its numbered markers, and the digit and position of each. -/
def withoutNumbers (position : Position) : Text → Except Trap (Text × List (Nat × Position))
  | [] => return ([], [])
  | [char] => do
    let _ ← advance position char
    return ([char], [])
  | char :: next :: rest => do
    if char = '$' && next.isDigit then
      let (text, found) ← withoutNumbers position rest
      return (text, (next.toNat - '0'.toNat, position) :: found)
    else
      let (text, found) ← withoutNumbers (← advance position char) (next :: rest)
      return (char :: text, found)

/-- The text without its numbered markers, and their positions by number; markers of one
number stay in order. -/
def cursors (marked : Text) : Except Trap (Text × List Position) := do
  let (text, found) ← withoutNumbers ⟨0, 0⟩ marked
  return (text, (found.mergeSort fun first second => first.1 ≤ second.1).map (·.2))

end RelayWorkbench.Text
