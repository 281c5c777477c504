import RelayWorkbench.Coordinates
import RelayWorkbench.Text.Basic
import RelayWorkbench.Trap

/-! The line index of a text converts byte offsets to lines and columns and back. A line
ends at a line feed only; offsets and columns past an end are moved back to it. -/

namespace RelayWorkbench

/-- Where each line of a text starts, and how long the text is. -/
structure LineIndex where
  starts : List Nat
  width : Nat
  deriving DecidableEq, Repr

namespace LineIndex

/-- Offsets just past each line feed of a text that begins at `offset`. -/
def startsAfter (offset : Nat) : Text → List Nat
  | [] => []
  | char :: rest =>
    let next := offset + char.utf8Size
    if char = '\n' then next :: startsAfter next rest else startsAfter next rest

def ofText (text : Text) : LineIndex := ⟨0 :: startsAfter 0 text, text.width⟩

def lineCount (index : LineIndex) : Nat := index.starts.length

def lineStart? (index : LineIndex) (line : Nat) : Option Nat := index.starts[line]?

/-- Line and column of an offset: the last line that starts at or before it. -/
def lineColumn (index : LineIndex) (offset : Nat) : Nat × Nat :=
  let clamped := min offset index.width
  let passed := index.starts.takeWhile (· ≤ clamped)
  (passed.length - 1, clamped - passed.getLastD 0)

/-- `lineColumn` in words of 32 bits. -/
def position (index : LineIndex) (offset : Nat) : Position :=
  let (line, column) := index.lineColumn offset
  ⟨UInt32.ofNat line, UInt32.ofNat column⟩

/-- Offset of a line and column; a column past the end of its line is moved back to it. -/
def offset? (index : LineIndex) (line column : Nat) : Except Trap (Option Nat) := do
  let some start := index.lineStart? line | return none
  let stop := match index.lineStart? (line + 1) with
    | some next => next - 1
    | none => index.width
  return some (min (← Checked.wideSum start column) stop)

def endPosition (index : LineIndex) : Position := index.position index.width

end LineIndex

end RelayWorkbench
