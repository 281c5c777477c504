import RelayWorkbench.Host.Region

/-! Conversion between host positions and region positions. Positions are words of 32 bits:
subtraction stops at zero, and a sum that is not a word ends the program. -/

namespace RelayWorkbench.Host

/-- Subtraction of words that stops at zero. -/
def monus (first second : UInt32) : UInt32 := if first < second then 0 else first - second

namespace Region

/-- A host position in the space of the region: the region's first line is line one, and
columns of that line count from the region's start. -/
def toRegion (region : Region) (host : Position) : Except Trap RegionPosition := do
  let line ← Checked.sum (monus host.line region.start.line) 1
  return ⟨line,
    if host.line = region.start.line then monus host.character region.start.character
    else host.character⟩

/-- The host position of a region position. Both lines are added before the one is taken off. -/
def toHost (region : Region) (position : RegionPosition) : Except Trap Position := do
  if position.line ≤ 1 then
    return ⟨region.start.line, ← Checked.sum region.start.character position.character⟩
  else return ⟨(← Checked.sum region.start.line position.line) - 1, position.character⟩

/-- The ends of a host selection in the space of the region, in order. -/
def normalizeSelection (region : Region) (selection : Range) :
    Except Trap (RegionPosition × RegionPosition) := do
  let first ← region.toRegion selection.start
  let last ← region.toRegion selection.stop
  return if last < first then (last, first) else (first, last)

end Region

/-- Converts between byte offsets in a region's content and region positions. -/
structure RegionLocator where
  index : LineIndex

namespace RegionLocator

def ofContent (content : Text) : RegionLocator := ⟨LineIndex.ofText content⟩

def position (locator : RegionLocator) (offset : Nat) : Except Trap RegionPosition := do
  let (line, column) := locator.index.lineColumn offset
  return ⟨← Checked.sum (UInt32.ofNat line) 1, UInt32.ofNat column⟩

/-- The offset of a region position, unless its line is outside the region. -/
def offset? (locator : RegionLocator) (position : RegionPosition) : Except Trap (Option Nat) :=
  match position.line.toNat with
  | 0 => return none
  | line + 1 => locator.index.offset? line position.character.toNat

def ends (locator : RegionLocator) (span : Span) :
    Except Trap (RegionPosition × RegionPosition) := do
  return (← locator.position span.start, ← locator.position span.stop)

end RegionLocator

end RelayWorkbench.Host
