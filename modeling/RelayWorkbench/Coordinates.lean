/-! Places in a text. A `Span` counts bytes from the start of a text, a `Position` names a
line and a byte column of a host document, and a `RegionPosition` does so inside one embedded
GraphQL region. The three never mix: `Region.toRegion` and `Region.toHost` convert. -/

namespace RelayWorkbench

/-- Bytes `start` up to `stop` of a text. -/
structure Span where
  start : Nat
  stop : Nat
  deriving DecidableEq, Repr, Inhabited

namespace Span

def emptyAt (offset : Nat) : Span := ⟨offset, offset⟩

def isEmpty (span : Span) : Bool := span.start == span.stop

/-- Number of bytes, unless the ends are in the wrong order. -/
def size? (span : Span) : Option Nat :=
  if span.start ≤ span.stop then some (span.stop - span.start) else none

/-- Whether a cursor at `offset` belongs to the span; its end still does. -/
def touches (span : Span) (offset : Nat) : Bool := span.start ≤ offset && offset ≤ span.stop

/-- Whether `inner` lies within `outer`. -/
def covers (outer inner : Span) : Bool := outer.start ≤ inner.start && inner.stop ≤ outer.stop

def display (span : Span) : String := s!"{span.start}..{span.stop}"

end Span

/-- A zero-based line and byte column of a host document. -/
structure Position where
  line : UInt32
  character : UInt32
  deriving DecidableEq, Repr, Inhabited

namespace Position

/-- Positions are ordered by line, then by column. -/
instance : LT Position :=
  ⟨fun first second => first.line < second.line ∨
    (first.line = second.line ∧ first.character < second.character)⟩

instance (first second : Position) : Decidable (first < second) :=
  inferInstanceAs (Decidable (_ ∨ _))

instance : Ord Position := ⟨fun first second => compareOfLessAndEq first second⟩

end Position

/-- The part of a host document from `start` up to `stop`. -/
structure Range where
  start : Position
  stop : Position
  deriving DecidableEq, Repr, Inhabited

namespace Range

def emptyAt (position : Position) : Range := ⟨position, position⟩

def isEmpty (range : Range) : Bool := range.start == range.stop

/-- Whether a position lies in the range; its end does not. -/
def contains (range : Range) (position : Position) : Bool :=
  !decide (position < range.start) && decide (position < range.stop)

/-- The same range with its ends in order. -/
def ordered (range : Range) : Range :=
  if range.stop < range.start then ⟨range.stop, range.start⟩ else range

end Range

/-- A place in a region: lines count from one, and columns of the first line from the
region's first byte. -/
structure RegionPosition where
  line : UInt32
  character : UInt32
  deriving DecidableEq, Repr, Inhabited

namespace RegionPosition

instance : LT RegionPosition :=
  ⟨fun first second => first.line < second.line ∨
    (first.line = second.line ∧ first.character < second.character)⟩

instance (first second : RegionPosition) : Decidable (first < second) :=
  inferInstanceAs (Decidable (_ ∨ _))

instance : Ord RegionPosition := ⟨fun first second => compareOfLessAndEq first second⟩

end RegionPosition

end RelayWorkbench
