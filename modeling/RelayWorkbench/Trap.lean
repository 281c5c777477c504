/-! Operations that may end a program where they have no result. Sums of words are such: they do not
wrap around. What can stop at one of them returns its trap. -/

namespace RelayWorkbench

/-- What ends a program. -/
inductive Trap where
  /-- A sum is not a word. -/
  | overflow
  /-- A difference is not a word. -/
  | underflow
  /-- A place is outside of a list. -/
  | outside
  /-- The ends of a slice are out of order, outside of the text or inside a character. -/
  | slice
  deriving DecidableEq, Repr

def Trap.message : Trap → String
  | overflow => "attempt to add with overflow"
  | underflow => "attempt to subtract with overflow"
  | outside => "index out of bounds"
  | slice => "slice out of bounds or inside a character"

namespace Checked

/-- The sum of two words of 32 bits. -/
def sum (first second : UInt32) : Except Trap UInt32 :=
  if first.toNat + second.toNat < UInt32.size then return first + second else throw .overflow

/-- The sum of two numbers that are words of 64 bits. -/
def wideSum (first second : Nat) : Except Trap Nat :=
  if first + second < UInt64.size then return first + second else throw .overflow

end Checked

end RelayWorkbench
