import RelayWorkbench.Coordinates
import RelayWorkbench.Text.Basic

/-! An excerpt is a part of a host document together with the bytes it was taken from. -/

namespace RelayWorkbench.Host

structure Excerpt where
  span : Span
  content : Text
  deriving DecidableEq, Repr

/-- The excerpt of a content that starts at an offset. -/
def Excerpt.startingAt (offset : Nat) (content : Text) : Excerpt :=
  ⟨⟨offset, offset + content.width⟩, content⟩

end RelayWorkbench.Host
