import RelayWorkbench.Coordinates
import RelayWorkbench.Path

/-! Edits and new files handed back to the owner of a host document. -/

namespace RelayWorkbench.Host

/-- Replace a range of a host document by a text; an empty text deletes. -/
structure TextEdit where
  range : Range
  newText : Text
  deriving DecidableEq, Repr

def TextEdit.isDeletion (edit : TextEdit) : Bool := edit.newText.isEmpty && !edit.range.isEmpty

structure NewFile where
  path : Path
  contents : Text
  deriving DecidableEq, Repr

end RelayWorkbench.Host
