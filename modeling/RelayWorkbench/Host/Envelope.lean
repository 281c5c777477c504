import RelayWorkbench.Text.Blank
import RelayWorkbench.Text.Letter

/-! The white space around the GraphQL of a region. A text put into the envelope of a region
stands on lines of its own, indented like the region and followed by its trailing space. -/

namespace RelayWorkbench.Host.Envelope

/-- Indentation in bytes of the first line of a region, when that line starts with a word
character; otherwise zero. -/
def padding (former : Text) : Nat :=
  if ((Text.trimStart former).head?.any Text.isWordChar) then
    ((Text.lines (Text.leadingBlank former)).getLastD []).width
  else 0

/-- The text with `indentation` spaces before every line, blank lines included. -/
def indent (indentation : Nat) (text : Text) : Text :=
  Text.ofLines ((Text.lines text).map (Text.spaces indentation ++ ·))

/-- The text in the envelope of the region text `former`. -/
def restore (text former : Text) : Text :=
  '\n' :: indent (padding former) text ++ Text.trailingBlank former

end RelayWorkbench.Host.Envelope
