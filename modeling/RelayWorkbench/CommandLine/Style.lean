import RelayWorkbench.Text.Basic

/-! Parts of messages set off by colour or weight. -/

namespace RelayWorkbench.CommandLine

inductive Style where
  | red
  | green
  | yellow
  | cyan
  | bold
  | dimmed
  deriving DecidableEq, Repr

namespace Style

/-- The terminal's number for a style. -/
def code : Style → Text
  | red => "31".toList
  | green => "32".toList
  | yellow => "33".toList
  | cyan => "36".toList
  | bold => "1".toList
  | dimmed => "2".toList

/-- A text in a style, or plain when nothing is to be coloured. -/
def paint (style : Style) (colored : Bool) (text : Text) : Text :=
  if colored then "\x1b[".toList ++ style.code ++ 'm' :: text ++ "\x1b[0m".toList else text

end Style

end RelayWorkbench.CommandLine
