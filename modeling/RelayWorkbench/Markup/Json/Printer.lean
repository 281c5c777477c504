import RelayWorkbench.Markup.Json

/-! JSON texts laid out with an entry a line. -/

namespace RelayWorkbench.Markup.Json

def indentation : Nat := 2

/-- Entries between brackets, on lines of their own. -/
def bracketed (first last : Char) (indent : Nat) (entries : List Text) : Text :=
  if entries.isEmpty then [first, last]
  else
    let lines := entries.map (Text.spaces (indent + indentation) ++ ·)
    first :: '\n' :: Text.joinWith [',', '\n'] lines ++ '\n' :: Text.spaces indent ++ [last]

mutual

/-- A value whose first line is indented by `indent` already. -/
def layout (indent : Nat) : Datum → Text
  | .null => "null".toList
  | .boolean value => (toString value).toList
  | .whole value => Nat.toDigits 10 value
  | .number written => written
  | .text value => quoted value
  | .list items => bracketed '[' ']' indent (layoutItems (indent + indentation) items)
  | .map entries => bracketed '{' '}' indent (layoutEntries (indent + indentation) entries)

def layoutItems (indent : Nat) : List Datum → List Text
  | [] => []
  | item :: rest => layout indent item :: layoutItems indent rest

def layoutEntries (indent : Nat) : List (Datum × Datum) → List Text
  | [] => []
  | (key, value) :: rest =>
    (layout indent key ++ ':' :: ' ' :: layout indent value) :: layoutEntries indent rest

end

end RelayWorkbench.Markup.Json
