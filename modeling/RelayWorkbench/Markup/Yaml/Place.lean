import RelayWorkbench.Text.Basic

/-! Places in a YAML text, and the gaps between its tokens. -/

namespace RelayWorkbench.Markup.Yaml

/-- What is left of a text, and where it begins. -/
structure Place where
  rest : Text
  line : Nat := 0
  column : Nat := 0
  /-- Whether a collection written in block style may begin here. -/
  fresh : Bool := true

/-- A step of reading; a malformed text has no result. -/
abbrev Reading := StateT Place Option

/-- Space and tab. -/
def isBlank (char : Char) : Bool := char == ' ' || char == '\t'

/-- Whether a text begins with white space or is at its end. -/
def startsBlank : Text → Bool
  | [] => true
  | char :: _ => isBlank char || char == '\n'

namespace Place

/-- The place after a run of characters without line feeds. -/
def after (place : Place) (count : Nat) : Place :=
  { place with rest := place.rest.drop count, column := place.column + count }

def isMarker (place : Place) (marker : String) : Bool :=
  place.column == 0 && marker.toList.isPrefixOf place.rest &&
    startsBlank (place.rest.drop marker.length)

def isEnd (place : Place) : Bool :=
  place.rest.isEmpty || place.isMarker "---" || place.isMarker "..."

/-- Whether an indicator stands here with white space after it. -/
def isIndicator (place : Place) (indicator : Char) : Bool :=
  match place.rest with
  | char :: rest => char == indicator && startsBlank rest
  | [] => false

/-- The place of the next token: past spaces, line feeds and comments, and past tabs unless a
block collection may begin there. A line feed outside flow collections makes the place fresh. -/
def skipGap (flow comment : Bool) (line column : Nat) (fresh : Bool) : Text → Place
  | [] => ⟨[], line, column, fresh⟩
  | char :: rest =>
    if char = '\n' then skipGap flow false (line + 1) 0 (fresh || !flow) rest
    else if comment || char = '#' then skipGap flow true line (column + 1) fresh rest
    else if char = ' ' || (char = '\t' && (flow || !fresh)) then
      skipGap flow false line (column + 1) fresh rest
    else ⟨char :: rest, line, column, fresh⟩

def next (place : Place) (flow : Bool) : Place :=
  skipGap flow false place.line place.column place.fresh place.rest

end Place

/-- A gap inside a scalar. -/
inductive Gap where
  /-- Spaces and tabs. -/
  | blanks (text : Text)
  /-- White space with line feeds; `extra` of them beyond the first. A first line feed that is
  escaped joins the lines without a space. -/
  | breaks (extra : Nat) (escaped : Bool)

namespace Gap

/-- What a gap contributes to the value: a single line feed is a space. -/
def folded : Gap → Text
  | blanks text => text
  | breaks 0 escaped => if escaped then [] else [' ']
  | breaks extra _ => List.replicate extra '\n'

def hasBreak : Gap → Bool
  | blanks _ => false
  | breaks .. => true

/-- The gap with a space or tab more. -/
def withBlank (gap : Gap) (char : Char) : Gap :=
  match gap with
  | blanks text => blanks (text ++ [char])
  | gap => gap

/-- The gap with a line feed more. -/
def withBreak : Gap → Gap
  | blanks _ => breaks 0 false
  | breaks extra escaped => breaks (extra + 1) escaped

end Gap

end RelayWorkbench.Markup.Yaml
