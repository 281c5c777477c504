/-! A text is a list of characters measured in UTF-8 bytes: every offset, span and
column of the library counts bytes, and a cut inside a character does not exist. -/

namespace RelayWorkbench

/-- A text, character by character. -/
abbrev Text := List Char

namespace Text

/-- Length in UTF-8 bytes. -/
def width : Text → Nat
  | [] => 0
  | char :: rest => char.utf8Size + width rest

@[simp] theorem width_nil : width [] = 0 := rfl

@[simp] theorem width_cons (char : Char) (rest : Text) :
    width (char :: rest) = char.utf8Size + width rest := rfl

theorem width_append (front back : Text) : width (front ++ back) = width front + width back := by
  induction front with
  | nil => simp
  | cons char rest ih => simp [ih, Nat.add_assoc]

/-- Both sides of a byte offset, unless it lies past the end or inside a character. -/
def splitAt? (offset : Nat) : Text → Option (Text × Text)
  | [] => if offset = 0 then some ([], []) else none
  | char :: rest =>
    if offset = 0 then some ([], char :: rest)
    else if char.utf8Size ≤ offset then
      (splitAt? (offset - char.utf8Size) rest).map fun (front, back) => (char :: front, back)
    else none

/-- The bytes from `start` up to `stop`, when both are character boundaries in order. -/
def slice? (text : Text) (start stop : Nat) : Option Text := do
  if stop < start then none
  let (_, back) ← splitAt? start text
  let (middle, _) ← splitAt? (stop - start) back
  return middle

/-- The pieces between line feeds; a text without one is a single line. -/
def lines : Text → List Text
  | [] => [[]]
  | '\n' :: rest => [] :: lines rest
  | char :: rest =>
    match lines rest with
    | [] => [[char]]
    | line :: more => (char :: line) :: more

/-- Lines put back together with line feeds between them. -/
def ofLines : List Text → Text
  | [] => []
  | [line] => line
  | line :: more => line ++ '\n' :: ofLines more

/-- What follows `needle` at its first occurrence, and what precedes it. -/
def cut? (needle : Text) : Text → Option (Text × Text)
  | [] => if needle.isEmpty then some ([], []) else none
  | char :: rest =>
    if needle.isPrefixOf (char :: rest) then some ([], (char :: rest).drop needle.length)
    else (cut? needle rest).map fun (before, after) => (char :: before, after)

def occursIn (needle text : Text) : Bool := (cut? needle text).isSome

/-- The text without the first occurrence of `needle`. -/
def eraseFirst (needle text : Text) : Text :=
  match cut? needle text with
  | some (before, after) => before ++ after
  | none => text

/-- Join texts with a separator between neighbours. -/
def joinWith (separator : Text) (texts : List Text) : Text := separator.intercalate texts

def spaces (count : Nat) : Text := List.replicate count ' '

end Text

end RelayWorkbench
