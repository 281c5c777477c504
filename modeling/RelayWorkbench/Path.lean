import RelayWorkbench.Text.Case

/-! File paths. A path keeps the text it was built from; what it denotes is its list of
components, in which repeated and trailing slashes and inner `.` pieces do not count. -/

namespace RelayWorkbench

/-- A path as it was written. -/
structure Path where
  text : Text
  deriving DecidableEq, Repr, Inhabited

namespace Path

/-- One step of a path. -/
inductive Component where
  | root
  | current
  | parent
  | name (text : Text)
  deriving DecidableEq, Repr

def ofString (text : String) : Path := ⟨text.toList⟩

def toString (path : Path) : String := String.ofList path.text

def isAbsolute (path : Path) : Bool := path.text.head? == some '/'

/-- The pieces between slashes with the number of characters up to each one's end. -/
def pieces : Nat → Text → List (Text × Nat)
  | position, [] => [([], position)]
  | position, '/' :: rest => ([], position) :: pieces (position + 1) rest
  | position, char :: rest =>
    match pieces (position + 1) rest with
    | [] => [([char], position + 1)]
    | (piece, stop) :: more => (char :: piece, stop) :: more

/-- The component a piece stands for; `leading` tells a first piece of a relative path. -/
def Component.ofPiece? (leading : Bool) (piece : Text) : Option Component :=
  if piece = [] then none
  else if piece = ['.'] then (if leading then some .current else none)
  else if piece = ['.', '.'] then some .parent
  else some (.name piece)

/-- The components, each with the length of the shortest prefix that contains it. -/
def placedComponents (path : Path) : List (Component × Nat) :=
  match pieces 0 path.text with
  | [] => []
  | (first, stop) :: more =>
    let head := if path.isAbsolute then [(Component.root, 1)]
      else ((Component.ofPiece? true first).map (·, stop)).toList
    head ++ more.filterMap fun (piece, stop) => (Component.ofPiece? false piece).map (·, stop)

def components (path : Path) : List Component := path.placedComponents.map (·.1)

/-- The components that are names. -/
def names (path : Path) : List Text :=
  path.components.filterMap fun
    | .name text => some text
    | _ => none

/-- Two paths with the same components name the same place. -/
def same (first second : Path) : Bool := first.components == second.components

/-- The last component, if it is a name. -/
def fileName? (path : Path) : Option Text :=
  match path.components.getLast? with
  | some (.name text) => some text
  | _ => none

/-- A file name cut at its last dot, unless the only dot comes first. -/
def splitExtension (name : Text) : Text × Option Text :=
  let tail := name.reverse.takeWhile (· ≠ '.')
  match name.reverse.drop tail.length with
  | [] => (name, none)
  | [_] => (name, none)
  | _ :: stem => (stem.reverse, some tail.reverse)

def extension? (path : Path) : Option Text :=
  path.fileName?.bind fun name => (splitExtension name).2

def parent? (path : Path) : Option Path :=
  match path.placedComponents.reverse with
  | [] => none
  | [(.root, _)] => none
  | [_] => some ⟨[]⟩
  | _ :: (_, stop) :: _ => some ⟨path.text.take stop⟩

/-- `name` below `base`; an absolute name replaces the base. -/
def join (base name : Path) : Path :=
  if name.isAbsolute || base.text.isEmpty then name
  else if base.text.getLast? = some '/' then ⟨base.text ++ name.text⟩
  else ⟨base.text ++ '/' :: name.text⟩

/-- The path with its file name replaced, or with `name` appended when there is none. -/
def withFileName (path : Path) (name : Text) : Path :=
  match path.fileName?, path.parent? with
  | some _, some parent => parent.join ⟨name⟩
  | _, _ => path.join ⟨name⟩

/-- Rank of a component's kind in path order. -/
def Component.rank : Component → Nat
  | .root => 0
  | .current => 1
  | .parent => 2
  | .name _ => 3

/-- Whether one text precedes another by code points, which is the order of their bytes. -/
def textBefore : Text → Text → Bool
  | _, [] => false
  | [], _ :: _ => true
  | first :: front, second :: back =>
    first.toNat < second.toNat || (first == second && textBefore front back)

def Component.before : Component → Component → Bool
  | .name first, .name second => textBefore first second
  | first, second => first.rank < second.rank

/-- Path order: component by component, a prefix first. -/
def componentsBefore : List Component → List Component → Bool
  | _, [] => false
  | [], _ :: _ => true
  | first :: front, second :: back =>
    first.before second || (first == second && componentsBefore front back)

def before (first second : Path) : Bool := componentsBefore first.components second.components

/-- Module name of a source file: its file name up to the first dot, capitalized. -/
def moduleName (path : Path) : Text :=
  Text.capitalize ((path.fileName?.getD []).takeWhile (· ≠ '.'))

end Path

end RelayWorkbench
