import RelayWorkbench.Path

/-! Trees of files, and what paths mean in them. A path is followed component by component from
the root or from the current directory, so that `..` leads to the directory around the one
reached so far. -/

namespace RelayWorkbench.Workspace

inductive Access where
  | full
  | readOnly
  /-- The file cannot even be read. -/
  | denied
  /-- The file can be written, but what it holds is no text. -/
  | binary
  deriving DecidableEq, Repr

/-- A file, or a directory with its entries by name. -/
inductive FileTree where
  | file (contents : Text) (access : Access)
  | directory (entries : List (Text × FileTree))

inductive FileError where
  | notFound
  | denied
  | notDirectory
  | isDirectory
  | nameTooLong
  | notText
  deriving DecidableEq, Repr

def FileError.message : FileError → Text
  | notFound => "No such file or directory (os error 2)".toList
  | denied => "Permission denied (os error 13)".toList
  | notDirectory => "Not a directory (os error 20)".toList
  | isDirectory => "Is a directory (os error 21)".toList
  | nameTooLong => "File name too long (os error 36)".toList
  | notText => "stream did not contain valid UTF-8".toList

namespace FileTree

def isDirectory : FileTree → Bool
  | directory _ => true
  | file .. => false

def isFile : FileTree → Bool
  | file .. => true
  | directory _ => false

def child? (tree : FileTree) (name : Text) : Option FileTree :=
  match tree with
  | directory entries => entries.lookup name
  | file .. => none

/-- The tree at a location, which is the list of names that lead to it. -/
def get? (tree : FileTree) : List Text → Option FileTree
  | [] => some tree
  | name :: rest => (tree.child? name).bind (·.get? rest)

/-- Entries with one of them put in the place of its name, or at the end. -/
def putEntry (name : Text) (tree : FileTree) : List (Text × FileTree) → List (Text × FileTree)
  | [] => [(name, tree)]
  | (other, entry) :: rest =>
    if other = name then (name, tree) :: rest else (other, entry) :: putEntry name tree rest

/-- The tree with another one put at a location. Directories on the way are made; a file on
the way is replaced. -/
def put (tree replacement : FileTree) : List Text → FileTree
  | [] => replacement
  | name :: rest =>
    let entries := match tree with
      | directory entries => entries
      | file .. => []
    let inner := (tree.child? name).getD (directory [])
    directory (putEntry name (inner.put replacement rest) entries)

mutual

/-- The number of directories that stand inside each other. -/
def height : FileTree → Nat
  | file .. => 0
  | directory entries => heightOfEntries entries + 1

def heightOfEntries : List (Text × FileTree) → Nat
  | [] => 0
  | (_, entry) :: rest => max entry.height (heightOfEntries rest)

end

mutual

/-- All files with their locations below `location`. -/
def files (location : List Text) : FileTree → List (List Text × Text)
  | file contents _ => [(location, contents)]
  | directory entries => filesOfEntries location entries

def filesOfEntries (location : List Text) : List (Text × FileTree) → List (List Text × Text)
  | [] => []
  | (name, entry) :: rest => files (location ++ [name]) entry ++ filesOfEntries location rest

end

/-- The files of a tree that an older one does not have, or not with the same text. -/
def changes (older newer : FileTree) : List (List Text × Text) :=
  (newer.files []).filter fun (location, contents) =>
    match older.get? location with
    | some (file before _) => before ≠ contents
    | _ => true

end FileTree

/-- A file system: the tree at its root, and the location of the current directory. -/
structure FileSystem where
  root : FileTree
  current : List Text

namespace FileSystem

def currentPath (system : FileSystem) : Path := ⟨'/' :: Text.joinWith ['/'] system.current⟩

def currentTree (system : FileSystem) : FileTree :=
  (system.root.get? system.current).getD (.directory [])

/-- The longest name of an entry, in bytes. -/
def nameLimit : Nat := 255

/-- The location one component leads to from a location. -/
def step (system : FileSystem) (location : List Text) (component : Path.Component) :
    Except FileError (List Text) :=
  match system.root.get? location with
  | none => .error .notFound
  | some (.file ..) => .error .notDirectory
  | some (.directory entries) =>
    match component with
    | .root => .ok []
    | .current => .ok location
    | .parent => .ok location.dropLast
    | .name name =>
      if nameLimit < name.width then .error .nameTooLong
      else if (entries.lookup name).isSome then .ok (location ++ [name])
      else .error .notFound

/-- Where a path starts. -/
def base (system : FileSystem) (path : Path) : List Text :=
  if path.isAbsolute then [] else system.current

/-- Whether a path is written so that only a directory will do. -/
def wantsDirectory (path : Path) : Bool :=
  path.text.getLast? == some '/' || ['/', '.'].isSuffixOf path.text

/-- The location a path leads to. -/
def locate (system : FileSystem) (path : Path) : Except FileError (List Text) := do
  if path.text.isEmpty then throw .notFound
  let location ← path.components.foldlM system.step (system.base path)
  match system.root.get? location with
  | none => throw .notFound
  | some (.file ..) => if wantsDirectory path then throw .notDirectory else return location
  | some (.directory _) => return location

/-- What a path leads to. -/
def entry? (system : FileSystem) (path : Path) : Option FileTree :=
  match system.locate path with
  | .ok location => system.root.get? location
  | .error _ => none

def pathExists (system : FileSystem) (path : Path) : Bool := (system.entry? path).isSome

def isFile (system : FileSystem) (path : Path) : Bool := (system.entry? path).any (·.isFile)

def isDirectory (system : FileSystem) (path : Path) : Bool :=
  (system.entry? path).any (·.isDirectory)

/-- The names in the directory a path leads to, in increasing order. -/
def names (system : FileSystem) (path : Path) : List Text :=
  match system.entry? path with
  | some (.directory entries) =>
    (entries.map (·.1)).mergeSort fun first second => !Path.textBefore second first
  | _ => []

def read (system : FileSystem) (path : Path) : Except FileError Text := do
  let location ← system.locate path
  match system.root.get? location with
  | none => throw .notFound
  | some (.directory _) => throw .isDirectory
  | some (.file contents access) =>
    match access with
    | .full | .readOnly => return contents
    | .denied => throw .denied
    | .binary => throw .notText

/-- The location a file is written at: that of the path, or a new name in a directory. -/
def target (system : FileSystem) (path : Path) : Except FileError (List Text) :=
  match system.locate path, path.fileName?, path.parent? with
  | .error .notFound, some name, some parent => do
    if wantsDirectory path then throw .isDirectory
    let directory ← if parent.text.isEmpty then pure system.current else system.locate parent
    match system.root.get? directory with
    | some (.directory _) => return directory ++ [name]
    | some (.file ..) => throw .notDirectory
    | none => throw .notFound
  | located, _, _ => located

/-- The file system with a text written to a file, which is made if there is none. -/
def write (system : FileSystem) (path : Path) (contents : Text) : Except FileError FileSystem := do
  let location ← system.target path
  let written := { system with root := system.root.put (.file contents .full) location }
  match system.root.get? location with
  | none => return written
  | some (.directory _) => throw .isDirectory
  | some (.file _ access) =>
    match access with
    | .full | .binary => return written
    | .readOnly | .denied => throw .denied

end FileSystem

end RelayWorkbench.Workspace
