import RelayWorkbench.Text.Blank
import RelayWorkbench.Workspace.Configuration
import RelayWorkbench.Workspace.Glob

/-! The files that the entries of a schema stand for. -/

namespace RelayWorkbench.Workspace

namespace SchemaEntry

/-- The text with every run of slashes made one. -/
def collapseSlashes : Text → Text
  | '/' :: '/' :: rest => collapseSlashes ('/' :: rest)
  | char :: rest => char :: collapseSlashes rest
  | [] => []

/-- An entry without a leading `./` and with single slashes. -/
def normalize (entry : Text) : Text :=
  collapseSlashes (match entry with
    | '.' :: '/' :: rest => rest
    | entry => entry)

/-- The pieces between separators. -/
def splitAtEach (separator : Char) : Text → List Text
  | [] => [[]]
  | char :: rest =>
    match splitAtEach separator rest with
    | [] => [[char]]
    | piece :: more => if char = separator then [] :: piece :: more else (char :: piece) :: more

/-- The patterns of an entry: one for each option of its first pair of braces. -/
def expandBraces (entry : Text) : List Text :=
  let normal := normalize entry
  match Text.cut? ['{'] normal with
  | none => [normal]
  | some (before, inside) =>
    match Text.cut? ['}'] inside with
    | none => [normal]
    | some (options, after) =>
      (splitAtEach ',' options).map fun option => before ++ Text.trim option ++ after

def isGlob (pattern : Text) : Bool := pattern.any ['*', '?', '['].contains

end SchemaEntry

/-- A pattern that is not well formed. -/
structure InvalidPattern where
  pattern : Text
  error : Glob.PatternError
  deriving DecidableEq, Repr

def InvalidPattern.message (invalid : InvalidPattern) : Text :=
  "Invalid schema pattern '".toList ++ invalid.pattern ++ "': ".toList ++ invalid.error.message

/-- The files of a pattern below a directory; a pattern without wildcards is a path, whether or
not there is such a file. -/
def patternFiles (system : FileSystem) (directory : Path) (pattern : Text) :
    Except InvalidPattern (List Path) :=
  let path := directory.join ⟨pattern⟩
  if SchemaEntry.isGlob pattern then
    (Glob.expand system path.text).mapError (⟨pattern, ·⟩)
  else .ok [path]

/-- The list without the elements that name the same place as the one before. -/
def dropRepeats : List Path → List Path
  | [] => []
  | first :: rest =>
    match dropRepeats rest with
    | [] => [first]
    | second :: more => if first.same second then first :: more else first :: second :: more

/-- The files that the entries of a schema stand for below a directory. Entries on the web
stand for none. -/
def schemaFiles (system : FileSystem) (directory : Path) (entries : List Text) :
    Except InvalidPattern (List Path) := do
  let patterns := (entries.filter (!isRemote ·)).flatMap SchemaEntry.expandBraces
  let files ← patterns.mapM (patternFiles system directory)
  return dropRepeats files.flatten

end RelayWorkbench.Workspace
