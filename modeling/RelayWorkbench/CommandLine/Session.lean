import RelayWorkbench.CommandLine.Failure
import RelayWorkbench.Host.Language
import RelayWorkbench.Host.Revision
import RelayWorkbench.Relay.Request
import RelayWorkbench.Workspace.WorkspaceSchema

/-! A session of the program: the files, what has been printed so far, and the steps a command
is made of. A failure ends the command but undoes nothing. -/

namespace RelayWorkbench.CommandLine

open RelayWorkbench.GraphQL RelayWorkbench.Host RelayWorkbench.Relay RelayWorkbench.Workspace

structure Session where
  settings : Settings
  system : FileSystem
  /-- What went to standard output. -/
  output : Text := []
  /-- What went to standard error. -/
  errors : Text := []

/-- Steps that read and change a session, and may fail. -/
abbrev Steps := ExceptT Failure (StateM Session)

structure HostFile where
  path : Path
  text : Text
  language : Language
  moduleName : Text

namespace HostFile

def request (file : HostFile) (place : Place) : Request :=
  { language := file.language.identifier, text := file.text, selection := place.selection,
    moduleName := file.moduleName }

/-- Where the configuration for the file is looked for: from the root that was given, else from
the file's directory. -/
def workspaceRoot (file : HostFile) (root : Option Path) : Path :=
  match root.or file.path.parent? with
  | some directory => if directory.text.isEmpty then ⟨['.']⟩ else directory
  | none => ⟨['.']⟩

end HostFile

namespace Steps

def settings : Steps Settings := do return (← get).settings

def system : Steps FileSystem := do return (← get).system

/-- A text in a style, if the session is coloured. -/
def styled (style : Style) (text : Text) : Steps Text := do
  return style.paint (← settings).colored text

def print (text : Text) : Steps Unit :=
  modify fun session => { session with output := session.output ++ text }

def complain (text : Text) : Steps Unit :=
  modify fun session => { session with errors := session.errors ++ text }

/-- Steps that only a session that is not quiet takes. -/
def unlessQuiet (steps : Steps Unit) : Steps Unit := do
  if !(← settings).quiet then steps

/-- Text on what has been done. -/
def inform (text : Text) : Steps Unit := unlessQuiet (print text)

def readHost (path : Path) : Steps HostFile := do
  let some language := Language.ofPath? path | throw (.notHost path)
  match (← system).read path with
  | .ok text => return { path, text, language, moduleName := path.moduleName }
  | .error error => throw (.unreadable path error)

def schemaFor (file : HostFile) : Steps Schema := do
  let root := file.workspaceRoot (← settings).root
  match loadSchema (← system) root with
  | .ok schema => return schema
  | .error _ => throw (.noSchema root)

/-- The text of a file with edits carried out. -/
def revised (file : HostFile) (edits : List TextEdit) : Steps Text :=
  match revise file.text edits with
  | .ok text => return text
  | .error (.outside position) => throw (.outsideFile position)
  | .error (.trapped trap) => throw (.trapped trap)

def write (path : Path) (contents : Text) : Steps Unit := do
  match (← system).write path contents with
  | .ok system => modify fun session => { session with system }
  | .error error => throw (.unwritable path error)

/-- Write a file or, in a dry run, show what it would hold. -/
def deliver (path : Path) (contents : Text) (dryRun : Bool) : Steps Unit := do
  if dryRun then
    let heading := (← styled .dimmed "//".toList) ++ ' ' :: (← styled .dimmed path.text)
    print (heading ++ '\n' :: contents)
  else write path contents

/-- Report a success, unless it was a dry run. -/
def celebrate (text : Text) (dryRun : Bool) : Steps Unit := do
  if !dryRun then inform ((← styled .green ['✓']) ++ ' ' :: text ++ ['\n'])

end Steps

end RelayWorkbench.CommandLine
