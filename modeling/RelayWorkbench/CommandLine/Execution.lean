import RelayWorkbench.CommandLine.Session
import RelayWorkbench.Markup.Json.Printer
import RelayWorkbench.Relay.CodeAction
import RelayWorkbench.Relay.Formatting

/-! The commands of the program. -/

namespace RelayWorkbench.CommandLine

open RelayWorkbench.GraphQL RelayWorkbench.Host RelayWorkbench.Markup RelayWorkbench.Relay
open RelayWorkbench.Workspace

def versionText : Text := "reason-relay 0.1.0\n".toList

/-- Actions with their numbers, which count from one. -/
def numbered (actions : List CodeAction) : List (Nat × CodeAction) :=
  (List.range' 1 actions.length).zip actions

/-- A number, moved to the right in a column of three. -/
def numberColumn (number : Nat) : Text :=
  let digits := Nat.toDigits 10 number
  Text.spaces (3 - digits.length) ++ digits

def actionLine (colored : Bool) (number : Nat) (action : CodeAction) : Text :=
  numberColumn number ++ ')' :: ' ' :: Style.bold.paint colored action.title ++
    ' ' :: Style.dimmed.paint colored ('(' :: action.kind ++ [')']) ++ ['\n']

def actionDatum (number : Nat) (action : CodeAction) : Datum :=
  let entry := fun (key : String) (value : Datum) => (Datum.text key.toList, value)
  .map ([entry "index" (.whole number), entry "title" (.text action.title),
    entry "kind" (.text action.kind)] ++
      (action.command?.map fun command => entry "command" (.text command.title)).toList)

/-- The number of an action as a text writes it. -/
def actionNumber? (text : Text) : Option Nat :=
  let digits := match text with
    | '+' :: digits => digits
    | digits => digits
  if digits.isEmpty || !digits.all Char.isDigit || UInt64.size ≤ Text.decimalValue digits then none
  else some (Text.decimalValue digits)

/-- The action that a number or a title stands for. -/
def chosenAction? (actions : List CodeAction) (choice : Text) : Option CodeAction :=
  match actionNumber? choice with
  | some 0 => none
  | some (index + 1) => actions[index]?
  | none => actions.find? (·.title = choice)

/-- How the success of a scaffold names its kind. -/
def kindLabel : ModuleKind → Text
  | .fragment => "Fragment".toList
  | .operation kind => Text.capitalize kind.keyword

/-- The items of the question for a choice, if it was asked. -/
def offeredItems? (asked : List Scaffold.Prompt) : Option (List Text) :=
  asked.findSome? fun
    | .pick _ items => some items
    | .input .. => none

namespace Steps

def actionsAt (file : HostFile) (place : Place) : Steps (List CodeAction) := do
  match CodeAction.available (file.request place) (some (← schemaFor file)) with
  | .ok actions => return actions
  | .error trap => throw (.trapped trap)

def listActions (path : Path) (place : Place) (asJson : Bool) : Steps ExitCode := do
  let actions ← actionsAt (← readHost path) place
  if asJson then
    let items := (numbered actions).map fun (number, action) => actionDatum number action
    print (Json.layout 0 (.list items) ++ ['\n'])
  else if actions.isEmpty then
    inform ((← styled .yellow "No refactors available here".toList) ++ ['\n'])
  else
    let colored := (← settings).colored
    print ((numbered actions).flatMap fun (number, action) => actionLine colored number action)
  return .success

def applyAction (path : Path) (place : Place) (choice : Text) (dryRun : Bool) :
    Steps ExitCode := do
  let file ← readHost path
  let actions ← actionsAt file place
  let some action := chosenAction? actions choice
    | throw (.noMatch choice path place (actions.map (·.title)))
  let some edit := action.edit? | throw (.needsName action.title)
  deliver path (← revised file [edit]) dryRun
  celebrate action.title dryRun
  return .success

/-- Move the selected fields to a component of their own, which is written first. -/
def extractFragment (path : Path) (place : Place) (component : Text)
    (keepSelection dryRun : Bool) : Steps ExitCode := do
  let file ← readHost path
  let some command := (← actionsAt file place).findSome? (·.command?) | throw .nothingToExtract
  match command.perform (file.request place) ⟨component, !keepSelection⟩ path with
  | .error error => throw (.extraction error)
  | .ok extracted =>
    if !dryRun && (← system).pathExists extracted.file.path then
      throw (.alreadyExists extracted.file.path)
    let updated ← revised file [extracted.edit]
    deliver extracted.file.path extracted.file.contents dryRun
    deliver path updated dryRun
    celebrate ("Created ".toList ++ extracted.file.path.text ++ " with fragment ".toList ++
      (← styled .bold extracted.fragmentName)) dryRun
    return .success

/-- Warn about a choice that was not among the items it was asked for. -/
def warnOfPick (pick : Option Text) (asked : List Scaffold.Prompt) : Steps Unit := do
  match pick, offeredItems? asked with
  | some pick, some items =>
    if !items.contains pick then
      complain ((← styled .yellow "Warning:".toList) ++ ' ' :: Text.quoted pick ++
        " is not one of the choices\n".toList)
  | _, _ => return

/-- Add a module to a component. -/
def scaffoldModule (kind : ModuleKind) (path : Path) (line : Option UInt32) (pick : Option Text)
    (names : List Text) (dryRun : Bool) : Steps ExitCode := do
  let file ← readHost path
  if file.language ≠ .reason then throw .notReason
  let answers : Scaffold.Answers :=
    { pick := fun items => pick.filter items.contains, names := names.map some }
  let (made, asked) := scaffold kind (← schemaFor file) file.moduleName file.text answers
  warnOfPick pick asked
  match made with
  | none =>
    unlessQuiet (do complain ((← styled .yellow "Nothing scaffolded".toList) ++ ['\n']))
    return .unsuccessful
  | some made =>
    deliver path (Scaffold.insertModule file.text made (line.map (·.toNat))) dryRun
    celebrate ("Added ".toList ++ kindLabel kind ++ " module to ".toList ++ path.text) dryRun
    return .success

/-- Lay out a file and tell whether it needed it; a check leaves it as it is. -/
def layOut (path : Path) (checkOnly : Bool) : Steps Bool := do
  let file ← readHost path
  let edits := layoutEdits file.language.identifier file.text
  if edits.isEmpty then return false
  if !checkOnly then
    write path (← revised file edits)
    let count := "(".toList ++ Nat.toDigits 10 edits.length ++ " regions)".toList
    inform ((← styled .green "Formatted".toList) ++ ' ' :: path.text ++
      ' ' :: (← styled .dimmed count) ++ ['\n'])
  return true

def format (paths : List Path) (checkOnly : Bool) : Steps ExitCode := do
  let needy ← paths.filterM (layOut · checkOnly)
  if !checkOnly then return .success
  if needy.isEmpty then
    celebrate "All files formatted".toList false
    return .success
  let label ← styled .yellow "Needs formatting:".toList
  print (needy.flatMap fun path => label ++ ' ' :: path.text ++ ['\n'])
  return .unsuccessful

def reportSchema (root : Path) : Steps Unit := do
  match loadSchema (← system) root with
  | .ok schema =>
    celebrate ("Loaded schema with ".toList ++ Nat.toDigits 10 schema.types.length ++
      " types".toList) false
  | .error _ =>
    complain ((← styled .red ['✗']) ++
      " Schema failed to load (run with RUST_LOG=warn for details)\n".toList)

/-- What is done before the first change of a watched workspace. -/
def beginWatch : Steps ExitCode := do
  let root := (← settings).root.getD (← system).currentPath
  let some path := findConfiguration? (← system) root | throw (.noConfiguration root)
  match loadConfiguration (← system) path with
  | .error error => throw (.configuration error)
  | .ok configuration =>
    if configuration.default?.isNone then throw (.noDefaultProject path)
    reportSchema root
    inform ((← styled .cyan ['●']) ++ " Watching ".toList ++ (path.parent?.getD root).text ++
      " for schema changes... (press ".toList ++ (← styled .bold "Ctrl+C".toList) ++
      " to stop)\n".toList)
    return .success

def perform : Command → Steps ExitCode
  | .actions file place asJson => listActions file place asJson
  | .apply file place action dryRun => applyAction file place action dryRun
  | .extractFragment file place component keepSelection dryRun =>
    extractFragment file place component keepSelection dryRun
  | .scaffold kind file line pick names dryRun => scaffoldModule kind file line pick names dryRun
  | .format files checkOnly => format files checkOnly
  | .watch => beginWatch

end Steps

/-- What a run of the program leaves behind. -/
structure Outcome where
  code : ExitCode
  output : Text
  errors : Text
  system : FileSystem

/-- The end of a session whose steps gave a result. -/
def Session.finish (session : Session) : Except Failure ExitCode → Outcome
  | .ok code => ⟨code, session.output, session.errors, session.system⟩
  | .error failure =>
    ⟨failure.exitCode, session.output, session.errors ++ failure.report session.settings.colored,
      session.system⟩

/-- Do what a command line asks for. -/
def Invocation.execute (system : FileSystem) : Invocation → Outcome
  | .version => ⟨.success, versionText, [], system⟩
  | .run settings command =>
    let (result, session) := (Steps.perform command).run.run { settings, system }
    session.finish result

end RelayWorkbench.CommandLine
