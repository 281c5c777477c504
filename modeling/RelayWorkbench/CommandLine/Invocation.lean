import RelayWorkbench.CommandLine.Arguments
import RelayWorkbench.Coordinates
import RelayWorkbench.Path
import RelayWorkbench.Relay.Scaffold
import RelayWorkbench.Text.Numeral

/-! What a command line asks for. -/

namespace RelayWorkbench.CommandLine

open RelayWorkbench.Relay

/-- What holds for every command. -/
structure Settings where
  /-- Where the configuration is looked for. -/
  root : Option Path
  colored : Bool
  /-- Only errors are reported. -/
  quiet : Bool
  deriving DecidableEq, Repr

/-- A cursor or a selection, with lines and columns counted from one. -/
structure Place where
  line : UInt32
  column : UInt32
  endLine : Option UInt32
  endColumn : Option UInt32
  deriving DecidableEq, Repr

namespace Place

/-- The position of a line and a column; zero is taken for one. -/
def position (line column : UInt32) : Position :=
  ⟨if line = 0 then 0 else line - 1, if column = 0 then 0 else column - 1⟩

/-- The selection of a place. An end without a line is on the first line; one without a column
is in the first column. -/
def selection (place : Place) : Range :=
  let start := position place.line place.column
  match place.endLine, place.endColumn with
  | none, none => ⟨start, start⟩
  | line, column => ⟨start, position (line.getD place.line) (column.getD 1)⟩

end Place

/-- A command with what it needs to know. A dry run prints what would be written. -/
inductive Command where
  | actions (file : Path) (place : Place) (asJson : Bool)
  | apply (file : Path) (place : Place) (action : Text) (dryRun : Bool)
  | extractFragment (file : Path) (place : Place) (component : Text)
      (keepSelection dryRun : Bool)
  | scaffold (kind : ModuleKind) (file : Path) (line : Option UInt32) (pick : Option Text)
      (names : List Text) (dryRun : Bool)
  | format (files : List Path) (checkOnly : Bool)
  | watch
  deriving DecidableEq, Repr

/-- What a command line asks for. -/
inductive Invocation where
  | version
  | run (settings : Settings) (command : Command)
  deriving DecidableEq, Repr

/-- The options that every command takes; they may also stand before the command. -/
def globalForms : List OptionForm :=
  [{ name := "root", letter := some 'r', takesValue := true }, { name := "color" },
    { name := "no-color" }, { name := "quiet", letter := some 'q' }, { name := "no-progress" }]

def versionForm : OptionForm := { name := "version", letter := some 'V' }

/-- The options that say where a command works. -/
def placeForms : List OptionForm :=
  [{ name := "line", letter := some 'l', takesValue := true },
    { name := "column", letter := some 'c', takesValue := true },
    { name := "end-line", takesValue := true }, { name := "end-column", takesValue := true }]

/-- The commands and the options of each. -/
def commandForms : List (String × List OptionForm) :=
  [("actions", placeForms ++ [{ name := "format", letter := some 'f', takesValue := true }]),
    ("apply", placeForms ++ [{ name := "action", letter := some 'a', takesValue := true },
      { name := "dry-run" }]),
    ("extract-fragment", placeForms ++
      [{ name := "name", letter := some 'n', takesValue := true }, { name := "keep-selection" },
        { name := "dry-run" }]),
    ("scaffold", [{ name := "line", takesValue := true }, { name := "pick", takesValue := true },
      { name := "name", takesValue := true, isRepeatable := true }, { name := "no-input" },
      { name := "dry-run" }]),
    ("format", [{ name := "check" }]),
    ("watch", [])]

/-- The number of 32 bits that a text writes, with a sign if it likes. -/
def word? (text : Text) : Option UInt32 :=
  let (isNegative, digits) := match text with
    | '-' :: digits => (true, digits)
    | '+' :: digits => (false, digits)
    | digits => (false, digits)
  let value := Text.decimalValue digits
  if digits.isEmpty || !digits.all Char.isDigit || UInt32.size ≤ value then none
  else if isNegative && value ≠ 0 then none
  else some (UInt32.ofNat value)

/-- A path must not be empty. -/
def path? (text : Text) : Option Path := if text.isEmpty then none else some ⟨text⟩

/-- The outer option is `none` when a value is there but cannot be read. -/
def readOptional {α : Type} (read : Text → Option α) : Option Text → Option (Option α)
  | none => some none
  | some text => (read text).map some

namespace Settings

/-- The settings that the items of one level give. Colour cannot be asked for and refused. -/
def ofItems? (items : List Item) : Option Settings := do
  if hasFlag "color" items && hasFlag "no-color" items then none
  return {
    root := ← readOptional path? (valueOf? "root" items)
    colored := hasFlag "color" items
    quiet := hasFlag "quiet" items }

/-- Settings given before and after the name of a command; the later root counts. -/
def merge (outer inner : Settings) : Settings :=
  { root := inner.root.or outer.root
    colored := outer.colored || inner.colored
    quiet := outer.quiet || inner.quiet }

end Settings

def Place.ofItems? (items : List Item) : Option Place := do
  return {
    line := ← word? (← valueOf? "line" items)
    column := (← readOptional word? (valueOf? "column" items)).getD 1
    endLine := ← readOptional word? (valueOf? "end-line" items)
    endColumn := ← readOptional word? (valueOf? "end-column" items) }

/-- Whether a named format is JSON; the other one is for humans. -/
def isJson? (name : Text) : Option Bool :=
  if name = "json".toList then some true
  else if name = "human".toList then some false
  else none

/-- The only operand of a command, which is a file. -/
def onlyFile? (items : List Item) : Option Path :=
  match operands items with
  | [file] => path? file
  | _ => none

namespace Command

/-- The command of a name with the items that follow it. -/
def ofItems? (name : Text) (items : List Item) : Option Command :=
  match String.ofList name with
  | "actions" => do
    let asJson := (← readOptional isJson? (valueOf? "format" items)).getD false
    return actions (← onlyFile? items) (← Place.ofItems? items) asJson
  | "apply" => do
    return apply (← onlyFile? items) (← Place.ofItems? items) (← valueOf? "action" items)
      (hasFlag "dry-run" items)
  | "extract-fragment" => do
    return extractFragment (← onlyFile? items) (← Place.ofItems? items) (← valueOf? "name" items)
      (hasFlag "keep-selection" items) (hasFlag "dry-run" items)
  | "scaffold" => do
    let [kind, file] := operands items | none
    return scaffold (← ModuleKind.ofName? (String.ofList kind)) (← path? file)
      (← readOptional word? (valueOf? "line" items)) (valueOf? "pick" items)
      (valuesOf "name" items) (hasFlag "dry-run" items)
  | "format" => do
    let files ← (operands items).mapM path?
    if files.isEmpty then none
    return format files (hasFlag "check" items)
  | "watch" => if (operands items).isEmpty then some watch else none
  | _ => none

/-- A command and its settings from the arguments that follow its name. -/
def ofArguments? (name : Text) (arguments : List Text) : Option (Settings × Command) := do
  let forms := globalForms ++ (← commandForms.lookup (String.ofList name))
  let level := Level.read forms [] none arguments
  if level.ending ≠ .complete || !hasNoRepeats forms level.items then none
  return (← Settings.ofItems? level.items, ← ofItems? name level.items)

end Command

namespace Invocation

/-- Whether what stands before the command, or before the question for the version, is fine. -/
def isFineStart (items : List Item) : Bool :=
  (operands items).isEmpty && hasNoRepeats globalForms items &&
    (readOptional path? (valueOf? "root" items)).isSome

/-- What a command line asks for, if it is well formed. The version is told as soon as it is
asked for. -/
def ofArguments? (arguments : List Text) : Option Invocation := do
  let commands := commandForms.map (·.1.toList)
  let level := Level.read (versionForm :: globalForms) commands none arguments
  let start := level.items.takeWhile (· ≠ .flag versionForm.name)
  if !isFineStart start then none
  else if start.length < level.items.length then some .version
  else
    match level.ending with
    | .command name rest =>
      let outer ← Settings.ofItems? start
      let (inner, command) ← Command.ofArguments? name rest
      some (.run (outer.merge inner) command)
    | _ => none

end Invocation

end RelayWorkbench.CommandLine
