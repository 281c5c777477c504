import RelayWorkbench.CommandLine.Invocation
import RelayWorkbench.CommandLine.Style
import RelayWorkbench.Relay.FragmentExtraction
import RelayWorkbench.Text.Quotation
import RelayWorkbench.Workspace.ConfigurationFile

/-! Why a command stops, what is then reported and the code the program ends with. -/

namespace RelayWorkbench.CommandLine

open RelayWorkbench.Relay RelayWorkbench.Workspace

/-- The codes the program ends with. Each kind of failure that a script may want to tell from
the others has its own. -/
inductive ExitCode where
  | success
  /-- There was nothing to do, files are not laid out, or the failure is of no other kind. -/
  | unsuccessful
  | badConfiguration
  | noSchema
  | unreadable
  | badInput
  /-- The program was ended by a trap. -/
  | trapped
  deriving DecidableEq, Repr

def ExitCode.number : ExitCode → Nat
  | success => 0
  | unsuccessful => 1
  | badConfiguration => 2
  | noSchema => 3
  | unreadable => 4
  | badInput => 5
  | trapped => 101

/-- The code for a command line that is not well formed. -/
def usageErrorNumber : Nat := 2

/-- Why a command stops. -/
inductive Failure where
  | notHost (file : Path)
  | unreadable (file : Path) (error : FileError)
  | unwritable (file : Path) (error : FileError)
  | alreadyExists (file : Path)
  | outsideFile (position : Position)
  | noSchema (root : Path)
  | noMatch (action : Text) (file : Path) (place : Place) (available : List Text)
  | needsName (title : Text)
  | nothingToExtract
  | extraction (error : ExtractionError)
  | notReason
  | noConfiguration (root : Path)
  | configuration (error : ConfigurationError)
  | noDefaultProject (file : Path)
  | trapped (trap : Trap)
  deriving DecidableEq, Repr

namespace Failure

/-- Whether it is the chosen name of the component that an extraction fails for. -/
def isBadName : ExtractionError → Bool
  | .missingName | .invalidName => true
  | _ => false

def exitCode : Failure → ExitCode
  | noConfiguration _ | configuration _ | noDefaultProject _ => .badConfiguration
  | noSchema _ => .noSchema
  | unreadable .. => .unreadable
  | needsName _ => .badInput
  | trapped _ => .trapped
  | extraction error => if isBadName error then .badInput else .unsuccessful
  | _ => .unsuccessful

/-- Whether the word in front of the report is coloured. -/
def isHighlighted : Failure → Bool
  | notHost _ | unwritable .. | alreadyExists _ | outsideFile _ | notReason => false
  | extraction error => isBadName error
  | _ => true

def message : Failure → Text
  | notHost file => file.text ++ " is not a GraphQL, script or Reason file".toList
  | unreadable file error =>
    "Failed to read ".toList ++ file.text ++ ": ".toList ++ error.message
  | unwritable file _ => "Failed to write ".toList ++ file.text
  | alreadyExists file => file.text ++ " already exists".toList
  | outsideFile position =>
    "Position Position \x7b line: ".toList ++ Nat.toDigits 10 position.line.toNat ++
      ", character: ".toList ++ Nat.toDigits 10 position.character.toNat ++
      " \x7d is outside the file".toList
  | noSchema root =>
    "Could not load a schema for ".toList ++ root.text ++
      " (run with RUST_LOG=warn for details)".toList
  | noMatch action file place _ =>
    "No refactor matching ".toList ++ Text.quoted action ++ " at ".toList ++ file.text ++
      ':' :: Nat.toDigits 10 place.line.toNat ++ ':' :: Nat.toDigits 10 place.column.toNat
  | needsName title =>
    '"' :: title ++ "\" needs a component name, use \x60reason-relay extract-fragment\x60".toList
  | nothingToExtract =>
    "Nothing to extract: select whole fields inside a selection on an object type".toList
  | extraction error =>
    if isBadName error then error.message else "Failed to extract fragment".toList
  | notReason => "Only Reason (.re) components can be scaffolded into".toList
  | noConfiguration root =>
    "No GraphQL config found in ".toList ++ root.text ++ " or its parents".toList
  | configuration error => error.message
  | noDefaultProject file =>
    file.text ++ " has several projects but none named \"default\"".toList
  | trapped trap => trap.message.toList

/-- The failure of another kind that is behind a failure. -/
def cause? : Failure → Option Text
  | unwritable _ error => some error.message
  | extraction error => if isBadName error then none else some error.message
  | _ => none

/-- What could have been asked for instead. -/
def available : Failure → List Text
  | noMatch _ _ _ available => available
  | _ => []

/-- The report on a failure. On a trap it also tells where in the program it is: that is left
out. -/
def report (failure : Failure) (colored : Bool) : Text :=
  let label := match failure with
    | trapped _ => []
    | _ => Style.red.paint (colored && failure.isHighlighted) "Error:".toList ++ [' ']
  let cause := match failure.cause? with
    | some cause => "\n\nCaused by:\n    ".toList ++ cause
    | none => []
  let suggestion := fun (title : Text) =>
    ' ' :: ' ' :: Style.dimmed.paint colored "available:".toList ++ ' ' :: title ++ ['\n']
  label ++ failure.message ++ cause ++ '\n' :: failure.available.flatMap suggestion

end Failure

end RelayWorkbench.CommandLine
