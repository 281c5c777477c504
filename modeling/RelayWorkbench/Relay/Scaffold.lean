import RelayWorkbench.GraphQL.Schema
import RelayWorkbench.Text.Case
import RelayWorkbench.Text.LineIndex

/-! New Reason modules with a fragment or an operation, made from what the schema offers and
from the answers to a few questions. -/

namespace RelayWorkbench.Relay

open RelayWorkbench.GraphQL

inductive ModuleKind where
  | fragment
  | operation (kind : OperationKind)
  deriving DecidableEq, Repr

namespace ModuleKind

def ofName? (name : String) : Option ModuleKind :=
  match name with
  | "fragment" => some .fragment
  | "query" => some (.operation .query)
  | "mutation" => some (.operation .mutation)
  | "subscription" => some (.operation .subscription)
  | _ => none

def extensionPoint : ModuleKind → Text
  | fragment => "relay.fragment".toList
  | operation kind => "relay.".toList ++ kind.keyword

end ModuleKind

namespace Scaffold

inductive Prompt where
  /-- Choose one of some items. -/
  | pick (placeholder : String) (items : List Text)
  /-- Enter a text, starting from a given one. -/
  | input (question : Text) (value : Text)
  deriving DecidableEq, Repr

/-- The user's answers; a question without an answer is dismissed. -/
structure Answers where
  pick : List Text → Option Text
  names : List (Option Text)

/-- The object types a fragment can be on, in the order of the schema. -/
def fragmentCandidates (schema : Schema) : List Name :=
  (schema.types.filter fun known =>
    known.definition.body.isObject && !("__".toList.isPrefixOf known.definition.name)).map
      (·.definition.name)

/-- The fields of the root type of an operation kind, if it is an object type. -/
def rootFields (schema : Schema) (kind : OperationKind) : List FieldDefinition :=
  match (schema.root? kind).bind schema.type? with
  | some { body := .object _ fields, .. } => fields
  | _ => []

/-- The names of the root fields of an operation kind. -/
def rootFieldCandidates (schema : Schema) (kind : OperationKind) : List Name :=
  (rootFields schema kind).map (·.name)

/-- The arguments of a field that a module passes on. -/
def passedArguments (field : FieldDefinition) (onlyRequired : Bool) : List InputValue :=
  field.arguments.filter fun argument => !onlyRequired || argument.type.isRequired

/-- Items between parentheses; nothing when there are none. -/
def parenthesized (items : List Text) : Text :=
  if items.isEmpty then [] else '(' :: Text.joinWith ", ".toList items ++ [')']

/-- A variable for each argument of a field. -/
def variablesText (arguments : List InputValue) : Text :=
  parenthesized (arguments.map fun argument =>
    '$' :: argument.name ++ ": ".toList ++ argument.type.print)

/-- Each argument of a field with the variable of its name. -/
def argumentsText (arguments : List InputValue) : Text :=
  parenthesized (arguments.map fun argument =>
    argument.name ++ ": $".toList ++ argument.name)

/-- Whether a module of a given name stands in a document. -/
def isTaken (document name : Text) : Bool :=
  Text.occursIn ("module ".toList ++ name ++ " =".toList) document

def renamePrompt (name : Text) : Prompt :=
  .input ("Enter module name ('".toList ++ name ++ "' already exists in document)".toList) name

/-- A module name that is not taken: the given one, or the first free one of the answers. The
questions are asked while the name is taken and an answer is given. -/
def freeModuleName (document name : Text) : List (Option Text) → Option Text × List Prompt
  | [] => if isTaken document name then (none, [renamePrompt name]) else (some name, [])
  | answer :: more =>
    if isTaken document name then
      match answer with
      | none => (none, [renamePrompt name])
      | some other =>
        let (free, asked) := freeModuleName document other more
        (free, renamePrompt name :: asked)
    else (some name, [])

/-- A module whose block holds GraphQL that starts with `head` and selects `selection`. -/
def moduleText (kind : ModuleKind) (name head selection : Text) : Text :=
  "module ".toList ++ name ++ " = [%".toList ++ kind.extensionPoint ++ "\n  \x7b|\n  ".toList ++
    head ++ " \x7b\n    ".toList ++ selection ++ "\n  \x7d\n|\x7d\n];".toList

/-- Name of a scaffolded fragment: the component, and the module without `Fragment`. -/
def fragmentName (component name : Text) : Text :=
  component ++ '_' :: Text.uncapitalize (Text.eraseFirst "Fragment".toList name)

def fragment (schema : Schema) (component document : Text) (answers : Answers) :
    Option Text × List Prompt :=
  let candidates := fragmentCandidates schema
  let prompt := Prompt.pick "Select type of the fragment" candidates
  match answers.pick candidates with
  | none => (none, [prompt])
  | some typeName =>
    let (name, asked) := freeModuleName document (typeName ++ "Fragment".toList) answers.names
    let made := name.map fun name =>
      moduleText .fragment name
        ("fragment ".toList ++ fragmentName component name ++ " on ".toList ++ typeName) "id".toList
    (made, prompt :: asked)

def rootFieldQuestion : OperationKind → String
  | .query => "Select root field"
  | .mutation => "Select mutation"
  | .subscription => "Select subscription"

/-- Name a module gets unless it is taken. -/
def defaultModuleName (kind : OperationKind) (field : Text) : Text :=
  match kind with
  | .query => "Query".toList
  | .mutation => Text.capitalize field ++ "Mutation".toList
  | .subscription => "Subscription".toList

def operationName (kind : OperationKind) (component field : Text) : Text :=
  match kind with
  | .query => component ++ "Query".toList
  | .mutation => component ++ '_' :: Text.capitalize field ++ "Mutation".toList
  | .subscription => component ++ "Subscription".toList

/-- A module with an operation on a root field. The arguments of a field that is not there
are none. -/
def operation (kind : OperationKind) (schema : Schema) (component document : Text)
    (answers : Answers) : Option Text × List Prompt :=
  let candidates := rootFieldCandidates schema kind
  if candidates.isEmpty then (none, [])
  else
    let prompt := Prompt.pick (rootFieldQuestion kind) candidates
    match answers.pick candidates with
    | none => (none, [prompt])
    | some field =>
      let (name, asked) := freeModuleName document (defaultModuleName kind field) answers.names
      let arguments := match (rootFields schema kind).find? (·.name == field) with
        | some definition => passedArguments definition (kind == .query)
        | none => []
      let made := name.map fun name =>
        moduleText (.operation kind) name
          (kind.keyword ++ ' ' :: operationName kind component field ++ variablesText arguments)
          (field ++ argumentsText arguments)
      (made, prompt :: asked)

end Scaffold

/-- The module to insert into a component, and the questions asked. There is none when a
question is dismissed or the schema has nothing to offer. -/
def scaffold (kind : ModuleKind) (schema : Schema) (component document : Text)
    (answers : Scaffold.Answers) : Option Text × List Scaffold.Prompt :=
  match kind with
  | .fragment => Scaffold.fragment schema component document answers
  | .operation kind => Scaffold.operation kind schema component document answers

namespace Scaffold

/-- What separates a module from the text it is appended to. -/
def separator (text : Text) : Text :=
  match text.reverse with
  | [] => []
  | '\n' :: '\n' :: _ => []
  | '\n' :: _ => ['\n']
  | _ => ['\n', '\n']

/-- The text with a module before a line counted from one, or at the end. -/
def insertModule (text made : Text) (line : Option Nat) : Text :=
  let offset := (line.bind fun line => (LineIndex.ofText text).lineStart? (line - 1)).filter
    (· < text.width)
  match offset.bind (Text.splitAt? · text) with
  | some (before, after) => before ++ made ++ ['\n', '\n'] ++ after
  | none => text ++ separator text ++ made ++ ['\n']

end Scaffold

end RelayWorkbench.Relay
