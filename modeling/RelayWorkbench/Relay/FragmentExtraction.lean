import RelayWorkbench.GraphQL.Construction
import RelayWorkbench.GraphQL.Replacer
import RelayWorkbench.GraphQL.Schema
import RelayWorkbench.Host.RegionSpace
import RelayWorkbench.Relay.ComponentName
import RelayWorkbench.Relay.Rendering
import RelayWorkbench.Relay.Request
import RelayWorkbench.Text.Case

/-! Extraction of selections into a fragment component of their own. First a command says what
would be extracted from where; once the component has a name, the command is carried out. -/

namespace RelayWorkbench.Relay

open RelayWorkbench.GraphQL RelayWorkbench.Host

/-- What is to be extracted, by bytes of the region. -/
structure ExtractionCommand where
  title : Text := "Add new fragment component".toList
  /-- The type the selections are on. -/
  parentType : Text
  /-- The node that owns the selection set. -/
  target : Span
  /-- The selections, in order. -/
  selected : List Span
  deriving DecidableEq, Repr

/-- What the user wants of the new component. -/
structure ExtractionChoice where
  component : Text
  /-- Whether the extracted selections leave the selection set. -/
  remove : Bool

structure ExtractedComponent where
  fragmentName : Text
  /-- The edit of the region the selections were taken from. -/
  edit : TextEdit
  file : NewFile

inductive ExtractionError where
  | missingName
  | invalidName
  | invalidFragmentName (name : Text)
  | noRegion
  | unparsable
  | targetNotFound
  deriving DecidableEq, Repr

def ExtractionError.message : ExtractionError → Text
  | missingName => "Your component must have a name.".toList
  | invalidName => "Please only use alphanumeric characters and underscores.".toList
  | invalidFragmentName name =>
    '\x60' :: name ++ "\x60 is not a valid GraphQL fragment name".toList
  | noRegion => "No GraphQL found at the selection".toList
  | unparsable => "The GraphQL at the selection does not parse".toList
  | targetNotFound => "The selection to extract is no longer in the document".toList

/-- A selection set: the bytes of its owner and the type it is on, as far as that is known. -/
structure OwnedSet where
  owner : Span
  typeName : Option Name
  selections : List Selection

namespace OwnedSet

/-- The selection set of an owner on a type, and then the ones below. An owner that stands nowhere
has none. -/
def ofOwner (owner : Option Span) (typeName : Option Name) (selections : List Selection)
    (below : List OwnedSet) : List OwnedSet :=
  match owner with
  | none => []
  | some owner => ⟨owner, typeName, selections⟩ :: below

mutual

/-- The selection sets in a selection on a type: its own, when it has one, and those below. -/
def inSelection (schema : Option Schema) (typeName : Option Name) : Selection → List OwnedSet
  | .field head selections =>
    let fieldType := do (← (← schema).field? (← typeName) head.name.name).type.innerName
    if selections.isEmpty then []
    else ofOwner head.span fieldType selections (inSelections schema fieldType selections)
  | .inline head selections =>
    let onType := head.onType.or typeName
    ofOwner head.span onType selections (inSelections schema onType selections)
  | .spread _ => []

def inSelections (schema : Option Schema) (typeName : Option Name) :
    List Selection → List OwnedSet
  | [] => []
  | selection :: rest =>
    inSelection schema typeName selection ++ inSelections schema typeName rest

end

def inDefinition (schema : Option Schema) : Definition → List OwnedSet
  | .operation stated =>
    let root := schema.bind (·.root? stated.kind)
    ofOwner stated.span root stated.selections (inSelections schema root stated.selections)
  | .fragment stated =>
    let onType := some stated.onType
    ofOwner stated.span onType stated.selections (inSelections schema onType stated.selections)
  | _ => []

/-- All selection sets of a document; an owner comes before the owners inside it. Without a
schema only the types that the document names are known. -/
def inDocument (schema : Option Schema) (document : Document) : List OwnedSet :=
  document.definitions.flatMap (inDefinition schema)

end OwnedSet

namespace ExtractionCommand

/-- Whether a span reaches over all of some lines. -/
def spansLines (locator : RegionLocator) (first last : UInt32) (span : Span) :
    Except Trap Bool := do
  let (start, stop) ← locator.ends span
  return start.line ≤ first && last ≤ stop.line

/-- Whether a span lies on some lines. -/
def onLines (locator : RegionLocator) (first last : UInt32) (span : Span) : Except Trap Bool := do
  let (start, stop) ← locator.ends span
  return first ≤ start.line && stop.line ≤ last

/-- The command to extract what stands on the lines of a selection. The last selection set
whose owner spans the lines is taken; it must be on an object type. -/
def ofLines? (schema : Schema) (document : Document) (content : Text) (first last : UInt32) :
    Except Trap (Option ExtractionCommand) := do
  let locator := RegionLocator.ofContent content
  let some set ← (OwnedSet.inDocument (some schema) document).reverse.findM?
    (spansLines locator first last ·.owner) | return none
  let some typeName := set.typeName | return none
  if !schema.isObject typeName then return none
  let selected ← (set.selections.filterMap Selection.span).filterM (onLines locator first last)
  if selected.isEmpty then return none
  return some { parentType := typeName, target := set.owner, selected }

/-- Whether a selection is one of those at the given bytes. -/
def lists (spans : List Span) (selection : Selection) : Bool := selection.span.any spans.contains

def fragmentName (command : ExtractionCommand) (component : Text) : Text :=
  Text.capitalize component ++ '_' :: Text.uncapitalize command.parentType

/-- Puts a spread in front of the target's selections and takes out those that leave it. -/
def replacer (command : ExtractionCommand) (spread : Selection) (remove : Bool) :
    Replacer Unit where
  selectionSet owner selections :=
    let kept :=
      if remove then selections.filter (!lists command.selected ·) else selections
    return if Replacer.isTarget (some command.target) owner then some (spread :: kept) else none

/-- The printed fragment with the extracted selections. Its head must read as a fragment. -/
def fragmentText? (command : ExtractionCommand) (name : Text) (selections : List Selection) :
    Option Text := do
  let written := "fragment ".toList ++ name ++ " on ".toList ++ command.parentType ++
    " \x7b __typename \x7d".toList
  match ← (Document.parse? written).map (·.definitions) with
  | .fragment stated :: rest =>
    some (Document.print ⟨.fragment { stated with selections } :: rest⟩)
  | _ => none

def componentSource (command : ExtractionCommand) (fragment : Text) : Text :=
  let moduleName := command.parentType ++ "Fragment".toList
  let prop := Text.uncapitalize command.parentType
  "module ".toList ++ moduleName ++ " = [%relay.fragment\n  \x7b|\n".toList ++
    Envelope.indent 2 fragment ++ "\n|\x7d\n];\n\n[@react.component]\nlet make = (~".toList ++
    prop ++ ") => \x7b\n  let ".toList ++ prop ++ " = ".toList ++ moduleName ++ ".use(".toList ++
    prop ++ ");\n\n  React.null;\n\x7d;\n".toList

def extracted? (command : ExtractionCommand) (document : Document) : Option (List Selection) := do
  let set ← (OwnedSet.inDocument none document).find? (·.owner == command.target)
  let selections := set.selections.filter (lists command.selected)
  if selections.isEmpty then none else some selections

/-- Carry out a command on the document it was made for. The component is written next to
`source`. -/
def perform (command : ExtractionCommand) (request : Request) (choice : ExtractionChoice)
    (source : Path) : Except ExtractionError ExtractedComponent := do
  if choice.component.isEmpty then throw .missingName
  if !isComponentName choice.component then throw .invalidName
  let name := command.fragmentName choice.component
  if !Lexeme.isName name then throw (.invalidFragmentName name)
  let some region := request.region? | throw .noRegion
  let some document := Document.parse? region.content | throw .unparsable
  let some selections := command.extracted? document | throw .targetNotFound
  let some updated := (command.replacer (Selection.spreadOf name) choice.remove).apply document
    | throw .targetNotFound
  let some fragment := command.fragmentText? name selections | throw (.invalidFragmentName name)
  return {
    fragmentName := name
    edit := replacement region updated
    file := ⟨source.withFileName (choice.component ++ ".re".toList),
      command.componentSource fragment⟩ }

end ExtractionCommand

end RelayWorkbench.Relay
