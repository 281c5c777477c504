import RelayWorkbench.Relay.FragmentExtraction
import RelayWorkbench.Relay.Pagination
import RelayWorkbench.Relay.Refactoring

/-! Code actions: what an editor offers at a selection of a host document. -/

namespace RelayWorkbench.Relay

open RelayWorkbench.GraphQL RelayWorkbench.Host

inductive CodeAction where
  /-- Replace the region under the selection. -/
  | replace (title : Text) (edit : TextEdit)
  /-- Extract the selected fields, once the new component has a name. -/
  | extraction (command : ExtractionCommand)
  deriving DecidableEq, Repr

namespace CodeAction

def title : CodeAction → Text
  | replace title _ => title
  | extraction _ => "Extract selected fields to new fragment component".toList

/-- The group an editor lists the action under. -/
def kind : CodeAction → Text
  | replace .. => "refactor.rewrite".toList
  | extraction _ => "refactor.extract".toList

def edit? : CodeAction → Option TextEdit
  | replace _ edit => some edit
  | extraction _ => none

def command? : CodeAction → Option ExtractionCommand
  | replace .. => none
  | extraction command => some command

/-- The action of an offer, unless it would change nothing. -/
def ofOffer? (region : Region) (document : Document) (offer : Offer) : Option CodeAction :=
  (offer.result? document).map fun updated => replace offer.title (replacement region updated)

/-- The offers of a scene, before and after the extraction of fields. -/
def offers (scene : Scene) : List Offer × List Offer :=
  ((Refactoring.declareVariable? scene).toList,
    [Pagination.offer?, Refactoring.markTestOperation?, Refactoring.expandUnion?,
      Refactoring.declareArgument?, Refactoring.makeInline?, Refactoring.makeRefetchable?,
      Refactoring.makePlural?].filterMap fun refactoring => refactoring scene)

/-- The actions at a selection. There are none without a schema, outside all regions, or in a
region that is not well formed. -/
def available (request : Request) (schema : Option Schema) : Except Trap (List CodeAction) := do
  let some schema := schema | return []
  let some region := request.region? | return []
  let some document := Document.parse? region.content | return []
  let (first, last) ← region.normalizeSelection request.selection.ordered
  let some offset ← (RegionLocator.ofContent region.content).offset? first | return []
  let context := CursorContext.ofOffset schema document offset
  let (before, after) := offers ⟨schema, request.moduleName, document, context⟩
  let extraction ← if request.selection.isEmpty then pure none
    else ExtractionCommand.ofLines? schema document region.content first.line last.line
  return before.filterMap (ofOffer? region document) ++ (extraction.map .extraction).toList ++
    after.filterMap (ofOffer? region document)

end CodeAction

end RelayWorkbench.Relay
