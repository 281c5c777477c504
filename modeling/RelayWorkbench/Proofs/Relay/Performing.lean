import Mathlib
import RelayWorkbench.Relay.FragmentExtraction

/-! What is known of a command that was carried out. -/

namespace RelayWorkbench.Relay.ExtractionCommand

open RelayWorkbench.GraphQL RelayWorkbench.Host

/-- A command makes a component of what it finds in a document. -/
structure Performs (command : ExtractionCommand) (request : Request) (choice : ExtractionChoice)
    (source : Path) (region : Region) (document : Document) (made : ExtractedComponent) : Prop where
  here : request.region? = some region
  parsed : Document.parse? region.content = some document
  called : made.fragmentName = command.fragmentName choice.component
  named : Lexeme.isName made.fragmentName
  placed : made.file.path = source.withFileName (choice.component ++ ".re".toList)
  rewritten : ∃ updated,
    (command.replacer (Selection.spreadOf made.fragmentName) choice.remove).apply document =
      some updated ∧ made.edit = replacement region updated
  written : ∃ selections fragment, command.extracted? document = some selections ∧
    command.fragmentText? made.fragmentName selections = some fragment ∧
      made.file.contents = command.componentSource fragment

theorem exists_performs {command : ExtractionCommand} {request : Request}
    {choice : ExtractionChoice} {source : Path} {made : ExtractedComponent}
    (performed : command.perform request choice source = .ok made) :
    ∃ region document, command.Performs request choice source region document made := by
  unfold perform at performed
  dsimp only at performed
  -- The component is called something, and all that the extraction needs is there.
  split at performed
  · cases performed
  split at performed
  · cases performed
  split at performed
  · cases performed
  next named =>
  split at performed
  swap
  · cases performed
  next region here =>
  split at performed
  swap
  · cases performed
  next document parsed =>
  split at performed
  swap
  · cases performed
  next selections extracted =>
  split at performed
  swap
  · cases performed
  next updated applied =>
  split at performed
  swap
  · cases performed
  next fragment printed =>
  cases performed
  exact ⟨region, document, here, parsed, rfl, by simpa using named, rfl, ⟨updated, applied, rfl⟩,
    ⟨selections, fragment, extracted, printed, rfl⟩⟩

end RelayWorkbench.Relay.ExtractionCommand
