import RelayWorkbench.Proofs.GraphQL.SchemaWords
import RelayWorkbench.Proofs.Host.SingleEdits
import RelayWorkbench.Proofs.Relay.OfferedLeaves
import RelayWorkbench.Proofs.Relay.Performing
import RelayWorkbench.Proofs.Relay.Reformatting
import RelayWorkbench.Relay.ClientSchema

/-! The edits of a host document. Whatever produces an edit, it replaces one region by a printed
document. -/

namespace RelayWorkbench.Relay

open RelayWorkbench.GraphQL RelayWorkbench.Host

/-- The schema of a client says nothing but words, whatever its files are. -/
theorem worded_clientSchema (files : List Text) : (clientSchema files).Worded := by
  refine Schema.worded_ofDocuments (List.forall_mem_append.mpr ⟨?_, ?_⟩)
  · exact List.forall_mem_map.mpr fun text _ => Document.leaves_recover text
  · exact List.forall_mem_singleton.mpr (by decide +kernel)

/-- An edit that is made of one region of a document, where the schema is that of some files, if
there are any. -/
inductive EditsRegion (identifier : String) (text moduleName : Text) (files : Option (List Text)) :
    TextEdit → Prop where
  /-- The region is laid out anew. -/
  | layout {edit : TextEdit} : edit ∈ layoutEdits identifier text →
      EditsRegion identifier text moduleName files edit
  /-- An action is offered at a selection. -/
  | action {selection : Range} {title : Text} {edit : TextEdit} :
      CodeAction.Offered ⟨identifier, text, selection, moduleName⟩ (files.map clientSchema)
          (.replace title edit) →
        EditsRegion identifier text moduleName files edit
  /-- Selections are extracted. -/
  | extraction {command : ExtractionCommand} {selection : Range} {choice : ExtractionChoice}
      {source : Path} {made : ExtractedComponent} :
      command.perform ⟨identifier, text, selection, moduleName⟩ choice source = .ok made →
        EditsRegion identifier text moduleName files made.edit

theorem ExtractionCommand.keeps_replacer (command : ExtractionCommand) {good : Lexeme → Prop}
    {spread : Selection} (remove : Bool) (own : Replacer.SelectionOf good spread) :
    (command.replacer spread remove).Keeps good where
  selectionSet owner selections sound := by
    intro made answered
    simp only [ExtractionCommand.replacer, Replacer.outcome_pure] at answered
    split at answered
    swap
    · cases answered
    cases answered
    refine List.forall_mem_cons.mpr ⟨own, fun selection member => sound selection ?_⟩
    split at member
    · exact List.mem_of_mem_filter member
    · exact member

/-- A region that is laid out has no comments. -/
theorem exists_of_mem_layoutEdits {language : Language} {identifier : String}
    (known : Language.ofIdentifier? identifier = some language) {text : Text} {edit : TextEdit}
    (laidOut : edit ∈ layoutEdits identifier text) :
    ∃ region ∈ regionsIn language text, Lexeme.hasComments region.content = false ∧
      ∃ document, Document.parse? region.content = some document ∧
        edit = replacement region document := by
  simp only [layoutEdits, regions?, known, Option.map_some, Option.getD_some] at laidOut
  obtain ⟨region, member, made⟩ := List.mem_filterMap.mp laidOut
  rw [layoutEdit?_eq] at made
  obtain ⟨newText, lays, rfl⟩ := Option.map_eq_some_iff.mp made
  obtain ⟨plain, document, parsed, rfl⟩ := exists_of_layout? lays
  exact ⟨region, member, plain, document, parsed, rfl⟩

/-- An edit of a region replaces it by a document. If the strings of the region and the name of the
module spare a host language, then the document can be written into it. -/
theorem EditsRegion.exists_replacement {language : Language} {identifier : String}
    (known : Language.ofIdentifier? identifier = some language) {text moduleName : Text}
    {files : Option (List Text)} {edit : TextEdit}
    (edits : EditsRegion identifier text moduleName files edit) :
    ∃ region ∈ regionsIn language text, ∃ former document,
      Document.parse? region.content = some former ∧ edit = replacement region document ∧
      ∀ host : Language, host.Spares moduleName →
        (∀ value ∈ former.strings, host.Spares value) →
          ∀ leaf ∈ document.leaves, leaf.Suits host := by
  have ofRequest : ∀ {selection region},
      Request.region? ⟨identifier, text, selection, moduleName⟩ = some region →
        region ∈ regionsIn language text := by
    intro selection region here
    simp only [Request.region?, regionAt?, regions?, known, Option.map_some,
      Option.bind_some] at here
    exact mem_of_selectRegion? here
  have ofContent : ∀ {content : Text} {former : Document}, Document.parse? content = some former →
      ∀ host : Language, (∀ value ∈ former.strings, host.Spares value) →
        ∀ leaf ∈ former.leaves, leaf.Suits host := by
    intro content former parsed host spares leaf member
    refine (Document.leaves_of_parse? parsed leaf member).suits ?_
    rintro value rfl
    exact spares value (Document.mem_strings.mpr member)
  cases edits with
  | layout laidOut =>
    obtain ⟨region, member, -, document, parsed, same⟩ := exists_of_mem_layoutEdits known laidOut
    exact ⟨region, member, document, document, parsed, same, fun host _ => ofContent parsed host⟩
  | @action selection title _ offered =>
    obtain ⟨made, region, former, offset, decision, offer, updated, given, cursor, among, decided,
      -, result, same⟩ := CodeAction.decided_of_offered offered
    obtain ⟨texts, -, rfl⟩ := Option.map_eq_some_iff.mp given
    have worded := worded_clientSchema texts
    refine ⟨region, ofRequest cursor.here, former, updated, cursor.parsed, same,
      fun host module spares => ?_⟩
    have written := Document.leaves_of_parse? cursor.parsed
    have suit := ofContent cursor.parsed host spares
    have suits : Scene.Suits host (CodeAction.sceneAt ⟨identifier, text, selection, moduleName⟩
        (clientSchema texts) former offset) :=
      ⟨worded, module, suit, CursorContext.worded_ofOffset worded written⟩
    exact (suits.keeps_of_mem among decided).apply suit result
  | @extraction command selection choice source made performed =>
    obtain ⟨region, former, performs⟩ := ExtractionCommand.exists_performs performed
    obtain ⟨updated, applied, same⟩ := performs.rewritten
    refine ⟨region, ofRequest performs.here, former, updated, performs.parsed, same,
      fun host _ spares => ?_⟩
    have keeps : (command.replacer (Selection.spreadOf made.fragmentName) choice.remove).Keeps
        (Lexeme.Suits host) := ExtractionCommand.keeps_replacer command choice.remove
          (FragmentSpread.forall_leaves.mpr
            ⟨Lexeme.isWord_of_isName performs.named, List.forall_mem_nil _⟩)
    exact keeps.apply (ofContent performs.parsed host spares) applied

end RelayWorkbench.Relay
