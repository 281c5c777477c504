import RelayWorkbench.Proofs.Relay.FragmentHead
import RelayWorkbench.Proofs.Relay.OfferedActions
import RelayWorkbench.Proofs.Replacer.Targets

/-! Carrying out the command that was offered. The command finds the selection set it was made
for, takes out what it lists, and loses nothing. -/

namespace RelayWorkbench.Relay

open RelayWorkbench.GraphQL RelayWorkbench.Host

namespace ExtractionCommand

/-- The selections that stay where the extracted ones were. -/
def kept (command : ExtractionCommand) (remove : Bool) (former : List Selection) :
    List Selection :=
  if remove then former.filter (!lists command.selected ·) else former

/-- What a command makes of a document: the selection set of its target becomes the spread and
the selections that stay, every other node is the same, and the fragment has the selections the
command lists. -/
structure Extracts (command : ExtractionCommand) (choice : ExtractionChoice)
    (document updated : Document) (fragment : Fragment) : Prop where
  rewrites : ∃ path node former, document.nodeAt? path = some node ∧
    node.ownsAt command.target ∧ node.selections? = some former ∧
      (∀ other inner, document.nodeAt? other = some inner → inner.ownsAt command.target →
        other = path) ∧
      document.replaceAt? (node.withSelections
        (Selection.spreadOf (command.fragmentName choice.component) ::
          command.kept choice.remove former)) path = some updated ∧
      fragment.selections = former.filter (lists command.selected) ∧
      (choice.remove →
        (fragment.selections ++ command.kept choice.remove former).Perm former)
  named : fragment.name = command.fragmentName choice.component
  typed : fragment.onType = command.parentType
  bare : fragment.directives = []
  listed : fragment.selections.filterMap Selection.span = command.selected

/-- What an offered command is made of. -/
private structure MadeOf (command : ExtractionCommand) (schema : Schema) (document : Document)
    (set : OwnedSet) : Prop where
  member : set ∈ OwnedSet.inDocument (some schema) document
  isObject : schema.isObject command.parentType
  target : command.target = set.owner
  selected : ∃ onLines, command.selected = (set.selections.filterMap Selection.span).filter onLines
  written : command.selected ≠ []

/-- An extraction is offered for a region that parses. -/
private theorem madeOf_of_offered {command : ExtractionCommand} {request : Request}
    {schema : Schema} (offered : CodeAction.Offered request (some schema) (.extraction command)) :
    ∃ region document set, request.region? = some region ∧
      Document.parse? region.content = some document ∧ MadeOf command schema document set := by
  obtain ⟨_, region, document, offset, ⟨⟩, cursor⟩ := CodeAction.exists_cursor_of_offered offered
  obtain ⟨extraction, searched, ⟨offer, -, made⟩ | ⟨_, rfl, ⟨⟩⟩⟩ :=
    (CodeAction.offered_iff_of_cursor cursor).mp offered
  · obtain ⟨updated, -, same⟩ := Option.map_eq_some_iff.mp made
    cases same
  · obtain ⟨ends, -, searched⟩ := Checked.bind_eq_ok_iff.mp searched
    cases here : request.selection.isEmpty with
    | true =>
      rw [here] at searched
      cases searched
    | false =>
    rw [here] at searched
    obtain ⟨set, found, typeName, -, object, selected, kept, written, rfl⟩ :=
      (eq_some_iff_of_ofLines? searched).mp rfl
    exact ⟨region, document, set, cursor.here, cursor.parsed,
      List.mem_reverse.mp (List.mem_of_find?_eq_some found), object, rfl, ⟨_, kept.symm⟩, written⟩

private theorem filterMap_span_lists {selections : List Selection} (onLines : Span → Bool) :
    (selections.filter (lists ((selections.filterMap Selection.span).filter onLines))).filterMap
      Selection.span = (selections.filterMap Selection.span).filter onLines := by
  have same : selections.filter
      (lists ((selections.filterMap Selection.span).filter onLines)) =
        selections.filter fun selection => selection.span.any onLines := by
    refine List.filter_congr fun selection member => ?_
    cases spanned : selection.span with
    | none => simp [lists, spanned]
    | some span =>
      have listed : span ∈ selections.filterMap Selection.span :=
        List.mem_filterMap.mpr ⟨selection, member, spanned⟩
      have contained : ((selections.filterMap Selection.span).filter onLines).contains span =
          onLines span := by
        rw [Bool.eq_iff_iff, List.contains_iff_mem, List.mem_filter]
        exact ⟨fun both => both.2, fun on => ⟨listed, on⟩⟩
      simp only [lists, spanned, Option.any_some, contained]
  rw [same, List.filterMap_filter, List.filter_filterMap]
  congr 1
  funext selection
  cases selection.span <;> simp [Option.filter]

private theorem perm_kept (command : ExtractionCommand) (former : List Selection) :
    (former.filter (lists command.selected) ++ command.kept true former).Perm former :=
  List.filter_append_perm ..

section MadeOf

variable {command : ExtractionCommand} {schema : Schema} {document : Document} {set : OwnedSet}
  (made : MadeOf command schema document set)
include made

/-- The type of an offered command is one of the schema. -/
private theorem MadeOf.isName_parentType
    (named : ∀ type ∈ schema.types, Lexeme.isName type.definition.name) :
    Lexeme.isName command.parentType := by
  have object := made.isObject
  simp only [Schema.isObject, Option.any_eq_true] at object
  obtain ⟨definition, found, -⟩ := object
  obtain ⟨type, first, -⟩ := Option.map_eq_some_iff.mp found
  have same : type.definition.name = command.parentType := by simpa using List.find?_some first
  rw [← same]
  exact named type (List.mem_of_find?_eq_some first)

private theorem MadeOf.filterMap_span :
    (set.selections.filter (lists command.selected)).filterMap Selection.span =
      command.selected := by
  obtain ⟨onLines, selected⟩ := made.selected
  rw [selected]
  exact filterMap_span_lists onLines

/-- The set that a command was made for is found again by its owner. -/
private theorem MadeOf.extracted?_eq (apart : document.OwnersApart) :
    command.extracted? document = some (set.selections.filter (lists command.selected)) := by
  obtain ⟨found, first, same⟩ := OwnedSet.find?_owner apart made.member
  have written : (set.selections.filter (lists command.selected)).isEmpty = false := by
    refine Bool.eq_false_iff.mpr fun none => made.written ?_
    rw [← made.filterMap_span, List.isEmpty_iff.mp none, List.filterMap_nil]
  simp only [extracted?, made.target, first, Option.bind_eq_bind, Option.bind_some, same, written]
  rfl

/-- The selections of the set can be taken out of the document and put into a fragment. -/
private theorem MadeOf.exists_extracts (apart : document.OwnersApart)
    (typed : Lexeme.isName command.parentType) (choice : ExtractionChoice)
    (component : Lexeme.isName choice.component) :
    let name := command.fragmentName choice.component
    ∃ updated fragment, command.Extracts choice document updated fragment ∧
      (command.replacer (Selection.spreadOf name) choice.remove).apply document = some updated ∧
      command.fragmentText? name (set.selections.filter (lists command.selected)) =
        some (Document.print ⟨[.fragment fragment]⟩) := by
  intro name
  obtain ⟨path, node, reached, owner, owned⟩ := OwnedSet.exists_node made.member
  rw [← made.target] at owner
  let edit (former : List Selection) := Selection.spreadOf name :: command.kept choice.remove former
  obtain ⟨updated, applied, replaces⟩ :=
    Replacer.apply_onSelectionSet command.target edit apart reached owner owned
  obtain ⟨fragment, printed, called, typedAs, bare, holds⟩ := command.fragmentText?_eq
    (command.isName_fragmentName component typed) (command.fragmentName_ne_on choice.component)
    typed (set.selections.filter (lists command.selected))
  refine ⟨updated, fragment, ⟨⟨path, node, set.selections, reached, owner, owned, ?_, replaces,
    holds, ?_⟩, called, typedAs, bare, by rw [holds, made.filterMap_span]⟩, applied, printed⟩
  · intro other inner reachedOther ownerOther
    exact apart command.target path other node inner reached owner reachedOther ownerOther
  · intro removes
    rw [holds, removes]
    exact command.perm_kept set.selections

end MadeOf

/-- Once the parts of a component are there, nothing else can fail. -/
private theorem perform_eq {command : ExtractionCommand} {request : Request}
    {choice : ExtractionChoice} (component : Lexeme.isName choice.component)
    (typed : Lexeme.isName command.parentType) {region : Region} {document updated : Document}
    {selections : List Selection} {fragment : Text} (here : request.region? = some region)
    (parsed : Document.parse? region.content = some document)
    (extracts : command.extracted? document = some selections)
    (applied : (command.replacer (Selection.spreadOf (command.fragmentName choice.component))
      choice.remove).apply document = some updated)
    (printed : command.fragmentText? (command.fragmentName choice.component) selections =
      some fragment) (source : Path) :
    command.perform request choice source = .ok {
      fragmentName := command.fragmentName choice.component
      edit := replacement region updated
      file := ⟨source.withFileName (choice.component ++ ".re".toList),
        command.componentSource fragment⟩ } := by
  have word := isComponentName_of_isName component
  have called : choice.component.isEmpty = false := by
    cases same : choice.component with
    | nil => rw [same] at component; cases component
    | cons => rfl
  simp only [perform, called, word, command.isName_fragmentName component typed, here, parsed,
    extracts, applied, printed]
  rfl

end ExtractionCommand

end RelayWorkbench.Relay
