import RelayWorkbench.Proofs.GraphQL.IndexedRewriting
import RelayWorkbench.Proofs.Host.CheckedScanning
import RelayWorkbench.Proofs.Relay.OfferedActions
import RelayWorkbench.Relay.ClientSchema

/-! Code actions with the elements of lists that they look at and the slices of texts that they cut.
None of these ever ends the program: what is written with them is what the actions are, together
with the one sum that does end it. -/

namespace RelayWorkbench

open GraphQL Host

namespace Host.Envelope

/-- `padding`, of the white space that is cut off in front. -/
def paddingChecked (former : Text) : Except Trap Nat := do
  let cut ← Checked.difference former.width (Text.trimStart former).width
  let leading ← Checked.slice former 0 cut
  let shown ← Checked.slice former leading.width former.width
  if shown.head?.any Text.isWordChar then return ((Text.lines leading).getLastD []).width
  else return 0

def restoreChecked (text former : Text) : Except Trap Text := do
  let trailing ← Checked.slice former (Text.trimEnd former).width former.width
  return '\n' :: indent (← paddingChecked former) text ++ trailing

theorem paddingChecked_eq (former : Text) : paddingChecked former = pure (padding former) := by
  have parts : Text.leadingBlank former ++ Text.trimStart former = former :=
    List.takeWhile_append_dropWhile
  have wide : former.width = (Text.leadingBlank former).width + (Text.trimStart former).width := by
    rw [← Text.width_append, parts]
  have cut : Checked.difference former.width (Text.trimStart former).width =
      pure (Text.leadingBlank former).width := by
    rw [Checked.difference_of_le (by omega), wide, Nat.add_sub_cancel]
  have leading := Checked.slice_prefix (Text.leadingBlank former) (Text.trimStart former)
  have shown := Checked.slice_suffix (Text.leadingBlank former) (Text.trimStart former)
  rw [parts] at leading shown
  simp only [paddingChecked, cut, leading, shown, pure_bind, padding]
  split <;> rfl

theorem restoreChecked_eq (text former : Text) :
    restoreChecked text former = pure (restore text former) := by
  have trailing := Checked.slice_suffix (Text.trimEnd former) (Text.trailingBlank former)
  rw [Text.trimEnd_append_trailingBlank] at trailing
  simp only [restoreChecked, trailing, paddingChecked_eq, pure_bind, restore]

end Host.Envelope

/-- `trimmed`, of the layout that is cut off in front. -/
def Span.trimmedChecked (text : Text) (span : Span) : Except Trap Span := do
  match text.slice? span.start span.stop with
  | none => return span
  | some slice => do
    let cut ← Checked.difference slice.width (Text.trimStartBy Text.isLayout slice).width
    let start := span.start + cut
    return ⟨start, max (span.start + (Text.trimEndBy Text.isLayout slice).width) start⟩

def Host.Region.hostRangeChecked : Region → Except Trap Range
  | .document content => do
    let index := LineIndex.ofText content
    return ⟨⟨0, 0⟩, ← index.positionChecked index.width⟩
  | .embedded _ range => return range

theorem Host.Region.hostRangeChecked_eq (region : Region) :
    region.hostRangeChecked = pure region.hostRange := by
  cases region with
  | document content =>
    rw [Region.hostRangeChecked, LineIndex.positionChecked_eq]
    rfl
  | embedded content range => rfl

theorem Span.trimmedChecked_eq (text : Text) (span : Span) :
    span.trimmedChecked text = pure (span.trimmed text) := by
  rw [Span.trimmedChecked, Span.trimmed]
  cases text.slice? span.start span.stop with
  | none => rfl
  | some slice =>
    have less : (Text.trimStartBy Text.isLayout slice).width ≤ slice.width := by
      have parts : slice.takeWhile Text.isLayout ++ Text.trimStartBy Text.isLayout slice = slice :=
        List.takeWhile_append_dropWhile
      have wide := congrArg Text.width parts
      rw [Text.width_append] at wide
      omega
    simp only [Checked.difference_of_le less, pure_bind]

namespace Relay

def replacementChecked (region : Region) (document : Document) : Except Trap TextEdit := do
  let newText ← if region.isDocument then pure (document.print ++ ['\n'])
    else Envelope.restoreChecked document.print region.content
  return { range := ← region.hostRangeChecked, newText }

theorem replacementChecked_eq (region : Region) (document : Document) :
    replacementChecked region document = pure (replacement region document) := by
  rw [replacementChecked, replacement, render]
  simp only [Envelope.restoreChecked_eq, Region.hostRangeChecked_eq]
  split <;> rfl

def Request.regionChecked (request : Request) : Except Trap (Option Region) := do
  match Language.ofIdentifier? request.language with
  | none => return none
  | some language =>
    return selectRegion? (← regionsInChecked language request.text) request.selection.ordered.start

theorem Request.regionChecked_eq (request : Request) :
    request.regionChecked = pure request.region? := by
  rw [Request.regionChecked, Request.region?, regionAt?, regions?]
  cases Language.ofIdentifier? request.language with
  | none => rfl
  | some language =>
    simp only [regionsInChecked_eq, pure_bind]
    rfl

namespace ExtractionCommand

/-- The region positions of both ends of a span without the layout at its ends. -/
def endsChecked (content : Text) (span : Span) :
    Except Trap (RegionPosition × RegionPosition) := do
  let locator := RegionLocator.ofContent content
  let trimmed ← span.trimmedChecked content
  return (← locator.positionChecked trimmed.start, ← locator.positionChecked trimmed.stop)

theorem endsChecked_eq {content : Text} {span : Span} (tight : span.Tight content) :
    endsChecked content span = (RegionLocator.ofContent content).ends span := by
  simp only [endsChecked, Span.trimmedChecked_eq, tight.trimmed_eq,
    RegionLocator.positionChecked_eq, pure_bind, RegionLocator.ends]

def ofLinesChecked (schema : Schema) (document : Document) (content : Text) (first last : UInt32) :
    Except Trap (Option ExtractionCommand) := do
  let some set ← (OwnedSet.inDocument (some schema) document).reverse.findM? fun set => do
      let (start, stop) ← endsChecked content set.owner
      return start.line ≤ first && last ≤ stop.line
    | return none
  let some typeName := set.typeName | return none
  if !schema.isObject typeName then return none
  let selected ← (set.selections.filterMap Selection.span).filterM fun span => do
    let (start, stop) ← endsChecked content span
    return first ≤ start.line && stop.line ≤ last
  if selected.isEmpty then return none
  return some { parentType := typeName, target := set.owner, selected }

/-- In a region that is parsed the spans are those of its nodes, which have no layout at their
ends. -/
theorem ofLinesChecked_eq {schema : Schema} {document : Document} {content : Text}
    (parsed : Document.parse? content = some document) (first last : UInt32) :
    ofLinesChecked schema document content first last =
      ofLines? schema document content first last := by
  have searched : (OwnedSet.inDocument (some schema) document).reverse.findM? (fun set => do
      let (start, stop) ← endsChecked content set.owner
      return start.line ≤ first && last ≤ stop.line) =
        (OwnedSet.inDocument (some schema) document).reverse.findM?
          (spansLines (.ofContent content) first last ·.owner) := by
    refine Checked.findM?_congr fun set member => ?_
    rw [endsChecked_eq (tight_of_mem parsed (List.mem_reverse.mp member)).1, spansLines]
  rw [ofLinesChecked, ofLines?, searched]
  cases found : (OwnedSet.inDocument (some schema) document).reverse.findM?
      (spansLines (.ofContent content) first last ·.owner) with
  | error trap => rfl
  | ok found? =>
  cases found? with
  | none => rfl
  | some set =>
    -- the set is one of the document, so that its selections are written in the region too
    have member := List.mem_reverse.mp (List.mem_of_find?_eq_some (Checked.find?_of_findM? found))
    have selected : (set.selections.filterMap Selection.span).filterM (fun span => do
        let (start, stop) ← endsChecked content span
        return first ≤ start.line && stop.line ≤ last) =
          (set.selections.filterMap Selection.span).filterM
            (onLines (.ofContent content) first last) := by
      refine Checked.filterM_congr fun span there => ?_
      rw [endsChecked_eq ((tight_of_mem parsed member).2 span there).1, onLines]
    simp only [bind, Except.bind] at selected ⊢
    cases set.typeName with
    | none => rfl
    | some typeName => simp only [selected]

def performChecked (command : ExtractionCommand) (request : Request) (choice : ExtractionChoice)
    (source : Path) : Except Trap (Except ExtractionError ExtractedComponent) := do
  let name := command.fragmentName choice.component
  if choice.component.isEmpty then return .error .missingName
  else if !isComponentName choice.component then return .error .invalidName
  else if !Lexeme.isName name then return .error (.invalidFragmentName name)
  else do
    let some region ← request.regionChecked | return .error .noRegion
    let some document := Document.parse? region.content | return .error .unparsable
    let some selections := command.extracted? document | return .error .targetNotFound
    let some updated ←
        (command.replacer (Selection.spreadOf name) choice.remove).applyChecked document
      | return .error .targetNotFound
    let some fragment := command.fragmentText? name selections
      | return .error (.invalidFragmentName name)
    let edit ← replacementChecked region updated
    return .ok {
      fragmentName := name
      edit := edit
      file := ⟨source.withFileName (choice.component ++ ".re".toList),
        command.componentSource fragment⟩ }

/-- A command is carried out, or refused, without an end of the program. -/
theorem performChecked_eq (command : ExtractionCommand) (request : Request)
    (choice : ExtractionChoice) (source : Path) :
    command.performChecked request choice source =
      pure (command.perform request choice source) := by
  rw [performChecked, perform]
  split
  · rfl
  split
  · rfl
  dsimp only
  split
  · rfl
  simp only [request.regionChecked_eq, pure_bind]
  cases request.region? with
  | none => rfl
  | some region =>
  dsimp only
  cases Document.parse? region.content with
  | none => rfl
  | some document =>
  dsimp only
  cases command.extracted? document with
  | none => rfl
  | some selections =>
  simp only [Replacer.applyChecked_eq, pure_bind]
  cases (command.replacer (Selection.spreadOf (command.fragmentName choice.component))
    choice.remove).apply document with
  | none => rfl
  | some updated =>
  dsimp only
  cases command.fragmentText? (command.fragmentName choice.component) selections with
  | none => rfl
  | some fragment =>
  simp only [replacementChecked_eq, pure_bind]
  rfl

end ExtractionCommand

namespace CodeAction

/-- The action of an offer, unless it would change nothing. -/
def ofOfferChecked (region : Region) (document : Document) (offer : Offer) :
    Except Trap (Option CodeAction) := do
  let some updated ← offer.replacer.applyChecked document | return none
  return some (.replace offer.title (← replacementChecked region updated))

def availableChecked (request : Request) (schema : Option Schema) :
    Except Trap (List CodeAction) := do
  let some schema := schema | return []
  let some region ← request.regionChecked | return []
  let some document := Document.parse? region.content | return []
  let (first, last) ← region.normalizeSelection request.selection.ordered
  let some offset ← (RegionLocator.ofContent region.content).offset? first | return []
  let context := CursorContext.ofOffset schema document offset
  let (before, after) := offers ⟨schema, request.moduleName, document, context⟩
  let early ← before.filterMapM (ofOfferChecked region document)
  let extraction ← if request.selection.isEmpty then pure none
    else ExtractionCommand.ofLinesChecked schema document region.content first.line last.line
  let late ← after.filterMapM (ofOfferChecked region document)
  return early ++ (extraction.map .extraction).toList ++ late

theorem ofOfferChecked_eq (region : Region) (document : Document) (offer : Offer) :
    ofOfferChecked region document offer = pure (ofOffer? region document offer) := by
  rw [ofOfferChecked, ofOffer?, Offer.result?, Replacer.applyChecked_eq, pure_bind]
  cases offer.replacer.apply document with
  | none => rfl
  | some updated => simp only [replacementChecked_eq, pure_bind, Option.map_some]

theorem filterMapM_ofOfferChecked (region : Region) (document : Document) (offers : List Offer) :
    offers.filterMapM (ofOfferChecked region document) =
      pure (offers.filterMap (ofOffer? region document)) :=
  Checked.filterMapM_eq fun offer _ => ofOfferChecked_eq region document offer

theorem availableChecked_eq (request : Request) (schema : Option Schema) :
    availableChecked request schema = available request schema := by
  cases schema with
  | none => rfl
  | some schema =>
  rw [availableChecked, available, request.regionChecked_eq, pure_bind]
  cases request.region? with
  | none => rfl
  | some region =>
  dsimp only
  cases parsed : Document.parse? region.content with
  | none => rfl
  | some document =>
  refine bind_congr fun lines => bind_congr fun offset? => ?_
  cases offset? with
  | none => rfl
  | some offset =>
    simp only [filterMapM_ofOfferChecked, ExtractionCommand.ofLinesChecked_eq parsed, pure_bind]

/-- In a document of less than `2 ^ 32` bytes one sum alone ends the program, whatever the
selection: the actions are computed unless the selection stops on the last line that a position can
name and the region starts on the first one. No place of a list and no slice of a text ends it,
neither where the actions are computed nor where a command is carried out or refused. -/
theorem runs_unless_overflows (request : Request) (schema : Option Schema)
    (short : request.text.width < 2 ^ 32) :
    (Overflows request schema → available request schema = .error .overflow) ∧
    (¬ Overflows request schema → ∃ actions, available request schema = .ok actions) ∧
    availableChecked request schema = available request schema ∧
    (∀ (command : ExtractionCommand) (choice : ExtractionChoice) (source : Path),
      command.performChecked request choice source =
        .ok (command.perform request choice source)) ∧
    ∀ (name : Name) (arguments : List Argument) (directives : List Directive),
      Directive.addChecked name arguments directives =
        .ok (Directive.add name arguments directives) :=
  ⟨available_of_overflows, available_returns short, availableChecked_eq request schema,
    fun command => command.performChecked_eq request, Directive.addChecked_eq⟩

/-- A selection made backwards that starts inside of a character and stops far below the text. -/
theorem runs_unless_overflows_backwards :
    let request : Request := {
      language := "graphql"
      text := "query Q \x7b a(x: \"é\") \x7d".toList
      selection := ⟨⟨4294967294, 7⟩, ⟨0, 17⟩⟩
      moduleName := "Page".toList }
    let schema := clientSchema ["type Query \x7b a(x: String): Int \x7d".toList]
    request.text.width < 2 ^ 32 ∧ ¬ Overflows request (some schema) ∧
      (∃ actions, available request (some schema) = .ok actions) ∧
      (available request (some schema)).map (List.map title) =
        .ok ["Make operation @relay_test_operation".toList] := by
  intro request schema
  have short : request.text.width < 2 ^ 32 := by decide +kernel
  have within : ¬ Overflows request (some schema) := by
    rintro ⟨-, region, -, -, past, -⟩
    exact absurd past (by decide)
  exact ⟨short, within, (runs_unless_overflows request (some schema) short).2.1 within,
    by decide +kernel⟩

/-- A selection from a field of a document to the last line that a position can name. -/
theorem overflows_last_line :
    ¬ ∀ (request : Request) (schema : Option Schema), request.text.width < 2 ^ 32 →
      ∃ actions, available request schema = .ok actions := by
  intro never
  let request : Request := {
    language := "graphql"
    text := "query Q \x7b\n  viewer \x7b\n    user \x7b\n      id\n    \x7d\n  \x7d\n\x7d".toList
    selection := ⟨⟨3, 6⟩, ⟨4294967295, 4294967295⟩⟩
    moduleName := "M".toList }
  have here : request.region? = some (.document request.text) := by decide +kernel
  have parsed : (Document.parse? request.text).isSome := by decide +kernel
  have past : Overflows request (some (clientSchema [])) :=
    ⟨rfl, _, here, parsed, by decide, rfl⟩
  obtain ⟨actions, runs⟩ := never request (some (clientSchema [])) (by decide +kernel)
  cases (available_of_overflows past).symm.trans runs

end CodeAction

end Relay

end RelayWorkbench
