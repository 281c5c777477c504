import RelayWorkbench.Proofs.Relay.ExtractionTargets
import RelayWorkbench.Relay.CodeAction

/-! What is offered at a selection. The offers are made in one scene, at the byte of the region that
the selection starts at; an extraction is offered beside them. In a document that 32 bits can
measure one selection is not answered: the one that stops on the last line that a position can
name. -/

namespace RelayWorkbench.Relay

open RelayWorkbench.GraphQL RelayWorkbench.Host

namespace Request

/-- The byte of a region that the selection starts at. -/
def offsetIn (request : Request) (region : Region) : Except Trap (Option Nat) := do
  let (first, _) ← region.normalizeSelection request.selection.ordered
  (RegionLocator.ofContent region.content).offset? first

theorem width_content_le {request : Request} {region : Region}
    (here : request.region? = some region) : region.content.width ≤ request.text.width := by
  obtain ⟨regions, known, selected⟩ := Option.bind_eq_some_iff.mp here
  obtain ⟨language, -, rfl⟩ := Option.map_eq_some_iff.mp known
  exact Host.width_content_le (mem_of_selectRegion? selected)

end Request

namespace CodeAction

/-- The scene that the actions at a selection are decided in. -/
def sceneAt (request : Request) (schema : Schema) (document : Document) (offset : Nat) : Scene :=
  ⟨schema, request.moduleName, document, CursorContext.ofOffset schema document offset⟩

/-- The cursor of a request, at a byte of a region that is a document. -/
structure CursorAt (request : Request) (region : Region) (document : Document) (offset : Nat) :
    Prop where
  here : request.region? = some region
  parsed : Document.parse? region.content = some document
  located : request.offsetIn region = .ok (some offset)

/-- Whether the actions at a selection are computed and one is among them. -/
def Offered (request : Request) (schema : Option Schema) (action : CodeAction) : Prop :=
  ∃ actions, available request schema = .ok actions ∧ action ∈ actions

theorem offered_iff {request : Request} {schema : Option Schema} {action : CodeAction} :
    Offered request schema action ↔ action ∈ (available request schema).toOption.getD [] := by
  rw [Offered]
  cases available request schema with
  | error trap => simp [Except.toOption]
  | ok actions => simp [Except.toOption]

instance (request : Request) (schema : Option Schema) (action : CodeAction) :
    Decidable (Offered request schema action) := decidable_of_iff _ offered_iff.symm

variable {request : Request} {schema : Schema} {region : Region} {document : Document}
  {offset : Nat} {action : CodeAction}

theorem CursorAt.unique {other : Region} {made : Document} {place : Nat}
    (first : CursorAt request region document offset) (second : CursorAt request other made place) :
    region = other ∧ document = made ∧ offset = place := by
  obtain rfl := Option.some.inj (first.here.symm.trans second.here)
  exact ⟨rfl, Option.some.inj (first.parsed.symm.trans second.parsed),
    Option.some.inj (Except.ok.inj (first.located.symm.trans second.located))⟩

/-- The extraction at a selection of a region, if there is one. -/
def extractionAt (request : Request) (schema : Schema) (region : Region) (document : Document) :
    Except Trap (Option ExtractionCommand) := do
  let (first, last) ← region.normalizeSelection request.selection.ordered
  if request.selection.isEmpty then return none
  else ExtractionCommand.ofLines? schema document region.content first.line last.line

/-- The actions at a cursor, around an extraction. -/
def actionsAround (scene : Scene) (region : Region) (extraction : Option ExtractionCommand) :
    List CodeAction :=
  (offers scene).1.filterMap (ofOffer? region scene.document) ++
    (extraction.map .extraction).toList ++
      (offers scene).2.filterMap (ofOffer? region scene.document)

/-- At a cursor only the search for an extraction may end the program. -/
theorem available_of_cursor (cursor : CursorAt request region document offset) :
    available request (some schema) =
      (extractionAt request schema region document >>= fun extraction =>
        pure (actionsAround (sceneAt request schema document offset) region extraction)) := by
  obtain ⟨here, parsed, located⟩ := cursor
  obtain ⟨⟨first, last⟩, ends, located⟩ := Checked.bind_eq_ok_iff.mp located
  simp only [available, extractionAt, here, parsed, ends, bind, Except.bind, located]
  split <;> rfl

/-- At a cursor the actions are computed if nothing is selected or 32 bits can measure the
document. -/
theorem available_of_cursor_returns (cursor : CursorAt request region document offset)
    (brief : request.selection.isEmpty ∨ request.text.width < 2 ^ 32) :
    ∃ actions, available request (some schema) = .ok actions := by
  obtain ⟨ends, moved, -⟩ := Checked.bind_eq_ok_iff.mp cursor.located
  obtain ⟨extraction, searched⟩ :
      ∃ extraction, extractionAt request schema region document = .ok extraction := by
    rw [extractionAt, moved]
    cases selected : request.selection.isEmpty with
    | true => exact ⟨none, rfl⟩
    | false =>
      have short : request.text.width < 2 ^ 32 := by simpa [selected] using brief
      exact ExtractionCommand.ofLines?_returns cursor.parsed
        (Nat.lt_of_le_of_lt (Request.width_content_le cursor.here) short)
  exact ⟨_, by rw [available_of_cursor cursor, searched]; rfl⟩

/-- An action is offered at a byte of a region that is a document. -/
theorem exists_cursor_of_offered {schema : Option Schema}
    (offered : Offered request schema action) :
    ∃ known region document offset, schema = some known ∧
      CursorAt request region document offset := by
  obtain ⟨actions, computed, member⟩ := offered
  cases schema with
  | none =>
    cases computed
    cases member
  | some schema =>
  cases here : request.region? with
  | none =>
    simp only [available, here] at computed
    cases computed
    cases member
  | some region =>
  cases parsed : Document.parse? region.content with
  | none =>
    simp only [available, here, parsed] at computed
    cases computed
    cases member
  | some document =>
  simp only [available, here, parsed] at computed
  obtain ⟨⟨first, last⟩, ends, computed⟩ := Checked.bind_eq_ok_iff.mp computed
  obtain ⟨found, located, computed⟩ := Checked.bind_eq_ok_iff.mp computed
  cases found with
  | none =>
    cases computed
    cases member
  | some offset =>
    refine ⟨schema, region, document, offset, rfl, here, parsed, ?_⟩
    rw [Request.offsetIn, ends]
    exact located

/-- What is offered at a cursor is an offer of its scene or the extraction. -/
theorem offered_iff_of_cursor (cursor : CursorAt request region document offset) :
    Offered request (some schema) action ↔
      ∃ extraction, extractionAt request schema region document = .ok extraction ∧
        ((∃ offer, (offer ∈ (offers (sceneAt request schema document offset)).1 ∨
            offer ∈ (offers (sceneAt request schema document offset)).2) ∧
              ofOffer? region document offer = some action) ∨
          ∃ command, extraction = some command ∧ action = .extraction command) := by
  simp only [Offered, available_of_cursor cursor, Checked.bind_eq_ok_iff]
  constructor
  · rintro ⟨actions, ⟨extraction, searched, computed⟩, member⟩
    obtain rfl := Except.ok.inj computed
    refine ⟨extraction, searched, ?_⟩
    simp only [actionsAround, List.mem_append, List.mem_filterMap, Option.mem_toList,
      Option.map_eq_some_iff] at member
    rcases member with (⟨offer, there, made⟩ | ⟨command, rfl, rfl⟩) | ⟨offer, there, made⟩
    · exact .inl ⟨offer, .inl there, made⟩
    · exact .inr ⟨command, rfl, rfl⟩
    · exact .inl ⟨offer, .inr there, made⟩
  · rintro ⟨extraction, searched, made⟩
    refine ⟨_, ⟨extraction, searched, rfl⟩, ?_⟩
    simp only [actionsAround, List.mem_append, List.mem_filterMap, Option.mem_toList,
      Option.map_eq_some_iff]
    rcases made with ⟨offer, there | there, made⟩ | ⟨command, rfl, rfl⟩
    · exact .inl (.inl ⟨offer, there, made⟩)
    · exact .inr ⟨offer, there, made⟩
    · exact .inl (.inr ⟨command, rfl, rfl⟩)

section Traps

/-- Whether the actions at a selection come to a document of GraphQL, the selection stops on the
last line that a position can name, and the region starts on the first one. -/
def Overflows (request : Request) (schema : Option Schema) : Prop :=
  schema.isSome ∧ ∃ region, request.region? = some region ∧
    (Document.parse? region.content).isSome ∧ region.Overflows request.selection.ordered

theorem available_of_overflows {schema : Option Schema} (past : Overflows request schema) :
    available request schema = .error .overflow := by
  obtain ⟨known, region, here, parsed, overflows⟩ := past
  obtain ⟨schema, rfl⟩ := Option.isSome_iff_exists.mp known
  obtain ⟨document, parsed⟩ := Option.isSome_iff_exists.mp parsed
  have ended := (Region.normalizeSelection_eq_error_iff
    request.selection.ordered_stop_not_lt).mpr ⟨rfl, overflows⟩
  simp only [available, here, parsed, ended]
  rfl

/-- In a document of less than `2 ^ 32` bytes the actions at a selection are computed unless the
line of its end has no number. -/
theorem available_returns {schema : Option Schema} (short : request.text.width < 2 ^ 32)
    (within : ¬ Overflows request schema) :
    ∃ actions, available request schema = .ok actions := by
  cases schema with
  | none => exact ⟨[], rfl⟩
  | some schema =>
  cases here : request.region? with
  | none => exact ⟨[], by simp only [available, here]; rfl⟩
  | some region =>
  cases parsed : Document.parse? region.content with
  | none => exact ⟨[], by simp only [available, here, parsed]; rfl⟩
  | some document =>
  have shorter : region.content.width < 2 ^ 32 :=
    Nat.lt_of_le_of_lt (Request.width_content_le here) short
  have fits : ¬ region.Overflows request.selection.ordered := fun past =>
    within ⟨rfl, region, here, by rw [parsed]; rfl, past⟩
  cases ends : region.normalizeSelection request.selection.ordered with
  | error trap =>
    exact absurd ((Region.normalizeSelection_eq_error_iff
      request.selection.ordered_stop_not_lt).mp ends).2 fits
  | ok pair =>
  obtain ⟨found, located⟩ := RegionLocator.offset?_returns shorter pair.1
  cases found with
  | none =>
    exact ⟨[], by simp only [available, here, parsed, ends, bind, Except.bind, located]; rfl⟩
  | some offset =>
  have cursor : CursorAt request region document offset :=
    ⟨here, parsed, by rw [Request.offsetIn, ends]; exact located⟩
  exact available_of_cursor_returns cursor (.inr short)

end Traps

end CodeAction

end RelayWorkbench.Relay
