import RelayWorkbench.Proofs.GraphQL.Leaves
import RelayWorkbench.Proofs.Replacer.Answers

/-! Replacers and leaves. A replacer whose answers have no leaves but good ones keeps a document
good. -/

namespace RelayWorkbench.GraphQL.Replacer

/-- All leaves of a selection are good. -/
abbrev SelectionOf (good : Lexeme → Prop) (selection : Selection) : Prop :=
  ∀ leaf ∈ selection.leaves, good leaf

/-- A replacer that answers a good node with a good one. -/
structure Keeps (good : Lexeme → Prop) (replacer : Replacer Unit) : Prop where
  operation : ∀ span (stated : Operation), (∀ leaf ∈ stated.leaves, good leaf) →
    ∀ made ∈ outcome (replacer.operation span stated), ∀ leaf ∈ made.leaves, good leaf := by
    rintro _ _ _ _ ⟨⟩
  fragment : ∀ span (stated : Fragment), (∀ leaf ∈ stated.leaves, good leaf) →
    ∀ made ∈ outcome (replacer.fragment span stated), ∀ leaf ∈ made.leaves, good leaf := by
    rintro _ _ _ _ ⟨⟩
  field : ∀ span (offered : Field), SelectionOf good (.field offered.head offered.selections) →
    ∀ made ∈ outcome (replacer.field span offered),
      SelectionOf good (.field made.head made.selections) := by rintro _ _ _ _ ⟨⟩
  selectionSet : ∀ owner (selections : List Selection),
    (∀ selection ∈ selections, SelectionOf good selection) →
    ∀ made ∈ outcome (replacer.selectionSet owner selections),
      ∀ selection ∈ made, SelectionOf good selection := by rintro _ _ _ _ ⟨⟩

variable {α : Type} {holds : α → Prop}

private theorem offer_of (former : α) {updated : Option α} {hook : α → StateM Unit (Option α)}
    (own : holds former) (below : ∀ made ∈ updated, holds made)
    (keeps : ∀ node, holds node → ∀ made ∈ outcome (hook node), holds made) :
    ∀ made ∈ outcome (offer former updated hook), holds made := by
  intro made found
  rw [outcome_offer] at found
  rcases Option.or_eq_some_iff.mp found with answered | ⟨-, same⟩
  · refine keeps _ ?_ made answered
    cases updated with
    | none => exact own
    | some changed => exact below changed rfl
  · exact below made same

private theorem joined_of {head : α} {tail : List α} {newHead : Option α}
    {newTail : Option (List α)}
    (own : holds head) (others : ∀ node ∈ tail, holds node) (first : ∀ made ∈ newHead, holds made)
    (rest : ∀ made ∈ newTail, ∀ node ∈ made, holds node) :
    ∀ made ∈ joined head tail newHead newTail, ∀ node ∈ made, holds node := by
  have here : holds (newHead.getD head) := by
    cases newHead with
    | none => exact own
    | some made => exact first made rfl
  have there : ∀ node ∈ newTail.getD tail, holds node := by
    cases newTail with
    | none => exact others
    | some made => exact rest made rfl
  intro made found
  unfold joined at found
  split at found
  · cases found
  · cases found
    exact List.forall_mem_cons.mpr ⟨here, there⟩

private theorem map_of {β : Type} {better : β → Prop} {option : Option α} {f : α → β}
    (each : ∀ value ∈ option, holds value) (goes : ∀ value, holds value → better (f value)) :
    ∀ value ∈ option.map f, better value := by
  intro value found
  obtain ⟨former, present, rfl⟩ := Option.map_eq_some_iff.mp found
  exact goes former (each former present)

namespace Keeps

variable {good : Lexeme → Prop} {replacer : Replacer Unit}

mutual

theorem selection (keeps : replacer.Keeps good) : ∀ former : Selection, SelectionOf good former →
    ∀ made ∈ outcome (replacer.selection former), SelectionOf good made
  | .field head children, sound => by
    obtain ⟨own, below⟩ := Selection.forall_leaves_field.mp sound
    have set := offer_of _ below (keeps.selections children below) (keeps.selectionSet head.span)
    have fields : ∀ made ∈ Option.map (Field.mk head ·) _,
        SelectionOf good (.field made.head made.selections) :=
      map_of set fun selections others => Selection.forall_leaves_field.mpr ⟨own, others⟩
    have node := offer_of ⟨head, children⟩ sound fields (keeps.field head.span)
    intro made found
    simp only [Replacer.selection, outcome_bind, outcome_pure] at found
    obtain ⟨changed, answered, rfl⟩ := Option.map_eq_some_iff.mp found
    exact node changed answered
  | .inline head children, sound => by
    obtain ⟨own, below⟩ := Selection.forall_leaves_inline.mp sound
    have set := offer_of _ below (keeps.selections children below) (keeps.selectionSet head.span)
    exact map_of set fun selections others => Selection.forall_leaves_inline.mpr ⟨own, others⟩
  | .spread _, _ => nofun

theorem selections (keeps : replacer.Keeps good) : ∀ former : List Selection,
    (∀ selection ∈ former, SelectionOf good selection) →
      ∀ made ∈ outcome (replacer.selections former), ∀ selection ∈ made, SelectionOf good selection
  | [], _ => nofun
  | first :: rest, sound => by
    obtain ⟨own, others⟩ := List.forall_mem_cons.mp sound
    exact joined_of own others (keeps.selection first own) (keeps.selections rest others)

end

private theorem definition (keeps : replacer.Keeps good) {stated : Definition}
    (sound : ∀ leaf ∈ stated.leaves, good leaf) :
    ∀ made ∈ outcome (replacer.definition stated), ∀ leaf ∈ made.leaves, good leaf := by
  cases stated with
  | operation stated =>
    obtain ⟨named, declared, directed, below⟩ := Operation.forall_leaves.mp sound
    have set := offer_of _ below (keeps.selections stated.selections below)
      (keeps.selectionSet stated.span)
    have nodes : ∀ made ∈ Option.map (fun selections => { stated with selections }) _,
        ∀ leaf ∈ made.leaves, good leaf := map_of set fun selections others =>
      Operation.forall_leaves.mpr ⟨named, declared, directed, others⟩
    exact map_of (offer_of _ sound nodes (keeps.operation stated.span)) fun _ => id
  | fragment stated =>
    obtain ⟨named, typed, directed, below⟩ := Fragment.forall_leaves.mp sound
    have set := offer_of _ below (keeps.selections stated.selections below)
      (keeps.selectionSet stated.span)
    have nodes : ∀ made ∈ Option.map (fun selections => { stated with selections }) _,
        ∀ leaf ∈ made.leaves, good leaf := map_of set fun selections others =>
      Fragment.forall_leaves.mpr ⟨named, typed, directed, others⟩
    exact map_of (offer_of _ sound nodes (keeps.fragment stated.span)) fun _ => id
  | directive | schema | schemaExtension | type | typeExtension => nofun

private theorem definitions (keeps : replacer.Keeps good) {former : List Definition}
    (sound : ∀ stated ∈ former, ∀ leaf ∈ stated.leaves, good leaf) :
    ∀ made ∈ outcome (replacer.definitions former), ∀ stated ∈ made,
      ∀ leaf ∈ stated.leaves, good leaf := by
  induction former with
  | nil => nofun
  | cons first rest ih =>
    obtain ⟨own, others⟩ := List.forall_mem_cons.mp sound
    exact joined_of own others (keeps.definition own) (ih others)

theorem apply (keeps : replacer.Keeps good) {former updated : Document}
    (sound : ∀ leaf ∈ former.leaves, good leaf) (applied : replacer.apply former = some updated) :
    ∀ leaf ∈ updated.leaves, good leaf := by
  rw [apply_eq] at applied
  obtain ⟨definitions, changed, rfl⟩ := Option.map_eq_some_iff.mp applied
  exact Document.forall_leaves.mpr
    (keeps.definitions (Document.forall_leaves.mp sound) definitions changed)

section Targets

variable {target : Option Span}

theorem of_target {α : Type} {holds : α → Prop} {span : Option Span} {edit : α → α}
    {stated : α} (edits : holds (edit stated)) :
    ∀ made ∈ outcome (return if isTarget target span then some (edit stated) else none),
      holds made := by
  intro made answered
  simp only [outcome_pure] at answered
  split at answered
  · cases answered
    exact edits
  · cases answered

theorem onOperation {edit : Operation → Operation}
    (edits : ∀ stated : Operation, (∀ leaf ∈ stated.leaves, good leaf) →
      ∀ leaf ∈ (edit stated).leaves, good leaf) :
    (Replacer.onOperation target edit).Keeps good where
  operation _ stated sound := of_target (edits stated sound)

theorem onFragment {edit : Fragment → Fragment}
    (edits : ∀ stated : Fragment, (∀ leaf ∈ stated.leaves, good leaf) →
      ∀ leaf ∈ (edit stated).leaves, good leaf) : (Replacer.onFragment target edit).Keeps good where
  fragment _ stated sound := of_target (edits stated sound)

theorem onField {edit : Field → Field}
    (edits : ∀ made : Field, SelectionOf good (.field made.head made.selections) →
      SelectionOf good (.field (edit made).head (edit made).selections)) :
    (Replacer.onField target edit).Keeps good where
  field _ made sound := of_target (edits made sound)

end Targets

end Keeps

end RelayWorkbench.GraphQL.Replacer
