import RelayWorkbench.Proofs.Replacer.Answers

/-! Replacers that edit what stands at one span. In a document whose owners stand apart, that node
is what changes and nothing else does. -/

namespace RelayWorkbench.GraphQL.Replacer

/-- What stands at the target is edited, as far as `edit` applies to it, and nothing else is. -/
def Targets (replacer : Replacer Unit) (target : Option Span) (edit : Node → Option Node) : Prop :=
  ∀ node, replacer.answer? node = if isTarget target node.span then edit node else none

/-- Whether only owners of selection sets are edited. -/
def EditsOwners (edit : Node → Option Node) : Prop :=
  ∀ node new, edit node = some new → node.selections?.isSome

theorem isTarget_iff {target span : Option Span} :
    isTarget target span ↔ ∃ place, target = some place ∧ span = some place := by
  cases span with
  | none => simp [isTarget]
  | some place =>
    rw [isTarget, Option.isSome_some, Bool.true_and, beq_iff_eq]
    constructor
    · rintro rfl
      exact ⟨place, rfl, rfl⟩
    · rintro ⟨_, rfl, same⟩
      exact same

section Targets

variable {replacer : Replacer Unit} {target : Option Span} {edit : Node → Option Node}
  {document : Document} {path : List Nat} {node new : Node}

private theorem span_withSelections (node : Node) (selections : List Selection) :
    (node.withSelections selections).span = node.span := by
  cases node <;> rfl

private theorem isSome_withSelections' (node : Node) (selections : List Selection) :
    (node.withSelections selections).selections?.isSome = node.selections?.isSome := by
  cases node <;> rfl

theorem Targets.ignores (targets : replacer.Targets target edit) (owners : EditsOwners edit)
    (away : ∀ place, target = some place → node.ownsAt place = false) :
    replacer.Ignores node := by
  intro selections
  rw [targets, span_withSelections]
  split
  · next there =>
    obtain ⟨place, aimed, spanned⟩ := isTarget_iff.mp there
    refine Option.eq_none_iff_forall_not_mem.mpr fun new edited => ?_
    have owns := owners _ _ edited
    rw [isSome_withSelections'] at owns
    have stands : node.ownsAt place := (Node.ownsAt_iff owns).mpr spanned
    rw [away place aimed] at stands
    cases stands
  · rfl

/-- What stands at a span is the only node that is replaced there. -/
theorem Targets.apply_eq (targets : replacer.Targets target edit) (owners : EditsOwners edit)
    (apart : document.OwnersApart) (reached : document.nodeAt? path = some node)
    (spanned : node.span = target) (known : target.isSome) (edited : edit node = some new) :
    ∃ updated, replacer.apply document = some updated ∧
      document.replaceAt? new path = some updated := by
  obtain ⟨place, rfl⟩ := Option.isSome_iff_exists.mp known
  have owner : node.ownsAt place := (Node.ownsAt_iff (owners _ _ edited)).mpr spanned
  refine apply_of_answer reached ?_ ?_
  · rw [targets, if_pos (isTarget_iff.mpr ⟨place, rfl, spanned⟩), edited]
  · intro other inner reachedOther different
    refine targets.ignores owners fun _ same => Bool.eq_false_iff.mpr fun ownerOther => ?_
    cases same
    exact different (apart place path other node inner reached owner reachedOther ownerOther)

/-- A replacement that was made is that of what stands at the span. -/
theorem Targets.replaceAt?_eq (targets : replacer.Targets target edit) (owners : EditsOwners edit)
    (apart : document.OwnersApart) (reached : document.nodeAt? path = some node)
    (spanned : node.span = target) (edited : edit node = some new) {updated : Document}
    (applied : replacer.apply document = some updated) :
    document.replaceAt? new path = some updated := by
  cases target with
  | none =>
    rw [apply_of_ignores fun _ _ _ _ => targets.ignores owners nofun] at applied
    cases applied
  | some place =>
    obtain ⟨other, made, replaces⟩ := targets.apply_eq owners apart reached spanned rfl edited
    cases made.symm.trans applied
    exact replaces

end Targets

section Kinds

/-- A replacer without a hook for selection sets only answers to nodes themselves. -/
theorem answer?_of_own {replacer : Replacer Unit}
    (sets : ∀ owner selections, outcome (replacer.selectionSet owner selections) = none)
    (node : Node) : replacer.answer? node = replacer.answerOwn? node := by
  have none : replacer.answerSet? node = none := by simp [answerSet?, sets]
  simp [answer?, none]

def editOperation (edit : Operation → Operation) : Node → Option Node
  | .operation stated => some (.operation (edit stated))
  | _ => none

def editFragment (edit : Fragment → Fragment) : Node → Option Node
  | .fragment stated => some (.fragment (edit stated))
  | _ => none

def editField (edit : Field → Field) : Node → Option Node
  | .field made => some (.field (edit made))
  | _ => none

def editSelectionSet (edit : List Selection → List Selection) (node : Node) : Option Node :=
  node.selections?.map fun selections => node.withSelections (edit selections)

theorem editsOwners_operation (edit : Operation → Operation) :
    EditsOwners (editOperation edit) := by
  intro node new edited
  cases node <;> first | rfl | cases edited

theorem editsOwners_fragment (edit : Fragment → Fragment) : EditsOwners (editFragment edit) := by
  intro node new edited
  cases node <;> first | rfl | cases edited

theorem editsOwners_field (edit : Field → Field) : EditsOwners (editField edit) := by
  intro node new edited
  cases node <;> first | rfl | cases edited

theorem editsOwners_selectionSet (edit : List Selection → List Selection) :
    EditsOwners (editSelectionSet edit) := by
  intro node new edited
  obtain ⟨selections, owned, -⟩ := Option.map_eq_some_iff.mp edited
  simp [owned]

/-- What a hook that edits at the target makes of a node of its kind. -/
private theorem map_outcome_edited {α : Type} (there : Bool) (edited : α) (make : α → Node) :
    (outcome (return if there then some edited else none : StateM Unit (Option α))).map make =
      if there then some (make edited) else none := by
  cases there <;> rfl

theorem targets_onOperation (target : Option Span) (edit : Operation → Operation) :
    (onOperation target edit).Targets target (editOperation edit) := by
  intro node
  rw [answer?_of_own fun _ _ => rfl]
  cases node with
  | operation stated =>
    exact map_outcome_edited (isTarget target stated.span) (edit stated) .operation
  | fragment | field | inline | spread => simp [answerOwn?, editOperation, onOperation]

theorem targets_onFragment (target : Option Span) (edit : Fragment → Fragment) :
    (onFragment target edit).Targets target (editFragment edit) := by
  intro node
  rw [answer?_of_own fun _ _ => rfl]
  cases node with
  | fragment stated =>
    exact map_outcome_edited (isTarget target stated.span) (edit stated) .fragment
  | operation | field | inline | spread => simp [answerOwn?, editFragment, onFragment]

theorem targets_onField (target : Option Span) (edit : Field → Field) :
    (onField target edit).Targets target (editField edit) := by
  intro node
  rw [answer?_of_own fun _ _ => rfl]
  cases node with
  | field made => exact map_outcome_edited (isTarget target made.head.span) (edit made) .field
  | operation | fragment | inline | spread => simp [answerOwn?, editField, onField]

/-- Replaces the selection set of the owner at a span. -/
def onSelectionSet (target : Span) (edit : List Selection → List Selection) : Replacer Unit where
  selectionSet owner selections :=
    return if isTarget (some target) owner then some (edit selections) else none

theorem targets_onSelectionSet (target : Span) (edit : List Selection → List Selection) :
    (onSelectionSet target edit).Targets (some target) (editSelectionSet edit) := by
  intro node
  have own (other : Node) : (onSelectionSet target edit).answerOwn? other = none := by
    cases other <;> rfl
  have hook (selections : List Selection) :
      outcome ((onSelectionSet target edit).selectionSet node.span selections) =
        if isTarget (some target) node.span then some (edit selections) else none := rfl
  simp only [answer?, answerSet?, own, hook, editSelectionSet, Option.none_or]
  cases node.selections? with
  | none => simp
  | some selections => by_cases there : isTarget (some target) node.span <;> simp [there]

end Kinds

/-- In a document whose owners stand apart, editing the selection set at a span replaces the node
that stands there and keeps everything else. -/
theorem apply_onSelectionSet (target : Span) (edit : List Selection → List Selection)
    {document : Document} (apart : document.OwnersApart)
    {path : List Nat} {node : Node} (reached : document.nodeAt? path = some node)
    (owner : node.ownsAt target) {former : List Selection}
    (owned : node.selections? = some former) :
    ∃ updated, (onSelectionSet target edit).apply document = some updated ∧
      document.replaceAt? (node.withSelections (edit former)) path = some updated := by
  have spanned : node.span = some target := (Node.ownsAt_iff (by simp [owned])).mp owner
  exact (targets_onSelectionSet target edit).apply_eq (editsOwners_selectionSet edit) apart reached
    spanned rfl (by simp [editSelectionSet, owned])

end RelayWorkbench.GraphQL.Replacer
