import RelayWorkbench.GraphQL.Replacer
import RelayWorkbench.Proofs.StatefulRun

/-! Replacing compared with rebuilding. A replacer copies only what lies above a replacement;
the reference walk builds every node anew, children first, and keeps all calls of hooks. Both
make the same calls and end with the same document. -/

namespace RelayWorkbench.GraphQL.Replacer

variable {State α β : Type}

/-- A call of a hook: the span and the node it was offered, and its answer. -/
inductive Call where
  | operation (span : Option Span) (offered : Operation) (answer : Option Operation)
  | fragment (span : Option Span) (offered : Fragment) (answer : Option Fragment)
  | field (span : Option Span) (offered : Field) (answer : Option Field)
  | selectionSet (owner : Option Span) (offered : List Selection)
      (answer : Option (List Selection))

/-- Whether the hook answered with a replacement. -/
def Call.replaces : Call → Bool
  | .operation _ _ answer => answer.isSome
  | .fragment _ _ answer => answer.isSome
  | .field _ _ answer => answer.isSome
  | .selectionSet _ _ answer => answer.isSome

/-- A hook that also notes down its call. -/
def noting (hook : StateM State (Option α)) (call : Option α → Call) :
    StateM (State × List Call) (Option α) :=
  fun (state, calls) =>
    let (answer, next) := hook.run state
    (answer, next, calls ++ [call answer])

/-- The same replacer, with all its calls noted down in order. -/
def recording (replacer : Replacer State) : Replacer (State × List Call) where
  operation span offered :=
    noting (replacer.operation span offered) (.operation span offered)
  fragment span offered :=
    noting (replacer.fragment span offered) (.fragment span offered)
  field span offered := noting (replacer.field span offered) (.field span offered)
  selectionSet owner offered :=
    noting (replacer.selectionSet owner offered) (.selectionSet owner offered)

/-- A node after the walk, with the calls that were made at and below it. -/
structure Rebuilt (α : Type) where
  node : α
  calls : List Call

namespace Rebuilt

/-- Whether some hook replaced something at or below the node. -/
def isReplaced (rebuilt : Rebuilt α) : Bool := rebuilt.calls.any Call.replaces

/-- The node, if anything was replaced. -/
def change? (rebuilt : Rebuilt α) : Option α :=
  if rebuilt.isReplaced then some rebuilt.node else none

/-- Where nothing was replaced the node is the former one. -/
def Keeps (former : α) (rebuilt : Rebuilt α) : Prop :=
  rebuilt.isReplaced = false → rebuilt.node = former

def map (f : α → β) (rebuilt : Rebuilt α) : Rebuilt β := ⟨f rebuilt.node, rebuilt.calls⟩

/-- Nodes that stand side by side, as one. -/
def gather (parts : List (Rebuilt α)) : Rebuilt (List α) :=
  ⟨parts.map node, parts.flatMap calls⟩

end Rebuilt

/-- Ask a hook about a node that was rebuilt, and take its answer if it gives one. -/
def ask (hook : α → StateM State (Option α)) (call : α → Option α → Call)
    (below : Rebuilt α) : StateM State (Rebuilt α) := do
  let answer ← hook below.node
  return ⟨answer.getD below.node, below.calls ++ [call below.node answer]⟩

/-- Ask about the selection set of an owner whose selections were rebuilt. -/
def askSet (replacer : Replacer State) (owner : Option Span) (below : List (Rebuilt Selection)) :
    StateM State (Rebuilt (List Selection)) :=
  ask (replacer.selectionSet owner) (.selectionSet owner) (.gather below)

mutual

/-- A selection built anew from its rebuilt children. -/
def rebuildSelection (replacer : Replacer State) : Selection → StateM State (Rebuilt Selection)
  | .field head children => do
    let set ← replacer.askSet head.span (← replacer.rebuildSelections children)
    let own ← ask (replacer.field head.span) (.field head.span) (set.map (Field.mk head))
    return own.map fun field => .field field.head field.selections
  | .inline head children => do
    let set ← replacer.askSet head.span (← replacer.rebuildSelections children)
    return set.map (.inline head)
  | .spread made => return ⟨.spread made, []⟩

def rebuildSelections (replacer : Replacer State) :
    List Selection → StateM State (List (Rebuilt Selection))
  | [] => return []
  | first :: rest => do
    let first ← replacer.rebuildSelection first
    let rest ← replacer.rebuildSelections rest
    return first :: rest

end

/-- A definition built anew from its rebuilt selections. -/
def rebuildDefinition (replacer : Replacer State) :
    Definition → StateM State (Rebuilt Definition)
  | .operation stated => do
    let set ← replacer.askSet stated.span (← replacer.rebuildSelections stated.selections)
    let own ← ask (replacer.operation stated.span) (.operation stated.span)
      (set.map fun selections => { stated with selections })
    return own.map .operation
  | .fragment stated => do
    let set ← replacer.askSet stated.span (← replacer.rebuildSelections stated.selections)
    let own ← ask (replacer.fragment stated.span) (.fragment stated.span)
      (set.map fun selections => { stated with selections })
    return own.map .fragment
  | definition => return ⟨definition, []⟩

def rebuildDefinitions (replacer : Replacer State) :
    List Definition → StateM State (List (Rebuilt Definition))
  | [] => return []
  | first :: rest => do
    let first ← replacer.rebuildDefinition first
    let rest ← replacer.rebuildDefinitions rest
    return first :: rest

theorem joined_eq (head : α) (tail : List α) (newHead : Option α) (newTail : Option (List α)) :
    joined head tail newHead newTail =
      if newHead.isSome || newTail.isSome then some (newHead.getD head :: newTail.getD tail)
      else none := by
  cases newHead <;> cases newTail <;> rfl

namespace Rebuilt

@[simp] theorem isReplaced_map (f : α → β) (rebuilt : Rebuilt α) :
    (rebuilt.map f).isReplaced = rebuilt.isReplaced := rfl

theorem change?_map (f : α → β) (rebuilt : Rebuilt α) :
    (rebuilt.map f).change? = rebuilt.change?.map f := by
  simp only [change?, isReplaced_map]
  by_cases replaced : rebuilt.isReplaced <;> simp [replaced, map]

theorem isSome_change? (rebuilt : Rebuilt α) : rebuilt.change?.isSome = rebuilt.isReplaced := by
  by_cases replaced : rebuilt.isReplaced <;> simp [change?, replaced]

theorem Keeps.map {former : α} {rebuilt : Rebuilt α} (keeps : Keeps former rebuilt) (f : α → β) :
    Keeps (f former) (rebuilt.map f) :=
  fun untouched => congrArg f (keeps untouched)

/-- The former node stands in for a node that was not replaced. -/
theorem Keeps.getD_change? {former : α} {rebuilt : Rebuilt α} (keeps : Keeps former rebuilt) :
    rebuilt.change?.getD former = rebuilt.node := by
  by_cases replaced : rebuilt.isReplaced
  · simp [change?, replaced]
  · simp [change?, replaced, keeps (by simpa using replaced)]

@[simp] theorem isReplaced_gather (parts : List (Rebuilt α)) :
    (gather parts).isReplaced = parts.any isReplaced := by
  simp only [isReplaced, gather, List.any_flatMap]
  rfl

theorem keeps_gather {formers : List α} {parts : List (Rebuilt α)}
    (keeps : List.Forall₂ Keeps formers parts) : Keeps formers (gather parts) := by
  intro untouched
  induction keeps with
  | nil => rfl
  | cons first rest ih =>
    simp only [isReplaced_gather, List.any_cons, Bool.or_eq_false_iff] at untouched ih
    simp only [gather, List.map_cons] at ih ⊢
    rw [first untouched.1, ih untouched.2]

/-- A list with replacements is put together from its head and its tail. -/
theorem change?_gather_cons {former : α} {formers : List α} {first : Rebuilt α}
    {rest : List (Rebuilt α)} (keepsFirst : Keeps former first)
    (keepsRest : List.Forall₂ Keeps formers rest) :
    joined former formers first.change? (gather rest).change? =
      (gather (first :: rest)).change? := by
  rw [joined_eq, keepsFirst.getD_change?, (keeps_gather keepsRest).getD_change?]
  simp only [isSome_change?, isReplaced_gather]
  rw [change?, isReplaced_gather, List.any_cons]
  rfl

end Rebuilt

/-- Copying a node agrees with rebuilding it: they end in the same state, and the copy is there
exactly when something was replaced. -/
structure Copies (former : α) (copying : StateM State (Option α))
    (rebuilding : StateM State (Rebuilt α)) : Prop where
  agrees : ∀ state, copying.run state =
    ((rebuilding.run state).1.change?, (rebuilding.run state).2)
  keeps : ∀ state, (rebuilding.run state).1.Keeps former

namespace Copies

theorem untouched (former : α) :
    Copies former (return none : StateM State (Option α)) (return ⟨former, []⟩) where
  agrees _ := rfl
  keeps _ _ := rfl

theorem map {former : α} {copying : StateM State (Option α)}
    {rebuilding : StateM State (Rebuilt α)} (copies : Copies former copying rebuilding)
    (f : α → β) :
    Copies (f former) (do return (← copying).map f) (do return (← rebuilding).map f) where
  agrees state := by
    simp only [run_bind, run_pure, copies.agrees, Rebuilt.change?_map]
  keeps state := (copies.keeps state).map f

/-- The hook is asked about the same node on both sides, and a replacement it gives is kept
whether or not something below was replaced. -/
theorem ask {former : α} {copying : StateM State (Option α)}
    {rebuilding : StateM State (Rebuilt α)} (copies : Copies former copying rebuilding)
    (hook : α → StateM State (Option α)) (call : α → Option α → Call)
    (replaces : ∀ node answer, (call node answer).replaces = answer.isSome) :
    Copies former (do offer former (← copying) hook) (do ask hook call (← rebuilding)) where
  agrees state := by
    simp only [run_bind, copies.agrees, offer, Replacer.ask, run_pure,
      (copies.keeps state).getD_change?]
    congr 1
    cases (hook (rebuilding.run state).1.node |>.run (rebuilding.run state).2).1 <;>
      simp [Rebuilt.change?, Rebuilt.isReplaced, replaces]
  keeps state := by
    intro untouched
    simp only [run_bind, Replacer.ask, run_pure, Rebuilt.isReplaced, List.any_append,
      List.any_cons, replaces, List.any_nil, Bool.or_false, Bool.or_eq_false_iff] at untouched ⊢
    rw [Option.isSome_eq_false_iff, Option.isNone_iff_eq_none] at untouched
    rw [untouched.2]
    exact copies.keeps state untouched.1

end Copies

/-- Copying nodes side by side agrees with rebuilding each of them. -/
structure CopiesAll (formers : List α) (copying : StateM State (Option (List α)))
    (rebuilding : StateM State (List (Rebuilt α))) : Prop where
  agrees : ∀ state, copying.run state =
    ((Rebuilt.gather (rebuilding.run state).1).change?, (rebuilding.run state).2)
  keeps : ∀ state, List.Forall₂ Rebuilt.Keeps formers (rebuilding.run state).1

namespace CopiesAll

theorem nil :
    CopiesAll ([] : List α) (return none : StateM State (Option (List α))) (return []) where
  agrees _ := rfl
  keeps _ := .nil

theorem cons {former : α} {formers : List α} {copyingFirst : StateM State (Option α)}
    {copyingRest : StateM State (Option (List α))} {rebuildingFirst : StateM State (Rebuilt α)}
    {rebuildingRest : StateM State (List (Rebuilt α))}
    (first : Copies former copyingFirst rebuildingFirst)
    (rest : CopiesAll formers copyingRest rebuildingRest) :
    CopiesAll (former :: formers)
      (do return joined former formers (← copyingFirst) (← copyingRest))
      (do return (← rebuildingFirst) :: (← rebuildingRest)) where
  agrees state := by
    simp only [run_bind, run_pure, first.agrees, rest.agrees]
    rw [Rebuilt.change?_gather_cons (first.keeps _) (rest.keeps _)]
  keeps state := .cons (first.keeps state) (rest.keeps _)

/-- The selection set of an owner agrees when its selections do. -/
theorem askSet {children : List Selection} {copying : StateM State (Option (List Selection))}
    {rebuilding : StateM State (List (Rebuilt Selection))}
    (copies : CopiesAll children copying rebuilding) (replacer : Replacer State)
    (owner : Option Span) :
    Copies children (do offer children (← copying) (replacer.selectionSet owner))
      (do replacer.askSet owner (← rebuilding)) :=
  have gathered : Copies children copying (do return .gather (← rebuilding)) :=
    { agrees := copies.agrees
      keeps := fun state => Rebuilt.keeps_gather (copies.keeps state) }
  gathered.ask (replacer.selectionSet owner) (Call.selectionSet owner) fun _ _ => rfl

end CopiesAll

mutual

theorem copies_selection (replacer : Replacer State) (former : Selection) :
    Copies former (replacer.selection former) (replacer.rebuildSelection former) := by
  cases former with
  | field head children =>
    have set := (copiesAll_selections replacer children).askSet replacer head.span
    have own := (set.map (Field.mk head)).ask (replacer.field head.span)
      (Call.field head.span) fun _ _ => rfl
    simpa only [selection, rebuildSelection, bind_assoc, pure_bind] using
      own.map fun field => Selection.field field.head field.selections
  | inline head children =>
    have set := (copiesAll_selections replacer children).askSet replacer head.span
    simpa only [selection, rebuildSelection, bind_assoc, pure_bind] using
      set.map (Selection.inline head)
  | spread made => simpa only [selection, rebuildSelection] using Copies.untouched _

theorem copiesAll_selections (replacer : Replacer State) (formers : List Selection) :
    CopiesAll formers (replacer.selections formers) (replacer.rebuildSelections formers) := by
  cases formers with
  | nil => simpa only [selections, rebuildSelections] using CopiesAll.nil
  | cons first rest =>
    simpa only [selections, rebuildSelections] using
      CopiesAll.cons (copies_selection replacer first) (copiesAll_selections replacer rest)

end

theorem copies_definition (replacer : Replacer State) (former : Definition) :
    Copies former (replacer.definition former) (replacer.rebuildDefinition former) := by
  cases former with
  | operation stated =>
    have set := (copiesAll_selections replacer stated.selections).askSet replacer stated.span
    have own := (set.map fun selections => { stated with selections }).ask
      (replacer.operation stated.span) (Call.operation stated.span) fun _ _ => rfl
    simpa only [definition, Replacer.set, rebuildDefinition, bind_assoc, pure_bind] using
      own.map Definition.operation
  | fragment stated =>
    have set := (copiesAll_selections replacer stated.selections).askSet replacer stated.span
    have own := (set.map fun selections => { stated with selections }).ask
      (replacer.fragment stated.span) (Call.fragment stated.span) fun _ _ => rfl
    simpa only [definition, Replacer.set, rebuildDefinition, bind_assoc, pure_bind] using
      own.map Definition.fragment
  | _ => exact Copies.untouched _

theorem copiesAll_definitions (replacer : Replacer State) (formers : List Definition) :
    CopiesAll formers (replacer.definitions formers) (replacer.rebuildDefinitions formers) := by
  induction formers with
  | nil => exact CopiesAll.nil
  | cons first rest ih => exact CopiesAll.cons (copies_definition replacer first) ih

/-- A recorded walk does what the plain one does, and notes down the calls of its result. -/
def Records (callsOf : α → List Call) (plain : StateM State α)
    (recorded : StateM (State × List Call) α) : Prop :=
  ∀ state calls, recorded.run (state, calls) =
    ((plain.run state).1, (plain.run state).2, calls ++ callsOf (plain.run state).1)

namespace Records

theorem map {plain : StateM State (Rebuilt α)} {recorded : StateM (State × List Call) (Rebuilt α)}
    (records : Records Rebuilt.calls plain recorded) (f : α → β) :
    Records Rebuilt.calls (do return (← plain).map f) (do return (← recorded).map f) := by
  intro state calls
  simp only [run_bind, run_pure, records state calls]
  rfl

theorem ask {plain : StateM State (Rebuilt α)} {recorded : StateM (State × List Call) (Rebuilt α)}
    (records : Records Rebuilt.calls plain recorded) (hook : α → StateM State (Option α))
    (call : α → Option α → Call) :
    Records Rebuilt.calls (do ask hook call (← plain))
      (do Replacer.ask (fun node => noting (hook node) (call node)) call (← recorded)) := by
  intro state calls
  simp only [run_bind, Replacer.ask, run_pure, records state calls, ← List.append_assoc]
  rfl

theorem gather {plain : StateM State (List (Rebuilt α))}
    {recorded : StateM (State × List Call) (List (Rebuilt α))}
    (records : Records (·.flatMap Rebuilt.calls) plain recorded) :
    Records Rebuilt.calls (do return .gather (← plain)) (do return .gather (← recorded)) := by
  intro state calls
  simp only [run_bind, run_pure, records state calls]
  rfl

theorem nil : Records (·.flatMap Rebuilt.calls)
    (return [] : StateM State (List (Rebuilt α))) (return []) := by
  intro state calls
  simp only [run_pure, List.flatMap_nil, List.append_nil]

theorem cons {plain : StateM State (Rebuilt α)} {recorded : StateM (State × List Call) (Rebuilt α)}
    {plainRest : StateM State (List (Rebuilt α))}
    {recordedRest : StateM (State × List Call) (List (Rebuilt α))}
    (first : Records Rebuilt.calls plain recorded)
    (rest : Records (·.flatMap Rebuilt.calls) plainRest recordedRest) :
    Records (·.flatMap Rebuilt.calls) (do return (← plain) :: (← plainRest))
      (do return (← recorded) :: (← recordedRest)) := by
  intro state calls
  simp only [run_bind, run_pure, first state calls, rest _ _, List.flatMap_cons,
    List.append_assoc]

end Records

mutual

theorem records_selection (replacer : Replacer State) (former : Selection) :
    Records Rebuilt.calls (replacer.rebuildSelection former)
      (replacer.recording.rebuildSelection former) := by
  cases former with
  | field head children =>
    have set := (records_selections replacer children).gather.ask
      (replacer.selectionSet head.span) (.selectionSet head.span)
    have own := (set.map (Field.mk head)).ask (replacer.field head.span) (Call.field head.span)
    simpa only [rebuildSelection, askSet, recording, bind_assoc, pure_bind] using
      own.map fun field => Selection.field field.head field.selections
  | inline head children =>
    have set := (records_selections replacer children).gather.ask
      (replacer.selectionSet head.span) (.selectionSet head.span)
    simpa only [rebuildSelection, askSet, recording, bind_assoc, pure_bind] using
      set.map (Selection.inline head)
  | spread made =>
    intro state calls
    simp only [rebuildSelection, run_pure, List.append_nil]

theorem records_selections (replacer : Replacer State) (formers : List Selection) :
    Records (·.flatMap Rebuilt.calls) (replacer.rebuildSelections formers)
      (replacer.recording.rebuildSelections formers) := by
  cases formers with
  | nil => simpa only [rebuildSelections] using Records.nil
  | cons first rest =>
    simpa only [rebuildSelections] using
      (records_selection replacer first).cons (records_selections replacer rest)

end

theorem records_definition (replacer : Replacer State) (former : Definition) :
    Records Rebuilt.calls (replacer.rebuildDefinition former)
      (replacer.recording.rebuildDefinition former) := by
  cases former with
  | operation stated =>
    have set := (records_selections replacer stated.selections).gather.ask
      (replacer.selectionSet stated.span) (.selectionSet stated.span)
    have own := (set.map fun selections => { stated with selections }).ask
      (replacer.operation stated.span) (Call.operation stated.span)
    simpa only [rebuildDefinition, askSet, recording, bind_assoc, pure_bind] using
      own.map Definition.operation
  | fragment stated =>
    have set := (records_selections replacer stated.selections).gather.ask
      (replacer.selectionSet stated.span) (.selectionSet stated.span)
    have own := (set.map fun selections => { stated with selections }).ask
      (replacer.fragment stated.span) (Call.fragment stated.span)
    simpa only [rebuildDefinition, askSet, recording, bind_assoc, pure_bind] using
      own.map Definition.fragment
  | _ =>
    intro state calls
    simp only [rebuildDefinition, run_pure, List.append_nil]

theorem records_definitions (replacer : Replacer State) (formers : List Definition) :
    Records (·.flatMap Rebuilt.calls) (replacer.rebuildDefinitions formers)
      (replacer.recording.rebuildDefinitions formers) := by
  induction formers with
  | nil => exact Records.nil
  | cons first rest ih => exact (records_definition replacer first).cons ih

/-- Replacing makes the calls of the reference walk, in its order and with its nodes, ends in
its state, and gives its document exactly when some hook replaced something. Definitions and
selections at and below which nothing was replaced stay as they were. -/
theorem document_eq_rebuild (replacer : Replacer State) (former : Document) (state : State) :
    let walk := (replacer.rebuildDefinitions former.definitions).run state
    let calls := walk.1.flatMap Rebuilt.calls
    let result : Option Document :=
      if calls.any Call.replaces then some ⟨walk.1.map Rebuilt.node⟩ else none
    (replacer.document former).run state = (result, walk.2) ∧
      (replacer.recording.document former).run (state, []) = (result, walk.2, calls) ∧
      List.Forall₂ Rebuilt.Keeps former.definitions walk.1 ∧
      ∀ (selections : List Selection) (before : State),
        List.Forall₂ Rebuilt.Keeps selections
          ((replacer.rebuildSelections selections).run before).1 := by
  intro walk calls result
  have copies := copiesAll_definitions replacer former.definitions
  have recorded := copiesAll_definitions replacer.recording former.definitions
  have records := records_definitions replacer former.definitions state []
  have resultEq : (Rebuilt.gather walk.1).change?.map Document.mk = result :=
    (Rebuilt.change?_map Document.mk (.gather walk.1)).symm
  refine ⟨?_, ?_, copies.keeps state, fun selections before =>
    (copiesAll_selections replacer selections).keeps before⟩
  · rw [document, run_bind, copies.agrees, run_pure, ← resultEq]
  · rw [document, run_bind, recorded.agrees, records, run_pure, ← resultEq, List.nil_append]

end RelayWorkbench.GraphQL.Replacer
