import RelayWorkbench.GraphQL.Replacer
import RelayWorkbench.Proofs.GraphQL.Owners

/-! What a replacer without a state answers to the nodes of a document. Where it answers to one
node, that node is what changes and nothing else does; where it also answers to the definition
around it, the two replacements come one after the other. -/

namespace RelayWorkbench.GraphQL.Replacer

variable {α β : Type}

/-- What a step without a state gives. -/
def outcome (step : StateM Unit α) : α := (step.run ()).1

@[simp] theorem outcome_pure (value : α) : outcome (pure value : StateM Unit α) = value := rfl

@[simp] theorem outcome_bind (first : StateM Unit α) (next : α → StateM Unit β) :
    outcome (first >>= next) = outcome (next (outcome first)) := rfl

@[simp] theorem outcome_map (f : α → β) (step : StateM Unit α) :
    outcome (f <$> step) = f (outcome step) := rfl

@[simp] theorem outcome_offer (former : α) (updated : Option α)
    (hook : α → StateM Unit (Option α)) :
    outcome (offer former updated hook) = (outcome (hook (updated.getD former))).or updated := rfl

/-- What visits of the elements of a list make of it, if there is any replacement. -/
def joinedAll (visit : α → Option α) : List α → Option (List α)
  | [] => none
  | first :: rest => joined first rest (visit first) (joinedAll visit rest)

section Lists

variable {visit : α → Option α} {elements : List α} {element replaced : α} {index : Nat}

theorem joinedAll_eq_none (untouched : ∀ element ∈ elements, visit element = none) :
    joinedAll visit elements = none := by
  induction elements with
  | nil => rfl
  | cons first rest ih =>
    have head := untouched first (List.mem_cons_self ..)
    have tail := ih fun element member => untouched element (List.mem_cons_of_mem first member)
    rw [joinedAll, head, tail, joined]

/-- Where one element changes, it takes its place among the others. -/
theorem joinedAll_set (found : elements[index]? = some element)
    (changes : visit element = some replaced)
    (others : ∀ (other : Nat) second, elements[other]? = some second → other ≠ index →
      visit second = none) :
    joinedAll visit elements = some (elements.set index replaced) := by
  induction elements generalizing index with
  | nil => simp at found
  | cons first rest ih =>
    cases index with
    | zero =>
      obtain rfl : first = element := by simpa using found
      have tail : joinedAll visit rest = none := by
        refine joinedAll_eq_none fun second member => ?_
        obtain ⟨other, reached⟩ := List.getElem?_of_mem member
        exact others (other + 1) second (by simpa using reached) (by omega)
      simp [joinedAll, joined, changes, tail]
    | succ index =>
      have head := others 0 first (by simp) (by omega)
      have tail := ih (by simpa using found) fun other second reached apart =>
        others (other + 1) second (by simpa using reached) (by omega)
      simp [joinedAll, joined, head, tail]

end Lists

variable (replacer : Replacer Unit)

theorem outcome_selections (children : List Selection) :
    outcome (replacer.selections children) =
      joinedAll (fun child => outcome (replacer.selection child)) children := by
  induction children with
  | nil => simp [Replacer.selections, joinedAll]
  | cons first rest ih => simp [Replacer.selections, joinedAll, ih]

theorem outcome_definitions (definitions : List Definition) :
    outcome (replacer.definitions definitions) =
      joinedAll (fun stated => outcome (replacer.definition stated)) definitions := by
  induction definitions with
  | nil => simp [Replacer.definitions, joinedAll]
  | cons first rest ih => simp [Replacer.definitions, joinedAll, ih]

/-- The node after the hook for its selection set. -/
def answerSet? (node : Node) : Option Node :=
  node.selections?.bind fun children =>
    (outcome (replacer.selectionSet node.span children)).map (node.withSelections ·)

/-- The node after the hook for nodes of its kind. -/
def answerOwn? : Node → Option Node
  | .operation stated => (outcome (replacer.operation stated.span stated)).map .operation
  | .fragment stated => (outcome (replacer.fragment stated.span stated)).map .fragment
  | .field made => (outcome (replacer.field made.head.span made)).map .field
  | .inline .. | .spread _ => none

/-- What a replacer answers to a node, below which everything is replaced already. -/
def answer? (node : Node) : Option Node :=
  let set := replacer.answerSet? node
  (replacer.answerOwn? (set.getD node)).or set

/-- A node that a replacer has no answer to, whatever its selections become. -/
def Ignores (node : Node) : Prop :=
  ∀ selections, replacer.answer? (node.withSelections selections) = none

def revised? (node : Node) : Option Node :=
  node.selections?.bind fun children =>
    let below := outcome (replacer.selections children)
    (replacer.answer? (node.withSelections (below.getD children))).or
      (below.map (node.withSelections ·))

variable {replacer}

@[simp] private theorem ofSelection_field (made : Field) :
    Node.ofSelection (.field made.head made.selections) = .field made := rfl

@[simp] private theorem toDefinition?_operation (answer : Option Operation) :
    (answer.map Node.operation).bind Node.toDefinition? = answer.map .operation := by
  cases answer <;> rfl

@[simp] private theorem toDefinition?_fragment (answer : Option Fragment) :
    (answer.map Node.fragment).bind Node.toDefinition? = answer.map .fragment := by
  cases answer <;> rfl

theorem selection_eq (selection : Selection) :
    (outcome (replacer.selection selection)).map Node.ofSelection =
      replacer.revised? (Node.ofSelection selection) := by
  cases selection with
  | field head children =>
    simp only [Replacer.selection, revised?, Node.ofSelection, Node.selections?, answer?,
      answerSet?, answerOwn?, Node.withSelections, Node.span, outcome_bind, outcome_offer,
      outcome_pure, Option.bind_some]
    cases below : outcome (replacer.selections children) with
    | none =>
      cases set : outcome (replacer.selectionSet head.span children) <;>
        simp [set, Function.comp_def]
    | some changed =>
      cases set : outcome (replacer.selectionSet head.span changed) <;> simp [set]
  | inline head children =>
    simp only [Replacer.selection, revised?, Node.ofSelection, Node.selections?, answer?,
      answerSet?, answerOwn?, Node.withSelections, Node.span, outcome_bind, outcome_offer,
      outcome_pure, Option.bind_some]
    cases below : outcome (replacer.selections children) with
    | none =>
      cases set : outcome (replacer.selectionSet head.span children) <;>
        simp [set, Node.ofSelection]
    | some changed =>
      cases set : outcome (replacer.selectionSet head.span changed) <;>
        simp [set, Node.ofSelection]
  | spread made => simp [Replacer.selection, revised?, Node.ofSelection, Node.selections?]

theorem definition_eq {stated : Definition} {top : Node}
    (navigable : Node.ofDefinition? stated = some top) :
    outcome (replacer.definition stated) = (replacer.revised? top).bind Node.toDefinition? := by
  cases stated with
  | operation made | fragment made =>
    cases navigable
    simp only [Replacer.definition, Replacer.set, revised?, Node.selections?, answer?,
      answerSet?, answerOwn?, Node.withSelections, Node.span, outcome_bind, outcome_offer,
      outcome_pure, Option.bind_some]
    cases below : outcome (replacer.selections made.selections) with
    | none =>
      cases set : outcome (replacer.selectionSet made.span made.selections) <;>
        simp [set, Node.toDefinition?]
    | some changed =>
      cases set : outcome (replacer.selectionSet made.span changed) <;>
        simp [set, Node.toDefinition?]
  | directive | schema | schemaExtension | type | typeExtension => cases navigable

/-- Neither the node nor one below it is answered. -/
def IgnoresAll (replacer : Replacer Unit) (node : Node) : Prop :=
  ∀ path inner, node.descend? path = some inner → replacer.Ignores inner

/-- No node is answered but the one at a path. -/
def IgnoresBut (replacer : Replacer Unit) (path : List Nat) (node : Node) : Prop :=
  ∀ other inner, node.descend? other = some inner → other ≠ path → replacer.Ignores inner

section Nodes

variable {node inner new : Node} {path : List Nat} {index : Nat} {children : List Selection}
  {child : Selection}

theorem withSelections_self (owned : node.selections? = some children) :
    node.withSelections children = node := by
  cases node <;> cases owned <;> rfl

theorem IgnoresAll.of_mem (ignores : replacer.IgnoresAll node)
    (owned : node.selections? = some children) (member : child ∈ children) :
    replacer.IgnoresAll (Node.ofSelection child) := by
  obtain ⟨index, found⟩ := List.getElem?_of_mem member
  intro path inner below
  exact ignores (index :: path) inner (by rw [Node.descend?_cons owned found, below])

theorem IgnoresBut.of_mem (ignores : replacer.IgnoresBut [] node)
    (owned : node.selections? = some children) (member : child ∈ children) :
    replacer.IgnoresAll (Node.ofSelection child) := by
  obtain ⟨index, found⟩ := List.getElem?_of_mem member
  intro path inner below
  exact ignores (index :: path) inner (by rw [Node.descend?_cons owned found, below]) nofun

theorem IgnoresBut.of_getElem? (ignores : replacer.IgnoresBut (index :: path) node)
    (owned : node.selections? = some children) (found : children[index]? = some child) :
    replacer.IgnoresBut path (Node.ofSelection child) := by
  intro other inner below apart
  refine ignores (index :: other) inner (by rw [Node.descend?_cons owned found, below]) ?_
  simpa using apart

theorem IgnoresBut.of_ne {other : Nat} (ignores : replacer.IgnoresBut (index :: path) node)
    (owned : node.selections? = some children) (found : children[other]? = some child)
    (apart : other ≠ index) : replacer.IgnoresAll (Node.ofSelection child) := by
  intro below inner reached
  refine ignores (other :: below) inner (by rw [Node.descend?_cons owned found, reached]) ?_
  simp [apart]

/-- Where nothing is answered, nothing is replaced. -/
private theorem outcome_selection (none : replacer.revised? (Node.ofSelection child) = none) :
    outcome (replacer.selection child) = Option.none := by
  rw [← selection_eq] at none
  simpa using none

mutual

theorem revised?_of_ignoresAll : ∀ selection : Selection,
    replacer.IgnoresAll (Node.ofSelection selection) →
      replacer.revised? (Node.ofSelection selection) = none
  | .field head children, ignores => by
    have below := selections_of_ignoresAll children fun child member =>
      ignores.of_mem rfl member
    have own : replacer.answer? (.field ⟨head, children⟩) = none := ignores [] _ rfl children
    simp [revised?, Node.ofSelection, Node.selections?, Node.withSelections, below, own]
  | .inline head children, ignores => by
    have below := selections_of_ignoresAll children fun child member =>
      ignores.of_mem rfl member
    have own : replacer.answer? (.inline head children) = none := ignores [] _ rfl children
    simp [revised?, Node.ofSelection, Node.selections?, Node.withSelections, below, own]
  | .spread made, _ => rfl

theorem selections_of_ignoresAll : ∀ selections : List Selection,
    (∀ selection ∈ selections, replacer.IgnoresAll (Node.ofSelection selection)) →
      outcome (replacer.selections selections) = none
  | [], _ => by simp [Replacer.selections]
  | first :: rest, ignores => by
    have head := outcome_selection
      (revised?_of_ignoresAll first (ignores first (List.mem_cons_self ..)))
    have tail := selections_of_ignoresAll rest fun selection member =>
      ignores selection (List.mem_cons_of_mem first member)
    simp [Replacer.selections, head, tail, joined]

end

private theorem revised?_of_below (owned : node.selections? = some children)
    (none : outcome (replacer.selections children) = none) :
    replacer.revised? node = replacer.answer? node := by
  simp [revised?, owned, none, withSelections_self owned]

private theorem owns_of_answer (answer : replacer.answer? node = some new) :
    ∃ children, node.selections? = some children := by
  cases node with
  | operation | fragment | field | inline => exact ⟨_, rfl⟩
  | spread => cases answer

private theorem below_of_child {revised : Node} (owned : node.selections? = some children)
    (found : children[index]? = some child)
    (changes : replacer.revised? (Node.ofSelection child) = some revised)
    (replaces : (Node.ofSelection child).replaceBelow? new path = some revised)
    (others : ∀ other selection, children[other]? = some selection → other ≠ index →
      replacer.IgnoresAll (Node.ofSelection selection)) :
    ∃ changed, outcome (replacer.selections children) = some changed ∧
      node.replaceBelow? new (index :: path) = some (node.withSelections changed) := by
  rw [← selection_eq] at changes
  obtain ⟨replaced, visited, rfl⟩ := Option.map_eq_some_iff.mp changes
  have back : (Node.ofSelection replaced).toSelection? = some replaced := by
    cases replaced <;> rfl
  refine ⟨children.set index replaced, ?_,
    by simp [Node.replaceBelow?, owned, found, replaces, back]⟩
  rw [outcome_selections]
  exact joinedAll_set found visited fun other selection there apart =>
    outcome_selection (revised?_of_ignoresAll selection (others other selection there apart))

/-- The answer to the only node that is answered takes its place. -/
theorem revised?_of_answer (reached : node.descend? path = some inner)
    (answer : replacer.answer? inner = some new) (ignores : replacer.IgnoresBut path node) :
    ∃ revised, replacer.revised? node = some revised ∧
      node.replaceBelow? new path = some revised := by
  induction path generalizing node with
  | nil =>
    cases reached
    obtain ⟨children, owned⟩ := owns_of_answer answer
    have below : outcome (replacer.selections children) = none :=
      selections_of_ignoresAll children fun child member => ignores.of_mem owned member
    exact ⟨new, by rw [revised?_of_below owned below, answer], rfl⟩
  | cons index path ih =>
    obtain ⟨children, child, owned, found, below⟩ := Node.descend?_cons_eq_some reached
    obtain ⟨revised, changes, replaces⟩ := ih below (ignores.of_getElem? owned found)
    obtain ⟨changed, visited, replaced⟩ := below_of_child owned found changes replaces
      fun other selection there apart => ignores.of_ne owned there apart
    have own := ignores [] node rfl nofun changed
    exact ⟨_, by simp [revised?, owned, visited, own], replaced⟩

/-- Where a node and one node below it are answered, the node is answered as it is with the other
answer in place. -/
theorem revised?_of_answers (reached : node.descend? (index :: path) = some inner)
    (answer : replacer.answer? inner = some new)
    (ignores : ∀ other second, node.descend? other = some second → other ≠ [] →
      other ≠ index :: path → replacer.Ignores second) :
    ∃ selections, node.replaceBelow? new (index :: path) = some (node.withSelections selections) ∧
      ∀ last, replacer.answer? (node.withSelections selections) = some last →
        replacer.revised? node = some last := by
  obtain ⟨children, child, owned, found, below⟩ := Node.descend?_cons_eq_some reached
  have apart : ∀ {other : Nat} {steps : List Nat} {selection : Selection} {second : Node},
      children[other]? = some selection →
        (Node.ofSelection selection).descend? steps = some second →
        other :: steps ≠ index :: path → replacer.Ignores second := by
    intro other steps selection second there reached differs
    exact ignores (other :: steps) second (by rw [Node.descend?_cons owned there, reached]) nofun
      differs
  obtain ⟨revised, changes, replaces⟩ := revised?_of_answer below answer
    fun other second reached differs => apart found reached (by simpa using differs)
  obtain ⟨changed, visited, replaced⟩ := below_of_child owned found changes replaces
    fun other selection there differs steps second reached =>
      apart there reached (by simp [differs])
  exact ⟨_, replaced, fun last answered => by simp [revised?, owned, visited, answered]⟩

end Nodes

section Documents

variable {document : Document} {index : Nat} {stated : Definition} {top : Node}

/-- No node of a document is answered but those at some paths. -/
def IgnoresOutside (replacer : Replacer Unit) (document : Document) (inside : List Nat → Prop) :
    Prop :=
  ∀ path node, document.nodeAt? path = some node → ¬ inside path → replacer.Ignores node

private theorem definition_of_ignoresAll
    (ignores : ∀ top, Node.ofDefinition? stated = some top → replacer.IgnoresAll top) :
    outcome (replacer.definition stated) = none := by
  cases stated with
  | operation made | fragment made =>
    have ignores := ignores _ rfl
    have below := selections_of_ignoresAll made.selections fun child member =>
      ignores.of_mem rfl member
    rw [definition_eq rfl, revised?_of_below rfl below]
    have own := ignores [] _ rfl made.selections
    rw [withSelections_self rfl] at own
    rw [own]
    rfl
  | directive | schema | schemaExtension | type | typeExtension => rfl

theorem apply_eq (replacer : Replacer Unit) (document : Document) :
    replacer.apply document =
      (outcome (replacer.definitions document.definitions)).map Document.mk := rfl

private theorem IgnoresOutside.ignoresAll {inside : List Nat → Prop}
    (ignores : replacer.IgnoresOutside document inside)
    (found : document.definitions[index]? = some stated)
    (navigable : Node.ofDefinition? stated = some top)
    (outside : ∀ path, ¬ inside (index :: path)) :
    replacer.IgnoresAll top := by
  intro path inner reached
  exact ignores (index :: path) inner (by rw [Document.nodeAt?_cons found navigable, reached])
    (outside path)

/-- A document of which no node is answered stays as it is. -/
theorem apply_of_ignores (ignores : replacer.IgnoresOutside document fun _ => False) :
    replacer.apply document = none := by
  rw [apply_eq, outcome_definitions, joinedAll_eq_none, Option.map_none]
  intro stated member
  obtain ⟨index, found⟩ := List.getElem?_of_mem member
  exact definition_of_ignoresAll fun top navigable =>
    ignores.ignoresAll found navigable fun _ => id

/-- Where one definition is revised and no other is answered, it takes its place. -/
private theorem apply_of_revised {inside : List Nat → Prop} {revised : Node}
    (found : document.definitions[index]? = some stated)
    (navigable : Node.ofDefinition? stated = some top)
    (changes : replacer.revised? top = some revised) {replaced : Definition}
    (back : revised.toDefinition? = some replaced)
    (ignores : replacer.IgnoresOutside document inside)
    (outside : ∀ other path, other ≠ index → ¬ inside (other :: path)) :
    replacer.apply document = some ⟨document.definitions.set index replaced⟩ := by
  have visited : outcome (replacer.definition stated) = some replaced := by
    rw [definition_eq navigable, changes]
    exact back
  have others : ∀ (other : Nat) second, document.definitions[other]? = some second →
      other ≠ index → outcome (replacer.definition second) = none := fun other second there apart =>
    definition_of_ignoresAll fun top navigable =>
      ignores.ignoresAll there navigable fun path => outside other path apart
  rw [apply_eq, outcome_definitions, joinedAll_set found visited others, Option.map_some]

private theorem isSome_withSelections (node : Node) (selections : List Selection) :
    (node.withSelections selections).toDefinition?.isSome = node.toDefinition?.isSome := by
  cases node <;> rfl

private theorem isSome_of_answerOwn {node new : Node}
    (answer : replacer.answerOwn? node = some new) :
    new.toDefinition?.isSome = node.toDefinition?.isSome := by
  cases node with
  | operation | fragment | field =>
    obtain ⟨made, -, rfl⟩ := Option.map_eq_some_iff.mp answer
    rfl
  | inline | spread => cases answer

private theorem isSome_of_answer {node new : Node} (answer : replacer.answer? node = some new) :
    new.toDefinition?.isSome = node.toDefinition?.isSome := by
  have keeps : ∀ {changed}, replacer.answerSet? node = some changed →
      changed.toDefinition?.isSome = node.toDefinition?.isSome := by
    intro changed answered
    obtain ⟨children, -, answered⟩ := Option.bind_eq_some_iff.mp answered
    obtain ⟨selections, -, rfl⟩ := Option.map_eq_some_iff.mp answered
    exact isSome_withSelections node selections
  simp only [answer?] at answer
  cases set : replacer.answerSet? node with
  | none =>
    rw [set, Option.or_none] at answer
    exact isSome_of_answerOwn answer
  | some changed =>
    rw [set] at answer
    rcases Option.or_eq_some_iff.mp answer with own | ⟨-, same⟩
    · exact (isSome_of_answerOwn own).trans (keeps set)
    · cases same
      exact keeps set

private theorem isSome_of_navigable (navigable : Node.ofDefinition? stated = some top) :
    top.toDefinition?.isSome := by
  cases stated <;> cases navigable <;> rfl

private theorem definition_of_revised {revised : Node}
    (navigable : Node.ofDefinition? stated = some top)
    (changes : replacer.revised? top = some revised) :
    ∃ replaced, revised.toDefinition? = some replaced := by
  have whole := isSome_of_navigable navigable
  refine Option.isSome_iff_exists.mp ?_
  obtain ⟨children, -, changes⟩ := Option.bind_eq_some_iff.mp changes
  rcases Option.or_eq_some_iff.mp changes with answered | ⟨-, below⟩
  · rw [isSome_of_answer answered, isSome_withSelections, whole]
  · obtain ⟨selections, -, rfl⟩ := Option.map_eq_some_iff.mp below
    rw [isSome_withSelections, whole]

/-- The answer to the only node that is answered takes its place, and nothing else changes. -/
theorem apply_of_answer {path : List Nat} {inner new : Node}
    (reached : document.nodeAt? path = some inner) (answer : replacer.answer? inner = some new)
    (ignores : replacer.IgnoresOutside document (· = path)) :
    ∃ updated, replacer.apply document = some updated ∧
      document.replaceAt? new path = some updated := by
  obtain ⟨index, path, stated, top, rfl, found, navigable, below⟩ :=
    Document.nodeAt?_eq_some reached
  have only : replacer.IgnoresBut path top := by
    intro other second reached apart
    exact ignores (index :: other) second (by rw [Document.nodeAt?_cons found navigable, reached])
      (by simpa using apart)
  obtain ⟨revised, changes, replaces⟩ := revised?_of_answer below answer only
  obtain ⟨replaced, back⟩ := definition_of_revised navigable changes
  have applied := apply_of_revised found navigable changes back ignores
    fun other path apart same => apart (List.cons.inj same).1
  exact ⟨_, applied, by simp [Document.replaceAt?, found, navigable, replaces, back]⟩

/-- Where a definition and one node in it are answered, the definition is answered as it is with
the other answer in place. -/
theorem apply_of_answers {steps : List Nat} {inner new : Node} (below : steps ≠ [])
    (reached : document.nodeAt? (index :: steps) = some inner)
    (answer : replacer.answer? inner = some new)
    (ignores : replacer.IgnoresOutside document
      fun path => path = [index] ∨ path = index :: steps) :
    ∃ between top selections, document.replaceAt? new (index :: steps) = some between ∧
      document.nodeAt? [index] = some top ∧
        between.nodeAt? [index] = some (top.withSelections selections) ∧
          ∀ last, replacer.answer? (top.withSelections selections) = some last →
            ∃ updated, replacer.apply document = some updated ∧
              between.replaceAt? last [index] = some updated := by
  obtain ⟨_, _, stated, top, same, found, navigable, descends⟩ := Document.nodeAt?_eq_some reached
  cases same
  obtain ⟨step, steps, rfl⟩ := List.exists_cons_of_ne_nil below
  obtain ⟨selections, replaces, answered⟩ := revised?_of_answers descends answer
    fun other second there own apart => ignores (index :: other) second
      (by rw [Document.nodeAt?_cons found navigable, there]) (by simp [own, apart])
  obtain ⟨between, back⟩ :
      ∃ between, (top.withSelections selections).toDefinition? = some between := by
    refine Option.isSome_iff_exists.mp ?_
    rw [isSome_withSelections]
    exact isSome_of_navigable navigable
  have inside := (List.getElem?_eq_some_iff.mp found).1
  have forth : Node.ofDefinition? between = some (top.withSelections selections) := by
    cases top <;> cases back <;> rfl
  refine ⟨⟨document.definitions.set index between⟩, top, selections,
    by simp [Document.replaceAt?, found, navigable, replaces, back],
    by simp [Document.nodeAt?, found, navigable, Node.descend?],
    by simp [Document.nodeAt?, inside, forth, Node.descend?], fun last answers => ?_⟩
  obtain ⟨replaced, final⟩ := definition_of_revised navigable (answered last answers)
  refine ⟨_, apply_of_revised found navigable (answered last answers) final ignores ?_, ?_⟩
  · rintro other path apart (same | same) <;> exact apart (List.cons.inj same).1
  · simp [Document.replaceAt?, inside, forth, Node.replaceBelow?, final]

end Documents

end RelayWorkbench.GraphQL.Replacer
