import RelayWorkbench.Proofs.GraphQL.Layout
import RelayWorkbench.Proofs.GraphQL.Owners

/-! Where the nodes of a document stand among its lexemes. A selection ends before the next one
starts, and what a node selects stands behind its name, its label, its arguments and its
directives. So a lexeme is held by one node at most; where places are told apart by their starts,
no two owners stand at the same place. -/

namespace RelayWorkbench.GraphQL

variable {lexemes : List Lexeme} {move : Respan} {first last : Nat}

/-- A name that is a lexeme of its own, from `first` on and before `last`. -/
def Ident.Stands (lexemes : List Lexeme) (move : Respan) (first last : Nat) (ident : Ident) :
    Prop :=
  ∃ place text, ident.span = move (some ⟨place, place + 1⟩) ∧
    lexemes[place]? = some (.name text) ∧ first ≤ place ∧ place < last

/-- All parts of a field but its selections, from `first` on and before `last`: its label and its
name before `named`, then its arguments, and its directives from `given` on. -/
structure FieldHead.StandsAt (lexemes : List Lexeme) (move : Respan)
    (first named given last : Nat) (head : FieldHead) : Prop where
  label : ∀ ident ∈ head.label, ident.Stands lexemes move first named
  name : head.name.Stands lexemes move first named
  arguments : InLine (Argument.Lies move) named given head.arguments
  directives : InLine (Directive.Lies move) given last head.directives
  behind : named ≤ given
  before : given ≤ last

/-- The same, with its parts wherever they are. -/
def FieldHead.Stands (lexemes : List Lexeme) (move : Respan) (first last : Nat)
    (head : FieldHead) : Prop :=
  ∃ named given, head.StandsAt lexemes move first named given last

mutual

/-- A selection from `first` on that ends by `last`; what it selects stands in it, behind the rest
of it. -/
def Selection.Stands (lexemes : List Lexeme) (move : Respan) (first last : Nat) : Selection → Prop
  | .field head children =>
    ∃ start opens stop, Frame move first last head.span start stop ∧ opens ≤ stop ∧
      head.Stands lexemes move start opens ∧
        Selection.AllStand lexemes move (opens + 1) stop children
  | .inline head children =>
    ∃ start opens stop, Frame move first last head.span start stop ∧ start ≤ opens ∧
      opens ≤ stop ∧ InLine (Directive.Lies move) start opens head.directives ∧
        Selection.AllStand lexemes move (opens + 1) stop children
  | .spread made =>
    ∃ start stop, Frame move first last made.span start stop ∧
      InLine (Directive.Lies move) start stop made.directives

def Selection.AllStand (lexemes : List Lexeme) (move : Respan) (first last : Nat) :
    List Selection → Prop
  | [] => True
  | selection :: rest =>
    ∃ middle ≤ last, first ≤ middle ∧ selection.Stands lexemes move first middle ∧
      Selection.AllStand lexemes move middle last rest

end

/-- A node from `start` to `stop`; behind `opens` stands what it selects, and before it the rest. -/
structure Node.StandsAt (lexemes : List Lexeme) (move : Respan) (first last start opens stop : Nat)
    (node : Node) : Prop where
  frame : Frame move first last node.span start stop
  behind : start ≤ opens
  before : opens ≤ stop
  head : ∀ made, node = .field made → made.head.Stands lexemes move start opens
  directives : InLine (Directive.Lies move) start opens (Directed.directives node)
  inside : ∀ selections, node.selections? = some selections →
    Selection.AllStand lexemes move (opens + 1) stop selections

def Node.Stands (lexemes : List Lexeme) (move : Respan) (first last : Nat) (node : Node) : Prop :=
  ∃ start opens stop, node.StandsAt lexemes move first last start opens stop

def Definition.Stands (lexemes : List Lexeme) (move : Respan) (first last : Nat)
    (definition : Definition) : Prop :=
  ∀ node, Node.ofDefinition? definition = some node → node.Stands lexemes move first last

def Definition.AllStand (lexemes : List Lexeme) (move : Respan) (first : Nat) :
    List Definition → Prop
  | [] => True
  | definition :: rest =>
    ∃ middle ≤ lexemes.length, first ≤ middle ∧ definition.Stands lexemes move first middle ∧
      Definition.AllStand lexemes move middle rest

section Widening

variable {near far : Nat}

theorem Ident.Stands.widen {ident : Ident} (stands : ident.Stands lexemes move first last)
    (upper : last ≤ far) : ident.Stands lexemes move first far := by
  obtain ⟨place, text, spanned, named, after, before⟩ := stands
  exact ⟨place, text, spanned, named, after, Nat.lt_of_lt_of_le before upper⟩

theorem Selection.widens : Widens (Selection.Stands lexemes move) := by
  intro near first last far selection lower upper stands
  cases selection with
  | field head children =>
    obtain ⟨start, opens, stop, frame, inside⟩ := stands
    exact ⟨start, opens, stop, frame.widen lower upper, inside⟩
  | inline head children =>
    obtain ⟨start, opens, stop, frame, inside⟩ := stands
    exact ⟨start, opens, stop, frame.widen lower upper, inside⟩
  | spread made =>
    obtain ⟨start, stop, frame, inside⟩ := stands
    exact ⟨start, stop, frame.widen lower upper, inside⟩

theorem Selection.allStand_iff {selections : List Selection} :
    AllStand lexemes move first last selections ↔
      InLine (Selection.Stands lexemes move) first last selections := by
  induction selections generalizing first with
  | nil => rfl
  | cons selection rest ih => simp only [AllStand, InLine, ih]

theorem Selection.AllStand.widen {selections : List Selection}
    (stands : AllStand lexemes move first last selections) (lower : near ≤ first)
    (upper : last ≤ far) : AllStand lexemes move near far selections :=
  allStand_iff.mpr ((allStand_iff.mp stands).widen widens lower upper)

theorem Node.Stands.widen {node : Node} (stands : node.Stands lexemes move first last)
    (lower : near ≤ first) (upper : last ≤ far) : node.Stands lexemes move near far := by
  obtain ⟨start, opens, stop, stands⟩ := stands
  exact ⟨start, opens, stop, { stands with frame := stands.frame.widen lower upper }⟩

theorem Definition.widens : Widens (Definition.Stands lexemes move) :=
  fun _ _ _ _ _ lower upper stands node navigable => (stands node navigable).widen lower upper

theorem Definition.allStand_iff {definitions : List Definition} :
    AllStand lexemes move first definitions ↔
      InLine (Definition.Stands lexemes move) first lexemes.length definitions := by
  induction definitions generalizing first with
  | nil => rfl
  | cons definition rest ih => simp only [AllStand, InLine, ih]

end Widening

section Moving

variable (move)

theorem Ident.Stands.respan {ident : Ident} (stands : ident.Stands lexemes id first last) :
    (ident.respan move).Stands lexemes move first last := by
  obtain ⟨place, text, spanned, rest⟩ := stands
  exact ⟨place, text, congrArg move spanned, rest⟩

theorem FieldHead.Stands.respan {head : FieldHead} (stands : head.Stands lexemes id first last) :
    (head.respan move).Stands lexemes move first last := by
  obtain ⟨named, given, stands⟩ := stands
  exact ⟨named, given, {
    label ident member := by
      obtain ⟨former, labelled, rfl⟩ := Option.mem_map.mp member
      exact (stands.label former labelled).respan move
    name := stands.name.respan move
    arguments := stands.arguments.map fun _ _ _ lies => lies.respan
    directives := stands.directives.map fun _ _ _ lies => lies.respan
    behind := stands.behind
    before := stands.before }⟩

mutual

theorem Selection.Stands.respan : ∀ {selection : Selection} {first last : Nat},
    selection.Stands lexemes id first last →
      (selection.respan move).Stands lexemes move first last
  | .field _ _, _, _, ⟨start, opens, stop, frame, behind, head, inside⟩ =>
    ⟨start, opens, stop, frame.respan move, behind, head.respan move, inside.respan⟩
  | .inline _ _, _, _, ⟨start, opens, stop, frame, behind, before, directives, inside⟩ =>
    ⟨start, opens, stop, frame.respan move, behind, before,
      directives.map fun _ _ _ lies => lies.respan, inside.respan⟩
  | .spread _, _, _, ⟨start, stop, frame, directives⟩ =>
    ⟨start, stop, frame.respan move, directives.map fun _ _ _ lies => lies.respan⟩

theorem Selection.AllStand.respan : ∀ {selections : List Selection} {first last : Nat},
    AllStand lexemes id first last selections →
      AllStand lexemes move first last (Selection.respanAll move selections)
  | [], _, _, _ => trivial
  | _ :: _, _, _, ⟨middle, below, above, own, others⟩ =>
    ⟨middle, below, above, own.respan, others.respan⟩

end

theorem Definition.Stands.respan {definition : Definition}
    (stands : definition.Stands lexemes id first last) :
    (definition.respan move).Stands lexemes move first last := by
  intro node navigable
  cases definition with
  | operation stated | fragment stated =>
    cases navigable
    obtain ⟨start, opens, stop, stands⟩ := stands _ rfl
    refine ⟨start, opens, stop, stands.frame.respan move, stands.behind, stands.before, nofun,
      stands.directives.map fun _ _ _ lies => lies.respan, ?_⟩
    rintro _ ⟨⟩
    exact (stands.inside _ rfl).respan move
  | directive | schema | schemaExtension | type | typeExtension => cases navigable

theorem Definition.AllStand.respan {definitions : List Definition}
    (stands : AllStand lexemes id first definitions) :
    AllStand lexemes move first (definitions.map (·.respan move)) := by
  induction definitions generalizing first with
  | nil => trivial
  | cons definition rest ih =>
    obtain ⟨middle, bound, above, own, others⟩ := stands
    exact ⟨middle, bound, above, own.respan move, ih others⟩

end Moving

theorem FieldHead.StandsAt.first_le {head : FieldHead} {named given : Nat}
    (stands : head.StandsAt lexemes move first named given last) : first ≤ named := by
  obtain ⟨place, -, -, -, after, before⟩ := stands.name
  exact Nat.le_trans after (Nat.le_of_lt before)

theorem Selection.Stands.frame {selection : Selection}
    (stands : selection.Stands lexemes move first last) :
    ∃ start stop, Frame move first last selection.span start stop := by
  cases selection with
  | field head children | inline head children =>
    obtain ⟨start, opens, stop, frame, -⟩ := stands
    exact ⟨start, stop, frame⟩
  | spread made =>
    obtain ⟨start, stop, frame, -⟩ := stands
    exact ⟨start, stop, frame⟩

namespace FieldHead.Stands

variable {head : FieldHead}

theorem label (stands : head.Stands lexemes move first last) :
    ∀ ident ∈ head.label, ident.Stands lexemes move first last := by
  obtain ⟨named, given, stands⟩ := stands
  exact fun ident labelled =>
    (stands.label ident labelled).widen (Nat.le_trans stands.behind stands.before)

theorem name (stands : head.Stands lexemes move first last) :
    head.name.Stands lexemes move first last := by
  obtain ⟨named, given, stands⟩ := stands
  exact stands.name.widen (Nat.le_trans stands.behind stands.before)

theorem arguments (stands : head.Stands lexemes move first last) :
    ∀ argument ∈ head.arguments, EndsBy move last argument.span := by
  obtain ⟨named, given, stands⟩ := stands
  intro argument present
  have lies := stands.arguments.of_mem Argument.widens present
  exact (Argument.widens (Nat.le_refl _) stands.before lies).endsBy

theorem le (stands : head.Stands lexemes move first last) : first ≤ last := by
  obtain ⟨named, given, stands⟩ := stands
  exact Nat.le_trans stands.first_le (Nat.le_trans stands.behind stands.before)

theorem directives_inLine (stands : head.Stands lexemes move first last) :
    InLine (Directive.Lies move) first last head.directives := by
  obtain ⟨named, given, stands⟩ := stands
  exact stands.directives.widen Directive.widens (Nat.le_trans stands.first_le stands.behind)
    (Nat.le_refl _)

theorem directives (stands : head.Stands lexemes move first last) :
    ∀ directive ∈ head.directives, EndsBy move last directive.span :=
  fun _ present => (stands.directives_inLine.of_mem Directive.widens present).endsBy

end FieldHead.Stands

section Finding

theorem Selection.Stands.node {selection : Selection}
    (stands : selection.Stands lexemes move first last) :
    (Node.ofSelection selection).Stands lexemes move first last := by
  cases selection with
  | field head children =>
    obtain ⟨start, opens, stop, frame, before, own, inside⟩ := stands
    refine ⟨start, opens, stop, frame, own.le, before, ?_, own.directives_inLine, ?_⟩
    · rintro _ ⟨⟩
      exact own
    · rintro _ ⟨⟩
      exact inside
  | inline head children =>
    obtain ⟨start, opens, stop, frame, behind, before, directives, inside⟩ := stands
    refine ⟨start, opens, stop, frame, behind, before, nofun, directives, ?_⟩
    rintro _ ⟨⟩
    exact inside
  | spread made =>
    obtain ⟨start, stop, frame, directives⟩ := stands
    exact ⟨start, stop, stop, frame, Nat.le_of_lt frame.wide, Nat.le_refl _, nofun, directives,
      nofun⟩

theorem Selection.AllStand.of_getElem? {selections : List Selection} {index : Nat}
    {selection : Selection} (stands : AllStand lexemes move first last selections)
    (found : selections[index]? = some selection) :
    selection.Stands lexemes move first last :=
  (allStand_iff.mp stands).of_mem widens (List.mem_of_getElem? found)

theorem Selection.AllStand.split {selections : List Selection} {index other : Nat}
    {selection later : Selection} (stands : AllStand lexemes move first last selections)
    (found : selections[index]? = some selection) (foundLater : selections[other]? = some later)
    (order : index < other) : ∃ middle, selection.Stands lexemes move first middle ∧
      later.Stands lexemes move middle last :=
  (allStand_iff.mp stands).split widens found foundLater order

theorem Definition.AllStand.of_getElem? {definitions : List Definition} {index : Nat}
    {definition : Definition} (stands : AllStand lexemes move first definitions)
    (found : definitions[index]? = some definition) :
    definition.Stands lexemes move first lexemes.length :=
  (allStand_iff.mp stands).of_mem widens (List.mem_of_getElem? found)

theorem Definition.AllStand.split {definitions : List Definition} {index other : Nat}
    {definition later : Definition} (stands : AllStand lexemes move first definitions)
    (found : definitions[index]? = some definition)
    (foundLater : definitions[other]? = some later) (order : index < other) :
    ∃ middle, definition.Stands lexemes move first middle ∧
      later.Stands lexemes move middle lexemes.length :=
  (allStand_iff.mp stands).split widens found foundLater order

end Finding

namespace Node

variable {node inner second : Node} {place : Nat}

theorem StandsAt.child {start opens stop : Nat} {selections : List Selection} {index : Nat}
    {selection : Selection} (stands : node.StandsAt lexemes move first last start opens stop)
    (owned : node.selections? = some selections) (found : selections[index]? = some selection) :
    (ofSelection selection).Stands lexemes move (opens + 1) stop :=
  ((stands.inside selections owned).of_getElem? found).node

theorem StandsAt.self {start opens stop : Nat}
    (stands : node.StandsAt lexemes move first last start opens stop) :
    node.Stands lexemes move start stop :=
  ⟨start, opens, stop,
    { stands with
      frame := ⟨stands.frame.spanned, Nat.le_refl _, stands.frame.wide, Nat.le_refl _⟩ }⟩

theorem Stands.below {path : List Nat} (stands : node.Stands lexemes move first last)
    (reached : node.descend? path = some inner) : inner.Stands lexemes move first last := by
  induction path generalizing node first last with
  | nil =>
    cases reached
    exact stands
  | cons index path ih =>
    obtain ⟨start, opens, stop, stands⟩ := stands
    obtain ⟨selections, selection, owned, found, below⟩ := descend?_cons_eq_some reached
    have after := stands.frame.after
    have behind := stands.behind
    exact (ih (stands.child owned found) below).widen (by omega) stands.frame.within

/-- Whether a lexeme is one of those before the selections of a node, wherever the node stands. -/
def Holds (lexemes : List Lexeme) (move : Respan) (place : Nat) (node : Node) : Prop :=
  ∀ ⦃first last start opens stop : Nat⦄, node.StandsAt lexemes move first last start opens stop →
    start ≤ place ∧ place ≤ opens ∧ place < stop

/-- A held lexeme is where the node stands. -/
theorem Stands.place_bounds (stands : node.Stands lexemes move first last)
    (holds : node.Holds lexemes move place) : first ≤ place ∧ place < last := by
  obtain ⟨start, opens, stop, stands⟩ := stands
  obtain ⟨after, -, before⟩ := holds stands
  exact ⟨Nat.le_trans stands.frame.after after, Nat.lt_of_lt_of_le before stands.frame.within⟩

/-- A lexeme that a node holds is held by none below it. -/
theorem Stands.not_holds {index : Nat} {path : List Nat}
    (stands : node.Stands lexemes move first last) (holds : node.Holds lexemes move place)
    (reached : node.descend? (index :: path) = some inner) : ¬ inner.Holds lexemes move place := by
  intro holdsBelow
  obtain ⟨start, opens, stop, stands⟩ := stands
  obtain ⟨selections, selection, owned, found, below⟩ := descend?_cons_eq_some reached
  obtain ⟨-, before, -⟩ := holds stands
  obtain ⟨after, -⟩ := ((stands.child owned found).below below).place_bounds holdsBelow
  omega

/-- Nodes that stand one after the other have no lexeme that is held in both. -/
theorem Stands.not_holds_later {middle : Nat} {path other : List Nat} {later : Node}
    (stands : node.Stands lexemes move first middle)
    (standsLater : later.Stands lexemes move middle last)
    (reached : node.descend? path = some inner) (holds : inner.Holds lexemes move place)
    (reachedLater : later.descend? other = some second) : ¬ second.Holds lexemes move place := by
  intro holdsLater
  obtain ⟨-, before⟩ := (stands.below reached).place_bounds holds
  obtain ⟨after, -⟩ := (standsLater.below reachedLater).place_bounds holdsLater
  omega

/-- Below a node, a lexeme is held by one node at most. -/
theorem Stands.path_eq {path other : List Nat} (stands : node.Stands lexemes move first last)
    (reached : node.descend? path = some inner) (holds : inner.Holds lexemes move place)
    (reachedOther : node.descend? other = some second)
    (holdsOther : second.Holds lexemes move place) : path = other := by
  induction path generalizing node other first last with
  | nil =>
    cases other with
    | nil => rfl
    | cons index other =>
      cases reached
      exact absurd holdsOther (stands.not_holds holds reachedOther)
  | cons index path ih =>
    cases other with
    | nil =>
      cases reachedOther
      exact absurd holds (stands.not_holds holdsOther reached)
    | cons indexOther other =>
      obtain ⟨start, opens, stop, stands⟩ := stands
      obtain ⟨selections, selection, owned, found, below⟩ := descend?_cons_eq_some reached
      obtain ⟨selections', selection', owned', found', below'⟩ :=
        descend?_cons_eq_some reachedOther
      obtain rfl : selections = selections' := Option.some.inj (owned.symm.trans owned')
      have inside := stands.inside selections owned
      rcases Nat.lt_trichotomy index indexOther with less | rfl | more
      · obtain ⟨middle, early, late⟩ := inside.split found found' less
        exact absurd holdsOther (early.node.not_holds_later late.node below holds below')
      · obtain rfl : selection = selection' := Option.some.inj (found.symm.trans found')
        rw [ih (stands.child owned found) below below']
      · obtain ⟨middle, early, late⟩ := inside.split found' found more
        exact absurd holds (early.node.not_holds_later late.node below' holdsOther below)

end Node

/-- Every node of a document whose definitions stand one after the other stands in it. -/
theorem Definition.AllStand.of_nodeAt? {document : Document} {path : List Nat} {node : Node}
    (stands : AllStand lexemes move first document.definitions)
    (reached : document.nodeAt? path = some node) :
    node.Stands lexemes move first lexemes.length := by
  obtain ⟨index, below, definition, top, rfl, found, navigable, descends⟩ :=
    Document.nodeAt?_eq_some reached
  exact (stands.of_getElem? found top navigable).below descends

namespace Document

variable {document : Document} {path other : List Nat} {node inner : Node} {place : Nat}

/-- In a document whose definitions stand one after the other, a lexeme is held by one node at
most. -/
theorem path_eq_of_holds (stands : Definition.AllStand lexemes move first document.definitions)
    (reached : document.nodeAt? path = some node) (holds : node.Holds lexemes move place)
    (reachedOther : document.nodeAt? other = some inner)
    (holdsOther : inner.Holds lexemes move place) : other = path := by
  obtain ⟨index, path, definition, top, rfl, found, navigable, below⟩ := nodeAt?_eq_some reached
  obtain ⟨index', path', definition', top', rfl, found', navigable', below'⟩ :=
    nodeAt?_eq_some reachedOther
  rcases Nat.lt_trichotomy index index' with less | rfl | more
  · obtain ⟨middle, early, late⟩ := stands.split found found' less
    exact absurd holdsOther
      ((early top navigable).not_holds_later (late top' navigable') below holds below')
  · obtain rfl : definition = definition' := Option.some.inj (found.symm.trans found')
    obtain rfl : top = top' := Option.some.inj (navigable.symm.trans navigable')
    rw [(stands.of_getElem? found top navigable).path_eq below holds below' holdsOther]
  · obtain ⟨middle, early, late⟩ := stands.split found' found more
    exact absurd holds
      ((early top' navigable').not_holds_later (late top navigable) below' holdsOther below)

end Document

/-- Whether places with the same span start at the same lexeme. -/
def Respan.KeepsStarts (move : Respan) : Prop :=
  ∀ {place other : Span} {target : Span}, move (some place) = some target →
    move (some other) = some target → place.start = other.start

/-- A node holds the lexeme that it starts at. -/
theorem Node.holds_of_span (keeps : move.KeepsStarts) {begin stop : Nat} {target : Span}
    (moved : move (some ⟨begin, stop⟩) = some target) {node : Node}
    (spanned : node.span = some target) : node.Holds lexemes move begin := by
  intro first last start opens stop stands
  obtain rfl : begin = start := keeps moved (stands.frame.spanned.symm.trans spanned)
  exact ⟨Nat.le_refl _, stands.behind, stands.frame.wide⟩

/-- Where places are told apart by their starts, owners stand apart. -/
theorem Document.ownersApart_of_allStand {document : Document} (keeps : move.KeepsStarts)
    (stands : Definition.AllStand lexemes move first document.definitions) :
    document.OwnersApart := by
  intro target path other node inner reached owner reachedOther ownerOther
  simp only [Node.ownsAt, Bool.and_eq_true, beq_iff_eq] at owner ownerOther
  obtain ⟨start, opens, stop, standsAt⟩ := stands.of_nodeAt? reached
  have moved := standsAt.frame.spanned.symm.trans owner.2
  exact path_eq_of_holds stands reached (Node.holds_of_span keeps moved owner.2) reachedOther
    (Node.holds_of_span keeps moved ownerOther.2)

end RelayWorkbench.GraphQL
