import Mathlib
import RelayWorkbench.GraphQL.CursorContext
import RelayWorkbench.Proofs.GraphQL.Trails

/-! The way of a cursor to a field. The search enters the first selection under the cursor at each
level and ends at a field whose name or label is under the cursor; all it reports about the
field can be told from the nodes on the way. -/

namespace RelayWorkbench.GraphQL

theorem underCursor_isSome {offset : Nat} {span : Option Span} (under : underCursor offset span) :
    span.isSome := by
  cases span with
  | none => cases under
  | some => rfl

/-- Whether the name or the label of a field is under the cursor. -/
def FieldHead.isNamedAt (offset : Nat) (head : FieldHead) : Bool :=
  underCursor offset head.name.span || underCursor offset (head.label.bind (·.span))

namespace CursorPlace

@[simp] theorem field_orUse (place : CursorPlace) (use : Option VariableUse) :
    (place.orUse use).field = place.field := by
  simp only [orUse]
  split <;> rfl

theorem token_of_orUse {place : CursorPlace} {use : Option VariableUse} {name : Name}
    (token : (place.orUse use).token = .field name) : place.token = .field name := by
  simp only [orUse] at token
  split at token
  · cases token
  · exact token

/-- The place of a cursor on the name or label of the field at the end of a trail, when the fields
`path` and the type `outer` were met before. -/
def atEnd (schema : Schema) (path : List Name) (outer : Option Name) (trail : List Node)
    (made : Field) : CursorPlace where
  token := .field made.head.name.name
  path := path ++ trail.filterMap Node.fieldName?
  parentType := trail.dropLast.foldl (Node.inside (some schema)) outer
  field := some made
  fieldType := trail.foldl (Node.inside (some schema)) outer

@[simp] theorem orUse_atEnd {schema : Schema} {path : List Name} {outer : Option Name}
    {trail : List Node} {made : Field} (use : Option VariableUse) :
    (atEnd schema path outer trail made).orUse use = atEnd schema path outer trail made := by
  cases use <;> rfl

/-- A node at the start of the way adds its name and its type to what was met before. -/
theorem atEnd_cons (schema : Schema) (path : List Name) (outer : Option Name) (node : Node)
    {trail : List Node} (more : trail ≠ []) (made : Field) :
    atEnd schema path outer (node :: trail) made =
      atEnd schema (path ++ node.fieldName?.toList) (node.inside (some schema) outer) trail
        made := by
  cases named : node.fieldName? <;>
    simp [atEnd, List.dropLast_cons_of_ne_nil more, named]

end CursorPlace

namespace CursorContext

variable {schema : Schema} {offset : Nat}

/-- Whether the search goes on below a node on a type. It stops at a field whose name or label is
under the cursor, and at one with a variable under the cursor. -/
def Passes (schema : Schema) (offset : Nat) (type : Option Name) : Node → Prop
  | .field made =>
    made.head.isNamedAt offset = false ∧
      fieldUse? schema offset (type.bind (schema.field? · made.head.name.name)) made.head = none
  | _ => True

/-- The search leads from a node on a type down a path to a field whose name or label is under
the cursor. -/
inductive Leads (schema : Schema) (offset : Nat) :
    Option Name → Node → List Nat → Field → Prop where
  | ends {type : Option Name} {made : Field} (named : made.head.isNamedAt offset) :
      Leads schema offset type (.field made) [] made
  | enters {type : Option Name} {node : Node} {selections : List Selection} {index : Nat}
      {selection : Selection} {path : List Nat} {made : Field}
      (passes : Passes schema offset type node) (owned : node.selections? = some selections)
      (first : selections.findIdx? (underCursor offset ·.span) = some index)
      (found : selections[index]? = some selection)
      (leads : Leads schema offset (node.inside (some schema) type) (Node.ofSelection selection)
        path made) : Leads schema offset type node (index :: path) made

namespace Leads

variable {type : Option Name} {node : Node} {path : List Nat} {made : Field}

theorem reaches (leads : Leads schema offset type node path made) :
    node.descend? path = some (.field made) := by
  induction leads with
  | ends => rfl
  | enters _ owned _ found _ reaches => rw [Node.descend?_cons owned found, reaches]

theorem named (leads : Leads schema offset type node path made) : made.head.isNamedAt offset := by
  induction leads with
  | ends named => exact named
  | enters _ _ _ _ _ named => exact named

theorem under (leads : Leads schema offset type node path made)
    (self : underCursor offset node.span) :
    ∀ inner ∈ node.trail path, underCursor offset inner.span := by
  induction leads with
  | ends => simpa using self
  | enters _ owned first found _ under =>
    obtain ⟨inside, entered, -⟩ := List.findIdx?_eq_some_iff_getElem.mp first
    have child := Option.some.inj ((List.getElem?_eq_getElem inside).symm.trans found)
    rw [Node.trail_cons owned found]
    refine List.forall_mem_cons.mpr ⟨self, under ?_⟩
    rwa [Node.span_ofSelection, ← child]

end Leads

/-- The search of a selection set goes on in the first selection under the cursor. -/
theorem placeInSet_of_first {selections : List Selection} {index : Nat} {selection : Selection}
    (first : selections.findIdx? (underCursor offset ·.span) = some index)
    (found : selections[index]? = some selection) (path : List Name) (type : Option Name) :
    placeInSet schema offset path type selections =
      placeInSelection schema offset path type selection := by
  induction selections generalizing index with
  | nil => simp at found
  | cons head rest ih =>
    rw [List.findIdx?_cons] at first
    simp only [placeInSet]
    split at first
    · next under =>
      obtain rfl : 0 = index := by simpa using first
      obtain rfl : head = selection := by simpa using found
      rw [if_pos under]
    · next past =>
      obtain ⟨later, firstLater, rfl⟩ := Option.map_eq_some_iff.mp first
      rw [if_neg past, ih firstLater (by simpa using found)]

/-- Where the search leads to a field, its place is told by the nodes on the way. -/
theorem Leads.placeInSelection {type : Option Name} {selection : Selection} {steps : List Nat}
    {made : Field} (leads : Leads schema offset type (Node.ofSelection selection) steps made)
    (path : List Name) : placeInSelection schema offset path type selection =
      .atEnd schema path type ((Node.ofSelection selection).trail steps) made := by
  generalize start : Node.ofSelection selection = node at leads
  induction leads generalizing selection path with
  | ends named =>
    cases selection with
    | field head selections =>
      cases start
      simp only [CursorContext.placeInSelection]
      rw [if_pos (by simpa [FieldHead.isNamedAt] using named)]
      simp [CursorPlace.atEnd, Node.fieldName?, Node.inside_field]
    | inline | spread => cases start
  | enters passes owned first found leads ih =>
    rw [Node.trail_cons owned found, CursorPlace.atEnd_cons _ _ _ _ (Node.trail_ne_nil _ _)]
    subst start
    cases selection with
    | field head children =>
      cases owned
      obtain ⟨past, unused⟩ := passes
      simp only [CursorContext.placeInSelection]
      rw [if_neg (by simpa [FieldHead.isNamedAt] using past), unused]
      rw [placeInSet_of_first first found, ← Node.inside_field schema _ ⟨head, children⟩]
      exact ih _ rfl
    | inline head children =>
      cases owned
      simp only [CursorContext.placeInSelection]
      rw [placeInSet_of_first first found]
      have placed := ih path rfl
      simp only [Node.ofSelection, Node.inside] at placed
      rw [placed]
      simp [Node.fieldName?, Node.ofSelection, Node.inside]
    | spread => cases owned

mutual

theorem leads_of_selection {made : Field} : ∀ (selection : Selection) (path : List Name)
    (type : Option Name), (placeInSelection schema offset path type selection).field = some made →
      ∃ steps, Leads schema offset type (Node.ofSelection selection) steps made
  | .field head selections, path, type, found => by
    simp only [placeInSelection] at found
    split at found
    · next named =>
      cases found
      exact ⟨[], .ends named⟩
    · next past =>
      split at found
      · simp at found
      · next unused =>
        obtain ⟨index, child, steps, first, there, leads⟩ := leads_of_set selections _ _ found
        refine ⟨index :: steps, .enters ⟨?_, unused⟩ rfl first there ?_⟩
        · simpa [FieldHead.isNamedAt] using past
        · rwa [Node.ofSelection, Node.inside_field]
  | .inline head selections, path, type, found => by
    simp only [placeInSelection, CursorPlace.field_orUse] at found
    obtain ⟨index, child, steps, first, there, leads⟩ := leads_of_set selections _ _ found
    exact ⟨index :: steps, .enters trivial rfl first there leads⟩
  | .spread made, path, type, found => by
    simp [placeInSelection] at found

theorem leads_of_set {made : Field} : ∀ (selections : List Selection) (path : List Name)
    (type : Option Name), (placeInSet schema offset path type selections).field = some made →
      ∃ index selection steps, selections.findIdx? (underCursor offset ·.span) = some index ∧
        selections[index]? = some selection ∧
          Leads schema offset type (Node.ofSelection selection) steps made
  | [], path, type, found => by simp [placeInSet] at found
  | head :: rest, path, type, found => by
    simp only [placeInSet] at found
    split at found
    · next under =>
      obtain ⟨steps, leads⟩ := leads_of_selection head _ _ found
      exact ⟨0, head, steps, by simp [List.findIdx?_cons, under], rfl, leads⟩
    · next past =>
      obtain ⟨index, selection, steps, first, there, leads⟩ := leads_of_set rest _ _ found
      exact ⟨index + 1, selection, steps, by simp [List.findIdx?_cons, past, first], there, leads⟩

end

mutual

private theorem isSome_of_token_selection {name : Name} : ∀ (selection : Selection)
    (path : List Name) (type : Option Name),
      (placeInSelection schema offset path type selection).token = .field name →
        (placeInSelection schema offset path type selection).field.isSome
  | .field head selections, path, type, token => by
    simp only [placeInSelection] at token ⊢
    split at token
    · next named => simp [named]
    · next past =>
      rw [if_neg past]
      split at token
      · exact absurd (CursorPlace.token_of_orUse token) nofun
      · exact isSome_of_token_set selections _ _ token
  | .inline head selections, path, type, token => by
    simp only [placeInSelection, CursorPlace.field_orUse] at token ⊢
    exact isSome_of_token_set selections _ _ (CursorPlace.token_of_orUse token)
  | .spread made, path, type, token => by
    simp only [placeInSelection] at token
    exact absurd (CursorPlace.token_of_orUse token) nofun

private theorem isSome_of_token_set {name : Name} : ∀ (selections : List Selection)
    (path : List Name) (type : Option Name),
      (placeInSet schema offset path type selections).token = .field name →
        (placeInSet schema offset path type selections).field.isSome
  | [], path, type, token => absurd token nofun
  | head :: rest, path, type, token => by
    simp only [placeInSet] at token ⊢
    split at token
    · next under =>
      rw [if_pos under]
      exact isSome_of_token_selection head _ _ token
    · next past =>
      rw [if_neg past]
      exact isSome_of_token_set rest _ _ token

end

/-- Where the token is a field, the field is reported, too. -/
theorem isSome_of_token {document : Document} {name : Name}
    (token : (ofOffset schema document offset).place.token = .field name) :
    (ofOffset schema document offset).place.field.isSome := by
  simp only [ofOffset] at token ⊢
  split at token
  · cases token
  · next index first =>
    obtain ⟨inside, -⟩ := List.findIdx?_eq_some_iff_getElem.mp first
    have there := List.getElem?_eq_getElem inside
    simp only [there, Option.map_some, Option.getD_some] at token ⊢
    cases stated : document.definitions[index] with
    | operation made | fragment made =>
      simp only [stated, placeInDefinition, CursorPlace.field_orUse] at token ⊢
      exact isSome_of_token_set _ _ _ (CursorPlace.token_of_orUse token)
    | directive | schema | schemaExtension | type | typeExtension =>
      rw [stated] at token
      cases token

/-- The search of a definition that leads to a field: its place is told by the nodes on the way. -/
theorem Leads.placeInDefinition {stated : Definition} {top : Node} {steps : List Nat} {made : Field}
    (navigable : Node.ofDefinition? stated = some top)
    (leads : Leads schema offset none top steps made) :
    placeInDefinition schema offset stated = .atEnd schema [] none (top.trail steps) made := by
  cases stated with
  | operation stated | fragment stated =>
    cases navigable
    cases leads with
    | enters _ owned first found leads =>
      cases owned
      rw [Node.trail_cons rfl found, CursorPlace.atEnd_cons _ _ _ _ (Node.trail_ne_nil _ _),
        CursorContext.placeInDefinition]
      simp only [placeInSet_of_first first found]
      have placed := leads.placeInSelection []
      simp only [Node.inside, Option.bind_some] at placed
      simp [placed, Node.fieldName?, Node.inside]
  | directive | schema | schemaExtension | type | typeExtension => cases navigable

theorem leads_of_definition {stated : Definition} {made : Field}
    (found : (placeInDefinition schema offset stated).field = some made) :
    ∃ top steps, Node.ofDefinition? stated = some top ∧
      Leads schema offset none top steps made := by
  cases stated with
  | operation stated | fragment stated =>
    simp only [placeInDefinition, CursorPlace.field_orUse] at found
    obtain ⟨index, selection, steps, first, there, leads⟩ := leads_of_set _ _ _ found
    exact ⟨_, index :: steps, rfl, .enters trivial rfl first there leads⟩
  | directive | schema | schemaExtension | type | typeExtension => cases found

/-- The search of a document leads down a path to a field whose name or label is under the
cursor. -/
inductive Finds (schema : Schema) (offset : Nat) (document : Document) :
    List Nat → Field → Prop where
  | intro {index : Nat} {stated : Definition} {top : Node} {steps : List Nat} {made : Field}
      (first : document.definitions.findIdx? (underCursor offset ·.span) = some index)
      (found : document.definitions[index]? = some stated)
      (navigable : Node.ofDefinition? stated = some top)
      (leads : Leads schema offset none top steps made) :
      Finds schema offset document (index :: steps) made

namespace Finds

variable {document : Document} {path : List Nat} {made : Field}

theorem reaches (finds : Finds schema offset document path made) :
    document.nodeAt? path = some (.field made) := by
  obtain ⟨-, found, navigable, leads⟩ := finds
  rw [Document.nodeAt?_cons found navigable, leads.reaches]

theorem named (finds : Finds schema offset document path made) : made.head.isNamedAt offset := by
  obtain ⟨-, -, -, leads⟩ := finds
  exact leads.named

theorem under (finds : Finds schema offset document path made) :
    ∀ node ∈ document.trail path, underCursor offset node.span := by
  obtain ⟨first, found, navigable, leads⟩ := finds
  obtain ⟨inside, entered, -⟩ := List.findIdx?_eq_some_iff_getElem.mp first
  have same := Option.some.inj ((List.getElem?_eq_getElem inside).symm.trans found)
  rw [Document.trail_cons found navigable]
  refine leads.under ?_
  rwa [Node.span_ofDefinition? navigable, ← same]

/-- The context of a cursor on a field is told by the nodes on the way. -/
theorem ofOffset (finds : Finds schema offset document path made) :
    path.head? = some (ofOffset schema document offset).definition ∧
      (ofOffset schema document offset).place =
        .atEnd schema [] none (document.trail path) made := by
  obtain ⟨first, found, navigable, leads⟩ := finds
  simp [CursorContext.ofOffset, first, found, leads.placeInDefinition navigable,
    Document.trail_cons found navigable]

end Finds

/-- A field is reported exactly where the search leads to it. -/
theorem field_eq_some_iff {document : Document} {made : Field} :
    (ofOffset schema document offset).place.field = some made ↔
      ∃ path, Finds schema offset document path made := by
  refine ⟨fun found => ?_, fun ⟨path, finds⟩ => by rw [finds.ofOffset.2]; rfl⟩
  simp only [ofOffset] at found
  split at found
  · cases found
  · next index first =>
    obtain ⟨inside, -⟩ := List.findIdx?_eq_some_iff_getElem.mp first
    have there := List.getElem?_eq_getElem inside
    simp only [there, Option.map_some, Option.getD_some] at found
    obtain ⟨top, steps, navigable, leads⟩ := leads_of_definition found
    exact ⟨index :: steps, .intro first there navigable leads⟩

/-- The field under a cursor stands in the definition under the cursor, both at known bytes. -/
theorem exists_steps {schema : Schema} {document : Document} {offset : Nat} {made : Field}
    (found : (ofOffset schema document offset).place.field = some made) :
    made.head.span.isSome ∧
      (∃ stated, document.definitions[(ofOffset schema document offset).definition]? =
        some stated ∧ stated.span.isSome) ∧
      ∃ steps, document.nodeAt? ((ofOffset schema document offset).definition :: steps) =
        some (.field made) := by
  obtain ⟨path, finds⟩ := field_eq_some_iff.mp found
  have reaches := finds.reaches
  obtain ⟨index, steps, stated, top, rfl, there, navigable, below⟩ :=
    Document.nodeAt?_eq_some reaches
  obtain rfl : index = _ := Option.some.inj finds.ofOffset.1
  have under := finds.under
  rw [Document.trail_cons there navigable] at under
  have known : stated.span.isSome := by
    rw [← Node.span_ofDefinition? navigable]
    exact underCursor_isSome (under top (Node.mem_trail_self ..))
  exact ⟨underCursor_isSome (under _ (Node.mem_trail_of_descend? below)), ⟨stated, there, known⟩,
    steps, reaches⟩

end CursorContext

end RelayWorkbench.GraphQL
