import RelayWorkbench.GraphQL.Schema
import RelayWorkbench.Proofs.GraphQL.Owners

/-! The nodes on the way to a node. They tell which fields a node stands in and which type its
selections are on. -/

namespace RelayWorkbench.GraphQL

namespace Node

/-- The nodes on a path below a node, beginning with the node itself. -/
def trail (node : Node) (path : List Nat) : List Node := path.inits.filterMap node.descend?

def fieldName? : Node → Option Name
  | field made => some made.head.name.name
  | _ => none

/-- The type that the selections of a node are on, when the node itself is selected on `outer`. -/
def inside (schema : Option Schema) (outer : Option Name) : Node → Option Name
  | operation stated => schema.bind (·.root? stated.kind)
  | fragment stated => some stated.onType
  | field made => do (← (← schema).field? (← outer) made.head.name.name).type.innerName
  | inline head _ => head.onType.or outer
  | spread _ => none

theorem inside_field (schema : Schema) (outer : Option Name) (made : Field) :
    (field made).inside (some schema) outer =
      (outer.bind (schema.field? · made.head.name.name)).map (·.type.innerName) := by
  cases outer with
  | none => rfl
  | some outer => cases found : schema.field? outer made.head.name.name <;> simp [inside, found]

theorem toSelection?_ofSelection (selection : Selection) :
    (ofSelection selection).toSelection? = some selection := by
  cases selection <;> rfl

theorem descend?_append (node : Node) (above rest : List Nat) :
    node.descend? (above ++ rest) = (node.descend? above).bind (·.descend? rest) := by
  induction above generalizing node with
  | nil => rfl
  | cons index above ih => simp [descend?, ih, Option.bind_assoc]

theorem span_ofSelection (selection : Selection) :
    (ofSelection selection).span = selection.span := by
  cases selection <;> rfl

theorem span_ofDefinition? {stated : Definition} {top : Node}
    (navigable : ofDefinition? stated = some top) : top.span = stated.span := by
  cases stated <;> cases navigable <;> rfl

theorem exists_ofDefinition? {stated : Definition} (known : stated.span.isSome) :
    ∃ top, ofDefinition? stated = some top ∧ top.span = stated.span := by
  cases stated with
  | operation stated | fragment stated => exact ⟨_, rfl, rfl⟩
  | directive | schema | schemaExtension | type | typeExtension => cases known

@[simp] theorem trail_nil (node : Node) : node.trail [] = [node] := rfl

theorem trail_cons {node : Node} {selections : List Selection} {index : Nat}
    {selection : Selection} (owned : node.selections? = some selections)
    (found : selections[index]? = some selection) (path : List Nat) :
    node.trail (index :: path) = node :: (ofSelection selection).trail path := by
  have below : node.descend? ∘ (index :: ·) = (ofSelection selection).descend? :=
    funext (descend?_cons owned found)
  have self : node.descend? [] = some node := rfl
  rw [trail, List.inits_cons, List.filterMap_cons_some self, List.filterMap_map, below, trail]

theorem mem_trail_self (node : Node) (path : List Nat) : node ∈ node.trail path :=
  List.mem_filterMap.mpr ⟨[], (List.mem_inits _ _).mpr List.nil_prefix, rfl⟩

theorem mem_trail_of_descend? {node inner : Node} {path : List Nat}
    (reached : node.descend? path = some inner) : inner ∈ node.trail path :=
  List.mem_filterMap.mpr ⟨path, (List.mem_inits _ _).mpr List.prefix_rfl, reached⟩

theorem trail_ne_nil (node : Node) (path : List Nat) : node.trail path ≠ [] :=
  List.ne_nil_of_mem (mem_trail_self node path)

end Node

namespace Document

/-- The nodes on a path, from a definition on. -/
def trail (document : Document) (path : List Nat) : List Node :=
  path.inits.filterMap document.nodeAt?

/-- The type that the selections of the node at a path are on, as far as it is known. -/
def typeAt (schema : Option Schema) (document : Document) (path : List Nat) : Option Name :=
  (document.trail path).foldl (Node.inside schema) none

theorem trail_cons {document : Document} {index : Nat} {stated : Definition} {top : Node}
    (found : document.definitions[index]? = some stated)
    (navigable : Node.ofDefinition? stated = some top) (below : List Nat) :
    document.trail (index :: below) = top.trail below := by
  have under : document.nodeAt? ∘ (index :: ·) = top.descend? :=
    funext (nodeAt?_cons found navigable)
  have nowhere : document.nodeAt? [] = none := rfl
  rw [trail, List.inits_cons, List.filterMap_cons_none nowhere, List.filterMap_map, under,
    Node.trail]

theorem trail_concat {document : Document} {above : List Nat} {index : Nat} {node : Node}
    (reached : document.nodeAt? (above ++ [index]) = some node) :
    document.trail (above ++ [index]) = document.trail above ++ [node] := by
  simp [trail, reached]

theorem mem_trail_of_nodeAt? {document : Document} {path : List Nat} {node : Node}
    (reached : document.nodeAt? path = some node) : node ∈ document.trail path :=
  List.mem_filterMap.mpr ⟨path, (List.mem_inits _ _).mpr List.prefix_rfl, reached⟩

theorem ne_nil_of_nodeAt? {document : Document} {path : List Nat} {node : Node}
    (reached : document.nodeAt? path = some node) : path ≠ [] := by
  rintro rfl
  cases reached

theorem nodeAt?_append {document : Document} {above : List Nat} (more : above ≠ [])
    (rest : List Nat) : document.nodeAt? (above ++ rest) =
      (document.nodeAt? above).bind (·.descend? rest) := by
  cases above with
  | nil => exact absurd rfl more
  | cons index above => simp [nodeAt?, Node.descend?_append, Option.bind_assoc]

/-- A selection of a document is one of the selections of the node above it. -/
theorem exists_above {document : Document} {path : List Nat} {node : Node} {selection : Selection}
    (reached : document.nodeAt? path = some node) (selected : node.toSelection? = some selection) :
    ∃ above index owner selections, path = above ++ [index] ∧
      document.nodeAt? above = some owner ∧ owner.selections? = some selections ∧
        selections[index]? = some selection := by
  obtain ⟨above, index, rfl⟩ : ∃ above index, path = above ++ [index] :=
    (List.eq_nil_or_concat' path).resolve_left (ne_nil_of_nodeAt? reached)
  cases above with
  | nil =>
    obtain ⟨stated, -, navigable⟩ := nodeAt?_singleton.mp reached
    cases stated <;> cases navigable <;> cases selected
  | cons top above =>
    rw [nodeAt?_append (List.cons_ne_nil _ _), Option.bind_eq_some_iff] at reached
    obtain ⟨owner, reachedAbove, below⟩ := reached
    obtain ⟨selections, child, owned, there, same⟩ := Node.descend?_cons_eq_some below
    obtain rfl : Node.ofSelection child = node := Option.some.inj same
    rw [Node.toSelection?_ofSelection] at selected
    cases selected
    exact ⟨top :: above, index, owner, selections, rfl, reachedAbove, owned, there⟩

end Document

end RelayWorkbench.GraphQL
