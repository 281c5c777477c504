import RelayWorkbench.Proofs.GraphQL.Trails
import RelayWorkbench.Relay.FragmentExtraction

/-! The selection sets of a document as they are listed for an extraction. Each belongs to a node
of the document, and a schema adds only the types: who owns what is the same without one. -/

namespace RelayWorkbench.Relay.OwnedSet

open RelayWorkbench.GraphQL

/-- A selection set without its type. -/
def untyped (set : OwnedSet) : Span × List Selection := (set.owner, set.selections)

private theorem untyped_ofOwner {below others : List OwnedSet}
    (same : below.map untyped = others.map untyped) (owner : Option Span)
    (typeName other : Option Name) (selections : List Selection) :
    (ofOwner owner typeName selections below).map untyped =
      (ofOwner owner other selections others).map untyped := by
  cases owner with
  | none => rfl
  | some owner =>
    simp only [ofOwner, List.map_cons, same]
    rfl

mutual

private theorem untyped_inSelection (schema : Option Schema) : ∀ (selection : Selection)
    (typeName other : Option Name), (inSelection schema typeName selection).map untyped =
      (inSelection none other selection).map untyped
  | .field head selections, typeName, other => by
    simp only [inSelection]
    split
    · rfl
    · exact untyped_ofOwner (untyped_inSelections schema selections ..) ..
  | .inline head selections, typeName, other =>
    untyped_ofOwner (untyped_inSelections schema selections ..) ..
  | .spread _, _, _ => rfl

private theorem untyped_inSelections (schema : Option Schema) : ∀ (selections : List Selection)
    (typeName other : Option Name), (inSelections schema typeName selections).map untyped =
      (inSelections none other selections).map untyped
  | [], _, _ => rfl
  | first :: rest, typeName, other => by
    simp only [inSelections, List.map_append, untyped_inSelection schema first typeName other,
      untyped_inSelections schema rest typeName other]

end

/-- The owners of a document and their selection sets do not depend on the schema. -/
theorem untyped_inDocument (schema : Option Schema) (document : Document) :
    (inDocument schema document).map untyped = (inDocument none document).map untyped := by
  simp only [inDocument, List.map_flatMap]
  congr 1
  funext stated
  cases stated with
  | operation made | fragment made => exact untyped_ofOwner (untyped_inSelections schema ..) ..
  | directive | schema | schemaExtension | type | typeExtension => rfl

/-- The set is that of a node on a type or of one below it, on the type that the way tells. -/
private def Below (schema : Option Schema) (outer : Option Name) (node : Node) (set : OwnedSet) :
    Prop :=
  ∃ path inner, node.descend? path = some inner ∧ inner.ownsAt set.owner ∧
    inner.selections? = some set.selections ∧
      set.typeName = (node.trail path).foldl (Node.inside schema) outer

section Types

variable {schema : Option Schema} {outer : Option Name}

private theorem Below.of_child {node : Node} {selections : List Selection} {selection : Selection}
    {set : OwnedSet} (owned : node.selections? = some selections) (member : selection ∈ selections)
    (below : Below schema (node.inside schema outer) (Node.ofSelection selection) set) :
    Below schema outer node set := by
  obtain ⟨path, inner, reached, owner, inside, typed⟩ := below
  obtain ⟨index, found⟩ := List.getElem?_of_mem member
  refine ⟨index :: path, inner, ?_, owner, inside, ?_⟩
  · rw [Node.descend?_cons owned found, reached]
  · rw [Node.trail_cons owned found, typed, List.foldl_cons]

private theorem below_ofOwner (node : Node) {selections : List Selection} {others : List OwnedSet}
    {set : OwnedSet} (owned : node.selections? = some selections)
    (children : set ∈ others → ∃ selection ∈ selections,
      Below schema (node.inside schema outer) (Node.ofSelection selection) set)
    (member : set ∈ ofOwner node.span (node.inside schema outer) selections others) :
    Below schema outer node set := by
  cases spanned : node.span with
  | none => simp [spanned, ofOwner] at member
  | some owner =>
    simp only [spanned, ofOwner, List.mem_cons] at member
    rcases member with rfl | later
    · exact ⟨[], node, rfl, by simp [Node.ownsAt, owned, spanned], owned, rfl⟩
    · obtain ⟨selection, present, below⟩ := children later
      exact below.of_child owned present

mutual

private theorem below_inSelection {set : OwnedSet} :
    ∀ (selection : Selection) (typeName : Option Name),
      set ∈ inSelection schema typeName selection →
        Below schema typeName (Node.ofSelection selection) set
  | .field head selections, typeName, member => by
    simp only [inSelection] at member
    split at member
    · cases member
    · exact below_ofOwner (.field ⟨head, selections⟩) rfl
        (below_inSelections selections _) member
  | .inline head selections, typeName, member =>
    below_ofOwner (.inline head selections) rfl (below_inSelections selections _) member

private theorem below_inSelections {set : OwnedSet} :
    ∀ (selections : List Selection) (typeName : Option Name),
      set ∈ inSelections schema typeName selections →
        ∃ selection ∈ selections, Below schema typeName (Node.ofSelection selection) set
  | [], _, member => nomatch member
  | first :: rest, typeName, member => by
    simp only [inSelections, List.mem_append] at member
    rcases member with here | later
    · exact ⟨first, List.mem_cons_self .., below_inSelection first typeName here⟩
    · obtain ⟨selection, present, below⟩ := below_inSelections rest typeName later
      exact ⟨selection, List.mem_cons_of_mem first present, below⟩

end

end Types

/-- A listed set is that of a node of the document, on the type that the way to it tells. -/
theorem exists_typed_node {schema : Option Schema} {document : Document} {set : OwnedSet}
    (member : set ∈ inDocument schema document) :
    ∃ path node, document.nodeAt? path = some node ∧ node.ownsAt set.owner ∧
      node.selections? = some set.selections ∧ set.typeName = document.typeAt schema path := by
  obtain ⟨stated, present, inside⟩ := List.mem_flatMap.mp member
  obtain ⟨index, found⟩ := List.getElem?_of_mem present
  have below : ∃ node, Node.ofDefinition? stated = some node ∧ Below schema none node set := by
    cases stated with
    | operation made =>
      exact ⟨_, rfl, below_ofOwner (.operation made) rfl
        (below_inSelections made.selections _) inside⟩
    | fragment made =>
      exact ⟨_, rfl, below_ofOwner (.fragment made) rfl
        (below_inSelections made.selections _) inside⟩
    | directive | schema | schemaExtension | type | typeExtension => cases inside
  obtain ⟨top, navigable, path, inner, reached, owner, owned, typed⟩ := below
  refine ⟨index :: path, inner, ?_, owner, owned, ?_⟩
  · rw [Document.nodeAt?_cons found navigable, reached]
  · rw [typed, Document.typeAt, Document.trail_cons found navigable]

theorem exists_node {schema : Option Schema} {document : Document} {set : OwnedSet}
    (member : set ∈ inDocument schema document) :
    ∃ path node, document.nodeAt? path = some node ∧ node.ownsAt set.owner ∧
      node.selections? = some set.selections := by
  obtain ⟨path, node, reached, owner, owned, -⟩ := exists_typed_node member
  exact ⟨path, node, reached, owner, owned⟩

section Listing

variable {schema : Option Schema}

theorem mem_inSelections {outer : Option Name} {selections : List Selection}
    {selection : Selection} {set : OwnedSet} (present : selection ∈ selections)
    (member : set ∈ inSelection schema outer selection) :
    set ∈ inSelections schema outer selections := by
  induction selections with
  | nil => cases present
  | cons head rest ih =>
    rw [inSelections, List.mem_append]
    rcases List.mem_cons.mp present with rfl | later
    · exact .inl member
    · exact .inr (ih later)

/-- What is listed for a node on a type: its own set, and the sets in its selections. -/
private def inNode (schema : Option Schema) (outer : Option Name) (node : Node)
    (selections : List Selection) : List OwnedSet :=
  ofOwner node.span (node.inside schema outer) selections
    (inSelections schema (node.inside schema outer) selections)

private theorem inSelection_eq {outer : Option Name} {selection : Selection}
    {selections : List Selection}
    (owned : (Node.ofSelection selection).selections? = some selections) (more : selections ≠ []) :
    inSelection schema outer selection =
      inNode schema outer (Node.ofSelection selection) selections := by
  cases selection with
  | field head children =>
    cases owned
    simp only [inSelection]
    rw [if_neg (by simpa using more)]
    rfl
  | inline head children =>
    cases owned
    rfl
  | spread => cases owned

private theorem inDefinition_eq {stated : Definition} {top : Node} {selections : List Selection}
    (navigable : Node.ofDefinition? stated = some top)
    (owned : top.selections? = some selections) :
    inDefinition schema stated = inNode schema none top selections := by
  cases stated <;> cases navigable <;> cases owned <;> rfl

/-- A node below another one is listed with it when all nodes on the way stand somewhere. -/
private theorem mem_inNode (outer : Option Name) {node inner : Node} {path : List Nat}
    {selections : List Selection} {bytes : Span}
    (known : ∀ passed ∈ node.trail path, passed.span.isSome)
    (reached : node.descend? path = some inner) (spanned : inner.span = some bytes)
    (owned : inner.selections? = some selections) (more : selections ≠ []) :
    ∃ children, node.selections? = some children ∧ children ≠ [] ∧
      ⟨bytes, (node.trail path).foldl (Node.inside schema) outer, selections⟩ ∈
        inNode schema outer node children := by
  induction path generalizing node outer with
  | nil =>
    cases reached
    refine ⟨selections, owned, more, ?_⟩
    simp [inNode, ofOwner, spanned]
  | cons index path ih =>
    obtain ⟨children, child, ownedHere, found, below⟩ := Node.descend?_cons_eq_some reached
    have present := List.mem_of_getElem? found
    rw [Node.trail_cons ownedHere found] at known ⊢
    obtain ⟨self, others⟩ := List.forall_mem_cons.mp known
    obtain ⟨span, stands⟩ := Option.isSome_iff_exists.mp self
    obtain ⟨inside, ownedBelow, moreBelow, member⟩ :=
      ih (node.inside schema outer) others below
    refine ⟨children, ownedHere, List.ne_nil_of_mem present, ?_⟩
    rw [← inSelection_eq ownedBelow moreBelow] at member
    rw [inNode, stands, ofOwner, List.foldl_cons]
    exact List.mem_cons_of_mem _ (mem_inSelections present member)

/-- A node that stands below another one and selects something is listed with the selections of the
other. -/
theorem exists_mem_inSelections (outer : Option Name) {node inner : Node} {below : List Nat}
    {selections within : List Selection} {bytes : Span}
    (known : ∀ path passed, node.descend? path = some passed → passed.span.isSome)
    (owned : node.selections? = some selections) (deeper : below ≠ [])
    (reached : node.descend? below = some inner) (spanned : inner.span = some bytes)
    (ownedBelow : inner.selections? = some within) (more : within ≠ []) :
    ∃ set ∈ inSelections schema outer selections, set.owner = bytes := by
  obtain ⟨index, path, rfl⟩ := List.exists_cons_of_ne_nil deeper
  obtain ⟨selections', child, owned', found, reached⟩ := Node.descend?_cons_eq_some reached
  obtain rfl : selections = selections' := Option.some.inj (owned.symm.trans owned')
  have passed : ∀ passed ∈ (Node.ofSelection child).trail path, passed.span.isSome := by
    intro passed member
    obtain ⟨front, -, here⟩ := List.mem_filterMap.mp member
    exact known (index :: front) passed (by rw [Node.descend?_cons owned found, here])
  obtain ⟨children, ownedChild, some, member⟩ :=
    mem_inNode outer passed reached spanned ownedBelow more
  rw [← inSelection_eq ownedChild some] at member
  exact ⟨_, mem_inSelections (List.mem_of_getElem? found) member, rfl⟩

/-- A node that selects something is listed on the type that the way to it tells, when all nodes
on that way stand somewhere. -/
theorem mem_inDocument {document : Document} {path : List Nat} {node : Node}
    {selections : List Selection} {bytes : Span}
    (known : ∀ passed ∈ document.trail path, passed.span.isSome)
    (reached : document.nodeAt? path = some node) (spanned : node.span = some bytes)
    (owned : node.selections? = some selections) (more : selections ≠ []) :
    ⟨bytes, document.typeAt schema path, selections⟩ ∈ inDocument schema document := by
  obtain ⟨index, below, stated, top, rfl, found, navigable, descends⟩ :=
    Document.nodeAt?_eq_some reached
  rw [Document.trail_cons found navigable] at known
  obtain ⟨children, ownedTop, -, member⟩ := mem_inNode none known descends spanned owned more
  refine List.mem_flatMap.mpr ⟨stated, List.mem_of_getElem? found, ?_⟩
  rwa [inDefinition_eq navigable ownedTop, Document.typeAt, Document.trail_cons found navigable]

/-- A set is the one that is listed for its owner. -/
def IsListed (schema : Schema) (document : Document) (set : OwnedSet) : Prop :=
  ∀ other, other ∈ inDocument (some schema) document ∧ other.owner = set.owner ↔ other = set

/-- In a document whose owners stand apart, a node that selects something has one listed set. -/
theorem isListed_of_nodeAt? {schema : Schema} {document : Document} (apart : document.OwnersApart)
    {path : List Nat} {node : Node} {selections : List Selection} {bytes : Span}
    (known : ∀ passed ∈ document.trail path, passed.span.isSome)
    (reached : document.nodeAt? path = some node) (spanned : node.span = some bytes)
    (owned : node.selections? = some selections) (more : selections ≠ []) :
    IsListed schema document ⟨bytes, document.typeAt (some schema) path, selections⟩ := by
  refine fun other => ⟨fun ⟨member, sameOwner⟩ => ?_, ?_⟩
  · obtain ⟨path', node', reached', owner', owned', typed'⟩ := exists_typed_node member
    have owner : node.ownsAt bytes := by simp [Node.ownsAt, owned, spanned]
    rw [sameOwner] at owner'
    obtain rfl := apart bytes path path' node node' reached owner reached' owner'
    cases reached.symm.trans reached'
    have sameSelections := Option.some.inj (owned'.symm.trans owned)
    obtain ⟨span, typeName, others⟩ := other
    obtain rfl : span = bytes := sameOwner
    obtain rfl : typeName = _ := typed'
    obtain rfl : others = selections := sameSelections
    rfl
  · rintro rfl
    exact ⟨mem_inDocument known reached spanned owned more, rfl⟩

end Listing

/-- The first set listed for an owner is the one of any node that stands there. -/
theorem find?_owner {document : Document} (apart : document.OwnersApart) {set : OwnedSet}
    {schema : Option Schema} (member : set ∈ inDocument schema document) :
    ∃ found, (inDocument none document).find? (·.owner == set.owner) = some found ∧
      found.selections = set.selections := by
  obtain ⟨path, node, reached, owner, owned⟩ := exists_node member
  have listed : untyped set ∈ (inDocument none document).map untyped := by
    rw [← untyped_inDocument schema document]
    exact List.mem_map_of_mem member
  obtain ⟨same, present, equal⟩ := List.mem_map.mp listed
  have sameOwner : same.owner = set.owner := congrArg Prod.fst equal
  obtain ⟨found, first⟩ : ∃ found, (inDocument none document).find? (·.owner == set.owner) =
      some found :=
    Option.isSome_iff_exists.mp (List.find?_isSome.mpr ⟨same, present, by simp [sameOwner]⟩)
  have foundOwner : found.owner = set.owner := by simpa using List.find?_some first
  obtain ⟨other, inner, reachedOther, ownerOther, ownedOther⟩ :=
    exists_node (List.mem_of_find?_eq_some first)
  rw [foundOwner] at ownerOther
  obtain rfl := apart set.owner path other node inner reached owner reachedOther ownerOther
  cases reached.symm.trans reachedOther
  exact ⟨found, first, Option.some.inj (ownedOther.symm.trans owned)⟩

end RelayWorkbench.Relay.OwnedSet
