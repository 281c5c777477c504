import Mathlib
import RelayWorkbench.GraphQL.Node

/-! Owners of selection sets and the paths that lead to them. -/

namespace RelayWorkbench.GraphQL

namespace Node

def span : Node → Option Span
  | operation stated => stated.span
  | fragment stated => stated.span
  | field made => made.head.span
  | inline head _ => head.span
  | spread made => made.span

/-- Whether the node owns a selection set and stands at the target. -/
def ownsAt (target : Span) (node : Node) : Bool :=
  node.selections?.isSome && node.span == some target

theorem ownsAt_iff {node : Node} (owns : node.selections?.isSome) {target : Span} :
    node.ownsAt target ↔ node.span = some target := by
  simp [ownsAt, owns]

theorem descend?_cons {node : Node} {selections : List Selection} {index : Nat}
    {selection : Selection} (owned : node.selections? = some selections)
    (found : selections[index]? = some selection) (path : List Nat) :
    node.descend? (index :: path) = (ofSelection selection).descend? path := by
  simp [descend?, owned, found]

theorem descend?_cons_eq_some {node inner : Node} {index : Nat} {path : List Nat}
    (found : node.descend? (index :: path) = some inner) :
    ∃ selections selection, node.selections? = some selections ∧
      selections[index]? = some selection ∧
        (ofSelection selection).descend? path = some inner := by
  simpa [descend?, Option.bind_eq_some_iff] using found

theorem descend?_congr {node other : Node} (same : node.selections? = other.selections?)
    (index : Nat) (path : List Nat) :
    node.descend? (index :: path) = other.descend? (index :: path) := by
  simp [descend?, same]

theorem descend?_of_replaceBelow? {node new replaced : Node} {path : List Nat}
    (replaces : node.replaceBelow? new path = some replaced) :
    replaced.descend? path = some new := by
  induction path generalizing node replaced with
  | nil =>
    cases replaces
    rfl
  | cons index path ih =>
    simp only [replaceBelow?, Option.bind_eq_bind, Option.bind_eq_some_iff] at replaces
    obtain ⟨selections, owned, selection, found, changed, ⟨below, replaces, back⟩, same⟩ := replaces
    cases same
    have forth : ofSelection changed = below := by
      cases below <;> cases back <;> rfl
    have owns : (node.withSelections (selections.set index changed)).selections? =
        some (selections.set index changed) := by
      cases node <;> cases owned <;> rfl
    have placed : (selections.set index changed)[index]? = some changed :=
      List.getElem?_set_self (List.getElem?_eq_some_iff.mp found).1
    rw [descend?_cons owns placed, forth, ih replaces]

end Node

namespace Document

theorem nodeAt?_eq_some {document : Document} {path : List Nat} {node : Node}
    (reached : document.nodeAt? path = some node) :
    ∃ index below stated top, path = index :: below ∧
      document.definitions[index]? = some stated ∧ Node.ofDefinition? stated = some top ∧
        top.descend? below = some node := by
  cases path with
  | nil => cases reached
  | cons index below =>
    obtain ⟨stated, found, top, navigable, descends⟩ :
        ∃ stated, document.definitions[index]? = some stated ∧ ∃ top,
          Node.ofDefinition? stated = some top ∧ top.descend? below = some node := by
      simpa [nodeAt?, Option.bind_eq_some_iff] using reached
    exact ⟨index, below, stated, top, rfl, found, navigable, descends⟩

theorem nodeAt?_cons {document : Document} {index : Nat} {stated : Definition} {top : Node}
    (found : document.definitions[index]? = some stated)
    (navigable : Node.ofDefinition? stated = some top) (below : List Nat) :
    document.nodeAt? (index :: below) = top.descend? below := by
  simp [nodeAt?, found, navigable]

/-- A replaced node stands where the former one stood. -/
theorem nodeAt?_of_replaceAt? {document updated : Document} {path : List Nat} {new : Node}
    (replaces : document.replaceAt? new path = some updated) :
    updated.nodeAt? path = some new := by
  cases path with
  | nil => cases replaces
  | cons index path =>
    simp only [replaceAt?, Option.bind_eq_bind, Option.bind_eq_some_iff] at replaces
    obtain ⟨stated, found, top, navigable, changed, ⟨below, replaces, back⟩, same⟩ := replaces
    cases same
    have forth : Node.ofDefinition? changed = some below := by
      cases below <;> cases back <;> rfl
    have placed : (document.definitions.set index changed)[index]? = some changed :=
      List.getElem?_set_self (List.getElem?_eq_some_iff.mp found).1
    rw [nodeAt?_cons placed forth, Node.descend?_of_replaceBelow? replaces]

theorem nodeAt?_singleton {document : Document} {index : Nat} {node : Node} :
    document.nodeAt? [index] = some node ↔
      ∃ stated, document.definitions[index]? = some stated ∧
        Node.ofDefinition? stated = some node := by
  simp [nodeAt?, Option.bind_eq_some_iff, Node.descend?]

theorem nodeAt?_cons_of_singleton {document : Document} {index : Nat} {top : Node}
    (reached : document.nodeAt? [index] = some top) (below : List Nat) :
    document.nodeAt? (index :: below) = top.descend? below := by
  obtain ⟨stated, found, navigable⟩ := nodeAt?_singleton.mp reached
  exact nodeAt?_cons found navigable below

/-- Owners of selection sets that stand at the same bytes are the same. -/
def OwnersApart (document : Document) : Prop :=
  ∀ target path other node inner, document.nodeAt? path = some node → node.ownsAt target →
    document.nodeAt? other = some inner → inner.ownsAt target → other = path

end Document

end RelayWorkbench.GraphQL
