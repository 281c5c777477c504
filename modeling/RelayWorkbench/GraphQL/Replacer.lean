import RelayWorkbench.GraphQL.Document

/-! Replacing nodes of documents. A replacer is offered every node of every operation and
fragment, children before their parent, and may keep a state from one offer to the next. A
node is rebuilt only when something below it was replaced; a document of which nothing was
replaced gives no result. -/

namespace RelayWorkbench.GraphQL

/-- Replacements, offered the span of a node in the document that is worked on and the node
with its children already replaced. The span of a selection set is that of its owner. -/
structure Replacer (State : Type) where
  operation : Option Span → Operation → StateM State (Option Operation) := fun _ _ => pure none
  fragment : Option Span → Fragment → StateM State (Option Fragment) := fun _ _ => pure none
  field : Option Span → Field → StateM State (Option Field) := fun _ _ => pure none
  selectionSet : Option Span → List Selection → StateM State (Option (List Selection)) :=
    fun _ _ => pure none

namespace Replacer

variable {State : Type}

/-- A list whose head or tail was replaced. -/
def joined {α : Type} (head : α) (tail : List α) (newHead : Option α) (newTail : Option (List α)) :
    Option (List α) :=
  match newHead, newTail with
  | none, none => none
  | newHead, newTail => some (newHead.getD head :: newTail.getD tail)

/-- Offer a node whose children may have been replaced. -/
def offer {α : Type} (former : α) (updated : Option α)
    (hook : α → StateM State (Option α)) : StateM State (Option α) := do
  return (← hook (updated.getD former)).or updated

mutual

def selection (replacer : Replacer State) : Selection → StateM State (Option Selection)
  | .field head children => do
    let newChildren ← replacer.selections children
    let newChildren ← offer children newChildren (replacer.selectionSet head.span)
    let replaced ← offer ⟨head, children⟩ (newChildren.map (Field.mk head ·))
      (replacer.field head.span)
    return replaced.map fun field => .field field.head field.selections
  | .inline head children => do
    let newChildren ← replacer.selections children
    let newChildren ← offer children newChildren (replacer.selectionSet head.span)
    return newChildren.map (.inline head ·)
  | .spread _ => return none

def selections (replacer : Replacer State) :
    List Selection → StateM State (Option (List Selection))
  | [] => return none
  | first :: rest => do
    let newFirst ← replacer.selection first
    let newRest ← replacer.selections rest
    return joined first rest newFirst newRest

end

/-- A selection set, of which the owner is given, with its replacements. -/
def set (replacer : Replacer State) (owner : Option Span) (children : List Selection) :
    StateM State (Option (List Selection)) := do
  offer children (← replacer.selections children) (replacer.selectionSet owner)

def definition (replacer : Replacer State) : Definition → StateM State (Option Definition)
  | .operation stated => do
    let children ← replacer.set stated.span stated.selections
    let replaced ← offer stated (children.map fun selections => { stated with selections })
      (replacer.operation stated.span)
    return replaced.map .operation
  | .fragment stated => do
    let children ← replacer.set stated.span stated.selections
    let replaced ← offer stated (children.map fun selections => { stated with selections })
      (replacer.fragment stated.span)
    return replaced.map .fragment
  | _ => return none

def definitions (replacer : Replacer State) :
    List Definition → StateM State (Option (List Definition))
  | [] => return none
  | first :: rest => do
    let newFirst ← replacer.definition first
    let newRest ← replacer.definitions rest
    return joined first rest newFirst newRest

/-- The document with its replacements, and none if nothing was replaced. -/
def document (replacer : Replacer State) (document : Document) :
    StateM State (Option Document) := do
  return (← replacer.definitions document.definitions).map Document.mk

/-- The result of a replacer that keeps no state. -/
def apply (replacer : Replacer Unit) (former : Document) : Option Document :=
  ((replacer.document former).run ()).1

/-- Whether a known span is the target. -/
def isTarget (target span : Option Span) : Bool := span.isSome && span == target

def onOperation (target : Option Span) (edit : Operation → Operation) : Replacer Unit where
  operation span stated := return if isTarget target span then some (edit stated) else none

def onFragment (target : Option Span) (edit : Fragment → Fragment) : Replacer Unit where
  fragment span stated := return if isTarget target span then some (edit stated) else none

def onField (target : Option Span) (edit : Field → Field) : Replacer Unit where
  field span stated := return if isTarget target span then some (edit stated) else none

end Replacer

end RelayWorkbench.GraphQL
