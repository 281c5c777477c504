import RelayWorkbench.GraphQL.Directed
import RelayWorkbench.GraphQL.Replacer
import RelayWorkbench.Proofs.Text.Traps

/-! Replacing nodes of a document by their places. A list is copied when the first of its elements
is replaced, and from then on replacements are written into the copy. The places are those of the
list that is gone through, so that each of them is inside of the copy. -/

namespace RelayWorkbench.GraphQL

namespace Replacer

variable {State : Type}

/-- A computation with a state that does not end the program. -/
def certain {α : Type} (action : StateM State α) : StateT State (Except Trap) α :=
  fun state => pure (action state)

/-- The copy of a list after one element was offered, which is at a place. -/
def written {α : Type} (whole : List α) (place : Nat) (copy : Option (List α))
    (replaced : Option α) : Except Trap (Option (List α)) :=
  match replaced with
  | none => return copy
  | some value => return some (← Checked.replaceAt (copy.getD whole) place value)

/-- `offer`, of a hook that does not end the program. -/
def offerChecked {α : Type} (former : α) (updated : Option α)
    (hook : α → StateM State (Option α)) : StateT State (Except Trap) (Option α) := do
  return (← certain (hook (updated.getD former))).or updated

mutual

def selectionChecked (replacer : Replacer State) :
    Selection → StateT State (Except Trap) (Option Selection)
  | .field head children => do
    let newChildren ← replacer.selectionsChecked children 0 none children
    let newChildren ← offerChecked children newChildren (replacer.selectionSet head.span)
    let replaced ← offerChecked ⟨head, children⟩ (newChildren.map (Field.mk head ·))
      (replacer.field head.span)
    return replaced.map fun field => .field field.head field.selections
  | .inline head children => do
    let newChildren ← replacer.selectionsChecked children 0 none children
    let newChildren ← offerChecked children newChildren (replacer.selectionSet head.span)
    return newChildren.map (.inline head ·)
  | .spread _ => return none

/-- The copy of a list of selections after the ones from a place on. -/
def selectionsChecked (replacer : Replacer State) (whole : List Selection) (place : Nat)
    (copy : Option (List Selection)) :
    List Selection → StateT State (Except Trap) (Option (List Selection))
  | [] => return copy
  | first :: rest => do
    let copy ← written whole place copy (← replacer.selectionChecked first)
    replacer.selectionsChecked whole (place + 1) copy rest

end

def setChecked (replacer : Replacer State) (owner : Option Span) (children : List Selection) :
    StateT State (Except Trap) (Option (List Selection)) := do
  let newChildren ← replacer.selectionsChecked children 0 none children
  offerChecked children newChildren (replacer.selectionSet owner)

def definitionChecked (replacer : Replacer State) :
    Definition → StateT State (Except Trap) (Option Definition)
  | .operation stated => do
    let children ← replacer.setChecked stated.span stated.selections
    let replaced ← offerChecked stated (children.map fun selections => { stated with selections })
      (replacer.operation stated.span)
    return replaced.map .operation
  | .fragment stated => do
    let children ← replacer.setChecked stated.span stated.selections
    let replaced ← offerChecked stated (children.map fun selections => { stated with selections })
      (replacer.fragment stated.span)
    return replaced.map .fragment
  | _ => return none

/-- The copy of a list of definitions after the ones from a place on. -/
def definitionsChecked (replacer : Replacer State) (whole : List Definition) (place : Nat)
    (copy : Option (List Definition)) :
    List Definition → StateT State (Except Trap) (Option (List Definition))
  | [] => return copy
  | first :: rest => do
    let copy ← written whole place copy (← replacer.definitionChecked first)
    replacer.definitionsChecked whole (place + 1) copy rest

def applyChecked (replacer : Replacer Unit) (former : Document) :
    Except Trap (Option Document) := do
  let (copy, _) ← (replacer.definitionsChecked former.definitions 0 none former.definitions).run ()
  return copy.map Document.mk

section Places

variable {α β : Type}

theorem certain_bind (action : StateM State α) (next : α → StateM State β) :
    certain (action >>= next) = certain action >>= fun value => certain (next value) := rfl

theorem written_eq {whole front rest : List α} {first : α} {copy : Option (List α)}
    (current : copy.getD whole = front ++ first :: rest) (replaced : Option α) :
    written whole front.length copy replaced =
      pure ((replaced.map (front ++ · :: rest)).or copy) := by
  cases replaced with
  | none => rfl
  | some value =>
    rw [written, current, Checked.replaceAt_append]
    rfl

/-- One element of a list is offered, and then the ones behind it. -/
theorem written_bind {whole front rest : List α} {first : α} {copy : Option (List α)}
    (current : copy.getD whole = front ++ first :: rest)
    {others : Option (List α) → StateT State (Except Trap) (Option (List α))}
    {newRest : StateM State (Option (List α))}
    (later : ∀ passed copy, copy.getD whole = passed ++ rest → passed.length = front.length + 1 →
      others copy = certain (newRest >>= fun rest => pure ((rest.map (passed ++ ·)).or copy)))
    (replaced : Option α) :
    (liftM (written whole front.length copy replaced) >>= others) =
      certain (newRest >>= fun newRest =>
        pure (((joined first rest replaced newRest).map (front ++ ·)).or copy)) := by
  -- what was offered stands in front, in the copy and in the list if there is no copy
  have passed : ((replaced.map (front ++ · :: rest)).or copy).getD whole =
      (front ++ [replaced.getD first]) ++ rest := by
    cases replaced with
    | none => simpa using current
    | some value => simp
  have shape : ∀ newRest : Option (List α),
      (newRest.map ((front ++ [replaced.getD first]) ++ ·)).or
          ((replaced.map (front ++ · :: rest)).or copy) =
        ((joined first rest replaced newRest).map (front ++ ·)).or copy := by
    intro newRest
    cases replaced <;> cases newRest <;> simp [joined]
  rw [written_eq current, liftM_pure, pure_bind, later _ _ passed (by simp)]
  simp only [shape]

theorem eq_certain_of_nil {copied : StateT State (Except Trap) (Option (List α))}
    {replaced : StateM State (Option (List α))}
    (same : copied = certain (replaced >>= fun list => pure ((list.map ([] ++ ·)).or none))) :
    copied = certain replaced := by
  simpa using same

end Places

variable (replacer : Replacer State)

mutual

theorem selectionChecked_eq : ∀ selection : Selection,
    replacer.selectionChecked selection = certain (replacer.selection selection)
  | .field head children => by
    have copied : replacer.selectionsChecked children 0 none children =
        certain (replacer.selections children) :=
      eq_certain_of_nil (@selectionsChecked_eq children children [] none rfl)
    rw [selectionChecked, copied]
    rfl
  | .inline head children => by
    have copied : replacer.selectionsChecked children 0 none children =
        certain (replacer.selections children) :=
      eq_certain_of_nil (@selectionsChecked_eq children children [] none rfl)
    rw [selectionChecked, copied]
    rfl
  | .spread _ => rfl

/-- Behind the selections that were offered the copy becomes the list with its replacements. -/
theorem selectionsChecked_eq : ∀ (selections : List Selection) {whole front : List Selection}
    {copy : Option (List Selection)}, copy.getD whole = front ++ selections →
      replacer.selectionsChecked whole front.length copy selections =
        certain (replacer.selections selections >>= fun rest =>
          pure ((rest.map (front ++ ·)).or copy))
  | [], _, _, _, _ => rfl
  | first :: rest, whole, front, copy, current => by
    have later : ∀ passed copy, copy.getD whole = passed ++ rest →
        passed.length = front.length + 1 →
          replacer.selectionsChecked whole (front.length + 1) copy rest =
            certain (replacer.selections rest >>= fun rest =>
              pure ((rest.map (passed ++ ·)).or copy)) :=
      fun passed copy current long => long ▸ selectionsChecked_eq rest current
    rw [selectionsChecked, selectionChecked_eq first, selections]
    simp only [written_bind current later, ← certain_bind, bind_assoc, pure_bind]

end

theorem setChecked_eq (owner : Option Span) (children : List Selection) :
    replacer.setChecked owner children = certain (replacer.set owner children) := by
  have copied : replacer.selectionsChecked children 0 none children =
      certain (replacer.selections children) :=
    eq_certain_of_nil (@selectionsChecked_eq _ replacer children children [] none rfl)
  rw [setChecked, copied]
  rfl

theorem definitionChecked_eq (stated : Definition) :
    replacer.definitionChecked stated = certain (replacer.definition stated) := by
  cases stated <;> simp only [definitionChecked, setChecked_eq] <;> rfl

/-- Behind the definitions that were offered the copy becomes the list with its replacements. -/
theorem definitionsChecked_eq (definitions : List Definition) {whole front : List Definition}
    {copy : Option (List Definition)} (current : copy.getD whole = front ++ definitions) :
    replacer.definitionsChecked whole front.length copy definitions =
      certain (replacer.definitions definitions >>= fun rest =>
        pure ((rest.map (front ++ ·)).or copy)) := by
  induction definitions generalizing front copy with
  | nil => rfl
  | cons first rest ih =>
    have later : ∀ passed copy, copy.getD whole = passed ++ rest →
        passed.length = front.length + 1 →
          replacer.definitionsChecked whole (front.length + 1) copy rest =
            certain (replacer.definitions rest >>= fun rest =>
              pure ((rest.map (passed ++ ·)).or copy)) :=
      fun passed copy current long => long ▸ ih current
    rw [definitionsChecked, definitionChecked_eq, Replacer.definitions]
    simp only [written_bind current later, ← certain_bind, bind_assoc, pure_bind]

theorem applyChecked_eq (replacer : Replacer Unit) (former : Document) :
    replacer.applyChecked former = pure (replacer.apply former) := by
  have copied : replacer.definitionsChecked former.definitions 0 none former.definitions =
      certain (replacer.definitions former.definitions) :=
    eq_certain_of_nil
      (@definitionsChecked_eq _ replacer former.definitions former.definitions [] none rfl)
  rw [applyChecked, copied]
  rfl

end Replacer

namespace Directive

/-- `add` by places: the directive of that name is taken out of the list. -/
def addChecked (name : Name) (arguments : List Argument) (directives : List Directive) :
    Except Trap (List Directive) := do
  match directives.findIdx? (·.name == name) with
  | some place => do
    let (existing, others) ← Checked.removeAt directives place
    return others ++
      [{ existing with arguments := Argument.merge existing.arguments arguments }]
  | none => return directives ++ [{ name := name, arguments := arguments }]

theorem addChecked_eq (name : Name) (arguments : List Argument) (directives : List Directive) :
    addChecked name arguments directives = pure (add name arguments directives) := by
  rw [addChecked, add, List.find?_eq_bind_findIdx?_getElem?, List.eraseP_eq_eraseIdx]
  cases found : directives.findIdx? (·.name == name) with
  | none => rfl
  | some place =>
    have inside := (List.findIdx?_eq_some_iff_findIdx_eq.mp found).1
    have there := List.getElem?_eq_getElem inside
    simp only [Checked.removeAt, Checked.element_of_getElem? there, Option.bind_some, there,
      pure_bind]

end Directive

end RelayWorkbench.GraphQL
