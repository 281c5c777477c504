import RelayWorkbench.Proofs.Text.Cutting
import RelayWorkbench.Trap

/-! What computations that a trap may end return, and what the lists made by them hold. Of the other
operations that may end a program, differences, places of a list and slices of a text, none ever
does here: a function written with them is the function itself. -/

namespace RelayWorkbench

namespace Checked

section Sequences

variable {α β : Type}

theorem bind_eq_ok_iff {computed : Except Trap α} {next : α → Except Trap β} {result : β} :
    computed >>= next = .ok result ↔ ∃ value, computed = .ok value ∧ next value = .ok result := by
  constructor
  · intro returned
    cases computed with
    | error trap => cases returned
    | ok value => exact ⟨value, rfl, returned⟩
  · rintro ⟨value, rfl, returned⟩
    exact returned

theorem bind_eq_error_iff {computed : Except Trap α} {next : α → Except Trap β} {trap : Trap} :
    computed >>= next = .error trap ↔
      computed = .error trap ∨ ∃ value, computed = .ok value ∧ next value = .error trap := by
  constructor
  · intro ended
    cases computed with
    | error other => exact .inl (congrArg Except.error (Except.error.inj ended))
    | ok value => exact .inr ⟨value, rfl, ended⟩
  · rintro (rfl | ⟨value, rfl, ended⟩)
    · rfl
    · exact ended

theorem eq_ok_of_join {computed : Except Trap (Option α)} {value : α}
    (returned : computed.toOption.join = some value) : computed = .ok (some value) := by
  cases computed with
  | error trap => cases returned
  | ok found => exact congrArg Except.ok returned

end Sequences

section Sums

variable {first second : UInt32}

theorem sum_eq (first second : UInt32) :
    sum first second =
      if first.toNat + second.toNat < 2 ^ 32 then .ok (first + second) else .error .overflow := rfl

theorem wideSum_eq (first second : Nat) :
    wideSum first second =
      if first + second < 2 ^ 64 then .ok (first + second) else .error .overflow := rfl

theorem sum_eq_ok_iff {word : UInt32} :
    sum first second = .ok word ↔ word.toNat = first.toNat + second.toNat := by
  have small := word.toNat_lt
  rw [sum_eq]
  split
  · next fits =>
    have value : (first + second).toNat = first.toNat + second.toNat := by
      rw [UInt32.toNat_add, Nat.mod_eq_of_lt fits]
    rw [← value, UInt32.toNat_inj, eq_comm]
    exact ⟨Except.ok.inj, congrArg Except.ok⟩
  · exact ⟨nofun, fun same => by omega⟩

theorem sum_eq_error_iff {trap : Trap} :
    sum first second = .error trap ↔ trap = .overflow ∧ 2 ^ 32 ≤ first.toNat + second.toNat := by
  rw [sum_eq]
  split
  · exact ⟨nofun, fun ⟨_, more⟩ => by omega⟩
  · next more =>
    exact ⟨by rintro ⟨⟩; exact ⟨rfl, Nat.le_of_not_lt more⟩, by rintro ⟨rfl, _⟩; rfl⟩

theorem sum_of_lt (fits : first.toNat + second.toNat < 2 ^ 32) :
    sum first second = .ok (first + second) := if_pos fits

theorem sum_of_le (more : 2 ^ 32 ≤ first.toNat + second.toNat) :
    sum first second = .error .overflow := if_neg (Nat.not_lt_of_le more)

end Sums

/-- A number less a part of it. -/
def difference (whole part : Nat) : Except Trap Nat :=
  if part ≤ whole then return whole - part else throw .underflow

def element {α : Type} (list : List α) (place : Nat) : Except Trap α :=
  match list[place]? with
  | some value => return value
  | none => throw .outside

def replaceAt {α : Type} (list : List α) (place : Nat) (value : α) : Except Trap (List α) :=
  if place < list.length then return list.set place value else throw .outside

/-- The element at a place, and the list without it. -/
def removeAt {α : Type} (list : List α) (place : Nat) : Except Trap (α × List α) := do
  return (← element list place, list.eraseIdx place)

def slice (text : Text) (start stop : Nat) : Except Trap Text :=
  match text.slice? start stop with
  | some part => return part
  | none => throw .slice

theorem difference_of_le {whole part : Nat} (less : part ≤ whole) :
    difference whole part = pure (whole - part) := if_pos less

theorem element_of_getElem? {α : Type} {list : List α} {place : Nat} {value : α}
    (found : list[place]? = some value) : element list place = pure value := by
  rw [element, found]

theorem replaceAt_append {α : Type} (front : List α) (former value : α) (rest : List α) :
    replaceAt (front ++ former :: rest) front.length value = pure (front ++ value :: rest) := by
  simp [replaceAt]

theorem slice_append (before middle after : Text) :
    slice (before ++ middle ++ after) before.width (before.width + middle.width) = pure middle := by
  rw [slice, Text.slice?_append]

theorem slice_prefix (front back : Text) : slice (front ++ back) 0 front.width = pure front := by
  simpa using slice_append [] front back

theorem slice_suffix (front back : Text) :
    slice (front ++ back) front.width (front ++ back).width = pure back := by
  simpa [Text.width_append] using slice_append front back []

section Lists

variable {α β : Type}

theorem mapM_eq {action : α → Except Trap β} {value : α → β} {list : List α}
    (each : ∀ item ∈ list, action item = pure (value item)) :
    list.mapM action = pure (list.map value) := by
  induction list with
  | nil => rfl
  | cons item rest ih =>
    obtain ⟨first, others⟩ := List.forall_mem_cons.mp each
    rw [List.mapM_cons, first, ih others]
    rfl

theorem filterMapM_eq {action : α → Except Trap (Option β)} {value : α → Option β} {list : List α}
    (each : ∀ item ∈ list, action item = pure (value item)) :
    list.filterMapM action = pure (list.filterMap value) := by
  induction list with
  | nil => rfl
  | cons item rest ih =>
    obtain ⟨first, others⟩ := List.forall_mem_cons.mp each
    rw [List.filterMapM_cons, first, ih others, pure_bind]
    cases none : value item <;> simp [none]

/-- One step of a selection, which keeps its items in front of those kept before. -/
theorem filterAuxM_cons {m : Type → Type} [Monad m] (holds : α → m Bool) (item : α)
    (rest kept : List α) :
    (item :: rest).filterAuxM holds kept =
      (holds item >>= fun answer => rest.filterAuxM holds (cond answer (item :: kept) kept)) := rfl

section Searches

variable {holds others : α → Except Trap Bool} {list : List α}

theorem findM?_congr (same : ∀ item ∈ list, holds item = others item) :
    list.findM? holds = list.findM? others := by
  induction list with
  | nil => rfl
  | cons item rest ih =>
    obtain ⟨first, later⟩ := List.forall_mem_cons.mp same
    rw [List.findM?, List.findM?, first, ih later]

/-- What a search returns is what the search finds that takes every trap for a no. -/
theorem find?_of_findM? {found : Option α} (returned : list.findM? holds = .ok found) :
    list.find? (holds · = .ok true) = found := by
  induction list with
  | nil => exact Except.ok.inj returned
  | cons item rest ih =>
    obtain ⟨answer, first, returned⟩ := bind_eq_ok_iff.mp returned
    cases answer with
    | true => simpa [first] using Except.ok.inj returned
    | false => simpa [first] using ih returned

theorem findM?_returns (each : ∀ item ∈ list, ∃ answer, holds item = .ok answer) :
    ∃ found, list.findM? holds = .ok found := by
  induction list with
  | nil => exact ⟨none, rfl⟩
  | cons item rest ih =>
    obtain ⟨⟨answer, first⟩, later⟩ := List.forall_mem_cons.mp each
    rw [List.findM?, first]
    cases answer with
    | true => exact ⟨some item, rfl⟩
    | false => exact ih later

theorem filterM_congr (same : ∀ item ∈ list, holds item = others item) :
    list.filterM holds = list.filterM others := by
  have general : ∀ kept, list.filterAuxM holds kept = list.filterAuxM others kept := by
    induction list with
    | nil => exact fun _ => rfl
    | cons item rest ih =>
      obtain ⟨first, later⟩ := List.forall_mem_cons.mp same
      simp only [filterAuxM_cons, first, ih later, implies_true]
  rw [List.filterM, List.filterM, general]

/-- What a selection returns is what the selection keeps that takes every trap for a no. -/
theorem filter_of_filterM {kept : List α} (returned : list.filterM holds = .ok kept) :
    list.filter (holds · = .ok true) = kept := by
  have general : ∀ before after, list.filterAuxM holds before = .ok after →
      after = (list.filter (holds · = .ok true)).reverse ++ before := by
    clear returned
    induction list with
    | nil => exact fun before after returned => (Except.ok.inj returned).symm
    | cons item rest ih =>
      intro before after returned
      rw [filterAuxM_cons] at returned
      obtain ⟨answer, first, returned⟩ := bind_eq_ok_iff.mp returned
      cases answer <;> simpa [first] using ih _ _ returned
  obtain ⟨reversed, collected, same⟩ := bind_eq_ok_iff.mp returned
  obtain rfl := Except.ok.inj same
  rw [general [] reversed collected, List.append_nil, List.reverse_reverse]

theorem filterM_returns (each : ∀ item ∈ list, ∃ answer, holds item = .ok answer) :
    ∃ kept, list.filterM holds = .ok kept := by
  have general : ∀ before, ∃ kept, list.filterAuxM holds before = .ok kept := by
    induction list with
    | nil => exact fun before => ⟨before, rfl⟩
    | cons item rest ih =>
      intro before
      obtain ⟨⟨answer, first⟩, later⟩ := List.forall_mem_cons.mp each
      rw [filterAuxM_cons, first]
      exact ih later _
  obtain ⟨kept, collected⟩ := general []
  rw [List.filterM, collected]
  exact ⟨kept.reverse, rfl⟩

end Searches

end Lists

end Checked

end RelayWorkbench
