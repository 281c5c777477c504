import Mathlib
import RelayWorkbench.GraphQL.Argument

/-! Merging of argument lists. The first argument of a name is the one that a merge sees: it takes
the last value that is added under its name. Names that are new come behind the others. -/

namespace RelayWorkbench.GraphQL.Argument

variable {argument other : Argument} {existing added : List Argument}

def names (arguments : List Argument) : List Name := arguments.map (·.name)

@[simp] theorem names_nil : names [] = [] := rfl

@[simp] theorem names_cons (argument : Argument) (rest : List Argument) :
    names (argument :: rest) = argument.name :: names rest := rfl

theorem getElem?_names (arguments : List Argument) (index : Nat) :
    (names arguments)[index]? = arguments[index]?.map (·.name) := List.getElem?_map

theorem names_take (arguments : List Argument) (count : Nat) :
    names (arguments.take count) = (names arguments).take count := List.map_take

def named? (name : Name) (arguments : List Argument) : Option Argument :=
  arguments.find? (·.name == name)

theorem named?_nil (name : Name) : named? name [] = none := rfl

theorem named?_cons (name : Name) (argument : Argument) (rest : List Argument) :
    named? name (argument :: rest) =
      if argument.name = name then some argument else named? name rest := by
  by_cases same : argument.name = name <;> simp [named?, same]

theorem named?_of_getElem? {arguments : List Argument} {index : Nat}
    (found : arguments[index]? = some argument)
    (first : argument.name ∉ names (arguments.take index)) :
    named? argument.name arguments = some argument := by
  induction arguments generalizing index with
  | nil => simp at found
  | cons head rest ih =>
    rw [named?_cons]
    cases index with
    | zero =>
      obtain rfl : head = argument := by simpa using found
      rw [if_pos rfl]
    | succ index =>
      rw [List.take_succ_cons, names_cons, List.mem_cons, not_or] at first
      rw [if_neg (Ne.symm first.1), ih (by simpa using found) first.2]

section Putting

theorem names_put (argument : Argument) (existing : List Argument) :
    names (put argument existing) =
      if argument.name ∈ names existing then names existing
      else names existing ++ [argument.name] := by
  induction existing with
  | nil => rfl
  | cons current rest ih =>
    by_cases same : current.name = argument.name
    · simp [put, same]
    · rw [put, if_neg same, names_cons, ih]
      by_cases later : argument.name ∈ names rest
      · simp [later]
      · simp [later, Ne.symm same]

theorem mem_names_put : argument.name ∈ names (put argument existing) := by
  rw [names_put]
  split
  · assumption
  · simp

theorem mem_names_put_of_mem {name : Name} (member : name ∈ names existing) :
    name ∈ names (put argument existing) := by
  rw [names_put]
  split
  · exact member
  · exact List.mem_append_left _ member

theorem named?_put (name : Name) (argument : Argument) (existing : List Argument) :
    named? name (put argument existing) =
      if argument.name = name then some argument else named? name existing := by
  induction existing with
  | nil => rw [put, named?_cons]
  | cons current rest ih =>
    by_cases replaced : current.name = argument.name
    · rw [put, if_pos replaced, named?_cons, named?_cons, replaced]
      split <;> rfl
    · rw [put, if_neg replaced, named?_cons, named?_cons, ih]
      by_cases same : argument.name = name
      · rw [if_neg (same ▸ replaced), if_pos same, if_pos same]
      · rw [if_neg same, if_neg same]

private theorem getElem?_put_of_ne {index : Nat} (found : existing[index]? = some other)
    (apart : other.name ≠ argument.name) : (put argument existing)[index]? = some other := by
  induction existing generalizing index with
  | nil => simp at found
  | cons current rest ih =>
    rw [put]
    cases index with
    | zero =>
      obtain rfl : current = other := by simpa using found
      rw [if_neg apart, List.getElem?_cons_zero]
    | succ index =>
      have found : rest[index]? = some other := by simpa using found
      split
      · exact found
      · exact ih found

/-- An argument behind another one of its name stays as it is. -/
theorem getElem?_put_of_repeated {index : Nat} (found : existing[index]? = some other)
    (repeated : other.name ∈ names (existing.take index)) :
    (put argument existing)[index]? = some other := by
  induction existing generalizing index with
  | nil => simp at found
  | cons current rest ih =>
    cases index with
    | zero => simp at repeated
    | succ index =>
      have found : rest[index]? = some other := by simpa using found
      rw [List.take_succ_cons, names_cons, List.mem_cons] at repeated
      rw [put]
      split
      · exact found
      · next apart =>
        rcases repeated with same | repeated
        · exact getElem?_put_of_ne found (same ▸ apart)
        · exact ih found repeated

theorem names_take_put {index : Nat} (within : index ≤ existing.length) :
    names ((put argument existing).take index) = names (existing.take index) := by
  rw [names_take, names_take, names_put]
  split
  · rfl
  · exact List.take_append_of_le_length (by simpa [names] using within)

theorem put_put_of_eq (same : argument.name = other.name) :
    put argument (put other existing) = put argument existing := by
  induction existing with
  | nil => simp [put, same]
  | cons current rest ih =>
    by_cases replaced : current.name = other.name
    · simp [put, replaced, same]
    · simp [put, replaced, same, ih]

/-- Arguments of different names may be put in either order, if one of them replaces another. -/
theorem put_comm (apart : argument.name ≠ other.name) (member : argument.name ∈ names existing) :
    put argument (put other existing) = put other (put argument existing) := by
  induction existing with
  | nil => simp at member
  | cons current rest ih =>
    by_cases replaced : current.name = argument.name
    · have kept : current.name ≠ other.name := replaced ▸ apart
      simp [put, replaced, apart]
    · have later : argument.name ∈ names rest := by
        simpa [Ne.symm replaced] using member
      by_cases same : current.name = other.name
      · simp [put, same, Ne.symm apart]
      · simp [put, same, replaced, ih later]

end Putting

section Merging

@[simp] theorem merge_nil (existing : List Argument) : merge existing [] = existing := rfl

@[simp] theorem merge_cons (existing : List Argument) (argument : Argument)
    (rest : List Argument) :
    merge existing (argument :: rest) = merge (put argument existing) rest := rfl

/-- What a merge makes of the existing arguments. -/
structure Merged (existing added merged : List Argument) : Prop where
  names : names merged = names existing ++ ((names added).removeAll (names existing)).eraseDups
  first : ∀ name, named? name merged = (named? name added.reverse).or (named? name existing)
  later : ∀ {index : Nat} {argument : Argument}, existing[index]? = some argument →
    argument.name ∈ Argument.names (existing.take index) → merged[index]? = some argument

private theorem eraseDups_removeAll_cons {name : Name} {formers : List Name}
    (absent : name ∉ formers) (rest : List Name) :
    ((name :: rest).removeAll formers).eraseDups =
      name :: (rest.removeAll (formers ++ [name])).eraseDups := by
  have kept : (name :: rest).removeAll formers = name :: rest.removeAll formers := by
    simp [List.removeAll, absent]
  rw [kept, List.eraseDups_cons, List.removeAll, List.filter_filter, List.removeAll]
  congr 3
  funext other
  by_cases same : other = name <;> simp [same]

theorem merged_merge (existing added : List Argument) :
    Merged existing added (merge existing added) := by
  induction added generalizing existing with
  | nil => exact ⟨by simp [List.removeAll], fun name => rfl, fun found _ => found⟩
  | cons argument rest ih =>
    obtain ⟨names, first, later⟩ := ih (put argument existing)
    refine ⟨?_, fun name => ?_, fun {index other} found repeated => ?_⟩
    · rw [merge_cons, names, names_put, names_cons]
      split
      · next member => simp [List.removeAll, member]
      · next absent =>
        rw [eraseDups_removeAll_cons absent, List.append_assoc, List.singleton_append]
    · have last : named? name (rest.reverse ++ [argument]) = (named? name rest.reverse).or
          (if argument.name = name then some argument else none) := by
        rw [named?, List.find?_append, ← named?, ← named?, named?_cons, named?_nil]
      rw [merge_cons, first, named?_put, List.reverse_cons, last, Option.or_assoc]
      split <;> rfl
    · rw [merge_cons]
      refine later (getElem?_put_of_repeated found repeated) ?_
      rw [names_take_put]
      · exact repeated
      · exact Nat.le_of_lt (List.getElem?_eq_some_iff.mp found).1

theorem put_of_absent {argument : Argument} {existing : List Argument}
    (absent : argument.name ∉ names existing) : put argument existing = existing ++ [argument] := by
  induction existing with
  | nil => rfl
  | cons current rest ih =>
    rw [names_cons, List.mem_cons, not_or] at absent
    rw [put, if_neg (Ne.symm absent.1), ih absent.2, List.cons_append]

theorem merge_of_absent {existing added : List Argument}
    (distinct : (names existing ++ names added).Nodup) :
    merge existing added = existing ++ added := by
  induction added generalizing existing with
  | nil => simp
  | cons argument rest ih =>
    have absent : argument.name ∉ names existing := by
      intro member
      exact List.nodup_append.mp distinct |>.2.2 _ member _ List.mem_cons_self rfl
    rw [merge_cons, put_of_absent absent, ih (by simpa [names] using distinct), List.append_assoc,
      List.singleton_append]

theorem merged_nil {added : List Argument} (distinct : (names added).Nodup) :
    Merged [] added added := by
  have whole : merge [] added = added := merge_of_absent distinct
  have made := merged_merge [] added
  rwa [whole] at made

private theorem nodup_eraseDups (list : List Name) : list.eraseDups.Nodup := by
  induction list using List.reverseRecOn with
  | nil => simp
  | append_singleton front last ih =>
    rw [List.eraseDups_append]
    by_cases member : last ∈ front
    · simpa [List.removeAll, member] using ih
    · have apart : ∀ name ∈ front, ¬ name = last := by
        rintro name there rfl
        exact member there
      have new : [last].removeAll front = [last] := by simp [List.removeAll, member]
      rw [new, List.nodup_append]
      exact ⟨ih, by simp [List.eraseDups_cons], by simpa [List.eraseDups_cons] using apart⟩

namespace Merged

variable {merged others : List Argument}

theorem nodup (made : Merged existing added merged) (distinct : (Argument.names existing).Nodup) :
    (Argument.names merged).Nodup := by
  rw [made.names, List.nodup_append]
  refine ⟨distinct, nodup_eraseDups _, fun name former other new => ?_⟩
  rintro rfl
  simp [List.removeAll, former] at new

/-- An argument behind another one of its name stands there from the beginning. -/
private theorem lt_of_repeated (made : Merged existing added merged) {index : Nat}
    (found : merged[index]? = some argument)
    (repeated : argument.name ∈ Argument.names (merged.take index)) : index < existing.length := by
  by_contra behind
  have width : (Argument.names existing).length ≤ index := by simpa [Argument.names] using behind
  have there := getElem?_names merged index
  rw [found, made.names, List.getElem?_append_right width] at there
  rw [names_take, made.names, List.take_append, List.take_of_length_le width] at repeated
  have new := List.mem_of_getElem? there
  rcases List.mem_append.mp repeated with former | earlier
  · simp [List.removeAll, former] at new
  · obtain ⟨place, before, same⟩ := List.mem_take_iff_getElem.mp earlier
    obtain ⟨bound, there⟩ := List.getElem?_eq_some_iff.mp there
    have equal := (nodup_eraseDups _).getElem_inj_iff.mp (same.trans there.symm)
    omega

/-- Behind another one of its name stands what stood there. -/
private theorem getElem?_of_repeated (made : Merged existing added merged) {index : Nat}
    (found : merged[index]? = some argument)
    (repeated : argument.name ∈ Argument.names (merged.take index)) :
    existing[index]? = some argument := by
  have within := made.lt_of_repeated found repeated
  have width : index < (Argument.names existing).length := by simpa [Argument.names] using within
  have former : existing[index]? = some existing[index] := List.getElem?_eq_getElem within
  have called := getElem?_names merged index
  rw [found, made.names, List.getElem?_append_left width, getElem?_names, former] at called
  have same : existing[index].name = argument.name := Option.some.inj called
  rw [names_take, made.names, List.take_append_of_le_length width.le, ← names_take, ← same]
    at repeated
  rw [former, ← found, made.later former repeated]

theorem eq (made : Merged existing added merged) (madeToo : Merged existing added others) :
    merged = others := by
  have names : Argument.names merged = Argument.names others := made.names.trans madeToo.names.symm
  have length : merged.length = others.length := by
    simpa [Argument.names] using congrArg List.length names
  refine List.ext_getElem length fun index bound boundToo => ?_
  have found : merged[index]? = some merged[index] := List.getElem?_eq_getElem bound
  have foundToo : others[index]? = some others[index] := List.getElem?_eq_getElem boundToo
  have called : merged[index].name = others[index].name := by
    simpa [Argument.names, found, foundToo] using congrArg (·[index]?) names
  have before : Argument.names (merged.take index) = Argument.names (others.take index) := by
    rw [names_take, names_take, names]
  by_cases repeated : merged[index].name ∈ Argument.names (merged.take index)
  · have former := made.getElem?_of_repeated found repeated
    rw [madeToo.getElem?_of_repeated foundToo (called ▸ before ▸ repeated)] at former
    exact (Option.some.inj former).symm
  · have first := named?_of_getElem? found repeated
    have firstToo := named?_of_getElem? foundToo (called ▸ before ▸ repeated)
    rw [made.first, called, ← madeToo.first, firstToo] at first
    exact (Option.some.inj first).symm

end Merged

theorem merge_merge_self (existing added : List Argument) :
    merge (merge existing added) added = merge existing added := by
  have made := merged_merge existing added
  have known : ∀ name ∈ names added, name ∈ names (merge existing added) := by
    intro name member
    rw [made.names]
    by_cases former : name ∈ names existing
    · exact List.mem_append_left _ former
    · refine List.mem_append_right _ (List.mem_eraseDups.mpr ?_)
      simp [List.removeAll, member, former]
  refine (merged_merge (merge existing added) added).eq ⟨?_, fun name => ?_, fun found _ => found⟩
  · have nothing : (names added).removeAll (names (merge existing added)) = [] := by
      simpa [List.removeAll] using known
    rw [nothing]
    simp
  · rw [made.first, ← Option.or_assoc, Option.or_self]

/-- An argument may be put before others are merged in, if it replaces one and none of them. -/
private theorem put_merge_of_mem (member : argument.name ∈ names existing)
    (apart : argument.name ∉ names added) :
    put argument (merge existing added) = merge (put argument existing) added := by
  induction added generalizing existing with
  | nil => rfl
  | cons next rest ih =>
    rw [names_cons, List.mem_cons, not_or] at apart
    rw [merge_cons, ih (mem_names_put_of_mem member) apart.2, put_comm apart.1 member, merge_cons]

/-- Putting an argument behind a merge is merging it with what was merged. -/
private theorem put_merge (distinct : (names added).Nodup) (existing : List Argument) :
    put argument (merge existing added) = merge existing (put argument added) := by
  induction added generalizing existing with
  | nil => rfl
  | cons next rest ih =>
    rw [names_cons, List.nodup_cons] at distinct
    by_cases replaced : next.name = argument.name
    · rw [put, if_pos replaced, merge_cons, merge_cons,
        put_merge_of_mem (replaced ▸ mem_names_put) (replaced ▸ distinct.1),
        put_put_of_eq replaced.symm]
    · rw [put, if_neg replaced, merge_cons, merge_cons, ih distinct.2]

theorem merge_assoc (distinct : (names added).Nodup) (existing more : List Argument) :
    merge (merge existing added) more = merge existing (merge added more) := by
  induction more generalizing added with
  | nil => rfl
  | cons argument rest ih =>
    rw [merge_cons, merge_cons, put_merge distinct]
    exact ih ((merged_merge added [argument]).nodup distinct)

/-- What merging does to every list of arguments, and the laws that follow from it. -/
theorem merge_laws (existing added : List Argument) :
    Merged existing added (merge existing added) ∧
      merge (merge existing added) added = merge existing added ∧
      ((names existing).Nodup → (names (merge existing added)).Nodup) ∧
      ((names added).Nodup → ∀ more,
        merge (merge existing added) more = merge existing (merge added more)) :=
  ⟨merged_merge existing added, merge_merge_self existing added,
    (merged_merge existing added).nodup, fun distinct more => merge_assoc distinct existing more⟩

/-- A list that is replaced in one place and grows at its end, which is then replaced, too. -/
theorem merge_laws_page :
    let existing := [ofVariable "first".toList, ofString "orderBy".toList "NAME".toList]
    let added := [ofString "first".toList "10".toList, ofVariable "after".toList]
    let more := [ofString "after".toList "x".toList]
    (names existing).Nodup ∧ (names added).Nodup ∧
      names (merge existing added) = ["first".toList, "orderBy".toList, "after".toList] ∧
      (names (merge existing added)).Nodup ∧
      merge (merge existing added) more = merge existing (merge added more) := by
  intro existing added more
  obtain ⟨made, -, distinct, assoc⟩ := merge_laws existing added
  exact ⟨by decide, by decide, made.names.trans (by decide), distinct (by decide),
    assoc (by decide) more⟩

end Merging

end RelayWorkbench.GraphQL.Argument
