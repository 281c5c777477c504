import RelayWorkbench.GraphQL.Node
import RelayWorkbench.Proofs.GraphQL.ArgumentMerging

/-! Directives after some are added one after the other. Where no name is repeated, each name keeps
one directive: those that are never added stay in front, and the others follow in the order in which
they were added last, with the arguments of all their additions merged. -/

namespace RelayWorkbench.GraphQL

namespace Directive

def names (directives : List Directive) : List Name := directives.map (·.name)

def named? (name : Name) (directives : List Directive) : Option Directive :=
  directives.find? (·.name == name)

theorem named?_eq_none_iff {name : Name} {directives : List Directive} :
    named? name directives = none ↔ name ∉ names directives := by
  simp [named?, names]

theorem name_named? (name : Name) (directives : List Directive) :
    ∀ existing ∈ named? name directives, existing.name = name := by
  intro existing found
  simpa using List.find?_some found

structure Addition where
  name : Name
  arguments : List Argument := []

def addAll (additions : List Addition) (directives : List Directive) : List Directive :=
  additions.foldl (fun formers addition => add addition.name addition.arguments formers) directives

/-- Names that directives are added under, in order. -/
def added (additions : List Addition) : List Name := additions.map (·.name)

/-- The arguments that are added under a name, addition by addition. -/
def given (name : Name) (additions : List Addition) : List (List Argument) :=
  (additions.filter (·.name == name)).map (·.arguments)

/-- The directive of a name after additions: the former one merges the arguments of all of them, and
without one those of the first addition merge the arguments of the others. -/
def settled (name : Name) (former : Option Directive) (given : List (List Argument)) : Directive :=
  match former with
  | some existing => { existing with arguments := given.foldl Argument.merge existing.arguments }
  | none => { name, arguments := given.tail.foldl Argument.merge (given.headD []) }

variable {name : Name} {directives : List Directive} {additions : List Addition}

section Single

theorem add_of_first {front back : List Directive} {existing : Directive}
    (first : existing.name ∉ names front) (arguments : List Argument) :
    add existing.name arguments (front ++ existing :: back) =
      front ++ back ++
        [{ existing with arguments := Argument.merge existing.arguments arguments }] := by
  have past : ∀ directive ∈ front, ¬ (directive.name == existing.name) = true := by
    simpa [names] using first
  have found : (front ++ existing :: back).find? (·.name == existing.name) = some existing := by
    rw [List.find?_append, List.find?_eq_none.mpr past]
    simp
  have erased : (front ++ existing :: back).eraseP (·.name == existing.name) = front ++ back := by
    rw [List.eraseP_append_right _ past]
    simp
  rw [add, found, erased]

theorem add_of_absent (absent : name ∉ names directives) (arguments : List Argument) :
    add name arguments directives = directives ++ [({ name, arguments } : Directive)] := by
  have missing : directives.find? (·.name == name) = none := by simpa [names] using absent
  rw [add, missing]

theorem filter_of_absent (absent : name ∉ names directives) :
    directives.filter (·.name != name) = directives := by
  refine List.filter_eq_self.mpr fun directive member => ?_
  simpa using fun same : directive.name = name =>
    absent (List.mem_map.mpr ⟨directive, member, same⟩)

/-- Where no name is repeated, all others stay and the named one follows. -/
theorem add_of_nodup (distinct : (names directives).Nodup) (name : Name)
    (arguments : List Argument) :
    add name arguments directives = directives.filter (·.name != name) ++
      [settled name (named? name directives) [arguments]] := by
  by_cases member : name ∈ names directives
  · obtain ⟨existing, present, rfl⟩ := List.mem_map.mp member
    obtain ⟨front, back, rfl⟩ := List.append_of_mem present
    have apart : (names front ++ existing.name :: names back).Nodup := by
      simpa [names] using distinct
    obtain ⟨before, behind⟩ : existing.name ∉ names front ∧ existing.name ∉ names back := by
      have cleared := List.nodup_middle.mp apart
      simpa [not_or] using (List.nodup_cons.mp cleared).1
    have found : named? existing.name (front ++ existing :: back) = some existing := by
      have past : named? existing.name front = none := by simpa [named?, names] using before
      rw [named?, List.find?_append, ← named?, past]
      simp
    rw [add_of_first before, found, List.filter_append, filter_of_absent before,
      List.filter_cons_of_neg (by simp), filter_of_absent behind]
    rfl
  · have missing : named? name directives = none := by simpa [named?, names] using member
    rw [add_of_absent member, missing, filter_of_absent member]
    rfl

end Single

section Extension

/-- A directive with arguments merged into those that the first directive of its name has, if there
is one. -/
structure Extends (name : Name) (arguments : List Argument) (formers : List Directive)
    (made : Directive) : Prop where
  head : made = { ((named? name formers).getD { name }) with arguments := made.arguments }
  arguments : Argument.Merged ((named? name formers).elim [] (·.arguments)) arguments made.arguments

theorem exists_add {arguments : List Argument} (distinct : (Argument.names arguments).Nodup)
    (name : Name) (directives : List Directive) :
    ∃ made, add name arguments directives = directives.eraseP (·.name == name) ++ [made] ∧
      Extends name arguments directives made := by
  cases found : named? name directives with
  | some existing =>
    refine ⟨{ existing with arguments := Argument.merge existing.arguments arguments }, ?_, ?_, ?_⟩
    · rw [named?] at found
      rw [add, found]
    · rw [found]; rfl
    · rw [found]
      exact Argument.merged_merge _ _
  | none =>
    have absent := named?_eq_none_iff.mp found
    refine ⟨{ name, arguments }, ?_, ?_, ?_⟩
    · rw [add_of_absent absent, List.eraseP_of_forall_not]
      simpa [named?] using found
    · rw [found]; rfl
    · rw [found]
      exact Argument.merged_nil distinct

theorem name_of_extends {arguments : List Argument} {made : Directive}
    (extends' : Extends name arguments directives made) : made.name = name := by
  rw [extends'.head]
  cases found : named? name directives with
  | none => rfl
  | some existing => exact name_named? name directives existing found

theorem named?_eraseP {other : Name} (apart : name ≠ other) (directives : List Directive) :
    named? name (directives.eraseP (·.name == other)) = named? name directives := by
  induction directives with
  | nil => rfl
  | cons first rest ih =>
    by_cases erased : first.name = other
    · have passed : first.name ≠ name := erased ▸ apart.symm
      simp [named?, erased, apart.symm]
    · rw [List.eraseP_cons_of_neg (by simpa using erased)]
      simp only [named?, List.find?_cons] at ih ⊢
      rw [ih]

theorem named?_concat_of_ne {last : Directive} (apart : last.name ≠ name) (front : List Directive) :
    named? name (front ++ [last]) = named? name front := by
  simp [named?, List.find?_append, apart]

theorem exists_add_add {first second : Name} (apart : first ≠ second)
    {arguments more : List Argument} (distinct : (Argument.names arguments).Nodup)
    (distinctToo : (Argument.names more).Nodup)
    (directives : List Directive) :
    ∃ made other, add second more (add first arguments directives) =
        (directives.eraseP (·.name == first)).eraseP (·.name == second) ++ [made, other] ∧
      Extends first arguments directives made ∧ Extends second more directives other := by
  obtain ⟨made, added, extends'⟩ := exists_add distinct first directives
  obtain ⟨other, addedToo, extendsToo⟩ :=
    exists_add distinctToo second (add first arguments directives)
  have called : made.name ≠ second := (name_of_extends extends').trans_ne apart
  have same : named? second (add first arguments directives) = named? second directives := by
    rw [added, named?_concat_of_ne called, named?_eraseP apart.symm]
  refine ⟨made, other, ?_, extends', ?_⟩
  · have kept : ∀ front : List Directive, (front ++ [made]).eraseP (·.name == second) =
        front.eraseP (·.name == second) ++ [made] := by
      intro front
      induction front with
      | nil => simp [called]
      | cons head rest ih =>
        by_cases erased : head.name = second
        · simp [erased]
        · simp [erased, ih]
    rw [addedToo, added, kept, List.append_assoc, List.singleton_append]
  · obtain ⟨head, arguments⟩ := extendsToo
    rw [same] at head arguments
    exact ⟨head, arguments⟩

end Extension

section Runs

@[simp] theorem name_settled (former : Option Directive) (formers : List (List Argument))
    (called : ∀ existing ∈ former, existing.name = name) :
    (settled name former formers).name = name := by
  cases former with
  | none => rfl
  | some existing => exact called existing rfl

theorem addAll_concat (additions : List Addition) (addition : Addition)
    (directives : List Directive) : addAll (additions ++ [addition]) directives =
      add addition.name addition.arguments (addAll additions directives) := by
  simp [addAll]

theorem added_concat (additions : List Addition) (addition : Addition) :
    added (additions ++ [addition]) = added additions ++ [addition.name] := by
  simp [added]

theorem given_concat (name : Name) (additions : List Addition) (addition : Addition) :
    given name (additions ++ [addition]) = given name additions ++
      if addition.name = name then [addition.arguments] else [] := by
  by_cases same : addition.name = name <;> simp [given, same]

theorem given_eq_nil_iff : given name additions = [] ↔ name ∉ added additions := by
  simp [given, added]

theorem settled_concat (former : Option Directive) {formers : List (List Argument)}
    (some : formers ≠ []) (arguments : List Argument) :
    settled name former (formers ++ [arguments]) =
      { settled name former formers with
        arguments := Argument.merge (settled name former formers).arguments arguments } := by
  cases former with
  | none =>
    obtain ⟨first, more, rfl⟩ := List.exists_cons_of_ne_nil some
    simp [settled]
  | some existing => simp [settled]

private theorem dedup_concat (front : List Name) (last : Name) :
    (front ++ [last]).dedup = front.dedup.filter (· != last) ++ [last] := by
  induction front with
  | nil => simp
  | cons head rest ih =>
    by_cases later : head ∈ rest
    · rw [List.cons_append, List.dedup_cons_of_mem (List.mem_append_left _ later), ih,
        List.dedup_cons_of_mem later]
    · by_cases same : head = last
      · rw [List.cons_append, List.dedup_cons_of_mem (by simp [same]), ih,
          List.dedup_cons_of_notMem later]
        simp [same]
      · rw [List.cons_append, List.dedup_cons_of_notMem (by simp [later, same]), ih,
          List.dedup_cons_of_notMem later]
        simp [same]

/-- The directives that are never added. -/
def kept (additions : List Addition) (directives : List Directive) : List Directive :=
  directives.filter (·.name ∉ added additions)

/-- The directives that are added, in the order in which they were added last. -/
def moved (additions : List Addition) (directives : List Directive) : List Directive :=
  (added additions).dedup.map fun name =>
    settled name (named? name directives) (given name additions)

theorem names_moved (additions : List Addition) (directives : List Directive) :
    names (moved additions directives) = (added additions).dedup := by
  rw [names, moved, List.map_map]
  refine List.map_id'' (fun name => ?_) _
  exact name_settled _ _ (name_named? name directives)

theorem names_kept (additions : List Addition) (directives : List Directive) :
    names (kept additions directives) = (names directives).filter (· ∉ added additions) := by
  rw [names, names, kept, List.filter_map]
  rfl

theorem nodup_kept_moved (distinct : (names directives).Nodup) (additions : List Addition) :
    (names (kept additions directives ++ moved additions directives)).Nodup := by
  have split : names (kept additions directives ++ moved additions directives) =
      names (kept additions directives) ++ names (moved additions directives) := List.map_append
  rw [split, names_moved, names_kept, List.nodup_append]
  refine ⟨distinct.filter _, List.nodup_dedup _, fun name former other last => ?_⟩
  rintro rfl
  simp [List.mem_dedup.mp last] at former

theorem kept_concat (additions : List Addition) (addition : Addition)
    (directives : List Directive) : kept (additions ++ [addition]) directives =
      (kept additions directives).filter (·.name != addition.name) := by
  rw [kept, kept, List.filter_filter, added_concat]
  refine List.filter_congr fun directive _ => ?_
  by_cases same : directive.name = addition.name <;> simp [same]

theorem moved_concat (additions : List Addition) (addition : Addition)
    (directives : List Directive) : moved (additions ++ [addition]) directives =
      (moved additions directives).filter (·.name != addition.name) ++
        [settled addition.name (named? addition.name directives)
          (given addition.name additions ++ [addition.arguments])] := by
  rw [moved, moved, added_concat, dedup_concat, List.map_append, List.filter_map]
  congr 1
  · have named : ∀ name, (settled name (named? name directives) (given name additions)).name =
        name := fun name => name_settled _ _ (name_named? name directives)
    simp only [Function.comp_def, named]
    refine List.map_congr_left fun name member => ?_
    have apart : addition.name ≠ name := by
      rintro rfl
      simp at member
    rw [given_concat, if_neg apart, List.append_nil]
  · simp [given_concat]

/-- The directive that is found after additions is the one they leave. -/
theorem settled_named? (additions : List Addition) (name : Name) (directives : List Directive)
    (arguments : List Argument) :
    settled name (named? name (kept additions directives ++ moved additions directives))
        [arguments] =
      settled name (named? name directives) (given name additions ++ [arguments]) := by
  have first : named? name (kept additions directives ++ moved additions directives) =
      (named? name (kept additions directives)).or (named? name (moved additions directives)) :=
    List.find?_append
  by_cases member : name ∈ added additions
  · have gone : named? name (kept additions directives) = none := by
      rw [named?_eq_none_iff, names_kept]
      simp [member]
    have found : named? name (moved additions directives) =
        some (settled name (named? name directives) (given name additions)) := by
      have named : ∀ name, (settled name (named? name directives) (given name additions)).name =
          name := fun name => name_settled _ _ (name_named? name directives)
      have there : (added additions).dedup.find? (· == name) = some name := by
        cases known : (added additions).dedup.find? (· == name) with
        | none =>
          rw [List.find?_eq_none] at known
          exact absurd (beq_self_eq_true name) (known name (List.mem_dedup.mpr member))
        | some other =>
          obtain rfl : other = name := by simpa using List.find?_some known
          rfl
      rw [named?, moved, List.find?_map]
      simp only [Function.comp_def, named, there, Option.map_some]
    rw [first, gone, Option.none_or, found,
      settled_concat _ (fun none => given_eq_nil_iff.mp none member)]
    rfl
  · have stays : named? name (kept additions directives) = named? name directives := by
      rw [named?, named?, kept, List.find?_filter]
      congr 1
      funext directive
      by_cases same : directive.name = name <;> simp [same, member]
    have absent : named? name (moved additions directives) = none := by
      rw [named?_eq_none_iff, names_moved, List.mem_dedup]
      exact member
    rw [first, stays, absent, Option.or_none, given_eq_nil_iff.mpr member, List.nil_append]

/-- Where no name is repeated, the directives that are never added come first, as they are, and then
those that are added. -/
theorem addAll_eq (distinct : (names directives).Nodup) (additions : List Addition) :
    addAll additions directives = kept additions directives ++ moved additions directives := by
  induction additions using List.reverseRecOn with
  | nil => simp [addAll, kept, moved, added]
  | append_singleton front last ih =>
    rw [addAll_concat, ih, add_of_nodup (nodup_kept_moved distinct front), List.filter_append,
      settled_named?, kept_concat, moved_concat, List.append_assoc]

end Runs

end Directive

namespace Directed

open Directive (Addition)

variable {Node : Type} [Directed Node]

/-- The node after directives are added, in order. -/
def addDirectives (additions : List Addition) (node : Node) : Node :=
  additions.foldl (fun former addition => addDirective addition.name addition.arguments former) node

theorem addDirectives_eq_withDirectives (additions : List Addition) (node : Node) :
    addDirectives additions node =
      withDirectives node (Directive.addAll additions (directives node)) := by
  induction additions generalizing node with
  | nil => exact (withDirectives_directives node).symm
  | cons addition rest ih =>
    have next : addDirectives (addition :: rest) node =
        addDirectives rest (addDirective addition.name addition.arguments node) := rfl
    rw [next, ih, addDirective, withDirectives_withDirectives, directives_withDirectives]
    rfl

theorem directives_addDirectives (additions : List Addition) (node : Node) :
    directives (addDirectives additions node) =
      Directive.addAll additions (directives node) := by
  rw [addDirectives_eq_withDirectives, directives_withDirectives]

theorem directives_addDirective (name : Name) (arguments : List Argument) (node : Node) :
    directives (addDirective name arguments node) =
      Directive.add name arguments (directives node) :=
  directives_withDirectives _ _

/-- What adding directives does to a node: one after the other where no name is repeated, and once
where names may be. -/
theorem addDirectives_laws (node : Node) :
    ((Directive.names (directives node)).Nodup → ∀ additions,
      (Directive.names (directives (addDirectives additions node))).Nodup ∧
      directives (addDirectives additions node) =
        Directive.kept additions (directives node) ++ Directive.moved additions (directives node)) ∧
    (∀ additions, withDirectives (addDirectives additions node) (directives node) = node) ∧
    (∀ front existing back arguments, directives node = front ++ existing :: back →
      existing.name ∉ Directive.names front →
        directives (addDirective existing.name arguments node) = front ++ back ++
          [{ existing with arguments := Argument.merge existing.arguments arguments }]) ∧
    ∀ name arguments, name ∉ Directive.names (directives node) →
      directives (addDirective name arguments node) =
        directives node ++ [({ name, arguments } : Directive)] := by
  refine ⟨fun distinct additions => ?_, fun additions => ?_, ?_, ?_⟩
  · rw [directives_addDirectives, Directive.addAll_eq distinct]
    exact ⟨Directive.nodup_kept_moved distinct additions, rfl⟩
  · rw [addDirectives_eq_withDirectives, withDirectives_withDirectives, withDirectives_directives]
  · intro front existing back arguments made first
    rw [directives_addDirective, made, Directive.add_of_first first]
  · intro name arguments absent
    rw [directives_addDirective, Directive.add_of_absent absent]

/-- A directive that is there and one that is not, both added twice. -/
theorem addDirectives_laws_fragment :
    let node : Fragment := {
      name := "F".toList
      onType := "User".toList
      directives := [
        { name := "relay".toList, arguments := [Argument.ofBoolean "mask".toList false] },
        { name := "inline".toList }]
      selections := [] }
    let additions : List Addition := [
      { name := "relay".toList, arguments := [Argument.ofBoolean "plural".toList true] },
      { name := "refetchable".toList,
        arguments := [Argument.ofString "queryName".toList "A".toList] },
      { name := "refetchable".toList,
        arguments := [Argument.ofString "queryName".toList "B".toList] },
      { name := "relay".toList, arguments := [Argument.ofBoolean "mask".toList true] }]
    (Directive.names (directives node)).Nodup ∧
      Directive.names (directives (addDirectives additions node)) =
        ["inline".toList, "refetchable".toList, "relay".toList] ∧
      (directives (addDirectives additions node)).map (Argument.names ·.arguments) =
        [[], ["queryName".toList], ["mask".toList, "plural".toList]] := by
  intro node additions
  have distinct : (Directive.names (directives node)).Nodup := by decide
  obtain ⟨-, made⟩ := (addDirectives_laws node).1 distinct additions
  rw [made]
  exact ⟨distinct, by decide, by decide⟩

end Directed

end RelayWorkbench.GraphQL
