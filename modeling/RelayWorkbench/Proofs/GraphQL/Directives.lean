import RelayWorkbench.GraphQL.Directed
import RelayWorkbench.Proofs.GraphQL.Leaves

/-! Directives after one is added. -/

namespace RelayWorkbench.GraphQL

namespace Argument

theorem anyNamed_put (argument : Argument) (existing : List Argument) :
    anyNamed argument.name (put argument existing) := by
  induction existing with
  | nil => simp [put, anyNamed]
  | cons current rest ih =>
    simp only [put]
    split
    · simp [anyNamed]
    · simp only [anyNamed, List.any_cons, Bool.or_eq_true] at ih ⊢
      exact .inr ih

theorem forall_mem_put {holds : Argument → Prop} {argument : Argument} {existing : List Argument}
    (own : holds argument) (others : ∀ other ∈ existing, holds other) :
    ∀ made ∈ put argument existing, holds made := by
  induction existing with
  | nil => exact List.forall_mem_singleton.mpr own
  | cons current rest ih =>
    obtain ⟨here, there⟩ := List.forall_mem_cons.mp others
    rw [put]
    split
    · exact List.forall_mem_cons.mpr ⟨own, there⟩
    · exact List.forall_mem_cons.mpr ⟨here, ih there⟩

theorem forall_mem_merge {holds : Argument → Prop} {existing added : List Argument}
    (formers : ∀ other ∈ existing, holds other) (news : ∀ argument ∈ added, holds argument) :
    ∀ made ∈ merge existing added, holds made := by
  induction added generalizing existing with
  | nil => exact formers
  | cons argument rest ih =>
    obtain ⟨own, others⟩ := List.forall_mem_cons.mp news
    exact ih (forall_mem_put own formers) others

theorem anyNamed_merge (argument : Argument) (existing : List Argument) :
    anyNamed argument.name (merge existing [argument]) := anyNamed_put argument existing

end Argument

theorem Directive.forall_leaves_add {good : Lexeme → Prop} {name : Name}
    {arguments : List Argument} {directives : List Directive} (named : good (.name name))
    (given : ∀ argument ∈ arguments, ∀ leaf ∈ argument.leaves, good leaf)
    (formers : ∀ directive ∈ directives, ∀ leaf ∈ directive.leaves, good leaf) :
    ∀ made ∈ add name arguments directives, ∀ leaf ∈ made.leaves, good leaf := by
  unfold add
  split
  · next existing found =>
    obtain ⟨own, existed⟩ := forall_leaves.mp (formers existing (List.mem_of_find?_eq_some found))
    let updated := { existing with arguments := Argument.merge existing.arguments arguments }
    have merged : ∀ leaf ∈ updated.leaves, good leaf :=
      forall_leaves.mpr ⟨own, Argument.forall_mem_merge existed given⟩
    exact List.forall_mem_append.mpr ⟨fun other member => formers other
      (List.mem_of_mem_eraseP member), List.forall_mem_singleton.mpr merged⟩
  · exact List.forall_mem_append.mpr
      ⟨formers, List.forall_mem_singleton.mpr (forall_leaves.mpr ⟨named, given⟩)⟩

namespace Directed

variable {Node : Type} [Directed Node]

/-- A node has the directive that was added to it, with the arguments it was given. -/
theorem hasDirectiveWith_addDirective (name : Name) {arguments : List Argument}
    {condition : List Argument → Bool} (alone : condition arguments)
    (merged : ∀ existing, condition (Argument.merge existing arguments)) (node : Node) :
    hasDirectiveWith name condition (addDirective name arguments node) := by
  simp only [hasDirectiveWith, addDirective, directives_withDirectives, Directive.add]
  split
  · next existing found =>
    have named : existing.name = name := by simpa using List.find?_some found
    simp [named, merged]
  · simp [alone]

theorem hasDirective_addDirective (name : Name) (arguments : List Argument) (node : Node) :
    hasDirective name (addDirective name arguments node) :=
  hasDirectiveWith_addDirective name rfl (fun _ => rfl) node

end Directed

end RelayWorkbench.GraphQL
