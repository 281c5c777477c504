import RelayWorkbench.Proofs.GraphQL.Content
import RelayWorkbench.Proofs.GraphQL.Leaves
import RelayWorkbench.Proofs.GraphQL.ReadingInputs
import RelayWorkbench.Proofs.GraphQL.Takes
import RelayWorkbench.Proofs.GraphQL.Words

/-! Types that are read where they are printed. -/

namespace RelayWorkbench.GraphQL

private def bang (required : Bool) : List Lexeme := if required then [.mark '!'] else []

def TypeRef.lexemes : TypeRef → List Lexeme
  | named name required => .name name :: bang required
  | list item required => .mark '[' :: (item.lexemes ++ .mark ']' :: bang required)

/-- A type of names that is not nested too deep. -/
structure TypeRef.Legible (type : TypeRef) : Prop where
  named : ∀ leaf ∈ type.leaves, leaf.Named
  shallow : type.height ≤ Reading.nestingLimit

theorem TypeRef.Legible.item {type inner : TypeRef} (legible : type.Legible)
    (same : type.item? = some inner) : inner.Legible := by
  cases type with
  | named => cases same
  | list item required =>
    cases same
    exact ⟨legible.named, (Nat.le_succ _).trans legible.shallow⟩

namespace TypeRef

private theorem spells_bang (required : Bool) :
    Lexeme.Spells (if required then ['!'] else []) (bang required) := by
  cases required with
  | false => exact .nil
  | true => exact .mark (by decide) .nil

private theorem head?_bang (required : Bool) :
    (if required then ['!'] else []).head?.any Text.isWordChar = false := by
  cases required <;> rfl

theorem spells_print {type : TypeRef} (named : ∀ leaf ∈ type.leaves, leaf.Named) :
    Lexeme.Spells type.print type.lexemes := by
  induction type with
  | named name required =>
    have own : Lexeme.isName name := named _ (List.mem_singleton_self _)
    exact .name own (head?_bang required) (spells_bang required)
  | list item required ih =>
    have parts : (list item required).print =
        '[' :: (item.print ++ ']' :: if required then ['!'] else []) := by
      simp [print]
    rw [parts]
    exact .mark (by decide) ((ih named).append (.mark (by decide) (spells_bang required)) rfl)

theorem lexemes_optional_list (item : TypeRef) :
    (list item false).lexemes = .mark '[' :: (item.lexemes ++ [.mark ']']) := rfl

theorem lexemes_require {type : TypeRef} (optional : type.isRequired = false) :
    type.require.lexemes = type.lexemes ++ [.mark '!'] := by
  cases type with
  | named => cases optional; rfl
  | list => cases optional; simp [require, lexemes, bang]

theorem height_require (type : TypeRef) : type.require.height = type.height := by
  cases type <;> rfl

theorem mem_lexemes_of_mem_leaves {type : TypeRef} :
    ∀ leaf ∈ type.leaves, leaf ∈ type.lexemes := by
  induction type with
  | named => exact List.forall_mem_singleton.mpr List.mem_cons_self
  | list item _ ih =>
    exact fun leaf member => List.mem_cons_of_mem _ (List.mem_append_left _ (ih leaf member))

/-- The lexemes of a type are names and the marks of lists and of required types. -/
theorem name_or_mark_of_mem_lexemes {type : TypeRef} :
    ∀ lexeme ∈ type.lexemes, (∃ name, lexeme = .name name) ∨
      ∃ char ∈ ['[', ']', '!'], lexeme = .mark char := by
  have required (required : Bool) : ∀ lexeme ∈ bang required, (∃ name, lexeme = .name name) ∨
      ∃ char ∈ ['[', ']', '!'], lexeme = .mark char := by
    cases required <;> simp [bang]
  induction type with
  | named name => exact List.forall_mem_cons.mpr ⟨.inl ⟨name, rfl⟩, required _⟩
  | list item _ ih =>
    refine List.forall_mem_cons.mpr ⟨.inr ⟨_, by simp, rfl⟩, List.forall_mem_append.mpr ⟨ih, ?_⟩⟩
    exact List.forall_mem_cons.mpr ⟨.inr ⟨_, by simp, rfl⟩, required _⟩

theorem startsType_lexemes (type : TypeRef) (rest : List Lexeme) :
    (type.lexemes ++ rest).head?.any Reading.startsType := by
  cases type <;> rfl

end TypeRef

namespace Reading

private theorem takes_bang {type : TypeRef} (required : Bool) {back : List Lexeme}
    (ends : back.head? ≠ some (.mark '!')) :
    Takes (bang required ++ back) back (acceptMark '!' >>= fun accepted =>
      if accepted then return (some type).map TypeRef.require else return some type)
        (· = some (if required then type.require else type)) := by
  cases required with
  | false => exact Takes.acceptMark_of_ne ends (Takes.pure rfl)
  | true => exact Takes.acceptMark (Takes.pure rfl)

private theorem takes_typeWith {item : Reading (Option TypeRef)} {type : TypeRef}
    (takes : ∀ inner ∈ type.item?, ∀ rest, Takes (inner.lexemes ++ .mark ']' :: rest)
      (.mark ']' :: rest) item (· = some inner)) {back : List Lexeme}
    (ends : back.head? ≠ some (.mark '!')) :
    Takes (type.lexemes ++ back) back (typeWith item) (· = some type) := by
  simp only [typeWith]
  cases type with
  | named name required =>
    refine Takes.peek (Takes.advance ?_)
    refine (takes_bang required ends).imp ?_
    rintro _ rfl
    cases required <;> rfl
  | list inner required =>
    have parts : (TypeRef.list inner required).lexemes ++ back =
        .mark '[' :: (inner.lexemes ++ .mark ']' :: (bang required ++ back)) := by
      simp [TypeRef.lexemes]
    rw [parts]
    refine Takes.peek (Takes.advance ?_)
    refine (takes inner rfl _).next (Takes.expectMark ?_)
    refine (takes_bang required ends).imp ?_
    rintro _ rfl
    cases required <;> rfl

/-- A printed type is read, unless it is nested too deep. -/
theorem takes_typeRef {type : TypeRef} {budget : Nat} (low : type.height ≤ budget)
    {back : List Lexeme} (ends : back.head? ≠ some (.mark '!')) :
    Takes (type.lexemes ++ back) back (typeRef budget) (· = some type) := by
  induction budget generalizing type back with
  | zero =>
    refine takes_typeWith (fun inner member => ?_) ends
    cases type with
    | named => cases member
    | list => exact absurd low (Nat.not_succ_le_zero _)
  | succ budget ih =>
    refine takes_typeWith (fun inner member rest => ?_) ends
    cases type with
    | named => cases member
    | list item required =>
      obtain rfl : item = inner := by simpa [TypeRef.item?] using member
      exact ih (Nat.le_of_succ_le_succ low) (by simp)

end Reading

end RelayWorkbench.GraphQL
