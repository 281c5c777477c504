import RelayWorkbench.GraphQL.Document.Parser
import RelayWorkbench.Proofs.StatefulRun

/-! Steps of reading pass over lexemes. None puts one back, none makes clean what was not, and as
long as all is clean the place counts the lexemes that were passed over. -/

namespace RelayWorkbench.GraphQL

/-- The later cursor comes from the former by passing over lexemes. -/
structure Cursor.Passes (former cursor : Cursor) : Prop where
  ahead : cursor.rest <:+ former.rest
  clean : cursor.clean → former.clean
  counted : cursor.clean → cursor.index + cursor.rest.length = former.index + former.rest.length

namespace Cursor.Passes

theorem refl (cursor : Cursor) : Passes cursor cursor := ⟨List.suffix_rfl, id, fun _ => rfl⟩

theorem trans {first second third : Cursor} (early : Passes first second)
    (late : Passes second third) : Passes first third where
  ahead := late.ahead.trans early.ahead
  clean clean := early.clean (late.clean clean)
  counted clean := (late.counted clean).trans (early.counted (late.clean clean))

theorem index_le {former cursor : Cursor} (passes : Passes former cursor) (clean : cursor.clean) :
    former.index ≤ cursor.index := by
  have shorter := passes.ahead.length_le
  have counted := passes.counted clean
  omega

end Cursor.Passes

namespace Reading

open Cursor (Passes)

-- The instances of long steps are found bind by bind.
set_option synthInstance.maxSize 1000

variable {α β : Type}

/-- A step that does nothing but pass over lexemes and complain. -/
class Passing (step : Reading α) : Prop where
  passes : ∀ cursor, Passes cursor (step.run cursor).2

instance (value : α) : Passing (pure value) := ⟨Passes.refl⟩

instance Passing.bind (first : Reading α) (next : α → Reading β) [Passing first]
    [∀ value, Passing (next value)] : Passing (first >>= next) :=
  ⟨fun cursor => (Passing.passes cursor).trans (Passing.passes _)⟩

theorem Passing.after {first : Reading α} {next : α → Reading β} [inst : Passing first]
    (goes : ∀ value, Passing (next value)) : Passing (first >>= next) := inferInstance

instance {condition : Prop} [Decidable condition] (first second : Reading α) [Passing first]
    [Passing second] : Passing (if condition then first else second) := by
  split <;> infer_instance

instance : Passing peek := ⟨Passes.refl⟩

instance : Passing second := ⟨Passes.refl⟩

instance : Passing place := ⟨Passes.refl⟩

instance : Passing fault := ⟨fun _ => ⟨List.suffix_rfl, nofun, nofun⟩⟩

instance : Passing giveUp := ⟨fun _ => ⟨List.nil_suffix, nofun, nofun⟩⟩

theorem run_advance_cons (lexeme : Lexeme) (rest : List Lexeme) (index : Nat) (clean : Bool) :
    advance.run ⟨lexeme :: rest, index, clean⟩ = ((), ⟨rest, index + 1, clean⟩) := rfl

instance : Passing advance where
  passes
    | ⟨[], index, clean⟩ => Passes.refl _
    | ⟨lexeme :: rest, index, clean⟩ => by
      rw [run_advance_cons]
      exact ⟨List.suffix_cons lexeme rest, id, fun _ => by simp only [List.length_cons]; omega⟩

instance (start : Nat) : Passing (since start) := by unfold since; infer_instance

instance (char : Char) : Passing (atMark char) := by unfold atMark; infer_instance

instance (word : Text) : Passing (atWord word) := by unfold atWord; infer_instance

instance : Passing atName := by unfold atName; infer_instance

instance (char : Char) : Passing (acceptMark char) := by unfold acceptMark; infer_instance

instance (word : Text) : Passing (acceptWord word) := by unfold acceptWord; infer_instance

instance (char : Char) : Passing (expectMark char) := by simp only [expectMark]; infer_instance

instance : Passing name? := by
  unfold name?
  refine Passing.after fun next => ?_
  split <;> infer_instance

instance : Passing ident? := by unfold ident?; infer_instance

instance many_passing (announces : Lexeme → Bool) (item : Reading (Option α)) [Passing item]
    (fuel : Nat) : Passing (many announces item fuel) := by
  induction fuel with
  | zero => unfold many; infer_instance
  | succ fuel ih => unfold many; infer_instance

instance (announces : Lexeme → Bool) (item : Reading (Option α)) [Passing item] :
    Passing (manyOf announces item) :=
  ⟨fun cursor => (many_passing announces item (cursor.rest.length + 1)).passes cursor⟩

instance (announces : Lexeme → Bool) (item : Reading (Option α)) [Passing item] :
    Passing (someOf announces item) := by
  simp only [someOf]; infer_instance

instance (separator : Char) : Passing (separatedNames separator) := by
  simp only [separatedNames]; infer_instance

section Values

instance : Passing (tooDeep : Reading (Option α)) := by unfold tooDeep; infer_instance

instance (item : Reading (Option TypeRef)) [Passing item] : Passing (typeWith item) := by
  simp only [typeWith]
  refine Passing.after fun next => ?_
  split <;> infer_instance

instance typeRef_passing (budget : Nat) : Passing (typeRef budget) := by
  induction budget with
  | zero => unfold typeRef; infer_instance
  | succ budget ih => unfold typeRef; infer_instance

instance (constant inside : Bool) (part : Reading (Option Value)) [Passing part] :
    Passing (valueWith constant inside part) := by
  simp only [valueWith]
  refine Passing.after fun start => Passing.after fun next => ?_
  split <;> infer_instance

instance nestedValue_passing (constant : Bool) (budget : Nat) :
    Passing (nestedValue constant budget) := by
  induction budget with
  | zero => unfold nestedValue; infer_instance
  | succ budget ih => unfold nestedValue; infer_instance

instance (constant : Bool) (budget : Nat) : Passing (value constant budget) := by
  unfold value; infer_instance

instance (constant : Bool) (budget : Nat) : Passing (argument constant budget) := by
  simp only [argument]; infer_instance

instance (constant : Bool) (budget : Nat) : Passing (arguments constant budget) := by
  unfold arguments; infer_instance

instance (constant : Bool) (budget : Nat) : Passing (directive constant budget) := by
  simp only [directive]; infer_instance

instance (constant : Bool) (budget : Nat) : Passing (directives constant budget) := by
  unfold directives; infer_instance

instance : Passing defaultValue := by simp only [defaultValue]; infer_instance

end Values

section Executable

instance (budget : Nat) (set : Reading (List Selection)) [Passing set] :
    Passing (field budget set) := by
  simp only [field]; infer_instance

instance : Passing typeCondition := by simp only [typeCondition]; infer_instance

instance (budget : Nat) (set : Reading (List Selection)) [Passing set] :
    Passing (spreading budget set) := by
  simp only [spreading]
  refine Passing.after fun start => Passing.after fun _ => Passing.after fun next => ?_
  split <;> infer_instance

instance selectionSet_passing (budget : Nat) : Passing (selectionSet budget) := by
  induction budget with
  | zero => simp only [selectionSet]; infer_instance
  | succ budget ih => simp only [selectionSet]; infer_instance

instance : Passing body := by simp only [body]; infer_instance

instance : Passing variableDefinition := by simp only [variableDefinition]; infer_instance

instance : Passing variableDefinitions := by unfold variableDefinitions; infer_instance

instance (kind : OperationKind) : Passing (operation kind) := by
  simp only [operation]
  infer_instance

instance : Passing shorthand := by unfold shorthand; infer_instance

instance : Passing fragment := by simp only [fragment]; infer_instance

end Executable

section TypeSystem

instance : Passing description := by
  unfold description
  refine Passing.after fun next => ?_
  split <;> infer_instance

instance : Passing constantDirectives := by unfold constantDirectives; infer_instance

instance (member : Reading (Option α)) [Passing member] : Passing (members member) := by
  unfold members; infer_instance

instance : Passing inputValue := by simp only [inputValue]; infer_instance

instance : Passing argumentDefinitions := by unfold argumentDefinitions; infer_instance

instance : Passing fieldDefinition := by simp only [fieldDefinition]; infer_instance

instance : Passing enumValue := by simp only [enumValue]; infer_instance

instance : Passing interfaces := by unfold interfaces; infer_instance

instance (member : Reading (Option α)) [Passing member] : Passing (optionalMembers member) := by
  unfold optionalMembers; infer_instance

instance : Passing unionMembers := by unfold unionMembers; infer_instance

instance (keyword : TypeKeyword) : Passing (typeDefinition keyword) := by
  unfold typeDefinition
  cases keyword <;> infer_instance

instance : Passing rootType := by
  simp only [rootType]
  refine Passing.after fun next => ?_
  split <;> infer_instance

instance : Passing rootTypes := by unfold rootTypes; infer_instance

instance : Passing directiveLocation := by
  unfold directiveLocation
  refine Passing.after fun next => ?_
  split <;> infer_instance

instance (description : Option Text) : Passing (directiveDefinition description) := by
  simp only [directiveDefinition]; infer_instance

instance (description : Option Text) : Passing (schemaDefinition description) := by
  unfold schemaDefinition; infer_instance

instance : Passing schemaExtension := by simp only [schemaExtension]; infer_instance

instance (keyword : TypeKeyword) : Passing (typeExtension keyword) := by
  simp only [typeExtension]; infer_instance

instance : Passing extension := by
  unfold extension
  refine Passing.after fun next => ?_
  split
  · split
    · infer_instance
    · split <;> infer_instance
  · infer_instance

end TypeSystem

instance : Passing unexpected := by unfold unexpected; infer_instance

instance (described : Bool) (word : Name) : Passing (definitionOf described word) := by
  unfold definitionOf
  split
  · infer_instance
  · cases TypeKeyword.ofWord? word <;> infer_instance

instance : Passing definition := by
  unfold definition
  refine Passing.after fun next => ?_
  split
  · infer_instance
  · refine Passing.after fun word => ?_
    split <;> infer_instance
  · infer_instance
  · infer_instance

instance : Passing document := by simp only [document]; infer_instance

end Reading

end RelayWorkbench.GraphQL
