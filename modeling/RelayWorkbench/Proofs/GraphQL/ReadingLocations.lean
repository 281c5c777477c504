import RelayWorkbench.Proofs.GraphQL.Leaves
import RelayWorkbench.Proofs.GraphQL.Reads

/-! What is read without complaint says of each directive that it defines where the directive may
stand. -/

namespace RelayWorkbench.GraphQL.Reading

-- The instances of long steps are found bind by bind.
set_option synthInstance.maxSize 1000

variable {α β : Type}

/-- What a step reads without complaint. -/
private abbrev Settles (step : Reading α) (good : α → Prop) : Prop :=
  Reads (fun _ => True) step fun read _ => good read

/-- A definition is located, if one is read. -/
private abbrev Located (read : Option Definition) : Prop := ∀ stated ∈ read, stated.isLocated

namespace Settles

theorem bind {first : Reading α} {next : α → Reading β} {good : α → Prop} {better : β → Prop}
    [∀ value, Passing (next value)] (settles : Settles first good)
    (goes : ∀ value, good value → Settles (next value) better) :
    Settles (first >>= next) better := by
  refine Reads.bind settles fun value cursor holds clean => ?_
  exact goes value holds cursor trivial clean

theorem skip {first : Reading α} {next : α → Reading β} {good : β → Prop}
    [∀ value, Passing (next value)] (goes : ∀ value, Settles (next value) good) :
    Settles (first >>= next) good := by
  have nothing : Settles first fun _ => True := fun _ _ _ => trivial
  exact nothing.bind fun value _ => goes value

theorem peek {next : Option Lexeme → Reading β} {good : β → Prop}
    (goes : ∀ lexeme, Settles (next lexeme) good) : Settles (Reading.peek >>= next) good :=
  fun cursor starts clean => goes _ cursor starts clean

theorem pure {value : α} {good : α → Prop} (holds : good value) :
    Settles (Pure.pure value) good := Reads.pure fun _ _ => holds

theorem either {condition : Bool} {first second : Reading α} {next : α → Reading β}
    {good : β → Prop} [∀ value, Passing (next value)]
    (goes : ∀ value, Settles (next value) good) :
    Settles (if condition then first >>= next else second >>= next) good :=
  Reads.ite (fun _ => skip goes) fun _ => skip goes

end Settles

private theorem located_some {stated : Definition} (located : stated.isLocated) :
    Located (some stated) := by
  rintro _ ⟨⟩
  exact located

private theorem located_map {read : Option α} {define : α → Definition}
    (located : ∀ value, (define value).isLocated) : Located (read.map define) := by
  intro stated same
  obtain ⟨value, -, rfl⟩ := Option.map_eq_some_iff.mp same
  exact located value

private theorem operation_located (kind : OperationKind) : Settles (operation kind) Located := by
  simp only [operation]
  refine Settles.skip fun _ => Settles.skip fun _ => Settles.skip fun _ =>
    Settles.either fun _ => ?_
  refine Settles.skip fun _ => Settles.skip fun _ => Settles.skip fun _ => Settles.skip fun _ => ?_
  exact Settles.pure (located_some rfl)

private theorem shorthand_located : Settles shorthand Located := by
  simp only [shorthand]
  refine Settles.skip fun _ => Settles.skip fun _ => Settles.skip fun _ => ?_
  exact Settles.pure (located_some rfl)

private theorem fragment_located : Settles fragment Located := by
  simp only [fragment]
  refine Settles.skip fun _ => Settles.skip fun _ => Settles.skip fun _ =>
    Reads.ite (fun _ => Reads.fault) fun _ => ?_
  refine Settles.skip fun _ => Reads.ite (fun _ => Settles.skip fun name => ?_)
    fun _ => Reads.fault
  refine Settles.skip fun onType => Settles.skip fun _ => Settles.skip fun _ =>
    Settles.skip fun _ => Settles.pure ?_
  intro stated same
  obtain ⟨name, -, same⟩ := Option.bind_eq_some_iff.mp same
  exact located_map (fun _ => rfl) stated same

private theorem directiveLocation_some :
    Settles directiveLocation fun read => read.isSome := by
  unfold directiveLocation
  refine Settles.peek fun next => ?_
  split
  · exact Reads.ite (fun _ => Settles.skip fun _ => Settles.pure rfl) fun _ => Reads.fault
  · exact Reads.fault

private theorem directiveDefinition_located (description : Option Text) :
    Settles (directiveDefinition description) Located := by
  simp only [directiveDefinition]
  refine Settles.skip fun _ => Settles.skip fun _ => Settles.skip fun name =>
    Settles.skip fun arguments => Settles.skip fun repeatable => ?_
  refine Settles.skip fun _ => Reads.ite (fun _ => Reads.fault) fun _ => Settles.skip fun _ => ?_
  refine Settles.bind directiveLocation_some fun first present => ?_
  refine Settles.skip fun more => Settles.pure ?_
  refine located_map fun name => ?_
  obtain ⟨location, rfl⟩ := Option.isSome_iff_exists.mp present
  rfl

private theorem schemaDefinition_located (description : Option Text) :
    Settles (schemaDefinition description) Located := by
  simp only [schemaDefinition]
  refine Settles.skip fun _ => Settles.skip fun _ => Settles.skip fun _ => ?_
  exact Settles.pure (located_some rfl)

private theorem extension_located : Settles extension Located := by
  unfold extension
  refine Reads.second fun next => ?_
  split
  · refine Reads.ite (fun _ => ?_) fun _ => ?_
    · simp only [schemaExtension]
      refine Settles.skip fun _ => Settles.skip fun _ => Settles.skip fun _ => ?_
      exact Settles.skip fun _ => Settles.either fun _ => Reads.ite (fun _ => Reads.fault)
        fun _ => Settles.pure (located_some rfl)
    · split
      · simp only [typeExtension]
        refine Settles.skip fun _ => Settles.skip fun _ => Settles.skip fun _ => ?_
        exact Reads.ite (fun _ => Reads.fault) fun _ => Settles.pure (located_map fun _ => rfl)
      · exact Reads.fault
  · exact Reads.fault

private theorem definitionOf_located (described : Bool) (word : Name) :
    Settles (definitionOf described word) Located := by
  unfold definitionOf
  split
  · exact Reads.ite (fun _ => Reads.fault) fun _ => operation_located _
  · refine Reads.ite (fun _ => Reads.ite (fun _ => Reads.fault) fun _ => fragment_located)
      fun _ => Reads.ite (fun _ => Reads.ite (fun _ => Reads.fault) fun _ => extension_located)
      fun _ => Reads.ite (fun _ => Settles.skip directiveDefinition_located)
      fun _ => Reads.ite (fun _ => Settles.skip schemaDefinition_located) fun _ => ?_
    split
    · refine Settles.skip fun _ => Settles.skip fun _ => Settles.skip fun _ => ?_
      exact Settles.pure (located_map fun _ => rfl)
    · exact Reads.fault

private theorem definition_located : Settles definition Located := by
  unfold definition
  refine Settles.peek fun next => ?_
  split
  · exact definitionOf_located false _
  · refine Reads.second fun word => ?_
    split
    · exact definitionOf_located true _
    · exact Reads.fault
  · exact shorthand_located
  · exact Reads.fault

private theorem many_located (announces : Lexeme → Bool) (fuel : Nat) :
    Settles (many announces definition fuel) fun read => ∀ stated ∈ read, stated.isLocated := by
  induction fuel with
  | zero =>
    unfold many
    exact Reads.fault
  | succ fuel ih =>
    unfold many
    refine Settles.skip fun next => Reads.ite (fun _ => ?_)
      fun _ => Settles.pure (List.forall_mem_nil _)
    refine Settles.bind definition_located fun first own => ?_
    refine Settles.bind ih fun more others => Settles.pure ?_
    refine List.forall_mem_append.mpr ⟨fun stated member => ?_, others⟩
    exact own stated (Option.mem_toList.mp member)

/-- The directives that are defined where nothing is wrong may stand somewhere. -/
theorem read_isLocated {lexemes : List Lexeme} (clean : (Document.read lexemes).2) :
    ∀ stated ∈ (Document.read lexemes).1.definitions, stated.isLocated := by
  have settles : Settles document fun read => ∀ stated ∈ read.definitions, stated.isLocated := by
    unfold document
    refine Settles.peek fun _ => Reads.ite (fun _ => Reads.fault) fun _ => ?_
    refine Settles.bind (fun cursor => ?_) fun definitions located => Settles.pure located
    exact many_located (fun _ => true) (cursor.rest.length + 1) cursor
  exact settles { rest := lexemes } trivial clean

end RelayWorkbench.GraphQL.Reading
