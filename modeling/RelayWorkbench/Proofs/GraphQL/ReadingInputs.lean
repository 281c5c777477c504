import RelayWorkbench.GraphQL.Schema
import RelayWorkbench.Proofs.GraphQL.Tells

/-! The types of the arguments and the input fields that are read from a document. Their lists are
nested no deeper than what can be read again. -/

namespace RelayWorkbench.GraphQL

/-- The number of lists around the name of a type. -/
def TypeRef.height : TypeRef → Nat
  | named _ _ => 0
  | list item _ => item.height + 1

/-- An argument or an input field of which the type can be read where it is printed. -/
def InputValue.Shallow (input : InputValue) : Prop := input.type.height ≤ Reading.nestingLimit

instance : DecidablePred InputValue.Shallow := fun _ => inferInstanceAs (Decidable (_ ≤ _))

/-- The arguments of the fields and the input fields of a type. -/
def TypeBody.inputs : TypeBody → List InputValue
  | object _ fields | interface _ fields => fields.flatMap (·.arguments)
  | input fields => fields
  | scalar | union _ | enum _ => []

def Definition.inputs : Definition → List InputValue
  | .type _ stated | .typeExtension stated => stated.body.inputs
  | .directive stated => stated.arguments
  | .operation _ | .fragment _ | .schema .. | .schemaExtension _ => []

namespace Reading

variable {α : Type} {fine : Lexeme → Prop}

/-- A node that is not nested too deep in any of its inputs. -/
private abbrev Flat (inputs : α → List InputValue) (node : α) : Prop :=
  ∀ input ∈ inputs node, input.Shallow

private theorem shallow_typeWith {item : Reading (Option TypeRef)} [Passing item] {bound : Nat}
    (tells : Tells fine item (Any fun type => type.height < bound)) :
    Tells fine (typeWith item) (Any fun type => type.height ≤ bound) := by
  have required : ∀ read : Option TypeRef, Any (fun type => type.height ≤ bound) read →
      Tells fine (acceptMark '!' >>= fun accepted =>
        if accepted then return read.map TypeRef.require else return read)
          (Any fun type => type.height ≤ bound) := by
    intro read low
    refine Tells.skip fun _ => Tells.ite (Tells.pure (any_map low ?_)) (Tells.pure low)
    intro type low
    cases type <;> exact low
  simp only [typeWith]
  refine Tells.skip fun next => ?_
  split
  · next text =>
    have named : Any (fun type => type.height ≤ bound) (some (TypeRef.named text false)) :=
      any_some (Nat.zero_le bound)
    exact Tells.skip fun _ => (Tells.pure named).bind required
  · refine Tells.skip fun _ => tells.bind fun inner low => Tells.skip fun _ => ?_
    have listed : Any (fun type => type.height ≤ bound) (inner.map (TypeRef.list · false)) :=
      any_map low fun _ low => low
    exact (Tells.pure listed).bind required
  · exact Tells.skip fun _ => Tells.skip fun _ => (Tells.pure any_none).bind required

private theorem shallow_typeRef (budget : Nat) :
    Tells fine (typeRef budget) (Any fun type => type.height ≤ budget) := by
  induction budget with
  | zero => exact shallow_typeWith (Tells.skip fun _ => Tells.pure any_none)
  | succ budget ih =>
    exact shallow_typeWith (ih.imp fun _ low type here => Nat.lt_succ_of_le (low type here))

private theorem shallow_inputValue : Tells fine inputValue (Any InputValue.Shallow) := by
  simp only [inputValue]
  refine Tells.skip fun description => Tells.skip fun name =>
    tells_typed (shallow_typeRef nestingLimit) fun type low => Tells.skip fun default =>
      Tells.skip fun directives => Tells.pure ?_
  have named : Any (fun _ => True) name := fun _ _ => trivial
  exact any_both named low fun name type _ low => low

private theorem shallow_argumentDefinitions :
    Tells fine argumentDefinitions (All InputValue.Shallow) := by
  unfold argumentDefinitions
  refine Tells.skip fun _ => Tells.ite ?_ (Tells.pure all_nil)
  exact (tells_someOf shallow_inputValue).bind fun read low => Tells.skip fun _ => Tells.pure low

private theorem shallow_fieldDefinition :
    Tells fine fieldDefinition (Any (Flat FieldDefinition.arguments)) := by
  simp only [fieldDefinition]
  refine Tells.skip fun description => Tells.skip fun name =>
    shallow_argumentDefinitions.bind fun arguments low =>
      tells_typed (shallow_typeRef nestingLimit) fun type _ => Tells.skip fun directives =>
        Tells.pure ?_
  have named : Any (fun _ => True) name := fun _ _ => trivial
  have typed : Any (fun _ => True) type := fun _ _ => trivial
  exact any_both named typed fun name type _ _ => low

private theorem shallow_typeDefinition (keyword : TypeKeyword) :
    Tells fine (typeDefinition keyword) (Any (Flat (·.body.inputs))) := by
  have ends : ∀ {name : Option Name} {directives} {body : TypeBody}, Flat TypeBody.inputs body →
      Tells fine (pure body >>= fun body =>
        pure (name.map fun name => { name, directives, body : TypeDefinition }))
          (Any (Flat (·.body.inputs))) := by
    intro name directives body low
    refine Tells.bind (Tells.pure low) fun body low => Tells.pure ?_
    have named : Any (fun _ => True) name := fun _ _ => trivial
    exact any_map named fun name _ => low
  unfold typeDefinition
  cases keyword with
  | scalar | union | enum =>
    refine Tells.skip fun name => Tells.skip fun _ => Tells.skip fun directives => ?_
    first
      | exact ends (List.forall_mem_nil _)
      | exact Tells.skip fun members => ends (List.forall_mem_nil _)
  | object | interface =>
    exact Tells.skip fun name => Tells.skip fun interfaces => Tells.skip fun directives =>
      (tells_optionalMembers shallow_fieldDefinition).bind fun fields low =>
        ends (List.forall_mem_flatMap.mpr low)
  | input =>
    exact Tells.skip fun name => Tells.skip fun _ => Tells.skip fun directives =>
      (tells_optionalMembers shallow_inputValue).bind fun fields low => ends low

private theorem shallow_directiveDefinition (description : Option Text) :
    Tells fine (directiveDefinition description) (Any (Flat Definition.inputs)) := by
  simp only [directiveDefinition]
  refine Tells.skip fun _ => Tells.skip fun _ => Tells.skip fun name =>
    shallow_argumentDefinitions.bind fun arguments low => Tells.skip fun repeatable =>
      Tells.skip fun _ => Tells.complain (Tells.skip fun _ => Tells.skip fun first =>
        Tells.skip fun more => Tells.pure ?_)
  have named : Any (fun _ => True) name := fun _ _ => trivial
  exact any_map named fun name _ => low

private theorem any_other {stated : Definition} (none : stated.inputs = []) :
    Any (Flat Definition.inputs) (some stated) :=
  any_some (by rw [Flat, none]; exact List.forall_mem_nil _)

private theorem shallow_operation (kind : OperationKind) :
    Tells fine (operation kind) (Any (Flat Definition.inputs)) := by
  simp only [operation]
  exact Tells.skip fun start => Tells.skip fun _ => Tells.skip fun named => Tells.either fun name =>
    Tells.skip fun _ => Tells.skip fun _ => Tells.skip fun _ => Tells.skip fun span =>
      Tells.pure (any_other rfl)

private theorem shallow_shorthand : Tells fine shorthand (Any (Flat Definition.inputs)) := by
  simp only [shorthand]
  exact Tells.skip fun start => Tells.skip fun _ => Tells.skip fun span =>
    Tells.pure (any_other rfl)

private theorem shallow_fragment : Tells fine fragment (Any (Flat Definition.inputs)) := by
  have rest : ∀ (start : Nat) (name : Option Name), Tells fine (do
      let onType ← typeCondition
      let directives ← directives false nestingLimit
      let selections ← body
      let span ← since start
      return name.bind fun name => onType.map fun onType =>
        Definition.fragment { span, name, onType, directives, selections })
      (Any (Flat Definition.inputs)) := by
    intro start name
    refine Tells.skip fun onType => Tells.skip fun _ => Tells.skip fun _ => Tells.skip fun span =>
      Tells.pure ?_
    have named : Any (fun _ => True) name := fun _ _ => trivial
    have typed : Any (fun _ => True) onType := fun _ _ => trivial
    exact any_both named typed fun _ _ _ _ => List.forall_mem_nil _
  simp only [fragment]
  refine Tells.skip fun start => Tells.skip fun _ => Tells.skip fun _ => Tells.ite
    (Tells.skip fun _ => Tells.skip (rest start)) (Tells.skip fun _ => Tells.ite
      (Tells.skip (rest start)) (Tells.skip fun _ => Tells.skip fun _ => Tells.skip (rest start)))

private theorem shallow_schemaDefinition (description : Option Text) :
    Tells fine (schemaDefinition description) (Any (Flat Definition.inputs)) := by
  simp only [schemaDefinition]
  exact Tells.skip fun _ => Tells.skip fun _ => Tells.skip fun _ => Tells.pure (any_other rfl)

private theorem shallow_schemaExtension :
    Tells fine schemaExtension (Any (Flat Definition.inputs)) := by
  simp only [schemaExtension]
  exact Tells.skip fun _ => Tells.skip fun _ => Tells.skip fun _ => Tells.skip fun _ =>
    Tells.either fun _ => Tells.complain (Tells.pure (any_other rfl))

private theorem shallow_typeExtension (keyword : TypeKeyword) :
    Tells fine (typeExtension keyword) (Any (Flat Definition.inputs)) := by
  simp only [typeExtension]
  exact Tells.skip fun _ => Tells.skip fun _ => (shallow_typeDefinition keyword).bind
    fun extension low => Tells.complain (Tells.pure (any_map low fun _ low => low))

private theorem shallow_extension : Tells fine extension (Any (Flat Definition.inputs)) := by
  unfold extension
  refine Tells.skip fun next => ?_
  split
  · refine Tells.ite shallow_schemaExtension ?_
    split
    · exact shallow_typeExtension _
    · exact tells_unexpected
  · exact tells_unexpected

private theorem shallow_definitionOf (described : Bool) (word : Name) :
    Tells fine (definitionOf described word) (Any (Flat Definition.inputs)) := by
  unfold definitionOf
  split
  · exact Tells.ite tells_unexpected (shallow_operation _)
  · refine Tells.ite (Tells.ite tells_unexpected shallow_fragment)
      (Tells.ite (Tells.ite tells_unexpected shallow_extension)
      (Tells.ite (Tells.skip shallow_directiveDefinition)
      (Tells.ite (Tells.skip shallow_schemaDefinition) ?_)))
    split
    · exact Tells.skip fun description => Tells.skip fun _ => (shallow_typeDefinition _).bind
        fun stated low => Tells.pure (any_map low fun _ low => low)
    · exact tells_unexpected

private theorem shallow_definition : Tells fine definition (Any (Flat Definition.inputs)) := by
  unfold definition
  refine Tells.skip fun next => ?_
  split
  · exact shallow_definitionOf false _
  · refine Tells.skip fun word => ?_
    split
    · exact shallow_definitionOf true _
    · exact tells_unexpected
  · exact shallow_shorthand
  · exact tells_unexpected

/-- Inputs that are read from lexemes are not nested too deep. -/
theorem read_inputs (lexemes : List Lexeme) :
    ∀ stated ∈ (Document.read lexemes).1.definitions, ∀ input ∈ stated.inputs, input.Shallow := by
  have tells : Tells (fun _ => True) document fun read =>
      All (Flat Definition.inputs) read.definitions := by
    unfold document
    exact Tells.skip fun _ => Tells.complain ((tells_manyOf shallow_definition).bind
      fun definitions low => Tells.pure low)
  exact tells { rest := lexemes } fun _ _ => trivial

end Reading

end RelayWorkbench.GraphQL
