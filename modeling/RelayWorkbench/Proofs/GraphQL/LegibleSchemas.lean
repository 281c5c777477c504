import RelayWorkbench.Proofs.GraphQL.PrintedTypes
import RelayWorkbench.Proofs.GraphQL.Reprinting
import RelayWorkbench.Proofs.GraphQL.SchemaWords
import RelayWorkbench.Relay.ClientSchema

/-! Schemas of which the names are names and the types of all inputs can be read where they are
printed. Every schema that is built from what can be read of texts is one. -/

namespace RelayWorkbench.GraphQL

namespace Schema

/-- A schema of names of GraphQL, with no input nested too deep. -/
structure Legible (schema : Schema) : Prop where
  types : ∀ type ∈ schema.types, ∀ leaf ∈ type.definition.leaves, leaf.Named
  directives : ∀ directive ∈ schema.directives, ∀ leaf ∈ directive.leaves, leaf.Named
  inputs : ∀ type ∈ schema.types, ∀ input ∈ type.definition.body.inputs, input.Shallow
  arguments : ∀ directive ∈ schema.directives, ∀ input ∈ directive.arguments, input.Shallow

section Merging

variable {holds : InputValue → Prop}

private theorem forall_inputs_addNew {present added : List FieldDefinition}
    (old : ∀ input ∈ present.flatMap (·.arguments), holds input)
    (new : ∀ input ∈ added.flatMap (·.arguments), holds input) :
    ∀ input ∈ (addNew (·.name) present added).flatMap (·.arguments), holds input :=
  List.forall_mem_flatMap.mpr
    (forall_mem_addNew (List.forall_mem_flatMap.mp old) (List.forall_mem_flatMap.mp new))

private theorem forall_inputs_body? {first second merged : TypeBody}
    (own : ∀ input ∈ first.inputs, holds input) (more : ∀ input ∈ second.inputs, holds input)
    (merges : Merge.body? first second = some merged) : ∀ input ∈ merged.inputs, holds input := by
  unfold Merge.body? at merges
  split at merges <;> cases merges
  case h_1 => exact own
  case h_2 | h_3 => exact forall_inputs_addNew own more
  case h_4 | h_5 => exact List.forall_mem_nil _
  case h_6 => exact forall_mem_addNew own more

private theorem forall_inputs_distinct {body : TypeBody}
    (own : ∀ input ∈ body.inputs, holds input) :
    ∀ input ∈ (Merge.distinct body).inputs, holds input := by
  cases body with
  | scalar | union | enum => exact own
  | object | interface => exact forall_inputs_addNew (List.forall_mem_nil _) own
  | input => exact forall_mem_addNew (List.forall_mem_nil _) own

theorem merges_inputs : Merges fun definition => ∀ input ∈ definition.body.inputs, holds input where
  distinct own := forall_inputs_distinct own
  extend own more := by
    unfold Merge.extend
    split
    · next body merges => exact forall_inputs_body? own more merges
    · exact own

end Merging

/-- A schema of legible documents is legible. -/
theorem legible_ofDocuments {documents : List Document}
    (named : ∀ document ∈ documents, ∀ leaf ∈ document.leaves, leaf.Named)
    (shallow : ∀ document ∈ documents, ∀ stated ∈ document.definitions,
      ∀ input ∈ stated.inputs, input.Shallow) : (ofDocuments documents).Legible := by
  have words : Draft.Of (fun definition => ∀ leaf ∈ definition.leaves, leaf.Named)
      (fun definition => ∀ leaf ∈ definition.leaves, leaf.Named) {} :=
    ⟨by decide +kernel, by decide +kernel, List.forall_mem_nil _⟩
  have inputs : Draft.Of (fun definition => ∀ input ∈ definition.body.inputs, input.Shallow)
      (fun definition => ∀ input ∈ definition.arguments, input.Shallow) {} :=
    ⟨by decide +kernel, by decide +kernel, List.forall_mem_nil _⟩
  obtain ⟨types, directives⟩ := leaves_ofDocuments words named
  obtain ⟨typeInputs, arguments⟩ := of_ofDocuments merges_inputs inputs
    fun document member stated among => by
      have low := shallow document member stated among
      cases stated with
      | type | typeExtension | directive => exact low
      | operation | fragment | schema | schemaExtension => trivial
  exact ⟨types, directives, typeInputs, arguments⟩

end Schema

namespace Document

private theorem inputs_respan (move : Respan) (body : TypeBody) :
    (body.respan move).inputs = body.inputs.map (·.respan move) := by
  cases body with
  | scalar | union | enum | input => rfl
  | object interfaces fields | interface interfaces fields =>
    simp [TypeBody.respan, TypeBody.inputs, FieldDefinition.respan, List.map_flatMap,
      List.flatMap_map]

/-- Inputs that are read of a text are not nested too deep. -/
theorem shallow_recover (text : Text) :
    ∀ stated ∈ (recover text).definitions, ∀ input ∈ stated.inputs, input.Shallow := by
  rw [recover_eq]
  refine List.forall_mem_map.mpr fun stated member => ?_
  have low := Reading.read_inputs _ stated member
  cases stated with
  | type | typeExtension =>
    simp only [Definition.respan, Definition.inputs, TypeDefinition.respan, inputs_respan]
    exact List.forall_mem_map.mpr low
  | directive => exact List.forall_mem_map.mpr low
  | operation | fragment | schema | schemaExtension => exact List.forall_mem_nil _

end Document

theorem InputValue.legible_type {input : InputValue} (named : ∀ leaf ∈ input.leaves, leaf.Named)
    (low : input.Shallow) : input.type.Legible :=
  ⟨(InputValue.forall_leaves.mp named).2.2.1, low⟩

theorem TypeBody.mem_inputs {body : TypeBody} {field : FieldDefinition}
    (member : field ∈ body.fields) {argument : InputValue} (among : argument ∈ field.arguments) :
    argument ∈ body.inputs := by
  cases body with
  | object | interface => exact List.mem_flatMap_of_mem member among
  | scalar | union | enum | input => cases member

namespace Schema.Legible

variable {schema : Schema} (legible : schema.Legible)
include legible

theorem of_type? {name : Name} {type : TypeDefinition} (found : schema.type? name = some type) :
    (∀ leaf ∈ type.leaves, leaf.Named) ∧ ∀ input ∈ type.body.inputs, input.Shallow := by
  obtain ⟨stated, first, rfl⟩ := Option.map_eq_some_iff.mp found
  have member := List.mem_of_find?_eq_some first
  exact ⟨legible.types stated member, legible.inputs stated member⟩

theorem of_mem_fields {name : Name} {type : TypeDefinition}
    (found : schema.type? name = some type) {field : FieldDefinition}
    (member : field ∈ type.body.fields) :
    Lexeme.isName field.name ∧ ∀ argument ∈ field.arguments,
      Lexeme.isName argument.name ∧ argument.type.Legible := by
  obtain ⟨named, low⟩ := legible.of_type? found
  have below := (TypeDefinition.forall_leaves.mp named).2.2
  have own := leaves_of_mem_fields below member
  obtain ⟨-, called, arguments, -⟩ := FieldDefinition.forall_leaves.mp own
  refine ⟨called, fun argument among => ?_⟩
  have inside := arguments argument among
  exact ⟨(InputValue.forall_leaves.mp inside).2.1,
    InputValue.legible_type inside (low argument (TypeBody.mem_inputs member among))⟩

theorem of_inputField? {typeName fieldName : Name} {input : InputValue}
    (found : schema.inputField? typeName fieldName = some input) : input.type.Legible := by
  obtain ⟨type, known, first⟩ := Option.bind_eq_some_iff.mp found
  obtain ⟨named, low⟩ := legible.of_type? known
  have below := (TypeDefinition.forall_leaves.mp named).2.2
  obtain ⟨name, directives, body⟩ := type
  cases body with
  | input fields =>
    have member := List.mem_of_find?_eq_some first
    exact InputValue.legible_type (List.forall_mem_flatMap.mp below input member) (low input member)
  | scalar | object | interface | union | enum => cases first

theorem of_directive? {name : Name} {definition : DirectiveDefinition}
    (found : schema.directive? name = some definition) {argument : InputValue}
    (among : argument ∈ definition.arguments) : argument.type.Legible := by
  have member := List.mem_of_find?_eq_some found
  have named := (DirectiveDefinition.forall_leaves.mp (legible.directives definition member)).2.2.1
  exact InputValue.legible_type (named argument among) (legible.arguments definition member _ among)

end Schema.Legible

end RelayWorkbench.GraphQL

namespace RelayWorkbench.Relay

open RelayWorkbench.GraphQL

/-- The schema of a client is legible, whatever its files are. -/
theorem legible_clientSchema (files : List Text) : (clientSchema files).Legible := by
  refine Schema.legible_ofDocuments (List.forall_mem_append.mpr ⟨?_, ?_⟩)
    (List.forall_mem_append.mpr ⟨?_, ?_⟩)
  · exact List.forall_mem_map.mpr fun text _ =>
      Document.forall_leaves_recover fun _ => Lexeme.named_of_mem
  · exact List.forall_mem_singleton.mpr (by decide +kernel)
  · exact List.forall_mem_map.mpr fun text _ => Document.shallow_recover text
  · exact List.forall_mem_singleton.mpr (by decide +kernel)

end RelayWorkbench.Relay
