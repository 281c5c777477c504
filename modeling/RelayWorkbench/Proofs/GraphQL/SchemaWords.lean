import RelayWorkbench.GraphQL.Schema.Build
import RelayWorkbench.Proofs.GraphQL.Leaves
import RelayWorkbench.Proofs.GraphQL.Words

/-! The words of a schema. Building a schema merges what documents define and adds nothing but the
types and directives that are built in. -/

namespace RelayWorkbench.GraphQL

/-- A schema of which all leaves are words or strings. -/
structure Schema.Worded (schema : Schema) : Prop where
  types : ∀ type ∈ schema.types, ∀ leaf ∈ type.definition.leaves, leaf.Worded
  directives : ∀ directive ∈ schema.directives, ∀ leaf ∈ directive.leaves, leaf.Worded

namespace Schema

variable {schema : Schema}

theorem Worded.of_type? (worded : schema.Worded) {name : Name} {type : TypeDefinition}
    (found : schema.type? name = some type) : ∀ leaf ∈ type.leaves, leaf.Worded := by
  obtain ⟨stated, first, rfl⟩ := Option.map_eq_some_iff.mp found
  exact worded.types stated (List.mem_of_find?_eq_some first)

theorem leaves_of_mem_fields {good : Lexeme → Prop} {body : TypeBody}
    {field : FieldDefinition}
    (own : ∀ leaf ∈ body.leaves, good leaf) (member : field ∈ body.fields) :
    ∀ leaf ∈ field.leaves, good leaf := by
  cases body with
  | object interfaces fields | interface interfaces fields =>
    exact List.forall_mem_flatMap.mp (List.forall_mem_append.mp own).2 field member
  | scalar | union | enum | input => cases member

theorem Worded.of_field? (worded : schema.Worded) {typeName fieldName : Name}
    {field : FieldDefinition} (found : schema.field? typeName fieldName = some field) :
    ∀ leaf ∈ field.leaves, leaf.Worded := by
  obtain ⟨type, known, first⟩ := Option.bind_eq_some_iff.mp found
  have own := (TypeDefinition.forall_leaves.mp (worded.of_type? known)).2.2
  exact leaves_of_mem_fields own (List.mem_of_find?_eq_some first)

theorem worded_argumentType? {arguments : List InputValue} {name : Name} {type : TypeRef}
    (worded : ∀ argument ∈ arguments, ∀ leaf ∈ argument.leaves, leaf.Worded)
    (found : argumentType? arguments name = some type) : ∀ leaf ∈ type.leaves, leaf.Worded := by
  obtain ⟨argument, first, rfl⟩ := Option.map_eq_some_iff.mp found
  exact (InputValue.forall_leaves.mp (worded argument (List.mem_of_find?_eq_some first))).2.2.1

end Schema

namespace Schema

section Merging

variable {good : Lexeme → Prop}

/-- What holds of all members and of all that are added holds of them together. -/
theorem forall_mem_addNew {α κ : Type} [BEq κ] {key : α → κ} {holds : α → Prop}
    {present added : List α} (old : ∀ member ∈ present, holds member)
    (new : ∀ member ∈ added, holds member) :
    ∀ member ∈ addNew key present added, holds member := by
  induction added generalizing present with
  | nil => exact old
  | cons first rest ih =>
    obtain ⟨own, others⟩ := List.forall_mem_cons.mp new
    rw [addNew, List.foldl_cons]
    refine ih ?_ others
    split
    · exact old
    · exact List.forall_mem_append.mpr ⟨old, List.forall_mem_singleton.mpr own⟩

private theorem forall_names_addNew {present added : List Name}
    (old : ∀ leaf ∈ present.map Lexeme.name, good leaf)
    (new : ∀ leaf ∈ added.map Lexeme.name, good leaf) :
    ∀ leaf ∈ (addNew id present added).map Lexeme.name, good leaf :=
  List.forall_mem_map.mpr
    (forall_mem_addNew (List.forall_mem_map.mp old) (List.forall_mem_map.mp new))

private theorem forall_leaves_addNew {α : Type} {leaves : α → List Lexeme} {key : α → Name}
    {present added : List α} (old : ∀ leaf ∈ present.flatMap leaves, good leaf)
    (new : ∀ leaf ∈ added.flatMap leaves, good leaf) :
    ∀ leaf ∈ (addNew key present added).flatMap leaves, good leaf :=
  List.forall_mem_flatMap.mpr
    (forall_mem_addNew (List.forall_mem_flatMap.mp old) (List.forall_mem_flatMap.mp new))

namespace Merge

theorem forall_leaves_body? {first second merged : TypeBody}
    (own : ∀ leaf ∈ first.leaves, good leaf) (more : ∀ leaf ∈ second.leaves, good leaf)
    (merges : body? first second = some merged) : ∀ leaf ∈ merged.leaves, good leaf := by
  unfold body? at merges
  split at merges <;> cases merges
  case h_1 => exact own
  case h_2 | h_3 =>
    obtain ⟨names, fields⟩ := List.forall_mem_append.mp own
    obtain ⟨moreNames, moreFields⟩ := List.forall_mem_append.mp more
    exact List.forall_mem_append.mpr
      ⟨forall_names_addNew names moreNames, forall_leaves_addNew fields moreFields⟩
  case h_4 => exact forall_names_addNew own more
  case h_5 | h_6 => exact forall_leaves_addNew own more

theorem forall_leaves_distinct {body : TypeBody} (own : ∀ leaf ∈ body.leaves, good leaf) :
    ∀ leaf ∈ (distinct body).leaves, good leaf := by
  cases body with
  | scalar => exact own
  | object interfaces fields | interface interfaces fields =>
    obtain ⟨names, fields⟩ := List.forall_mem_append.mp own
    exact List.forall_mem_append.mpr ⟨forall_names_addNew (List.forall_mem_nil _) names,
      forall_leaves_addNew (List.forall_mem_nil _) fields⟩
  | union members => exact forall_names_addNew (List.forall_mem_nil _) own
  | enum | input => exact forall_leaves_addNew (List.forall_mem_nil _) own

theorem forall_leaves_extend {definition extension : TypeDefinition}
    (own : ∀ leaf ∈ definition.leaves, good leaf) (more : ∀ leaf ∈ extension.leaves, good leaf) :
    ∀ leaf ∈ (extend definition extension).leaves, good leaf := by
  obtain ⟨named, directed, below⟩ := TypeDefinition.forall_leaves.mp own
  obtain ⟨-, moreDirected, moreBelow⟩ := TypeDefinition.forall_leaves.mp more
  unfold extend
  split
  · next body merges =>
    exact TypeDefinition.forall_leaves.mpr
      ⟨named, List.forall_mem_append.mpr ⟨directed, moreDirected⟩,
        forall_leaves_body? below moreBelow merges⟩
  · exact own

end Merge

end Merging

/-- What holds of type definitions still holds once they are merged. -/
structure Merges (holds : TypeDefinition → Prop) : Prop where
  distinct : ∀ {definition}, holds definition →
    holds { definition with body := Merge.distinct definition.body }
  extend : ∀ {definition extension}, holds definition → holds extension →
    holds (Merge.extend definition extension)

theorem merges_leaves {good : Lexeme → Prop} :
    Merges fun definition => ∀ leaf ∈ definition.leaves, good leaf where
  distinct own :=
    have ⟨named, directed, below⟩ := TypeDefinition.forall_leaves.mp own
    TypeDefinition.forall_leaves.mpr ⟨named, directed, Merge.forall_leaves_distinct below⟩
  extend := Merge.forall_leaves_extend

/-- What a definition says of types and directives. -/
def StatesOf (typed : TypeDefinition → Prop) (directed : DirectiveDefinition → Prop) :
    Definition → Prop
  | .type _ definition | .typeExtension definition => typed definition
  | .directive definition => directed definition
  | .operation _ | .fragment _ | .schema .. | .schemaExtension _ => True

namespace Draft

variable {typed : TypeDefinition → Prop} {directed : DirectiveDefinition → Prop}

/-- A draft of certain types and directives. -/
structure Of (typed : TypeDefinition → Prop) (directed : DirectiveDefinition → Prop)
    (draft : Draft) : Prop where
  types : ∀ type ∈ draft.types, typed type.definition
  directives : ∀ known ∈ draft.directives, directed known.definition
  waiting : ∀ extension ∈ draft.waiting, typed extension

variable {draft : Draft}

private theorem of_extensions (merges : Merges typed) {definition : TypeDefinition}
    {ready : List TypeDefinition} (own : typed definition)
    (more : ∀ extension ∈ ready, typed extension) :
    typed (ready.foldl Merge.extend definition) := by
  induction ready generalizing definition with
  | nil => exact own
  | cons extension rest ih =>
    obtain ⟨first, others⟩ := List.forall_mem_cons.mp more
    exact ih (merges.extend own first) others

theorem Of.defineType (merges : Merges typed) (drafted : Of typed directed draft)
    {definition : TypeDefinition} (own : typed definition) :
    Of typed directed (draft.defineType definition) := by
  unfold Draft.defineType
  split
  · exact drafted
  · rw [List.partition_eq_filter_filter]
    refine ⟨List.forall_mem_append.mpr ⟨drafted.types, List.forall_mem_singleton.mpr ?_⟩,
      drafted.directives, fun extension member => ?_⟩
    · exact of_extensions merges (merges.distinct own) fun extension member =>
        drafted.waiting extension (List.mem_of_mem_filter member)
    · exact drafted.waiting extension (List.mem_of_mem_filter member)

theorem Of.extendType (merges : Merges typed) (drafted : Of typed directed draft)
    {extension : TypeDefinition} (own : typed extension) :
    Of typed directed (draft.extendType extension) := by
  unfold Draft.extendType
  split
  · refine ⟨List.forall_mem_map.mpr fun type member => ?_, drafted.directives, drafted.waiting⟩
    split
    · exact merges.extend (drafted.types type member) own
    · exact drafted.types type member
  · exact ⟨drafted.types, drafted.directives,
      List.forall_mem_append.mpr ⟨drafted.waiting, List.forall_mem_singleton.mpr own⟩⟩

theorem Of.defineDirective (drafted : Of typed directed draft)
    {definition : DirectiveDefinition} (own : directed definition) :
    Of typed directed (draft.defineDirective definition) := by
  unfold Draft.defineDirective
  split
  · refine ⟨drafted.types, List.forall_mem_map.mpr fun known member => ?_, drafted.waiting⟩
    split
    · exact own
    · exact drafted.directives known member
  · exact ⟨drafted.types, List.forall_mem_append.mpr
      ⟨drafted.directives, List.forall_mem_singleton.mpr own⟩, drafted.waiting⟩

theorem Of.addDefinition (merges : Merges typed) (drafted : Of typed directed draft)
    {stated : Definition} (own : StatesOf typed directed stated) :
    Of typed directed (draft.addDefinition stated) := by
  cases stated with
  | operation | fragment => exact drafted
  | directive definition => exact drafted.defineDirective own
  | schema =>
    rw [Draft.addDefinition]
    split
    · exact drafted
    · exact ⟨drafted.types, drafted.directives, drafted.waiting⟩
  | schemaExtension => exact ⟨drafted.types, drafted.directives, drafted.waiting⟩
  | type => exact drafted.defineType merges own
  | typeExtension => exact drafted.extendType merges own

theorem Of.addDefinitions (merges : Merges typed) (drafted : Of typed directed draft)
    {definitions : List Definition}
    (own : ∀ stated ∈ definitions, StatesOf typed directed stated) :
    Of typed directed (definitions.foldl Draft.addDefinition draft) := by
  induction definitions generalizing draft with
  | nil => exact drafted
  | cons stated rest ih =>
    obtain ⟨first, others⟩ := List.forall_mem_cons.mp own
    exact ih (drafted.addDefinition merges first) others

theorem Of.addDocuments (merges : Merges typed) (drafted : Of typed directed draft)
    {documents : List Document}
    (own : ∀ document ∈ documents, ∀ stated ∈ document.definitions,
      StatesOf typed directed stated) :
    Of typed directed (documents.foldl Draft.addDocument draft) := by
  induction documents generalizing draft with
  | nil => exact drafted
  | cons document rest ih =>
    obtain ⟨first, others⟩ := List.forall_mem_cons.mp own
    exact ih (drafted.addDefinitions merges first) others

end Draft

section Documents

variable {typed : TypeDefinition → Prop} {directed : DirectiveDefinition → Prop}
  {documents : List Document}

/-- A schema is made of what documents say and of what is built in. -/
theorem of_ofDocuments (merges : Merges typed) (builtIn : Draft.Of typed directed {})
    (own : ∀ document ∈ documents, ∀ stated ∈ document.definitions,
      StatesOf typed directed stated) :
    (∀ type ∈ (ofDocuments documents).types, typed type.definition) ∧
      ∀ directive ∈ (ofDocuments documents).directives, directed directive := by
  have drafted := builtIn.addDocuments merges own
  exact ⟨drafted.types, List.forall_mem_map.mpr drafted.directives⟩

/-- What holds of the leaves of documents, and of those of what is built in, holds of the leaves of
the schema. -/
theorem leaves_ofDocuments {good : Lexeme → Prop}
    (builtIn : Draft.Of (fun definition => ∀ leaf ∈ definition.leaves, good leaf)
      (fun definition => ∀ leaf ∈ definition.leaves, good leaf) {})
    (own : ∀ document ∈ documents, ∀ leaf ∈ document.leaves, good leaf) :
    (∀ type ∈ (ofDocuments documents).types, ∀ leaf ∈ type.definition.leaves, good leaf) ∧
      ∀ directive ∈ (ofDocuments documents).directives, ∀ leaf ∈ directive.leaves, good leaf := by
  refine of_ofDocuments merges_leaves builtIn fun document member stated among => ?_
  have leaves := Document.forall_leaves.mp (own document member) stated among
  cases stated with
  | type => exact (List.forall_mem_append.mp leaves).2
  | typeExtension | directive => exact leaves
  | operation | fragment | schema | schemaExtension => trivial

end Documents

/-- A schema that is built from documents of words has no other words. -/
theorem worded_ofDocuments {documents : List Document}
    (own : ∀ document ∈ documents, ∀ leaf ∈ document.leaves, leaf.Worded) :
    (ofDocuments documents).Worded := by
  have builtIn : Draft.Of (fun definition => ∀ leaf ∈ definition.leaves, leaf.Worded)
      (fun definition => ∀ leaf ∈ definition.leaves, leaf.Worded) {} :=
    ⟨by decide +kernel, by decide +kernel, List.forall_mem_nil _⟩
  exact ⟨(leaves_ofDocuments builtIn own).1, (leaves_ofDocuments builtIn own).2⟩

end Schema

end RelayWorkbench.GraphQL
