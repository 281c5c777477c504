import Mathlib
import RelayWorkbench.GraphQL.Document.Spans

/-! The leaves of documents: the names, the numbers and the strings that are written in them, in
the order of the printed form. What a document is printed with beyond its leaves is layout. -/

namespace RelayWorkbench.GraphQL

def Scalar.leaves : Scalar → List Lexeme
  | null | boolean _ => []
  | int written => [.int written]
  | float written => [.float written]
  | string value => [.string value]
  | enum name | ofVariable name => [.name name]

mutual

def Value.leaves : Value → List Lexeme
  | .scalar _ leaf => leaf.leaves
  | .list _ items => Value.leavesOfItems items
  | .object _ fields => Value.leavesOfFields fields

def Value.leavesOfItems : List Value → List Lexeme
  | [] => []
  | item :: rest => item.leaves ++ Value.leavesOfItems rest

def Value.leavesOfFields : List (Name × Value) → List Lexeme
  | [] => []
  | (name, value) :: rest => .name name :: value.leaves ++ Value.leavesOfFields rest

end

def TypeRef.leaves : TypeRef → List Lexeme
  | named name _ => [.name name]
  | list item _ => item.leaves

def Argument.leaves (argument : Argument) : List Lexeme :=
  .name argument.name :: argument.value.leaves

def Directive.leaves (directive : Directive) : List Lexeme :=
  .name directive.name :: directive.arguments.flatMap Argument.leaves

def FieldHead.leaves (head : FieldHead) : List Lexeme :=
  head.label.toList.map (.name ·.name) ++ .name head.name.name ::
    (head.arguments.flatMap Argument.leaves ++ head.directives.flatMap Directive.leaves)

def InlineHead.leaves (head : InlineHead) : List Lexeme :=
  head.onType.toList.map .name ++ head.directives.flatMap Directive.leaves

def FragmentSpread.leaves (made : FragmentSpread) : List Lexeme :=
  .name made.name :: made.directives.flatMap Directive.leaves

mutual

def Selection.leaves : Selection → List Lexeme
  | .field head selections => head.leaves ++ Selection.leavesOfAll selections
  | .inline head selections => head.leaves ++ Selection.leavesOfAll selections
  | .spread made => made.leaves

def Selection.leavesOfAll : List Selection → List Lexeme
  | [] => []
  | selection :: rest => selection.leaves ++ Selection.leavesOfAll rest

end

def VariableDefinition.leaves (declared : VariableDefinition) : List Lexeme :=
  .name declared.name :: (declared.type.leaves ++ declared.default.toList.flatMap Value.leaves ++
    declared.directives.flatMap Directive.leaves)

def Operation.leaves (operation : Operation) : List Lexeme :=
  operation.name.toList.map .name ++
    operation.variableDefinitions.flatMap VariableDefinition.leaves ++
    operation.directives.flatMap Directive.leaves ++ Selection.leavesOfAll operation.selections

def Fragment.leaves (fragment : Fragment) : List Lexeme :=
  .name fragment.name :: .name fragment.onType ::
    (fragment.directives.flatMap Directive.leaves ++ Selection.leavesOfAll fragment.selections)

/-- A description is a string. -/
def leavesOfDescription (description : Option Text) : List Lexeme :=
  description.toList.map .string

def InputValue.leaves (input : InputValue) : List Lexeme :=
  leavesOfDescription input.description ++ .name input.name ::
    (input.type.leaves ++ input.default.toList.flatMap Value.leaves ++
      input.directives.flatMap Directive.leaves)

def FieldDefinition.leaves (field : FieldDefinition) : List Lexeme :=
  leavesOfDescription field.description ++ .name field.name ::
    (field.arguments.flatMap InputValue.leaves ++ field.type.leaves ++
      field.directives.flatMap Directive.leaves)

def EnumValue.leaves (value : EnumValue) : List Lexeme :=
  leavesOfDescription value.description ++ .name value.name ::
    value.directives.flatMap Directive.leaves

def DirectiveDefinition.leaves (definition : DirectiveDefinition) : List Lexeme :=
  leavesOfDescription definition.description ++ .name definition.name ::
    (definition.arguments.flatMap InputValue.leaves ++ definition.locations.map .name)

def TypeBody.leaves : TypeBody → List Lexeme
  | scalar => []
  | object interfaces fields | interface interfaces fields =>
    interfaces.map .name ++ fields.flatMap FieldDefinition.leaves
  | union members => members.map .name
  | enum values => values.flatMap EnumValue.leaves
  | input fields => fields.flatMap InputValue.leaves

def TypeDefinition.leaves (definition : TypeDefinition) : List Lexeme :=
  .name definition.name ::
    (definition.directives.flatMap Directive.leaves ++ definition.body.leaves)

def SchemaDefinition.leaves (definition : SchemaDefinition) : List Lexeme :=
  definition.directives.flatMap Directive.leaves ++ definition.roots.map (.name ·.2)

def Definition.leaves : Definition → List Lexeme
  | .operation stated => stated.leaves
  | .fragment stated => stated.leaves
  | .directive stated => stated.leaves
  | .schema description stated => leavesOfDescription description ++ stated.leaves
  | .schemaExtension stated => stated.leaves
  | .type description stated => leavesOfDescription description ++ stated.leaves
  | .typeExtension stated => stated.leaves

def Document.leaves (document : Document) : List Lexeme :=
  document.definitions.flatMap Definition.leaves

/-- The values of the strings and of the descriptions of a document, in order. -/
def Document.strings (document : Document) : List Text :=
  document.leaves.filterMap fun
    | .string value => some value
    | _ => none

/-- Whether a definition of a directive says where the directive may stand. -/
def Definition.isLocated : Definition → Bool
  | .directive stated => !stated.locations.isEmpty
  | _ => true

theorem Value.leavesOfItems_eq (items : List Value) :
    leavesOfItems items = items.flatMap leaves := by
  induction items with
  | nil => rfl
  | cons item rest ih => rw [leavesOfItems, ih, List.flatMap_cons]

theorem Value.leavesOfFields_eq (fields : List (Name × Value)) :
    leavesOfFields fields = fields.flatMap fun field => .name field.1 :: field.2.leaves := by
  induction fields with
  | nil => rfl
  | cons field rest ih => rw [leavesOfFields, ih, List.flatMap_cons]

theorem Selection.leavesOfAll_eq (selections : List Selection) :
    leavesOfAll selections = selections.flatMap leaves := by
  induction selections with
  | nil => rfl
  | cons selection rest ih => rw [leavesOfAll, ih, List.flatMap_cons]

/-! What holds of the leaves of a node holds of those of its parts. -/

section Parts

variable {good : Lexeme → Prop}

private theorem forall_mem_toList {α : Type} {holds : α → Prop} {option : Option α} :
    (∀ value ∈ option.toList, holds value) ↔ ∀ value ∈ option, holds value := by
  simp [Option.mem_toList]

theorem Value.forall_leaves_list {span : Option Span} {items : List Value} :
    (∀ leaf ∈ (list span items).leaves, good leaf) ↔
      ∀ item ∈ items, ∀ leaf ∈ item.leaves, good leaf := by
  rw [leaves, leavesOfItems_eq, List.forall_mem_flatMap]

theorem Value.forall_leaves_object {span : Option Span} {fields : List (Name × Value)} :
    (∀ leaf ∈ (object span fields).leaves, good leaf) ↔
      ∀ field ∈ fields, good (.name field.1) ∧ ∀ leaf ∈ field.2.leaves, good leaf := by
  simp only [leaves, leavesOfFields_eq, List.forall_mem_flatMap, List.forall_mem_cons]

theorem Argument.forall_leaves {argument : Argument} :
    (∀ leaf ∈ argument.leaves, good leaf) ↔
      good (.name argument.name) ∧ ∀ leaf ∈ argument.value.leaves, good leaf :=
  List.forall_mem_cons

theorem Directive.forall_leaves {directive : Directive} :
    (∀ leaf ∈ directive.leaves, good leaf) ↔ good (.name directive.name) ∧
      ∀ argument ∈ directive.arguments, ∀ leaf ∈ argument.leaves, good leaf := by
  simp only [leaves, List.forall_mem_flatMap, List.forall_mem_cons]

theorem FieldHead.forall_leaves {head : FieldHead} :
    (∀ leaf ∈ head.leaves, good leaf) ↔ (∀ label ∈ head.label, good (.name label.name)) ∧
      good (.name head.name.name) ∧
      (∀ argument ∈ head.arguments, ∀ leaf ∈ argument.leaves, good leaf) ∧
      ∀ directive ∈ head.directives, ∀ leaf ∈ directive.leaves, good leaf := by
  simp only [leaves, List.forall_mem_flatMap, List.forall_mem_append, List.forall_mem_cons,
    List.forall_mem_map, forall_mem_toList]

theorem InlineHead.forall_leaves {head : InlineHead} :
    (∀ leaf ∈ head.leaves, good leaf) ↔ (∀ name ∈ head.onType, good (.name name)) ∧
      ∀ directive ∈ head.directives, ∀ leaf ∈ directive.leaves, good leaf := by
  simp only [leaves, List.forall_mem_flatMap, List.forall_mem_append, List.forall_mem_map,
    forall_mem_toList]

theorem FragmentSpread.forall_leaves {made : FragmentSpread} :
    (∀ leaf ∈ made.leaves, good leaf) ↔ good (.name made.name) ∧
      ∀ directive ∈ made.directives, ∀ leaf ∈ directive.leaves, good leaf := by
  simp only [leaves, List.forall_mem_flatMap, List.forall_mem_cons]

theorem Selection.forall_leavesOfAll {selections : List Selection} :
    (∀ leaf ∈ leavesOfAll selections, good leaf) ↔
      ∀ selection ∈ selections, ∀ leaf ∈ selection.leaves, good leaf := by
  rw [leavesOfAll_eq, List.forall_mem_flatMap]

theorem Selection.forall_leaves_field {head : FieldHead} {selections : List Selection} :
    (∀ leaf ∈ (field head selections).leaves, good leaf) ↔ (∀ leaf ∈ head.leaves, good leaf) ∧
      ∀ selection ∈ selections, ∀ leaf ∈ selection.leaves, good leaf := by
  rw [leaves, List.forall_mem_append, forall_leavesOfAll]

theorem Selection.forall_leaves_inline {head : InlineHead} {selections : List Selection} :
    (∀ leaf ∈ (inline head selections).leaves, good leaf) ↔ (∀ leaf ∈ head.leaves, good leaf) ∧
      ∀ selection ∈ selections, ∀ leaf ∈ selection.leaves, good leaf := by
  rw [leaves, List.forall_mem_append, forall_leavesOfAll]

theorem VariableDefinition.forall_leaves {declared : VariableDefinition} :
    (∀ leaf ∈ declared.leaves, good leaf) ↔ good (.name declared.name) ∧
      (∀ leaf ∈ declared.type.leaves, good leaf) ∧
      (∀ value ∈ declared.default, ∀ leaf ∈ value.leaves, good leaf) ∧
      ∀ directive ∈ declared.directives, ∀ leaf ∈ directive.leaves, good leaf := by
  simp only [leaves, List.forall_mem_flatMap, List.forall_mem_append, List.forall_mem_cons,
    forall_mem_toList, and_assoc]

theorem Operation.forall_leaves {operation : Operation} :
    (∀ leaf ∈ operation.leaves, good leaf) ↔ (∀ name ∈ operation.name, good (.name name)) ∧
      (∀ declared ∈ operation.variableDefinitions, ∀ leaf ∈ declared.leaves, good leaf) ∧
      (∀ directive ∈ operation.directives, ∀ leaf ∈ directive.leaves, good leaf) ∧
      ∀ selection ∈ operation.selections, ∀ leaf ∈ selection.leaves, good leaf := by
  simp only [leaves, List.forall_mem_flatMap, List.forall_mem_append, List.forall_mem_map,
    forall_mem_toList, Selection.forall_leavesOfAll, and_assoc]

theorem Fragment.forall_leaves {fragment : Fragment} :
    (∀ leaf ∈ fragment.leaves, good leaf) ↔ good (.name fragment.name) ∧
      good (.name fragment.onType) ∧
      (∀ directive ∈ fragment.directives, ∀ leaf ∈ directive.leaves, good leaf) ∧
      ∀ selection ∈ fragment.selections, ∀ leaf ∈ selection.leaves, good leaf := by
  simp only [leaves, List.forall_mem_flatMap, List.forall_mem_append, List.forall_mem_cons,
    Selection.forall_leavesOfAll]

theorem forall_leavesOfDescription {description : Option Text} :
    (∀ leaf ∈ leavesOfDescription description, good leaf) ↔
      ∀ value ∈ description, good (.string value) := by
  simp only [leavesOfDescription, List.forall_mem_map, forall_mem_toList]

theorem InputValue.forall_leaves {input : InputValue} :
    (∀ leaf ∈ input.leaves, good leaf) ↔ (∀ value ∈ input.description, good (.string value)) ∧
      good (.name input.name) ∧ (∀ leaf ∈ input.type.leaves, good leaf) ∧
      (∀ value ∈ input.default, ∀ leaf ∈ value.leaves, good leaf) ∧
      ∀ directive ∈ input.directives, ∀ leaf ∈ directive.leaves, good leaf := by
  simp only [leaves, forall_leavesOfDescription, List.forall_mem_flatMap, List.forall_mem_append,
    List.forall_mem_cons, forall_mem_toList, and_assoc]

theorem FieldDefinition.forall_leaves {field : FieldDefinition} :
    (∀ leaf ∈ field.leaves, good leaf) ↔ (∀ value ∈ field.description, good (.string value)) ∧
      good (.name field.name) ∧
      (∀ argument ∈ field.arguments, ∀ leaf ∈ argument.leaves, good leaf) ∧
      (∀ leaf ∈ field.type.leaves, good leaf) ∧
      ∀ directive ∈ field.directives, ∀ leaf ∈ directive.leaves, good leaf := by
  simp only [leaves, forall_leavesOfDescription, List.forall_mem_flatMap, List.forall_mem_append,
    List.forall_mem_cons, and_assoc]

theorem EnumValue.forall_leaves {value : EnumValue} :
    (∀ leaf ∈ value.leaves, good leaf) ↔ (∀ text ∈ value.description, good (.string text)) ∧
      good (.name value.name) ∧
      ∀ directive ∈ value.directives, ∀ leaf ∈ directive.leaves, good leaf := by
  simp only [leaves, forall_leavesOfDescription, List.forall_mem_flatMap, List.forall_mem_append,
    List.forall_mem_cons]

theorem DirectiveDefinition.forall_leaves {definition : DirectiveDefinition} :
    (∀ leaf ∈ definition.leaves, good leaf) ↔
      (∀ value ∈ definition.description, good (.string value)) ∧ good (.name definition.name) ∧
      (∀ argument ∈ definition.arguments, ∀ leaf ∈ argument.leaves, good leaf) ∧
      ∀ location ∈ definition.locations, good (.name location) := by
  simp only [leaves, forall_leavesOfDescription, List.forall_mem_flatMap, List.forall_mem_append,
    List.forall_mem_cons, List.forall_mem_map]

theorem TypeDefinition.forall_leaves {definition : TypeDefinition} :
    (∀ leaf ∈ definition.leaves, good leaf) ↔ good (.name definition.name) ∧
      (∀ directive ∈ definition.directives, ∀ leaf ∈ directive.leaves, good leaf) ∧
      ∀ leaf ∈ definition.body.leaves, good leaf := by
  simp only [leaves, List.forall_mem_flatMap, List.forall_mem_append, List.forall_mem_cons]

theorem SchemaDefinition.forall_leaves {definition : SchemaDefinition} :
    (∀ leaf ∈ definition.leaves, good leaf) ↔
      (∀ directive ∈ definition.directives, ∀ leaf ∈ directive.leaves, good leaf) ∧
      ∀ root ∈ definition.roots, good (.name root.2) := by
  simp only [leaves, List.forall_mem_flatMap, List.forall_mem_append, List.forall_mem_map]

theorem Document.forall_leaves {document : Document} :
    (∀ leaf ∈ document.leaves, good leaf) ↔
      ∀ stated ∈ document.definitions, ∀ leaf ∈ stated.leaves, good leaf :=
  List.forall_mem_flatMap

theorem Document.mem_strings {document : Document} {value : Text} :
    value ∈ document.strings ↔ .string value ∈ document.leaves := by
  unfold strings
  rw [List.mem_filterMap]
  constructor
  · rintro ⟨leaf, member, same⟩
    split at same
    · cases same
      exact member
    · cases same
  · exact fun member => ⟨_, member, rfl⟩

end Parts

/-! Where nodes stand is no matter of their leaves. -/

section Respan

variable (move : Respan)

mutual

theorem Value.leaves_respan : ∀ value : Value, (value.respan move).leaves = value.leaves
  | .scalar _ _ => rfl
  | .list _ items => leavesOfItems_respan items
  | .object _ fields => leavesOfFields_respan fields

theorem Value.leavesOfItems_respan : ∀ items : List Value,
    leavesOfItems (respanItems move items) = leavesOfItems items
  | [] => rfl
  | item :: rest => by
    simp only [respanItems, leavesOfItems, leaves_respan item, leavesOfItems_respan rest]

theorem Value.leavesOfFields_respan : ∀ fields : List (Name × Value),
    leavesOfFields (respanFields move fields) = leavesOfFields fields
  | [] => rfl
  | (_, value) :: rest => by
    simp only [respanFields, leavesOfFields, leaves_respan value, leavesOfFields_respan rest]

end

@[simp] theorem Argument.leaves_respan (argument : Argument) :
    (argument.respan move).leaves = argument.leaves := by
  simp only [leaves, respan, Value.leaves_respan]

@[simp] theorem Directive.leaves_respan (directive : Directive) :
    (directive.respan move).leaves = directive.leaves := by
  simp [leaves, respan, List.flatMap_map]

@[simp] theorem FieldHead.leaves_respan (head : FieldHead) :
    (head.respan move).leaves = head.leaves := by
  cases same : head.label <;> simp [leaves, respan, Ident.respan, List.flatMap_map, same]

@[simp] theorem InlineHead.leaves_respan (head : InlineHead) :
    (head.respan move).leaves = head.leaves := by
  simp [leaves, respan, List.flatMap_map]

@[simp] theorem FragmentSpread.leaves_respan (made : FragmentSpread) :
    (made.respan move).leaves = made.leaves := by
  simp [leaves, respan, List.flatMap_map]

mutual

theorem Selection.leaves_respan : ∀ selection : Selection,
    (selection.respan move).leaves = selection.leaves
  | .field head selections | .inline head selections => by
    simp only [respan, leaves, FieldHead.leaves_respan, InlineHead.leaves_respan,
      leavesOfAll_respan selections]
  | .spread made => made.leaves_respan move

theorem Selection.leavesOfAll_respan : ∀ selections : List Selection,
    leavesOfAll (respanAll move selections) = leavesOfAll selections
  | [] => rfl
  | selection :: rest => by
    simp only [respanAll, leavesOfAll, leaves_respan selection, leavesOfAll_respan rest]

end

private theorem leaves_default (default : Option Value) :
    (default.map (·.respan move)).toList.flatMap Value.leaves =
      default.toList.flatMap Value.leaves := by
  cases default with
  | none => rfl
  | some value => simp [Value.leaves_respan]

@[simp] theorem VariableDefinition.leaves_respan (declared : VariableDefinition) :
    (declared.respan move).leaves = declared.leaves := by
  simp [leaves, respan, List.flatMap_map, leaves_default]

@[simp] theorem InputValue.leaves_respan (input : InputValue) :
    (input.respan move).leaves = input.leaves := by
  simp [leaves, respan, List.flatMap_map, leaves_default]

@[simp] theorem FieldDefinition.leaves_respan (field : FieldDefinition) :
    (field.respan move).leaves = field.leaves := by
  simp [leaves, respan, List.flatMap_map]

@[simp] theorem EnumValue.leaves_respan (value : EnumValue) :
    (value.respan move).leaves = value.leaves := by
  simp [leaves, respan, List.flatMap_map]

theorem TypeBody.leaves_respan (body : TypeBody) : (body.respan move).leaves = body.leaves := by
  cases body <;> simp [leaves, respan, List.flatMap_map]

@[simp] theorem TypeDefinition.leaves_respan (definition : TypeDefinition) :
    (definition.respan move).leaves = definition.leaves := by
  simp [leaves, respan, List.flatMap_map, TypeBody.leaves_respan]

@[simp] theorem SchemaDefinition.leaves_respan (definition : SchemaDefinition) :
    (definition.respan move).leaves = definition.leaves := by
  simp [leaves, respan, List.flatMap_map]

@[simp] theorem Definition.leaves_respan (stated : Definition) :
    (stated.respan move).leaves = stated.leaves := by
  cases stated <;> simp [leaves, respan, Operation.leaves, Operation.respan, Fragment.leaves,
    Fragment.respan, DirectiveDefinition.leaves, List.flatMap_map, Selection.leavesOfAll_respan]

theorem Document.leaves_respan (document : Document) :
    (document.respan move).leaves = document.leaves := by
  simp [leaves, respan, List.flatMap_map]

end Respan

end RelayWorkbench.GraphQL
