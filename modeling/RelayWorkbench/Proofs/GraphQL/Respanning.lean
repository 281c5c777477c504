import RelayWorkbench.GraphQL.Document.Spans

/-! Moving the spans of a document twice is moving them once. So documents that differ only in their
spans are equal once these are erased. -/

namespace RelayWorkbench.GraphQL

variable (after before : Respan)

mutual

@[simp] theorem Value.respan_respan : ∀ value : Value,
    (value.respan before).respan after = value.respan (after ∘ before)
  | .scalar _ _ => rfl
  | .list _ items => by simp only [respan, respanItems_respanItems items, Function.comp_apply]
  | .object _ fields => by simp only [respan, respanFields_respanFields fields, Function.comp_apply]

theorem Value.respanItems_respanItems : ∀ items : List Value,
    respanItems after (respanItems before items) = respanItems (after ∘ before) items
  | [] => rfl
  | item :: rest => by simp only [respanItems, respan_respan item, respanItems_respanItems rest]

theorem Value.respanFields_respanFields : ∀ fields : List (Name × Value),
    respanFields after (respanFields before fields) = respanFields (after ∘ before) fields
  | [] => rfl
  | (_, value) :: rest => by
    simp only [respanFields, respan_respan value, respanFields_respanFields rest]

end

section Lists

variable {α : Type} {respan : Respan → α → α}

private theorem map_respan
    (twice : ∀ node, respan after (respan before node) = respan (after ∘ before) node)
    (nodes : List α) :
    (nodes.map (respan before)).map (respan after) = nodes.map (respan (after ∘ before)) := by
  simp [twice]

private theorem map_respan?
    (twice : ∀ node, respan after (respan before node) = respan (after ∘ before) node)
    (node : Option α) :
    (node.map (respan before)).map (respan after) = node.map (respan (after ∘ before)) := by
  simp [Function.comp_def, twice]

end Lists

theorem Argument.respan_respan (argument : Argument) :
    (argument.respan before).respan after = argument.respan (after ∘ before) := by
  simp only [respan, Value.respan_respan, Function.comp_apply]

theorem Directive.respan_respan (directive : Directive) :
    (directive.respan before).respan after = directive.respan (after ∘ before) := by
  simp only [respan, map_respan after before (Argument.respan_respan after before),
    Function.comp_apply]

private theorem Directive.respanAll_respanAll (directives : List Directive) :
    (directives.map (·.respan before)).map (·.respan after) =
      directives.map (·.respan (after ∘ before)) :=
  map_respan after before (respan_respan after before) directives

theorem Ident.respan_respan (ident : Ident) :
    (ident.respan before).respan after = ident.respan (after ∘ before) := rfl

theorem FieldHead.respan_respan (head : FieldHead) :
    (head.respan before).respan after = head.respan (after ∘ before) := by
  simp only [respan, map_respan? after before (Ident.respan_respan after before),
    map_respan after before (Argument.respan_respan after before), Ident.respan_respan,
    Directive.respanAll_respanAll, Function.comp_apply]

theorem InlineHead.respan_respan (head : InlineHead) :
    (head.respan before).respan after = head.respan (after ∘ before) := by
  simp only [respan, Directive.respanAll_respanAll, Function.comp_apply]

theorem FragmentSpread.respan_respan (made : FragmentSpread) :
    (made.respan before).respan after = made.respan (after ∘ before) := by
  simp only [respan, Directive.respanAll_respanAll, Function.comp_apply]

mutual

theorem Selection.respan_respan : ∀ selection : Selection,
    (selection.respan before).respan after = selection.respan (after ∘ before)
  | .field head selections => by
    simp only [respan, FieldHead.respan_respan, respanAll_respanAll selections]
  | .inline head selections => by
    simp only [respan, InlineHead.respan_respan, respanAll_respanAll selections]
  | .spread made => by simp only [respan, FragmentSpread.respan_respan]

theorem Selection.respanAll_respanAll : ∀ selections : List Selection,
    respanAll after (respanAll before selections) = respanAll (after ∘ before) selections
  | [] => rfl
  | selection :: rest => by
    simp only [respanAll, respan_respan selection, respanAll_respanAll rest]

end

theorem VariableDefinition.respan_respan (declared : VariableDefinition) :
    (declared.respan before).respan after = declared.respan (after ∘ before) := by
  simp only [respan, map_respan? after before (Value.respan_respan after before),
    Directive.respanAll_respanAll]

theorem InputValue.respan_respan (input : InputValue) :
    (input.respan before).respan after = input.respan (after ∘ before) := by
  simp only [respan, map_respan? after before (Value.respan_respan after before),
    Directive.respanAll_respanAll]

theorem FieldDefinition.respan_respan (field : FieldDefinition) :
    (field.respan before).respan after = field.respan (after ∘ before) := by
  simp only [respan, map_respan after before (InputValue.respan_respan after before),
    Directive.respanAll_respanAll]

theorem EnumValue.respan_respan (value : EnumValue) :
    (value.respan before).respan after = value.respan (after ∘ before) := by
  simp only [respan, Directive.respanAll_respanAll]

theorem TypeBody.respan_respan (body : TypeBody) :
    (body.respan before).respan after = body.respan (after ∘ before) := by
  cases body with
  | scalar | union members => rfl
  | object interfaces fields | interface interfaces fields =>
    simp only [respan, map_respan after before (FieldDefinition.respan_respan after before)]
  | enum values =>
    simp only [respan, map_respan after before (EnumValue.respan_respan after before)]
  | input fields =>
    simp only [respan, map_respan after before (InputValue.respan_respan after before)]

theorem TypeDefinition.respan_respan (definition : TypeDefinition) :
    (definition.respan before).respan after = definition.respan (after ∘ before) := by
  simp only [respan, Directive.respanAll_respanAll, TypeBody.respan_respan]

theorem SchemaDefinition.respan_respan (definition : SchemaDefinition) :
    (definition.respan before).respan after = definition.respan (after ∘ before) := by
  simp only [respan, Directive.respanAll_respanAll]

theorem Operation.respan_respan (operation : Operation) :
    (operation.respan before).respan after = operation.respan (after ∘ before) := by
  simp only [respan, map_respan after before (VariableDefinition.respan_respan after before),
    Directive.respanAll_respanAll, Selection.respanAll_respanAll, Function.comp_apply]

theorem Fragment.respan_respan (fragment : Fragment) :
    (fragment.respan before).respan after = fragment.respan (after ∘ before) := by
  simp only [respan, Directive.respanAll_respanAll, Selection.respanAll_respanAll,
    Function.comp_apply]

theorem Definition.respan_respan (stated : Definition) :
    (stated.respan before).respan after = stated.respan (after ∘ before) := by
  cases stated with
  | operation stated => simp only [respan, Operation.respan_respan]
  | fragment stated => simp only [respan, Fragment.respan_respan]
  | directive definition =>
    simp only [respan, map_respan after before (InputValue.respan_respan after before)]
  | schema description definition => simp only [respan, SchemaDefinition.respan_respan]
  | schemaExtension extension => simp only [respan, SchemaDefinition.respan_respan]
  | type description definition => simp only [respan, TypeDefinition.respan_respan]
  | typeExtension extension => simp only [respan, TypeDefinition.respan_respan]

namespace Document

theorem respan_respan (document : Document) :
    (document.respan before).respan after = document.respan (after ∘ before) := by
  simp only [respan, map_respan after before (Definition.respan_respan after before)]

/-- Where the nodes of a document stood does not matter once its spans are erased. -/
@[simp] theorem erase_respan (document : Document) :
    (document.respan before).erase = document.erase :=
  respan_respan _ before document

end Document

end RelayWorkbench.GraphQL
