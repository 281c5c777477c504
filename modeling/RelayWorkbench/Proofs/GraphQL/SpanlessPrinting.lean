import Mathlib
import RelayWorkbench.GraphQL.Document.Printer
import RelayWorkbench.GraphQL.Document.Spans

/-! The printed form of a document says nothing of where its nodes stood. -/

namespace RelayWorkbench.GraphQL

variable (move : Respan)

mutual

theorem Value.print_respan (layout : Layout) : ∀ value : Value,
    (value.respan move).print layout = value.print layout
  | .scalar _ _ => by simp only [respan, print]
  | .list _ items => by simp only [respan, print, printItems_respan layout.inner items]
  | .object _ fields => by simp only [respan, print, printFields_respan layout.inner fields]

theorem Value.printItems_respan (layout : Layout) : ∀ items : List Value,
    printItems layout (respanItems move items) = printItems layout items
  | [] => rfl
  | item :: rest => by
    simp only [respanItems, printItems, print_respan layout item, printItems_respan layout rest]

theorem Value.printFields_respan (layout : Layout) : ∀ fields : List (Name × Value),
    printFields layout (respanFields move fields) = printFields layout fields
  | [] => rfl
  | (_, value) :: rest => by
    simp only [respanFields, printFields, print_respan layout value, printFields_respan layout rest]

end

theorem Argument.print_respan (argument : Argument) :
    (argument.respan move).print = argument.print :=
  congrArg (argument.name ++ ": ".toList ++ ·) (argument.value.print_respan move none)

private theorem map_print {α β : Type} {print : α → β} {respan : α → α}
    (same : ∀ node, print (respan node) = print node) (nodes : List α) :
    (nodes.map respan).map print = nodes.map print := by
  simp [same]

theorem Argument.printAll_respan (arguments : List Argument) :
    printAll (arguments.map (·.respan move)) = printAll arguments := by
  simp only [printAll, List.isEmpty_map, map_print (print_respan move)]

theorem Directive.print_respan (directive : Directive) :
    (directive.respan move).print = directive.print :=
  congrArg ('@' :: directive.name ++ ·) (Argument.printAll_respan move directive.arguments)

theorem Directive.printAll_respan (directives : List Directive) :
    printAll (directives.map (·.respan move)) = printAll directives := by
  simp only [printAll, List.flatMap_map, print_respan move]

theorem FieldHead.print_respan (head : FieldHead) : (head.respan move).print = head.print := by
  obtain ⟨span, label, name, arguments, directives⟩ := head
  refine congrArg₂ (· ++ ·) (congrArg₂ (· ++ ·) ?_ (Argument.printAll_respan move arguments))
    (Directive.printAll_respan move directives)
  cases label <;> rfl

theorem InlineHead.print_respan (head : InlineHead) : (head.respan move).print = head.print :=
  congrArg (_ ++ ·) (Directive.printAll_respan move head.directives)

theorem FragmentSpread.print_respan (made : FragmentSpread) :
    (made.respan move).print = made.print :=
  congrArg (_ ++ ·) (Directive.printAll_respan move made.directives)

mutual

theorem Selection.lines_respan (level : Nat) : ∀ selection : Selection,
    (selection.respan move).lines level = selection.lines level
  | .field head [] => by simp only [respan, respanAll, lines, FieldHead.print_respan]
  | .field head (first :: more) => by
    simp only [respan, respanAll, lines, FieldHead.print_respan, lines_respan (level + 1) first,
      linesOfAll_respan (level + 1) more]
  | .inline head [] => by simp only [respan, respanAll, lines, InlineHead.print_respan]
  | .inline head (first :: more) => by
    simp only [respan, respanAll, lines, InlineHead.print_respan, lines_respan (level + 1) first,
      linesOfAll_respan (level + 1) more]
  | .spread made => by simp only [respan, lines, FragmentSpread.print_respan]

theorem Selection.linesOfAll_respan (level : Nat) : ∀ selections : List Selection,
    linesOfAll level (respanAll move selections) = linesOfAll level selections
  | [] => rfl
  | selection :: rest => by
    simp only [respanAll, linesOfAll, lines_respan level selection, linesOfAll_respan level rest]

end

theorem Selection.printSet_respan (selections : List Selection) :
    printSet (respanAll move selections) = printSet selections := by
  cases selections with
  | nil => rfl
  | cons first more =>
    have lines := linesOfAll_respan move 1 (first :: more)
    simp only [respanAll] at lines ⊢
    simp only [printSet, lines]

private theorem default_respan (layout : Layout) (default : Option Value) :
    (match default.map (·.respan move) with
      | some value => " = ".toList ++ value.print layout
      | none => []) = match default with
      | some value => " = ".toList ++ value.print layout
      | none => [] := by
  cases default with
  | none => rfl
  | some value => exact congrArg (_ ++ ·) (value.print_respan move layout)

theorem VariableDefinition.print_respan (declared : VariableDefinition) :
    (declared.respan move).print = declared.print :=
  congrArg₂ (· ++ ·) (congrArg (_ ++ ·) (default_respan move none declared.default))
    (Directive.printAll_respan move declared.directives)

theorem InputValue.print_respan (layout : Layout) (input : InputValue) :
    (input.respan move).print layout = input.print layout :=
  congrArg₂ (· ++ ·) (congrArg (_ ++ ·) (default_respan move layout input.default))
    (Directive.printAll_respan move input.directives)

theorem InputValue.printArguments_respan (level : Nat) (arguments : List InputValue) :
    printArguments level (arguments.map (·.respan move)) = printArguments level arguments := by
  have own : ∀ input : InputValue, ((input.respan move).description.isSome ||
      !(input.respan move).directives.isEmpty) =
        (input.description.isSome || !input.directives.isEmpty) := by
    intro input
    simp [respan]
  simp only [printArguments, List.isEmpty_map, List.any_map, Function.comp_def, own,
    map_print (print_respan move _)]

theorem FieldDefinition.print_respan (level : Nat) (field : FieldDefinition) :
    (field.respan move).print level = field.print level :=
  congrArg₂ (· ++ ·) (congrArg (· ++ ": ".toList ++ field.type.print) (congrArg (_ ++ ·)
    (InputValue.printArguments_respan move level field.arguments)))
    (Directive.printAll_respan move field.directives)

theorem EnumValue.print_respan (level : Nat) (value : EnumValue) :
    (value.respan move).print level = value.print level :=
  congrArg (_ ++ ·) (Directive.printAll_respan move value.directives)

theorem TypeDefinition.print_respan (definition : TypeDefinition) :
    (definition.respan move).print = definition.print := by
  have directives := Directive.printAll_respan move definition.directives
  obtain ⟨name, stated, body⟩ := definition
  cases body with
  | scalar => exact congrArg (_ ++ ·) directives
  | object interfaces fields | interface interfaces fields =>
    refine congrArg (_ ++ ·) (congrArg₂ (· ++ ·) (congrArg (_ ++ ·) directives) ?_)
    exact congrArg _ (map_print (FieldDefinition.print_respan move 1) fields)
  | union members => exact congrArg (_ ++ ·) (congrArg (· ++ _) directives)
  | enum values =>
    refine congrArg (_ ++ ·) (congrArg₂ (· ++ ·) directives ?_)
    exact congrArg _ (map_print (EnumValue.print_respan move 1) values)
  | input fields =>
    refine congrArg (_ ++ ·) (congrArg₂ (· ++ ·) directives ?_)
    exact congrArg _ (map_print (InputValue.print_respan move (some 1)) fields)

theorem SchemaDefinition.print_respan (definition : SchemaDefinition) :
    (definition.respan move).print = definition.print :=
  congrArg ("schema".toList ++ · ++ _) (Directive.printAll_respan move definition.directives)

theorem Operation.print_respan (first : Bool) (operation : Operation) :
    (operation.respan move).print first = operation.print first := by
  have short : (operation.respan move).isShorthand = operation.isShorthand := by
    simp only [isShorthand, respan, List.isEmpty_map]
    rfl
  have set := Selection.printSet_respan move operation.selections
  have declared := map_print (VariableDefinition.print_respan move) operation.variableDefinitions
  have directives := Directive.printAll_respan move operation.directives
  unfold print
  rw [short]
  simp only [respan, List.isEmpty_map, set, declared, directives]

theorem Fragment.print_respan (fragment : Fragment) :
    (fragment.respan move).print = fragment.print :=
  congrArg₂ (· ++ ·) (congrArg (_ ++ ·) (Directive.printAll_respan move fragment.directives))
    (congrArg (' ' :: ·) (Selection.printSet_respan move fragment.selections))

theorem Definition.print_respan (first : Bool) (stated : Definition) :
    (stated.respan move).print first = stated.print first := by
  cases stated with
  | operation stated => exact stated.print_respan move first
  | fragment stated => exact stated.print_respan move
  | directive stated =>
    exact congrArg (_ ++ · ++ _ ++ _ ++ _)
      (InputValue.printArguments_respan move 0 stated.arguments)
  | schema description stated => exact congrArg (_ ++ ·) (stated.print_respan move)
  | schemaExtension stated => exact congrArg (_ ++ ·) (stated.print_respan move)
  | type description stated => exact congrArg (_ ++ ·) (stated.print_respan move)
  | typeExtension stated => exact congrArg (_ ++ ·) (stated.print_respan move)

theorem Document.print_respan (document : Document) :
    (document.respan move).print = document.print := by
  obtain ⟨definitions⟩ := document
  cases definitions with
  | nil => rfl
  | cons first more =>
    simp only [print, respan, List.map_cons, Definition.print_respan,
      map_print (Definition.print_respan move false)]

/-- Documents that differ only in their spans are printed the same. -/
theorem Document.print_eq_of_erase_eq {first second : Document}
    (same : first.erase = second.erase) : first.print = second.print := by
  rw [← print_respan (fun _ => none) first, ← print_respan (fun _ => none) second]
  exact congrArg print same

end RelayWorkbench.GraphQL
