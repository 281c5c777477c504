import RelayWorkbench.GraphQL.CursorContext
import RelayWorkbench.Proofs.GraphQL.LegibleSchemas

/-! Uses of variables. A variable stands in the value of an argument, and from the type of the
argument the schema gives the type that is expected where the variable stands. -/

namespace RelayWorkbench.GraphQL

/-- The type that is expected of a field of an input object, if an object of `expected` has it. -/
def Schema.fieldExpected (schema : Schema) (expected : Option TypeRef) (key : Name) :
    Option TypeRef :=
  ((expected.map TypeRef.innerName).bind (schema.inputField? · key)).map (·.type)

/-- A variable stands under a cursor in a value. Each list and each object around it gives the type
that is expected next. -/
inductive Value.Stands (schema : Schema) (offset : Nat) (name : Name) :
    Option TypeRef → Value → Option TypeRef → Prop where
  | here {span : Option Span} {expected : Option TypeRef} (under : underCursor offset span) :
      Stands schema offset name expected (.scalar span (.ofVariable name)) expected
  | item {span : Option Span} {items : List Value} {expected found : Option TypeRef} {item : Value}
      (member : item ∈ items)
      (below : Stands schema offset name (expected.bind TypeRef.item?) item found) :
      Stands schema offset name expected (.list span items) found
  | field {span : Option Span} {fields : List (Name × Value)} {expected found : Option TypeRef}
      {key : Name} {value : Value} (member : (key, value) ∈ fields)
      (below : Stands schema offset name (schema.fieldExpected expected key) value found) :
      Stands schema offset name expected (.object span fields) found

def Value.IsVariable (name : Name) (value : Value) : Prop :=
  ∃ span, value = .scalar span (.ofVariable name)

/-- An argument of one of the directives, with the type that the schema gives it. -/
inductive Directive.Gives (schema : Schema) (argument : Argument) (directives : List Directive) :
    Option TypeRef → Prop where
  | argument {directive : Directive} (applied : directive ∈ directives)
      (member : argument ∈ directive.arguments) :
      Gives schema argument directives ((schema.directive? directive.name).bind
        (Schema.argumentType? ·.arguments argument.name))

/-- An argument somewhere in a selection on a type, with the type that the schema gives it. -/
inductive Selection.Gives (schema : Schema) (argument : Argument) (declared : Option TypeRef) :
    Option Name → Selection → Prop where
  | argument {onType : Option Name} {head : FieldHead} {selections : List Selection}
      (member : argument ∈ head.arguments)
      (typed : (onType.bind (schema.field? · head.name.name)).bind
        (Schema.argumentType? ·.arguments argument.name) = declared) :
      Gives schema argument declared onType (.field head selections)
  | fieldDirective {onType : Option Name} {head : FieldHead} {selections : List Selection}
      (own : Directive.Gives schema argument head.directives declared) :
      Gives schema argument declared onType (.field head selections)
  | inField {onType : Option Name} {head : FieldHead} {selections : List Selection}
      {selection : Selection} (member : selection ∈ selections)
      (below : Gives schema argument declared
        ((onType.bind (schema.field? · head.name.name)).map (·.type.innerName)) selection) :
      Gives schema argument declared onType (.field head selections)
  | inlineDirective {onType : Option Name} {head : InlineHead} {selections : List Selection}
      (own : Directive.Gives schema argument head.directives declared) :
      Gives schema argument declared onType (.inline head selections)
  | inInline {onType : Option Name} {head : InlineHead} {selections : List Selection}
      {selection : Selection} (member : selection ∈ selections)
      (below : Gives schema argument declared (head.onType.or onType) selection) :
      Gives schema argument declared onType (.inline head selections)
  | spreadDirective {onType : Option Name} {made : FragmentSpread}
      (own : Directive.Gives schema argument made.directives declared) :
      Gives schema argument declared onType (.spread made)

/-- An argument somewhere in a definition, with the type that the schema gives it. -/
inductive Definition.Gives (schema : Schema) (argument : Argument) (declared : Option TypeRef) :
    Definition → Prop where
  | operationDirective {stated : Operation}
      (own : Directive.Gives schema argument stated.directives declared) :
      Gives schema argument declared (.operation stated)
  | inOperation {stated : Operation} {selection : Selection}
      (member : selection ∈ stated.selections)
      (below : selection.Gives schema argument declared (schema.root? stated.kind)) :
      Gives schema argument declared (.operation stated)
  | fragmentDirective {stated : Fragment}
      (own : Directive.Gives schema argument stated.directives declared) :
      Gives schema argument declared (.fragment stated)
  | inFragment {stated : Fragment} {selection : Selection}
      (member : selection ∈ stated.selections)
      (below : selection.Gives schema argument declared (some stated.onType)) :
      Gives schema argument declared (.fragment stated)

section Values

variable {schema : Schema} {offset : Nat} {name : Name} {found : Option TypeRef}

mutual

/-- The search for a variable in a value finds where it stands. -/
theorem Value.stands_of_variableAt? : ∀ (value : Value) (expected : Option TypeRef),
    value.variableAt? schema offset expected = some (name, found) →
      Value.Stands schema offset name expected value found
  | .scalar span leaf, expected, searched => by
    simp only [variableAt?] at searched
    split at searched
    · split at searched
      · next under =>
        cases searched
        exact .here under
      · cases searched
    · cases searched
  | .list span items, expected, searched => by
    simp only [variableAt?] at searched
    split at searched
    · obtain ⟨item, member, below⟩ := stands_of_variableInItems? items _ searched
      exact .item member below
    · cases searched
  | .object span fields, expected, searched => by
    simp only [variableAt?] at searched
    split at searched
    · obtain ⟨key, value, member, below⟩ := stands_of_variableInFields? fields _ searched
      exact .field member below
    · cases searched

theorem Value.stands_of_variableInItems? : ∀ (items : List Value) (expected : Option TypeRef),
    variableInItems? schema offset expected items = some (name, found) →
      ∃ item ∈ items, Value.Stands schema offset name expected item found
  | [], expected, searched => by cases searched
  | item :: rest, expected, searched => by
    simp only [variableInItems?] at searched
    rcases Option.or_eq_some_iff.mp searched with here | ⟨-, later⟩
    · exact ⟨item, List.mem_cons_self, stands_of_variableAt? item _ here⟩
    · obtain ⟨other, member, below⟩ := stands_of_variableInItems? rest _ later
      exact ⟨other, List.mem_cons_of_mem _ member, below⟩

theorem Value.stands_of_variableInFields? : ∀ (fields : List (Name × Value))
    (inputType : Option Name),
      variableInFields? schema offset inputType fields = some (name, found) →
        ∃ key value, (key, value) ∈ fields ∧ Value.Stands schema offset name
          ((inputType.bind (schema.inputField? · key)).map (·.type)) value found
  | [], inputType, searched => by cases searched
  | (key, value) :: rest, inputType, searched => by
    simp only [variableInFields?] at searched
    rcases Option.or_eq_some_iff.mp searched with here | ⟨-, later⟩
    · exact ⟨key, value, List.mem_cons_self, stands_of_variableAt? value _ here⟩
    · obtain ⟨other, made, member, below⟩ := stands_of_variableInFields? rest _ later
      exact ⟨other, made, List.mem_cons_of_mem _ member, below⟩

end

/-- Of a variable that is the whole value, what is expected of the value is expected. -/
theorem Value.Stands.eq_of_isVariable {value : Value} {expected : Option TypeRef} {other : Name}
    (stands : Value.Stands schema offset name expected value found)
    (whole : value.IsVariable other) : found = expected := by
  obtain ⟨span, rfl⟩ := whole
  cases stands
  rfl

end Values

section Leaves

variable {schema : Schema} {argument : Argument} {declared : Option TypeRef} {good : Lexeme → Prop}

theorem Value.Stands.of_leaves {offset : Nat} {name : Name} {value : Value}
    {expected found : Option TypeRef}
    (stands : Value.Stands schema offset name expected value found)
    (written : ∀ leaf ∈ value.leaves, good leaf) : good (.name name) := by
  induction stands with
  | here => exact written _ (List.mem_singleton_self _)
  | item member _ ih => exact ih (Value.forall_leaves_list.mp written _ member)
  | field member _ ih => exact ih (Value.forall_leaves_object.mp written _ member).2

theorem Directive.Gives.of_leaves {directives : List Directive}
    (given : Directive.Gives schema argument directives declared)
    (written : ∀ directive ∈ directives, ∀ leaf ∈ directive.leaves, good leaf) :
    ∀ leaf ∈ argument.leaves, good leaf := by
  obtain ⟨applied, member⟩ := given
  exact (Directive.forall_leaves.mp (written _ applied)).2 argument member

theorem Selection.Gives.of_leaves {onType : Option Name} {selection : Selection}
    (given : selection.Gives schema argument declared onType)
    (written : ∀ leaf ∈ selection.leaves, good leaf) : ∀ leaf ∈ argument.leaves, good leaf := by
  induction given with
  | argument member =>
    obtain ⟨-, -, arguments, -⟩ :=
      FieldHead.forall_leaves.mp (Selection.forall_leaves_field.mp written).1
    exact arguments argument member
  | fieldDirective own =>
    obtain ⟨-, -, -, directives⟩ :=
      FieldHead.forall_leaves.mp (Selection.forall_leaves_field.mp written).1
    exact own.of_leaves directives
  | inField member _ ih => exact ih ((Selection.forall_leaves_field.mp written).2 _ member)
  | inlineDirective own =>
    exact own.of_leaves
      (InlineHead.forall_leaves.mp (Selection.forall_leaves_inline.mp written).1).2
  | inInline member _ ih => exact ih ((Selection.forall_leaves_inline.mp written).2 _ member)
  | spreadDirective own => exact own.of_leaves (FragmentSpread.forall_leaves.mp written).2

theorem Definition.Gives.of_leaves {definition : Definition}
    (given : definition.Gives schema argument declared)
    (written : ∀ leaf ∈ definition.leaves, good leaf) : ∀ leaf ∈ argument.leaves, good leaf := by
  cases given with
  | operationDirective own => exact own.of_leaves (Operation.forall_leaves.mp written).2.2.1
  | inOperation member below =>
    exact below.of_leaves ((Operation.forall_leaves.mp written).2.2.2 _ member)
  | fragmentDirective own => exact own.of_leaves (Fragment.forall_leaves.mp written).2.2.1
  | inFragment member below =>
    exact below.of_leaves ((Fragment.forall_leaves.mp written).2.2.2 _ member)

end Leaves

namespace CursorContext

/-- A variable that stands in an argument that satisfies a condition. -/
def UseStands (schema : Schema) (offset : Nat) (gives : Argument → Option TypeRef → Prop)
    (use : VariableUse) : Prop :=
  ∃ argument, gives argument use.argumentType ∧
    Value.Stands schema offset use.name use.argumentType argument.value use.expected

/-- The variable of a place, if it is on one. -/
def PlaceStands (schema : Schema) (offset : Nat) (gives : Argument → Option TypeRef → Prop)
    (place : CursorPlace) : Prop :=
  ∀ name, place.token = .ofVariable name →
    UseStands schema offset gives ⟨name, place.inputType, place.argumentType⟩

variable {schema : Schema} {offset : Nat} {gives : Argument → Option TypeRef → Prop}

theorem UseStands.imp {more : Argument → Option TypeRef → Prop} {use : VariableUse}
    (stands : UseStands schema offset gives use)
    (weaker : ∀ argument declared, gives argument declared → more argument declared) :
    UseStands schema offset more use := by
  obtain ⟨argument, given, below⟩ := stands
  exact ⟨argument, weaker _ _ given, below⟩

theorem PlaceStands.imp {more : Argument → Option TypeRef → Prop} {place : CursorPlace}
    (stands : PlaceStands schema offset gives place)
    (weaker : ∀ argument declared, gives argument declared → more argument declared) :
    PlaceStands schema offset more place :=
  fun name token => (stands name token).imp weaker

theorem PlaceStands.orUse {place : CursorPlace} {use : Option VariableUse}
    (stands : PlaceStands schema offset gives place)
    (found : ∀ made ∈ use, UseStands schema offset gives made) :
    PlaceStands schema offset gives (place.orUse use) := by
  unfold CursorPlace.orUse
  split
  · next made _ =>
    intro name same
    cases same
    exact found made rfl
  · exact stands

theorem stands_argumentUse? {declared : Name → Option TypeRef} {arguments : List Argument} :
    ∀ use ∈ argumentUse? schema offset declared arguments, UseStands schema offset
      (fun argument type => argument ∈ arguments ∧ type = declared argument.name) use := by
  intro use found
  obtain ⟨argument, member, found⟩ := List.exists_of_findSome?_eq_some found
  dsimp only at found
  split at found
  · cases found
  obtain ⟨⟨name, expected⟩, here, found⟩ := Option.bind_eq_some_iff.mp found
  cases found
  exact ⟨argument, ⟨member, rfl⟩, Value.stands_of_variableAt? _ _ here⟩

theorem stands_directiveUse? {directives : List Directive} :
    ∀ use ∈ directiveUse? schema offset directives, UseStands schema offset
      (fun argument => Directive.Gives schema argument directives) use := by
  intro use found
  obtain ⟨directive, applied, found⟩ := List.exists_of_findSome?_eq_some found
  dsimp only at found
  split at found
  · cases found
  refine (stands_argumentUse? use found).imp ?_
  rintro argument type ⟨member, rfl⟩
  exact .argument applied member

theorem stands_fieldUse? {onType : Option Name} {head : FieldHead} {selections : List Selection} :
    ∀ use ∈ fieldUse? schema offset (onType.bind (schema.field? · head.name.name)) head,
      UseStands schema offset
        (fun argument type => Selection.Gives schema argument type onType (.field head selections))
        use := by
  intro use found
  rcases Option.or_eq_some_iff.mp found with here | ⟨-, there⟩
  · refine (stands_argumentUse? use here).imp ?_
    rintro argument type ⟨member, rfl⟩
    exact .argument member rfl
  · exact (stands_directiveUse? use there).imp fun argument type own => .fieldDirective own

mutual

theorem stands_placeInSelection : ∀ (selection : Selection) (path : List Name)
    (onType : Option Name), PlaceStands schema offset
      (fun argument type => selection.Gives schema argument type onType)
      (placeInSelection schema offset path onType selection)
  | .field head selections, path, onType => by
    simp only [placeInSelection]
    split
    · exact nofun
    · split
      · next use found =>
        refine PlaceStands.orUse nofun ?_
        rintro made ⟨⟩
        exact stands_fieldUse? use found
      · refine (stands_placeInSet selections _ _).imp ?_
        rintro argument type ⟨selection, member, below⟩
        exact .inField member below
  | .inline head selections, path, onType => by
    refine PlaceStands.orUse ((stands_placeInSet selections _ _).imp ?_) fun made found =>
      (stands_directiveUse? made found).imp fun argument type own => .inlineDirective own
    rintro argument type ⟨selection, member, below⟩
    exact .inInline member below
  | .spread made, path, onType =>
    PlaceStands.orUse nofun fun use found =>
      (stands_directiveUse? use found).imp fun argument type own => .spreadDirective own

theorem stands_placeInSet : ∀ (selections : List Selection) (path : List Name)
    (onType : Option Name), PlaceStands schema offset
      (fun argument type => ∃ selection ∈ selections, selection.Gives schema argument type onType)
      (placeInSet schema offset path onType selections)
  | [], path, onType => nofun
  | first :: rest, path, onType => by
    simp only [placeInSet]
    split
    · exact (stands_placeInSelection first path onType).imp fun argument type below =>
        ⟨first, List.mem_cons_self, below⟩
    · refine (stands_placeInSet rest path onType).imp ?_
      rintro argument type ⟨selection, member, below⟩
      exact ⟨selection, List.mem_cons_of_mem _ member, below⟩

end

theorem stands_placeInDefinition (stated : Definition) : PlaceStands schema offset
    (fun argument type => stated.Gives schema argument type)
    (placeInDefinition schema offset stated) := by
  cases stated with
  | operation stated =>
    refine PlaceStands.orUse ((stands_placeInSet stated.selections _ _).imp ?_) fun made found =>
      (stands_directiveUse? made found).imp fun argument type own => .operationDirective own
    rintro argument type ⟨selection, member, below⟩
    exact .inOperation member below
  | fragment stated =>
    refine PlaceStands.orUse ((stands_placeInSet stated.selections _ _).imp ?_) fun made found =>
      (stands_directiveUse? made found).imp fun argument type own => .fragmentDirective own
    rintro argument type ⟨selection, member, below⟩
    exact .inFragment member below
  | directive | schema | schemaExtension | type | typeExtension => exact nofun

/-- A variable under a cursor stands in the value of an argument of the definition under the
cursor. The types that are found with it are the type of that argument and the type that is expected
where the variable stands. -/
theorem exists_argument_of_ofOffset {document : Document} {name : Name}
    (token : (ofOffset schema document offset).place.token = .ofVariable name) :
    ∃ definition argument,
      document.definitions[(ofOffset schema document offset).definition]? = some definition ∧
      definition.Gives schema argument (ofOffset schema document offset).place.argumentType ∧
      Value.Stands schema offset name (ofOffset schema document offset).place.argumentType
        argument.value (ofOffset schema document offset).place.inputType := by
  revert token
  unfold ofOffset
  split
  · exact nofun
  · next index _ =>
    cases there : document.definitions[index]? with
    | none => exact nofun
    | some definition =>
      intro token
      obtain ⟨argument, gives, stands⟩ := stands_placeInDefinition definition name token
      exact ⟨definition, argument, rfl, gives, stands⟩

end CursorContext

section Legible

private theorem legible_argumentType? {arguments : List InputValue} {name : Name}
    (low : ∀ argument ∈ arguments, argument.type.Legible) :
    ∀ type ∈ Schema.argumentType? arguments name, type.Legible := by
  intro type found
  obtain ⟨input, first, rfl⟩ := Option.map_eq_some_iff.mp found
  exact low input (List.mem_of_find?_eq_some first)

variable {schema : Schema} (known : schema.Legible) {argument : Argument}
include known

theorem Directive.Gives.legible {directives : List Directive} {declared : Option TypeRef}
    (given : Directive.Gives schema argument directives declared) :
    ∀ type ∈ declared, type.Legible := by
  obtain ⟨applied, member⟩ := given
  intro type found
  obtain ⟨definition, there, typed⟩ := Option.bind_eq_some_iff.mp found
  exact legible_argumentType? (fun input => known.of_directive? there) type typed

theorem Selection.Gives.legible {onType : Option Name} {declared : Option TypeRef}
    {selection : Selection} (given : selection.Gives schema argument declared onType) :
    ∀ type ∈ declared, type.Legible := by
  induction given with
  | argument _ typed =>
    subst typed
    intro type found
    obtain ⟨field, there, typed⟩ := Option.bind_eq_some_iff.mp found
    obtain ⟨typeName, -, there⟩ := Option.bind_eq_some_iff.mp there
    obtain ⟨definition, there, first⟩ := Option.bind_eq_some_iff.mp there
    have own := (known.of_mem_fields there (List.mem_of_find?_eq_some first)).2
    exact legible_argumentType? (fun input among => (own input among).2) type typed
  | fieldDirective own | inlineDirective own | spreadDirective own =>
    exact Directive.Gives.legible known own
  | inField _ _ ih | inInline _ _ ih => exact ih

theorem Definition.Gives.legible {declared : Option TypeRef} {definition : Definition}
    (given : definition.Gives schema argument declared) : ∀ type ∈ declared, type.Legible := by
  cases given with
  | operationDirective own | fragmentDirective own => exact Directive.Gives.legible known own
  | inOperation _ below | inFragment _ below => exact Selection.Gives.legible known below

theorem Value.Stands.legible {offset : Nat} {name : Name} {value : Value}
    {expected found : Option TypeRef}
    (stands : Value.Stands schema offset name expected value found)
    (outer : ∀ type ∈ expected, type.Legible) : ∀ type ∈ found, type.Legible := by
  induction stands with
  | here => exact outer
  | item _ _ ih =>
    refine ih fun type member => ?_
    obtain ⟨list, same, inner⟩ := Option.bind_eq_some_iff.mp member
    exact (outer list same).item inner
  | field _ _ ih =>
    refine ih fun type member => ?_
    obtain ⟨input, there, rfl⟩ := Option.map_eq_some_iff.mp member
    obtain ⟨typeName, -, there⟩ := Option.bind_eq_some_iff.mp there
    exact known.of_inputField? there

end Legible

end RelayWorkbench.GraphQL
