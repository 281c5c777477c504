import RelayWorkbench.GraphQL.CursorContext
import RelayWorkbench.Proofs.GraphQL.SchemaWords

/-! The words a cursor is on. They are written in the document, and the types that are expected
where it stands are written in the schema. -/

namespace RelayWorkbench.GraphQL

section Values

variable {schema : Schema} {offset : Nat} {name : Name} {type : Option TypeRef}

mutual

theorem Value.mem_leaves_of_variableAt? : ∀ (value : Value) (expected : Option TypeRef),
    value.variableAt? schema offset expected = some (name, type) → .name name ∈ value.leaves
  | .scalar span leaf, expected, found => by
    simp only [variableAt?] at found
    split at found
    · split at found
      · cases found
        exact List.mem_singleton_self _
      · cases found
    · cases found
  | .list span items, expected, found => by
    simp only [variableAt?] at found
    split at found
    · exact mem_leaves_of_variableInItems? items _ found
    · cases found
  | .object span fields, expected, found => by
    simp only [variableAt?] at found
    split at found
    · exact mem_leaves_of_variableInFields? fields _ found
    · cases found

theorem Value.mem_leaves_of_variableInItems? : ∀ (items : List Value) (expected : Option TypeRef),
    variableInItems? schema offset expected items = some (name, type) →
      .name name ∈ leavesOfItems items
  | [], expected, found => by cases found
  | item :: rest, expected, found => by
    simp only [variableInItems?] at found
    rw [leavesOfItems, List.mem_append]
    rcases Option.or_eq_some_iff.mp found with here | ⟨-, later⟩
    · exact .inl (mem_leaves_of_variableAt? item _ here)
    · exact .inr (mem_leaves_of_variableInItems? rest _ later)

theorem Value.mem_leaves_of_variableInFields? : ∀ (fields : List (Name × Value))
    (inputType : Option Name),
      variableInFields? schema offset inputType fields = some (name, type) →
        .name name ∈ leavesOfFields fields
  | [], inputType, found => by cases found
  | (key, value) :: rest, inputType, found => by
    simp only [variableInFields?] at found
    rw [leavesOfFields, List.mem_append]
    rcases Option.or_eq_some_iff.mp found with here | ⟨-, later⟩
    · exact .inl (List.mem_cons_of_mem _ (mem_leaves_of_variableAt? value _ here))
    · exact .inr (mem_leaves_of_variableInFields? rest _ later)

end

end Values

namespace CursorContext

/-- A use of a variable that is a word, where a type of words is expected. -/
structure UseWorded (use : VariableUse) : Prop where
  name : Lexeme.IsWord use.name
  argumentType : ∀ type ∈ use.argumentType, ∀ leaf ∈ type.leaves, leaf.Worded

/-- A place of which all names are words. -/
structure PlaceWorded (place : CursorPlace) : Prop where
  token : ∀ name, place.token = .ofVariable name → Lexeme.IsWord name
  path : ∀ name ∈ place.path, Lexeme.IsWord name
  argumentType : ∀ type ∈ place.argumentType, ∀ leaf ∈ type.leaves, leaf.Worded

theorem PlaceWorded.orUse {place : CursorPlace} {use : Option VariableUse}
    (worded : PlaceWorded place) (found : ∀ made ∈ use, UseWorded made) :
    PlaceWorded (place.orUse use) := by
  unfold CursorPlace.orUse
  split
  · next made _ =>
    have used := found made rfl
    exact ⟨fun name same => by cases same; exact used.name, worded.path, used.argumentType⟩
  · exact worded

private theorem placeWorded_path {path : List Name} {parentType : Option Name}
    (words : ∀ name ∈ path, Lexeme.IsWord name) : PlaceWorded { path, parentType } :=
  ⟨nofun, words, nofun⟩

section Places

variable {schema : Schema} {offset : Nat}

theorem worded_argumentUse? {declared : Name → Option TypeRef} {arguments : List Argument}
    (written : ∀ argument ∈ arguments, ∀ leaf ∈ argument.leaves, leaf.Worded)
    (known : ∀ name, ∀ type ∈ declared name, ∀ leaf ∈ type.leaves, leaf.Worded) :
    ∀ use ∈ argumentUse? schema offset declared arguments, UseWorded use := by
  intro use found
  obtain ⟨argument, member, found⟩ := List.exists_of_findSome?_eq_some found
  dsimp only at found
  split at found
  · cases found
  obtain ⟨⟨name, expected⟩, here, found⟩ := Option.bind_eq_some_iff.mp found
  cases found
  have leaves := (Argument.forall_leaves.mp (written argument member)).2
  exact ⟨leaves _ (Value.mem_leaves_of_variableAt? _ _ here), known argument.name⟩

theorem worded_directiveUse? (worded : schema.Worded) {directives : List Directive}
    (written : ∀ directive ∈ directives, ∀ leaf ∈ directive.leaves, leaf.Worded) :
    ∀ use ∈ directiveUse? schema offset directives, UseWorded use := by
  intro use found
  obtain ⟨directive, member, found⟩ := List.exists_of_findSome?_eq_some found
  dsimp only at found
  split at found
  · cases found
  refine worded_argumentUse? (Directive.forall_leaves.mp (written directive member)).2 ?_ use found
  intro name type declared
  obtain ⟨definition, first, typed⟩ := Option.bind_eq_some_iff.mp declared
  have known := worded.directives definition (List.mem_of_find?_eq_some first)
  exact Schema.worded_argumentType? (DirectiveDefinition.forall_leaves.mp known).2.2.1 typed

theorem worded_fieldUse? (worded : schema.Worded) {definition : Option FieldDefinition}
    {head : FieldHead}
    (known : ∀ field ∈ definition, ∀ leaf ∈ field.leaves, leaf.Worded)
    (written : ∀ leaf ∈ head.leaves, leaf.Worded) :
    ∀ use ∈ fieldUse? schema offset definition head, UseWorded use := by
  obtain ⟨-, -, arguments, directives⟩ := FieldHead.forall_leaves.mp written
  intro use found
  rcases Option.or_eq_some_iff.mp found with here | ⟨-, there⟩
  · refine worded_argumentUse? arguments ?_ use here
    intro name type declared
    obtain ⟨field, same, typed⟩ := Option.bind_eq_some_iff.mp declared
    have own := (FieldDefinition.forall_leaves.mp (known field same)).2.2.1
    exact Schema.worded_argumentType? own typed
  · exact worded_directiveUse? worded directives use there

mutual

theorem worded_placeInSelection (worded : schema.Worded) : ∀ (selection : Selection)
    (path : List Name) (parentType : Option Name), (∀ leaf ∈ selection.leaves, leaf.Worded) →
      (∀ name ∈ path, Lexeme.IsWord name) →
        PlaceWorded (placeInSelection schema offset path parentType selection)
  | .field head selections, path, parentType, written, words => by
    obtain ⟨own, below⟩ := Selection.forall_leaves_field.mp written
    have named : Lexeme.IsWord head.name.name := (FieldHead.forall_leaves.mp own).2.1
    have further : ∀ name ∈ path ++ [head.name.name], Lexeme.IsWord name :=
      List.forall_mem_append.mpr ⟨words, List.forall_mem_singleton.mpr named⟩
    have known : ∀ field ∈ parentType.bind (schema.field? · head.name.name),
        ∀ leaf ∈ field.leaves, leaf.Worded := by
      intro field found
      obtain ⟨typeName, -, found⟩ := Option.bind_eq_some_iff.mp found
      exact worded.of_field? found
    simp only [placeInSelection]
    split
    · exact ⟨nofun, further, nofun⟩
    · split
      · next use found =>
        have used := worded_fieldUse? worded known own use found
        refine (placeWorded_path further).orUse ?_
        rintro made ⟨⟩
        exact used
      · exact worded_placeInSet worded selections _ _ below further
  | .inline head selections, path, parentType, written, words => by
    obtain ⟨own, below⟩ := Selection.forall_leaves_inline.mp written
    exact (worded_placeInSet worded selections _ _ below words).orUse
      (worded_directiveUse? worded (InlineHead.forall_leaves.mp own).2)
  | .spread made, path, parentType, written, words =>
    (placeWorded_path words).orUse
      (worded_directiveUse? worded (FragmentSpread.forall_leaves.mp written).2)

theorem worded_placeInSet (worded : schema.Worded) : ∀ (selections : List Selection)
    (path : List Name) (parentType : Option Name),
      (∀ selection ∈ selections, ∀ leaf ∈ selection.leaves, leaf.Worded) →
      (∀ name ∈ path, Lexeme.IsWord name) →
        PlaceWorded (placeInSet schema offset path parentType selections)
  | [], path, parentType, _, words => placeWorded_path words
  | first :: rest, path, parentType, written, words => by
    obtain ⟨own, others⟩ := List.forall_mem_cons.mp written
    simp only [placeInSet]
    split
    · exact worded_placeInSelection worded first path parentType own words
    · exact worded_placeInSet worded rest path parentType others words

end

theorem worded_placeInDefinition (worded : schema.Worded) {stated : Definition}
    (written : ∀ leaf ∈ stated.leaves, leaf.Worded) :
    PlaceWorded (placeInDefinition schema offset stated) := by
  cases stated with
  | operation stated =>
    obtain ⟨-, -, directives, below⟩ := Operation.forall_leaves.mp written
    exact (worded_placeInSet worded _ _ _ below (List.forall_mem_nil _)).orUse
      (worded_directiveUse? worded directives)
  | fragment stated =>
    obtain ⟨-, -, directives, below⟩ := Fragment.forall_leaves.mp written
    exact (worded_placeInSet worded _ _ _ below (List.forall_mem_nil _)).orUse
      (worded_directiveUse? worded directives)
  | directive | schema | schemaExtension | type | typeExtension => exact ⟨nofun, nofun, nofun⟩

/-- Where a cursor is in a document of words, all names are words. -/
theorem worded_ofOffset (worded : schema.Worded) {document : Document}
    (written : ∀ leaf ∈ document.leaves, leaf.Worded) :
    PlaceWorded (ofOffset schema document offset).place := by
  unfold ofOffset
  split
  · exact ⟨nofun, nofun, nofun⟩
  · next index _ =>
    cases found : document.definitions[index]? with
    | none => exact ⟨nofun, nofun, nofun⟩
    | some stated =>
      exact worded_placeInDefinition worded
        (Document.forall_leaves.mp written stated (List.mem_of_getElem? found))

end Places

end CursorContext

end RelayWorkbench.GraphQL
