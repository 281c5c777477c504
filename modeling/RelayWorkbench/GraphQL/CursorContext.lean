import RelayWorkbench.GraphQL.Schema

/-! What a cursor in a document is on. The search descends from the definition under the
cursor into the first selection under it, and keeps the type that each selection set is on. -/

namespace RelayWorkbench.GraphQL

/-- What the cursor is on. -/
inductive CursorToken where
  /-- The name or the alias of a field. -/
  | field (name : Name)
  /-- A variable in the value of an argument. -/
  | ofVariable (name : Name)
  | other
  deriving DecidableEq, Repr

/-- A variable under the cursor. -/
structure VariableUse where
  name : Name
  /-- The type expected where the variable stands. -/
  expected : Option TypeRef
  /-- The declared type of the argument it stands in. -/
  argumentType : Option TypeRef

/-- What is known about a cursor inside a definition. -/
structure CursorPlace where
  token : CursorToken := .other
  /-- Names of the fields from the definition down to the cursor. -/
  path : List Name := []
  /-- Type of the innermost selection set around the cursor. -/
  parentType : Option Name := none
  /-- The field whose name or alias is under the cursor. -/
  field : Option Field := none
  /-- Name of the type of that field. -/
  fieldType : Option Name := none
  inputType : Option TypeRef := none
  argumentType : Option TypeRef := none

/-- A cursor in a document: the index of the definition under it, or of the first one, and
its place there. -/
structure CursorContext where
  definition : Nat := 0
  place : CursorPlace := {}

namespace CursorPlace

/-- The place with the variable that was found on the way to it, unless the place has a token
of its own. -/
def orUse (place : CursorPlace) (use : Option VariableUse) : CursorPlace :=
  match use, place.token with
  | some use, .other =>
    { place with
      token := .ofVariable use.name, inputType := use.expected, argumentType := use.argumentType }
  | _, _ => place

def isOnField (place : CursorPlace) : Bool := place.field.isSome

end CursorPlace

/-- Whether the cursor belongs to a node; nodes at unknown bytes are never under it. -/
def underCursor (offset : Nat) (span : Option Span) : Bool := span.any (·.touches offset)

namespace Value

mutual

/-- The variable under the cursor in a value, with the type expected where it stands. -/
def variableAt? (schema : Schema) (offset : Nat) (expected : Option TypeRef) :
    Value → Option (Name × Option TypeRef)
  | .scalar span leaf =>
    match leaf with
    | .ofVariable name => if underCursor offset span then some (name, expected) else none
    | _ => none
  | .list span items =>
    if underCursor offset span then
      variableInItems? schema offset (expected.bind TypeRef.item?) items
    else none
  | .object span fields =>
    if underCursor offset span then
      variableInFields? schema offset (expected.map TypeRef.innerName) fields
    else none

/-- The variable under the cursor in the items of a list. -/
def variableInItems? (schema : Schema) (offset : Nat) (expected : Option TypeRef) :
    List Value → Option (Name × Option TypeRef)
  | [] => none
  | item :: rest =>
    (variableAt? schema offset expected item).or (variableInItems? schema offset expected rest)

/-- The variable under the cursor in the fields of an object of a given input type. -/
def variableInFields? (schema : Schema) (offset : Nat) (inputType : Option Name) :
    List (Name × Value) → Option (Name × Option TypeRef)
  | [] => none
  | (name, value) :: rest =>
    let expected := (inputType.bind (schema.inputField? · name)).map (·.type)
    (variableAt? schema offset expected value).or (variableInFields? schema offset inputType rest)

end

end Value

namespace CursorContext

/-- The variable under the cursor in arguments, whose declared types are given by name. -/
def argumentUse? (schema : Schema) (offset : Nat) (declared : Name → Option TypeRef)
    (arguments : List Argument) : Option VariableUse :=
  arguments.findSome? fun argument => do
    if !underCursor offset argument.span then none
    let argumentType := declared argument.name
    let (name, expected) ← argument.value.variableAt? schema offset argumentType
    return ⟨name, expected, argumentType⟩

/-- The variable under the cursor in the arguments of directives. -/
def directiveUse? (schema : Schema) (offset : Nat) (directives : List Directive) :
    Option VariableUse :=
  directives.findSome? fun directive => do
    if !underCursor offset directive.span then none
    argumentUse? schema offset
      (fun name => (schema.directive? directive.name).bind (Schema.argumentType? ·.arguments name))
      directive.arguments

/-- The variable under the cursor in the arguments of a field, or else of its directives. -/
def fieldUse? (schema : Schema) (offset : Nat) (definition : Option FieldDefinition)
    (head : FieldHead) : Option VariableUse :=
  (argumentUse? schema offset (fun name => definition.bind (Schema.argumentType? ·.arguments name))
    head.arguments).or (directiveUse? schema offset head.directives)

mutual

/-- The place of a cursor that is somewhere on a selection. -/
def placeInSelection (schema : Schema) (offset : Nat) (path : List Name)
    (parentType : Option Name) : Selection → CursorPlace
  | .field head selections =>
    let definition := parentType.bind (schema.field? · head.name.name)
    let fieldType := definition.map (·.type.innerName)
    let path := path ++ [head.name.name]
    let onName := underCursor offset head.name.span || underCursor offset (head.label.bind (·.span))
    if onName then
      { token := .field head.name.name, path, parentType, field := some ⟨head, selections⟩,
        fieldType }
    else
      match fieldUse? schema offset definition head with
      | some use => ({ path, parentType } : CursorPlace).orUse (some use)
      | none => placeInSet schema offset path fieldType selections
  | .inline head selections =>
    let onType := head.onType.or parentType
    (placeInSet schema offset path onType selections).orUse
      (directiveUse? schema offset head.directives)
  | .spread made =>
    ({ path, parentType } : CursorPlace).orUse (directiveUse? schema offset made.directives)

/-- The place of a cursor in a selection set on `parentType`. -/
def placeInSet (schema : Schema) (offset : Nat) (path : List Name)
    (parentType : Option Name) : List Selection → CursorPlace
  | [] => { path, parentType }
  | selection :: rest =>
    if underCursor offset selection.span then
      placeInSelection schema offset path parentType selection
    else placeInSet schema offset path parentType rest

end

/-- The place of a cursor that is somewhere on a definition. -/
def placeInDefinition (schema : Schema) (offset : Nat) : Definition → CursorPlace
  | .operation stated =>
    let root := schema.root? stated.kind
    (placeInSet schema offset [] root stated.selections).orUse
      (directiveUse? schema offset stated.directives)
  | .fragment stated =>
    (placeInSet schema offset [] (some stated.onType) stated.selections).orUse
      (directiveUse? schema offset stated.directives)
  | _ => {}

/-- The context of a cursor at a byte of the text that the document was read from. -/
def ofOffset (schema : Schema) (document : Document) (offset : Nat) : CursorContext :=
  match document.definitions.findIdx? fun definition => underCursor offset definition.span with
  | none => {}
  | some index =>
    ⟨index, ((document.definitions[index]?).map (placeInDefinition schema offset)).getD {}⟩

end CursorContext

end RelayWorkbench.GraphQL
