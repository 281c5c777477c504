import RelayWorkbench.Proofs.GraphQL.Leaves
import RelayWorkbench.Proofs.GraphQL.Tells

/-! What is read from lexemes has some of them for leaves: whatever holds of the lexemes holds of
the leaves. Each step is held to the leaves of what it reads. -/

namespace RelayWorkbench.GraphQL.Reading

-- The instances of long steps are found bind by bind.
set_option synthInstance.maxSize 1000

variable {α : Type} {fine : Lexeme → Prop}

/-- A name that is fine where it is written. -/
private abbrev Named (fine : Lexeme → Prop) (name : Name) : Prop := fine (.name name)

private theorem tells_description :
    Tells fine description (Any fun value => fine (.string value)) := by
  unfold description
  refine Tells.peek fun next words => ?_
  split
  · exact Tells.skip fun _ => Tells.pure (any_some (words _ rfl))
  · exact Tells.pure any_none

private theorem tells_name? : Tells fine name? (Any (Named fine)) := by
  unfold name?
  refine Tells.peek fun next worded => ?_
  split
  · exact Tells.skip fun _ => Tells.pure (any_some (worded _ rfl))
  · exact tells_fault

private theorem tells_ident? : Tells fine ident? (Any fun ident => Named fine ident.name) := by
  unfold ident?
  exact Tells.skip fun start => Tells.map (tells_name?.imp fun name named =>
    any_map named fun _ word => word)

private theorem tells_separatedNames (separator : Char) :
    Tells fine (separatedNames separator) (All (Named fine)) := by
  unfold separatedNames
  refine Tells.skip fun _ => tells_name?.bind fun first own => ?_
  exact (tells_manyOf (Tells.skip fun _ => tells_name?)).bind fun more others =>
    Tells.pure (all_append own others)

/-- A node all leaves of which are fine. -/
private abbrev Sound (fine : Lexeme → Prop) (leaves : α → List Lexeme) (node : α) : Prop :=
  ∀ leaf ∈ leaves node, fine leaf

private theorem leaves_require (type : TypeRef) : type.require.leaves = type.leaves := by
  cases type <;> rfl

private theorem tells_typeWith {item : Reading (Option TypeRef)} [Passing item]
    (tells : Tells fine item (Any (Sound fine TypeRef.leaves))) :
    Tells fine (typeWith item) (Any (Sound fine TypeRef.leaves)) := by
  have required : ∀ read : Option TypeRef, Any (Sound fine TypeRef.leaves) read →
      Tells fine (acceptMark '!' >>= fun accepted =>
        if accepted then return read.map TypeRef.require else return read)
          (Any (Sound fine TypeRef.leaves)) := by
    intro read worded
    refine Tells.skip fun _ => Tells.ite (Tells.pure (any_map worded ?_)) (Tells.pure worded)
    intro type sound
    rwa [Sound, leaves_require]
  simp only [typeWith]
  refine Tells.peek fun next words => ?_
  split
  · next text =>
    have named : Any (Sound fine TypeRef.leaves) (some (.named text false)) :=
      any_some (List.forall_mem_singleton.mpr (words _ rfl))
    exact Tells.skip fun _ => (Tells.pure named).bind required
  · refine Tells.skip fun _ => tells.bind fun inner worded => Tells.skip fun _ => ?_
    have listed : Any (Sound fine TypeRef.leaves) (inner.map (TypeRef.list · false)) :=
      any_map worded fun _ worded => worded
    exact (Tells.pure listed).bind required
  · exact Tells.skip fun _ => Tells.skip fun _ => (Tells.pure any_none).bind required

private theorem tells_typeRef (budget : Nat) :
    Tells fine (typeRef budget) (Any (Sound fine TypeRef.leaves)) := by
  induction budget with
  | zero => exact tells_typeWith tells_tooDeep
  | succ budget ih => exact tells_typeWith ih

private theorem sound_scalar? {next : Option Lexeme} {leaf : Scalar}
    (words : ∀ present ∈ next, fine present) (read : scalar? next = some leaf) :
    Sound fine Scalar.leaves leaf := by
  have single : ∀ {lexeme : Lexeme}, fine lexeme → ∀ leaf ∈ [lexeme], fine leaf :=
    List.forall_mem_singleton.mpr
  revert read
  unfold scalar?
  split
  · rintro ⟨⟩
    exact single (words _ rfl)
  · rintro ⟨⟩
    exact single (words _ rfl)
  · rintro ⟨⟩
    exact single (words _ rfl)
  · rintro ⟨⟩
    unfold namedScalar
    split
    · exact List.forall_mem_nil _
    split
    · exact List.forall_mem_nil _
    split
    · exact List.forall_mem_nil _
    · exact single (words _ rfl)
  · rintro ⟨⟩

private theorem tells_objectField {part : Reading (Option Value)} [Passing part]
    (tells : Tells fine part (Any (Sound fine Value.leaves))) :
    Tells fine (do
      let name ← name?
      let value ← if ← acceptMark ':' then part else pure none
      return name.bind fun name => value.map (name, ·))
      (Any fun field : Name × Value => Named fine field.1 ∧ Sound fine Value.leaves field.2) :=
  tells_name?.bind fun _ named => tells_colon tells fun _ sound =>
    Tells.pure (any_both named sound fun _ _ => And.intro)

private theorem tells_valueWith (constant inside : Bool) {part : Reading (Option Value)}
    [Passing part] (tells : Tells fine part (Any (Sound fine Value.leaves))) :
    Tells fine (valueWith constant inside part) (Any (Sound fine Value.leaves)) := by
  simp only [valueWith]
  refine Tells.skip fun start => Tells.peek fun next words => ?_
  split
  · next leaf read =>
    refine Tells.skip fun _ => Tells.skip fun span => Tells.pure (any_some ?_)
    exact sound_scalar? words read
  · refine Tells.ite ?used (Tells.ite ?list (Tells.ite ?object ?nothing))
    case used =>
      refine Tells.complain (Tells.skip fun _ => tells_name?.bind fun read named =>
        Tells.skip fun span => Tells.pure ?_)
      exact any_map named fun name word => List.forall_mem_singleton.mpr word
    case list =>
      refine Tells.skip fun _ => (tells_manyOf tells).bind fun items sound => Tells.skip fun _ =>
        Tells.skip fun span => Tells.pure (any_some ?_)
      exact Value.forall_leaves_list.mpr sound
    case object =>
      refine Tells.skip fun _ => (tells_manyOf (tells_objectField tells)).bind fun fields sound =>
        Tells.skip fun _ => Tells.skip fun span => Tells.pure (any_some ?_)
      exact Value.forall_leaves_object.mpr sound
    case nothing =>
      exact Tells.skip fun _ => Tells.ite (Tells.skip fun _ => Tells.pure any_none)
        (Tells.pure any_none)

private theorem tells_nestedValue (constant : Bool) (budget : Nat) :
    Tells fine (nestedValue constant budget) (Any (Sound fine Value.leaves)) := by
  induction budget with
  | zero => exact tells_tooDeep
  | succ budget ih => exact tells_valueWith constant true ih

private theorem tells_value (constant : Bool) (budget : Nat) :
    Tells fine (value constant budget) (Any (Sound fine Value.leaves)) :=
  tells_valueWith constant false (tells_nestedValue constant budget)

private theorem tells_argument (constant : Bool) (budget : Nat) :
    Tells fine (argument constant budget) (Any (Sound fine Argument.leaves)) := by
  simp only [argument]
  refine Tells.skip fun start => tells_name?.bind fun name named => ?_
  refine tells_colon (tells_value constant budget) fun value sound => Tells.skip fun span =>
    Tells.pure (any_both named sound fun name value named sound => ?_)
  exact Argument.forall_leaves.mpr ⟨named, sound⟩

private theorem tells_arguments (constant : Bool) (budget : Nat) :
    Tells fine (arguments constant budget) (All (Sound fine Argument.leaves)) := by
  unfold arguments
  refine Tells.skip fun _ => Tells.ite ?_ (Tells.pure all_nil)
  exact (tells_someOf (tells_argument constant budget)).bind fun read sound =>
    Tells.skip fun _ => Tells.pure sound

private theorem tells_directive (constant : Bool) (budget : Nat) :
    Tells fine (directive constant budget) (Any (Sound fine Directive.leaves)) := by
  simp only [directive]
  refine Tells.skip fun start => Tells.skip fun _ => tells_name?.bind fun name named =>
    (tells_arguments constant budget).bind fun arguments sound => Tells.skip fun span =>
      Tells.pure (any_map named fun name named => ?_)
  exact Directive.forall_leaves.mpr ⟨named, sound⟩

private theorem tells_directives (constant : Bool) (budget : Nat) :
    Tells fine (directives constant budget) (All (Sound fine Directive.leaves)) :=
  tells_manyOf (tells_directive constant budget)

private theorem tells_defaultValue : Tells fine defaultValue (Any (Sound fine Value.leaves)) := by
  simp only [defaultValue]
  exact Tells.skip fun _ => Tells.ite (tells_value true nestingLimit) (Tells.pure any_none)

private theorem tells_typeCondition : Tells fine typeCondition (Any (Named fine)) := by
  simp only [typeCondition]
  exact Tells.skip fun _ => Tells.complain tells_name?

section Selections

variable {set : Reading (List Selection)} [Passing set]

private theorem tells_field (budget : Nat)
    (tells : Tells fine set (All (Sound fine Selection.leaves))) :
    Tells fine (field budget set) (Any (Sound fine Selection.leaves)) := by
  have rest : ∀ start label, Any (fun label : Ident => Named fine label.name) label → Tells fine (do
      let name ← ident?
      let arguments ← arguments false budget
      let directives ← directives false budget
      let selections ← if ← atMark '\x7b' then set else pure []
      let span ← since start
      return name.map fun name => .field { span, label, name, arguments, directives } selections)
      (Any (Sound fine Selection.leaves)) := by
    intro start label labelled
    refine tells_ident?.bind fun name named => (tells_arguments false budget).bind fun arguments
      given => (tells_directives false budget).bind fun directives directed => Tells.skip fun _ =>
      tells_if tells all_nil fun selections sound => Tells.skip fun span => Tells.pure ?_
    refine any_map named fun ident word => ?_
    exact Selection.forall_leaves_field.mpr
      ⟨FieldHead.forall_leaves.mpr ⟨labelled, word, given, directed⟩, sound⟩
  simp only [field]
  refine Tells.skip fun start => Tells.skip fun _ => Tells.ite ?_
    ((Tells.pure any_none).bind (rest start))
  exact tells_ident?.bind fun label named => Tells.skip fun _ =>
    (Tells.pure named).bind (rest start)

private theorem tells_spreading (budget : Nat)
    (tells : Tells fine set (All (Sound fine Selection.leaves))) :
    Tells fine (spreading budget set) (Any (Sound fine Selection.leaves)) := by
  have inline : ∀ start onType, Any (Named fine) onType → Tells fine (do
      let directives ← directives false budget
      if !(← atMark '\x7b') then fault
      let selections ← set
      return some (.inline { span := ← since start, onType, directives } selections))
      (Any (Sound fine Selection.leaves)) := by
    intro start onType typed
    refine (tells_directives false budget).bind fun directives directed => Tells.skip fun _ =>
      Tells.complain (tells.bind fun selections sound => Tells.skip fun span =>
        Tells.pure (any_some ?_))
    exact Selection.forall_leaves_inline.mpr ⟨InlineHead.forall_leaves.mpr ⟨typed, directed⟩, sound⟩
  simp only [spreading]
  refine Tells.skip fun start => Tells.skip fun _ => Tells.peek fun next words => ?_
  split
  · next text =>
    refine Tells.ite (tells_typeCondition.bind (inline start)) ?_
    refine Tells.skip fun _ => (tells_directives false budget).bind fun directives directed =>
      Tells.skip fun span => Tells.pure (any_some ?_)
    exact FragmentSpread.forall_leaves.mpr ⟨words _ rfl, directed⟩
  · exact inline start none any_none
  · exact inline start none any_none
  · exact tells_fault

end Selections

private theorem tells_selectionSet (budget : Nat) :
    Tells fine (selectionSet budget) (All (Sound fine Selection.leaves)) := by
  induction budget with
  | zero =>
    unfold selectionSet
    exact Tells.skip fun _ => Tells.ite (Tells.skip fun _ => Tells.pure all_nil)
      (Tells.pure all_nil)
  | succ budget ih =>
    unfold selectionSet
    have item : Tells fine (do
        if (← peek) == some .spread then spreading budget (selectionSet budget)
        else field budget (selectionSet budget)) (Any (Sound fine Selection.leaves)) :=
      Tells.skip fun _ => Tells.ite (tells_spreading budget ih) (tells_field budget ih)
    refine Tells.skip fun _ => Tells.ite ?_ (Tells.pure all_nil)
    exact (tells_someOf item).bind fun selections sound => Tells.skip fun _ => Tells.pure sound

private theorem tells_body : Tells fine body (All (Sound fine Selection.leaves)) := by
  simp only [body]
  exact Tells.skip fun _ => Tells.ite (tells_selectionSet nestingLimit)
    (Tells.skip fun _ => Tells.skip fun _ => Tells.pure all_nil)

private theorem tells_variableDefinition :
    Tells fine variableDefinition (Any (Sound fine VariableDefinition.leaves)) := by
  simp only [variableDefinition]
  refine Tells.skip fun _ => tells_name?.bind fun name named =>
    tells_typed (tells_typeRef nestingLimit) fun type typed => ?_
  refine tells_defaultValue.bind fun default sound => (tells_directives true nestingLimit).bind
    fun directives directed => Tells.pure (any_both named typed fun name type named typed => ?_)
  exact VariableDefinition.forall_leaves.mpr ⟨named, typed, sound, directed⟩

private theorem tells_variableDefinitions :
    Tells fine variableDefinitions (All (Sound fine VariableDefinition.leaves)) := by
  unfold variableDefinitions
  refine Tells.skip fun _ => Tells.ite ?_ (Tells.pure all_nil)
  exact (tells_someOf tells_variableDefinition).bind fun read sound =>
    Tells.skip fun _ => Tells.pure sound

private theorem tells_operation (kind : OperationKind) :
    Tells fine (operation kind) (Any (Sound fine Definition.leaves)) := by
  simp only [operation]
  refine Tells.skip fun start => Tells.skip fun _ => Tells.skip fun _ =>
    tells_if tells_name? any_none fun name named => tells_variableDefinitions.bind fun declared
      declares => (tells_directives false nestingLimit).bind fun directives directed =>
        tells_body.bind fun selections sound => Tells.skip fun span => Tells.pure (any_some ?_)
  exact Operation.forall_leaves.mpr ⟨named, declares, directed, sound⟩

private theorem tells_shorthand : Tells fine shorthand (Any (Sound fine Definition.leaves)) := by
  simp only [shorthand]
  refine Tells.skip fun start => (tells_selectionSet nestingLimit).bind fun selections sound =>
    Tells.skip fun span => Tells.pure (any_some ?_)
  exact Operation.forall_leaves.mpr ⟨any_none, all_nil, all_nil, sound⟩

private theorem tells_fragment : Tells fine fragment (Any (Sound fine Definition.leaves)) := by
  have rest : ∀ start name, Any (Named fine) name → Tells fine (do
      let onType ← typeCondition
      let directives ← directives false nestingLimit
      let selections ← body
      let span ← since start
      return name.bind fun name => onType.map fun onType =>
        Definition.fragment { span, name, onType, directives, selections })
      (Any (Sound fine Definition.leaves)) := by
    intro start name named
    refine tells_typeCondition.bind fun onType typed => (tells_directives false nestingLimit).bind
      fun directives directed => tells_body.bind fun selections sound => Tells.skip fun span =>
        Tells.pure (any_both named typed fun name onType named typed => ?_)
    exact Fragment.forall_leaves.mpr ⟨named, typed, directed, sound⟩
  simp only [fragment]
  refine Tells.skip fun start => Tells.skip fun _ => Tells.skip fun _ => Tells.ite
    (Tells.skip fun _ => (Tells.pure any_none).bind (rest start)) ?_
  exact Tells.skip fun _ => Tells.ite (tells_name?.bind (rest start))
    (Tells.skip fun _ => Tells.skip fun _ => (Tells.pure any_none).bind (rest start))

private theorem tells_constantDirectives :
    Tells fine constantDirectives (All (Sound fine Directive.leaves)) :=
  tells_directives true nestingLimit

private theorem tells_inputValue : Tells fine inputValue (Any (Sound fine InputValue.leaves)) := by
  simp only [inputValue]
  refine tells_description.bind fun description described => tells_name?.bind fun name named =>
    tells_typed (tells_typeRef nestingLimit) fun type typed => tells_defaultValue.bind
      fun default sound => tells_constantDirectives.bind fun directives directed =>
        Tells.pure (any_both named typed fun name type named typed => ?_)
  exact InputValue.forall_leaves.mpr ⟨described, named, typed, sound, directed⟩

private theorem tells_argumentDefinitions :
    Tells fine argumentDefinitions (All (Sound fine InputValue.leaves)) := by
  unfold argumentDefinitions
  refine Tells.skip fun _ => Tells.ite ?_ (Tells.pure all_nil)
  exact (tells_someOf tells_inputValue).bind fun read sound =>
    Tells.skip fun _ => Tells.pure sound

private theorem tells_fieldDefinition :
    Tells fine fieldDefinition (Any (Sound fine FieldDefinition.leaves)) := by
  simp only [fieldDefinition]
  refine tells_description.bind fun description described => tells_name?.bind fun name named =>
    tells_argumentDefinitions.bind fun arguments given => tells_typed (tells_typeRef nestingLimit)
      fun type typed => tells_constantDirectives.bind fun directives directed =>
        Tells.pure (any_both named typed fun name type named typed => ?_)
  exact FieldDefinition.forall_leaves.mpr ⟨described, named, given, typed, directed⟩

private theorem tells_enumValue : Tells fine enumValue (Any (Sound fine EnumValue.leaves)) := by
  simp only [enumValue]
  refine tells_description.bind fun description described => tells_name?.bind fun name named =>
    Tells.complain (tells_constantDirectives.bind fun directives directed =>
      Tells.pure (any_map named fun name named => ?_))
  exact EnumValue.forall_leaves.mpr ⟨described, named, directed⟩

private theorem tells_interfaces : Tells fine interfaces (All (Named fine)) := by
  unfold interfaces
  exact Tells.skip fun _ => Tells.ite (tells_separatedNames '&') (Tells.pure all_nil)

private theorem tells_unionMembers : Tells fine unionMembers (All (Named fine)) := by
  unfold unionMembers
  exact Tells.skip fun _ => Tells.ite (tells_separatedNames '|') (Tells.pure all_nil)

private theorem tells_typeDefinition (keyword : TypeKeyword) :
    Tells fine (typeDefinition keyword) (Any (Sound fine TypeDefinition.leaves)) := by
  have ends : ∀ {name directives}, Any (Named fine) name → All (Sound fine Directive.leaves)
      directives → ∀ {body : TypeBody}, Sound fine TypeBody.leaves body →
      Tells fine (pure body >>= fun body => pure (name.map fun name => { name, directives, body }))
        (Any (Sound fine TypeDefinition.leaves)) := by
    intro name directives named directed body sound
    refine Tells.bind (Tells.pure sound) fun body sound => Tells.pure (any_map named ?_)
    exact fun name named => TypeDefinition.forall_leaves.mpr ⟨named, directed, sound⟩
  unfold typeDefinition
  cases keyword with
  | scalar =>
    exact tells_name?.bind fun name named => Tells.skip fun _ => tells_constantDirectives.bind
      fun directives directed => ends named directed (List.forall_mem_nil _)
  | object | interface =>
    exact tells_name?.bind fun name named => tells_interfaces.bind fun interfaces words =>
      tells_constantDirectives.bind fun directives directed =>
        (tells_optionalMembers tells_fieldDefinition).bind fun fields sound =>
          ends named directed (List.forall_mem_append.mpr
            ⟨List.forall_mem_map.mpr words, List.forall_mem_flatMap.mpr sound⟩)
  | union =>
    exact tells_name?.bind fun name named => Tells.skip fun _ => tells_constantDirectives.bind
      fun directives directed => tells_unionMembers.bind fun members words =>
        ends named directed (List.forall_mem_map.mpr words)
  | enum =>
    exact tells_name?.bind fun name named => Tells.skip fun _ => tells_constantDirectives.bind
      fun directives directed => (tells_optionalMembers tells_enumValue).bind fun values sound =>
        ends named directed (List.forall_mem_flatMap.mpr sound)
  | input =>
    exact tells_name?.bind fun name named => Tells.skip fun _ => tells_constantDirectives.bind
      fun directives directed => (tells_optionalMembers tells_inputValue).bind fun fields sound =>
        ends named directed (List.forall_mem_flatMap.mpr sound)

private theorem tells_rootType :
    Tells fine rootType (Any fun root : OperationKind × Name => Named fine root.2) := by
  have rest : ∀ kind : Option OperationKind, Tells fine (do
      if ← acceptMark ':' then
        let name ← name?
        return kind.bind fun kind => name.map (kind, ·)
      else
        fault
        return none) (Any fun root : OperationKind × Name => Named fine root.2) := by
    intro kind
    have known : Any (fun _ => True) kind := fun _ _ => trivial
    refine Tells.skip fun _ => Tells.ite (tells_name?.bind fun name named => ?_) tells_fault
    exact Tells.pure (any_both known named fun _ _ _ word => word)
  simp only [rootType]
  refine Tells.peek fun next _ => ?_
  split
  · exact Tells.complain (Tells.skip fun _ => Tells.skip rest)
  · exact Tells.skip fun _ => Tells.skip rest

private theorem tells_rootTypes :
    Tells fine rootTypes (All fun root : OperationKind × Name => Named fine root.2) := by
  unfold rootTypes
  exact Tells.skip fun _ => (tells_someOf tells_rootType).bind fun roots named =>
    Tells.skip fun _ => Tells.pure named

private theorem tells_directiveLocation : Tells fine directiveLocation (Any (Named fine)) := by
  unfold directiveLocation
  refine Tells.peek fun next words => ?_
  split
  · exact Tells.ite (Tells.skip fun _ => Tells.pure (any_some (words _ rfl))) tells_fault
  · exact tells_fault

private theorem tells_directiveDefinition {description : Option Text}
    (described : Any (fun value => fine (.string value)) description) :
    Tells fine (directiveDefinition description) (Any (Sound fine Definition.leaves)) := by
  simp only [directiveDefinition]
  refine Tells.skip fun _ => Tells.skip fun _ => tells_name?.bind fun name named =>
    tells_argumentDefinitions.bind fun arguments given => Tells.skip fun repeatable =>
      Tells.skip fun _ => Tells.complain (Tells.skip fun _ => tells_directiveLocation.bind
        fun first own => ?_)
  refine (tells_manyOf (Tells.skip fun _ => tells_directiveLocation)).bind fun more others => ?_
  exact Tells.pure (any_map named fun name named => DirectiveDefinition.forall_leaves.mpr
    ⟨described, named, given, all_append own others⟩)

private theorem sound_described {description : Option Text} {leaves : List Lexeme}
    (described : Any (fun value => fine (.string value)) description)
    (sound : ∀ leaf ∈ leaves, fine leaf) :
    ∀ leaf ∈ leavesOfDescription description ++ leaves, fine leaf :=
  List.forall_mem_append.mpr ⟨forall_leavesOfDescription.mpr described, sound⟩

private theorem tells_schemaDefinition {description : Option Text}
    (described : Any (fun value => fine (.string value)) description) :
    Tells fine (schemaDefinition description) (Any (Sound fine Definition.leaves)) := by
  simp only [schemaDefinition]
  exact Tells.skip fun _ => tells_constantDirectives.bind fun directives directed =>
    tells_rootTypes.bind fun roots named => Tells.pure (any_some
      (sound_described described (SchemaDefinition.forall_leaves.mpr ⟨directed, named⟩)))

private theorem tells_schemaExtension :
    Tells fine schemaExtension (Any (Sound fine Definition.leaves)) := by
  simp only [schemaExtension]
  refine Tells.skip fun _ => Tells.skip fun _ => tells_constantDirectives.bind fun directives
    directed => Tells.skip fun _ => tells_if tells_rootTypes all_nil fun roots named =>
      Tells.complain (Tells.pure (any_some ?_))
  exact SchemaDefinition.forall_leaves.mpr ⟨directed, named⟩

private theorem tells_typeExtension (keyword : TypeKeyword) :
    Tells fine (typeExtension keyword) (Any (Sound fine Definition.leaves)) := by
  simp only [typeExtension]
  exact Tells.skip fun _ => Tells.skip fun _ => (tells_typeDefinition keyword).bind
    fun extension sound => Tells.complain (Tells.pure (any_map sound fun _ sound => sound))

private theorem tells_extension : Tells fine extension (Any (Sound fine Definition.leaves)) := by
  unfold extension
  refine Tells.skip fun next => ?_
  split
  · refine Tells.ite tells_schemaExtension ?_
    split
    · exact tells_typeExtension _
    · exact tells_unexpected
  · exact tells_unexpected

private theorem tells_definitionOf (described : Bool) (word : Name) :
    Tells fine (definitionOf described word) (Any (Sound fine Definition.leaves)) := by
  unfold definitionOf
  split
  · exact Tells.ite tells_unexpected (tells_operation _)
  · refine Tells.ite (Tells.ite tells_unexpected tells_fragment)
      (Tells.ite (Tells.ite tells_unexpected tells_extension)
      (Tells.ite (tells_description.bind fun _ => tells_directiveDefinition)
      (Tells.ite (tells_description.bind fun _ => tells_schemaDefinition) ?_)))
    split
    · exact tells_description.bind fun description described => Tells.skip fun _ =>
        (tells_typeDefinition _).bind fun stated sound => Tells.pure (any_map sound fun _ sound =>
          sound_described described sound)
    · exact tells_unexpected

private theorem tells_definition : Tells fine definition (Any (Sound fine Definition.leaves)) := by
  unfold definition
  refine Tells.skip fun next => ?_
  split
  · exact tells_definitionOf false _
  · refine Tells.skip fun word => ?_
    split
    · exact tells_definitionOf true _
    · exact tells_unexpected
  · exact tells_shorthand
  · exact tells_unexpected

/-- What holds of the lexemes holds of the leaves of what is read from them. -/
theorem read_leaves {lexemes : List Lexeme} (all : ∀ lexeme ∈ lexemes, fine lexeme) :
    ∀ leaf ∈ (Document.read lexemes).1.leaves, fine leaf := by
  have tells : Tells fine document fun read => All (Sound fine Definition.leaves)
      read.definitions := by
    unfold document
    exact Tells.skip fun _ => Tells.complain ((tells_manyOf tells_definition).bind
      fun definitions sound => Tells.pure sound)
  exact Document.forall_leaves.mpr (tells { rest := lexemes } all)

end RelayWorkbench.GraphQL.Reading
