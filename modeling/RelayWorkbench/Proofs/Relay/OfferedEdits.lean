import RelayWorkbench.Proofs.GraphQL.CursorField
import RelayWorkbench.Proofs.GraphQL.Directives
import RelayWorkbench.Proofs.GraphQL.Placement
import RelayWorkbench.Proofs.Relay.OfferedActions
import RelayWorkbench.Proofs.Relay.Offers
import RelayWorkbench.Proofs.Replacer.Targets

/-! The edits that are offered at a selection. Each changes only what its refactoring is about, and
the refactoring is not offered again on the document that it leads to. -/

namespace RelayWorkbench.Relay

open RelayWorkbench.GraphQL RelayWorkbench.Host

theorem VariableDefinition.name_of_ofWritten? {name type : Text} {declared : VariableDefinition}
    (written : VariableDefinition.ofWritten? name type = some declared) : declared.name = name := by
  rw [VariableDefinition.ofWritten?] at written
  generalize Document.parse? (VariableDefinition.probe name type) = parsed at written
  obtain ⟨definitions, -, written⟩ := Option.bind_eq_some_iff.mp written
  split at written
  · split at written
    · split at written
      · next checked =>
        cases written
        simp only [Bool.and_eq_true, decide_eq_true_eq] at checked
        exact checked.1.1
      · cases written
    · cases written
  · cases written

namespace Pagination

variable (pagination : Pagination)

theorem answer?_eq (node : Node) :
    pagination.replacer.answer? node =
      match node with
      | .field made =>
        if Replacer.isTarget pagination.fieldSpan made.head.span then
          some (.field (pagination.field made))
        else none
      | .fragment stated =>
        if Replacer.isTarget pagination.fragmentSpan stated.span then
          some (.fragment (pagination.fragment stated))
        else none
      | _ => none := by
  rw [Replacer.answer?_of_own fun _ _ => rfl]
  cases node with
  | field made =>
    have hook : Replacer.outcome (pagination.replacer.field made.head.span made) =
        if Replacer.isTarget pagination.fieldSpan made.head.span then
          some (pagination.field made) else none := rfl
    simp only [Replacer.answerOwn?, hook]
    by_cases there : Replacer.isTarget pagination.fieldSpan made.head.span <;> simp [there]
  | fragment stated =>
    have hook : Replacer.outcome (pagination.replacer.fragment stated.span stated) =
        if Replacer.isTarget pagination.fragmentSpan stated.span then
          some (pagination.fragment stated) else none := rfl
    simp only [Replacer.answerOwn?, hook]
    by_cases there : Replacer.isTarget pagination.fragmentSpan stated.span <;> simp [there]
  | operation | inline | spread => simp [Replacer.answerOwn?, replacer]

/-- Outside of fragments only the field is edited. -/
theorem targets_of_fragmentSpan (outside : pagination.fragmentSpan = none) :
    pagination.replacer.Targets pagination.fieldSpan (Replacer.editField pagination.field) := by
  intro node
  rw [answer?_eq]
  cases node with
  | field made => rfl
  | fragment stated => simp [outside, Replacer.isTarget_iff, Replacer.editField]
  | operation | inline | spread => simp [Replacer.editField]

theorem hasDirective_field (made : Field) :
    Directed.hasDirective "connection".toList (pagination.field made) := by
  have connected := Directed.hasDirective_addDirective "connection".toList
    [Argument.ofString "key".toList pagination.key] made
  exact connected

/-- Nothing but the field and the fragment is edited. -/
theorem ignoresOutside {document : Document} (apart : document.OwnersApart)
    {place outer : Span} (field : pagination.fieldSpan = some place)
    (fragment : pagination.fragmentSpan = some outer) {path around : List Nat} {made : Field}
    {stated : Fragment} (reached : document.nodeAt? path = some (.field made))
    (spanned : made.head.span = some place)
    (enclosing : document.nodeAt? around = some (.fragment stated))
    (enclosed : stated.span = some outer) :
    pagination.replacer.IgnoresOutside document fun other => other = around ∨ other = path := by
  intro other node there outside selections
  rw [answer?_eq]
  cases node with
  | field second =>
    refine if_neg fun aimed => outside (.inr ?_)
    obtain ⟨_, same, stands⟩ := Replacer.isTarget_iff.mp aimed
    cases field.symm.trans same
    exact apart place path other _ _ reached ((Node.ownsAt_iff rfl).mpr spanned) there
      ((Node.ownsAt_iff rfl).mpr stands)
  | fragment second =>
    refine if_neg fun aimed => outside (.inl ?_)
    obtain ⟨_, same, stands⟩ := Replacer.isTarget_iff.mp aimed
    cases fragment.symm.trans same
    exact apart outer around other _ _ enclosing ((Node.ownsAt_iff rfl).mpr enclosed) there
      ((Node.ownsAt_iff rfl).mpr stands)
  | operation | inline | spread => rfl

/-- In a fragment the field is paginated, and then the fragment with that field in it. -/
theorem apply_around {document : Document} (apart : document.OwnersApart)
    {place outer : Span} (field : pagination.fieldSpan = some place)
    (fragment : pagination.fragmentSpan = some outer) {index : Nat} {steps : List Nat}
    {made : Field} {stated : Fragment}
    (reached : document.nodeAt? (index :: steps) = some (.field made))
    (spanned : made.head.span = some place)
    (enclosing : document.nodeAt? [index] = some (.fragment stated))
    (enclosed : stated.span = some outer) :
    ∃ between selections updated,
      document.replaceAt? (.field (pagination.field made)) (index :: steps) = some between ∧
      between.nodeAt? [index] = some (.fragment { stated with selections }) ∧
      between.replaceAt? (.fragment (pagination.fragment { stated with selections })) [index] =
        some updated ∧
      pagination.replacer.apply document = some updated ∧
      updated.nodeAt? (index :: steps) = some (.field (pagination.field made)) := by
  have below : steps ≠ [] := by
    rintro rfl
    cases reached.symm.trans enclosing
  have answer : pagination.replacer.answer? (.field made) =
      some (.field (pagination.field made)) := by
    rw [pagination.answer?_eq]
    exact if_pos (Replacer.isTarget_iff.mpr ⟨place, field, spanned⟩)
  obtain ⟨between, _, selections, connected, top, around, last⟩ :=
    Replacer.apply_of_answers below reached answer
      (pagination.ignoresOutside apart field fragment reached spanned enclosing enclosed)
  cases enclosing.symm.trans top
  obtain ⟨updated, applied, changed⟩ := last
    (.fragment (pagination.fragment { stated with selections })) (by
      rw [pagination.answer?_eq]
      exact if_pos (Replacer.isTarget_iff.mpr ⟨outer, fragment, enclosed⟩))
  refine ⟨between, selections, updated, connected, around, changed, applied, ?_⟩
  obtain ⟨step, steps, rfl⟩ := List.exists_cons_of_ne_nil below
  rw [Document.nodeAt?_cons_of_singleton (Document.nodeAt?_of_replaceAt? changed)]
  have former := Document.nodeAt?_of_replaceAt? connected
  rw [Document.nodeAt?_cons_of_singleton around] at former
  rw [← former]
  exact Node.descend?_congr rfl step steps

def titleOf (made : Field) : Text :=
  "Set up pagination on \"".toList ++ made.head.name.name ++ "\" for fragment".toList

def ofField (scene : Scene) (made : Field) (type : TypeDefinition) : Pagination where
  fieldSpan := made.head.span
  fragmentSpan := scene.fragment?.bind (·.span)
  queryName := scene.moduleName ++ "PaginationQuery".toList
  key := connectionKey (scene.fragment?.map (·.name)) scene.context.place.path
  shown := scene.shownField (nodeType? scene.schema type.name)

/-- A connection under the cursor is paginated, unless it is paginated already. -/
theorem offer?_eq_some_iff {scene : Scene} {offer : Offer} :
    offer? scene = some offer ↔ ∃ made type, scene.cursorField? = some (made, type) ∧
      isConnection type ∧ Directed.hasDirective "connection".toList made = false ∧
      offer = ⟨titleOf made, (ofField scene made type).replacer⟩ := by
  constructor
  · intro offered
    rw [offer?] at offered
    obtain ⟨⟨made, pagination⟩, decided, offered⟩ := Option.bind_eq_some_iff.mp offered
    cases offered
    rw [ofScene?] at decided
    obtain ⟨⟨under, type⟩, here, decided⟩ := Option.bind_eq_some_iff.mp decided
    dsimp only at decided
    split at decided
    · cases decided
    · next permits =>
      cases decided
      rw [Bool.or_eq_true, not_or] at permits
      exact ⟨_, type, here, by simpa using permits.1, by simpa using permits.2, rfl⟩
  · rintro ⟨made, type, under, connection, plain, rfl⟩
    have decided : ofScene? scene = some (made, ofField scene made type) := by
      rw [ofScene?, under]
      simp only [Option.bind_eq_bind, Option.bind_some, connection, plain]
      rfl
    rw [offer?, decided]
    rfl

end Pagination

/-- A decision what to offer in a scene. -/
abbrev Decision := Scene → Option Offer

def decisions : List Decision :=
  [Refactoring.declareVariable?, Pagination.offer?, Refactoring.markTestOperation?,
    Refactoring.expandUnion?, Refactoring.declareArgument?, Refactoring.makeInline?,
    Refactoring.makeRefetchable?, Refactoring.makePlural?]

namespace Scene

/-- The path of the field under the cursor, if the steps lead to it from the definition under the
cursor. -/
def fieldPath (scene : Scene) (steps : List Nat) : List Nat := scene.context.definition :: steps

/-- The steps lead to the field under the cursor. -/
def LeadsToField (scene : Scene) (steps : List Nat) : Prop :=
  ∀ made, scene.context.place.field = some made →
    scene.document.nodeAt? (scene.fieldPath steps) = some (.field made)

/-- The scene on another document: the cursor is in the definition at the same index, on the same
token, and on the field that the steps lead to. -/
def revisited (scene : Scene) (steps : List Nat) (document : Document) : Scene :=
  let field := scene.context.place.field.bind fun _ =>
    match document.nodeAt? (scene.fieldPath steps) with
    | some (.field made) => some made
    | _ => none
  { scene with
    document
    context := { scene.context with place := { scene.context.place with field } } }

/-- What a decision changes, and nothing else. -/
inductive Changes (scene : Scene) (steps : List Nat) : Decision → Document → Prop where
  | variables {stated : Operation} {declared : VariableDefinition} {updated : Document}
      (here : scene.operation? = some stated)
      (changed : scene.document.replaceAt?
        (.operation { stated with
          variableDefinitions := stated.variableDefinitions ++ [declared] })
        [scene.context.definition] = some updated) :
      Changes scene steps Refactoring.declareVariable? updated
  | operationDirectives {stated : Operation} {directives : List Directive} {updated : Document}
      (here : scene.operation? = some stated)
      (changed : scene.document.replaceAt? (.operation { stated with directives })
        [scene.context.definition] = some updated) :
      Changes scene steps Refactoring.markTestOperation? updated
  | fragmentDirectives {decision : Decision} {stated : Fragment} {directives : List Directive}
      {updated : Document}
      (member : decision ∈ [Refactoring.declareArgument?, Refactoring.makeInline?,
        Refactoring.makeRefetchable?, Refactoring.makePlural?])
      (first : scene.firstFragment? = some stated)
      (changed : scene.document.replaceAt? (.fragment { stated with directives }) [0] =
        some updated) :
      Changes scene steps decision updated
  | union {made : Field} {selections : List Selection} {updated : Document}
      (here : scene.context.place.field = some made)
      (changed : scene.document.replaceAt? (.field { made with selections })
        (scene.fieldPath steps) = some updated) :
      Changes scene steps Refactoring.expandUnion? updated
  | pagination {made paginated : Field} {updated : Document}
      (here : scene.context.place.field = some made) (outside : scene.fragment? = none)
      (changed : scene.document.replaceAt? (.field paginated) (scene.fieldPath steps) =
        some updated) :
      Changes scene steps Pagination.offer? updated
  | paginationInFragment {made paginated : Field} {around : Fragment}
      {directives : List Directive} {between updated : Document}
      (here : scene.context.place.field = some made) (inside : scene.fragment?.isSome)
      (connected : scene.document.replaceAt? (.field paginated) (scene.fieldPath steps) =
        some between)
      (enclosing : between.nodeAt? [scene.context.definition] = some (.fragment around))
      (changed : between.replaceAt? (.fragment { around with directives })
        [scene.context.definition] = some updated) :
      Changes scene steps Pagination.offer? updated

/-- A decision leads from a scene to a document: it changes only what it is about, and is not made
again there. -/
structure Leads (scene : Scene) (steps : List Nat) (decision : Decision) (updated : Document) :
    Prop where
  changes : scene.Changes steps decision updated
  retires : decision (scene.revisited steps updated) = none

section Facts

variable {scene : Scene} {steps : List Nat} {updated : Document}

variable (apart : scene.document.OwnersApart)
include apart

theorem edits_operation (steps : List Nat) {stated : Operation}
    {edit : Operation → Operation}
    (here : scene.operation? = some stated)
    (applied : (Replacer.onOperation stated.span edit).apply scene.document = some updated) :
    scene.document.replaceAt? (.operation (edit stated)) [scene.context.definition] =
        some updated ∧
      (scene.revisited steps updated).operation? = some (edit stated) := by
  have replaced := (Replacer.targets_onOperation stated.span edit).replaceAt?_eq
    (Replacer.editsOwners_operation edit) apart (operation?_iff.mp here) rfl rfl applied
  exact ⟨replaced, operation?_iff.mpr (Document.nodeAt?_of_replaceAt? replaced)⟩

theorem edits_firstFragment (steps : List Nat) {stated : Fragment} {edit : Fragment → Fragment}
    (first : scene.firstFragment? = some stated)
    (applied : (Replacer.onFragment stated.span edit).apply scene.document = some updated) :
    scene.document.replaceAt? (.fragment (edit stated)) [0] = some updated ∧
      (scene.revisited steps updated).firstFragment? = some (edit stated) := by
  have replaced := (Replacer.targets_onFragment stated.span edit).replaceAt?_eq
    (Replacer.editsOwners_fragment edit) apart (firstFragment?_iff.mp first) rfl rfl applied
  exact ⟨replaced, firstFragment?_iff.mpr (Document.nodeAt?_of_replaceAt? replaced)⟩

private theorem edits_field {made : Field} {edit : Field → Field}
    (leads : scene.LeadsToField steps) (here : scene.context.place.field = some made)
    (applied : (Replacer.onField made.head.span edit).apply scene.document = some updated) :
    scene.document.replaceAt? (.field (edit made)) (scene.fieldPath steps) = some updated ∧
      (scene.revisited steps updated).context.place.field = some (edit made) := by
  have replaced := (Replacer.targets_onField made.head.span edit).replaceAt?_eq
    (Replacer.editsOwners_field edit) apart (leads made here) rfl rfl applied
  exact ⟨replaced, by simp [revisited, here, Document.nodeAt?_of_replaceAt? replaced]⟩

end Facts

section Decisions

variable {scene : Scene} {steps : List Nat} {updated : Document} {offer : Offer}
  (apart : scene.document.OwnersApart)
include apart

private theorem leads_declareVariable (offered : Refactoring.declareVariable? scene = some offer)
    (result : offer.result? scene.document = some updated) :
    scene.Leads steps Refactoring.declareVariable? updated := by
  obtain ⟨name, stated, type, declared, cursor, here, -, -, written, rfl⟩ :=
    Refactoring.declareVariable?_eq_some offered
  obtain ⟨changed, there⟩ := edits_operation apart steps here result
  refine ⟨.variables here changed, ?_⟩
  have again : (scene.revisited steps updated).cursorVariable? = some name := cursor
  have named := VariableDefinition.name_of_ofWritten? written
  have declares : Operation.declares { stated with
      variableDefinitions := stated.variableDefinitions ++ [declared] } name := by
    simp [Operation.declares, named]
  rw [Refactoring.declareVariable?, again, there]
  exact if_pos declares

private theorem leads_markTestOperation
    (offered : Refactoring.markTestOperation? scene = some offer)
    (result : offer.result? scene.document = some updated) :
    scene.Leads steps Refactoring.markTestOperation? updated := by
  obtain ⟨stated, here, -, rfl⟩ := Refactoring.markTestOperation?_eq_some offered
  obtain ⟨changed, there⟩ := edits_operation apart steps here result
  refine ⟨.operationDirectives here changed, ?_⟩
  rw [Refactoring.markTestOperation?, there]
  exact if_pos (Directed.hasDirective_addDirective ..)

private theorem leads_expandUnion (leads : scene.LeadsToField steps)
    (offered : Refactoring.expandUnion? scene = some offer)
    (result : offer.result? scene.document = some updated) :
    scene.Leads steps Refactoring.expandUnion? updated := by
  obtain ⟨made, type, members, here, body, -, rfl⟩ := Refactoring.expandUnion?_eq_some offered
  obtain ⟨under, typed⟩ := cursorField?_iff.mp here
  obtain ⟨changed, there⟩ := edits_field apart leads under result
  refine ⟨.union under changed, ?_⟩
  have again : (scene.revisited steps updated).cursorField? =
      some ({ made with selections := Refactoring.unionSelections scene members }, type) :=
    cursorField?_iff.mpr ⟨there, typed⟩
  rw [Refactoring.expandUnion?, again]
  simp only [Option.bind_eq_bind, Option.bind_some, body]
  exact if_pos rfl

section FragmentDirectives

variable {stated : Fragment} (first : scene.firstFragment? = some stated)
include first

private theorem leads_fragmentDirective {decision : Decision}
    (member : decision ∈ [Refactoring.declareArgument?, Refactoring.makeInline?,
      Refactoring.makeRefetchable?, Refactoring.makePlural?]) {title : Text} {directive : Name}
    {arguments : List Argument}
    (result : (Refactoring.offerDirective stated title directive arguments).result?
      scene.document = some updated)
    (retires : ∀ revisited : Scene, revisited.cursorVariable? = scene.cursorVariable? →
      revisited.firstFragment? = some (Directed.addDirective directive arguments stated) →
        decision revisited = none) :
    scene.Leads steps decision updated := by
  obtain ⟨changed, there⟩ := edits_firstFragment apart steps first result
  exact ⟨.fragmentDirectives member first changed, retires _ rfl there⟩

end FragmentDirectives

private theorem leads_declareArgument (offered : Refactoring.declareArgument? scene = some offer)
    (result : offer.result? scene.document = some updated) :
    scene.Leads steps Refactoring.declareArgument? updated := by
  obtain ⟨name, stated, type, cursor, first, -, -, rfl⟩ :=
    Refactoring.declareArgument?_eq_some offered
  refine leads_fragmentDirective apart first (by simp) result fun revisited same there => ?_
  have has := Directed.hasDirectiveWith_addDirective "argumentDefinitions".toList
    (Argument.anyNamed_merge (Argument.declaring name type.print none) [])
    (Argument.anyNamed_merge (Argument.declaring name type.print none)) stated
  have again : revisited.cursorVariable? = some name := same.trans cursor
  rw [Refactoring.declareArgument?, there, again]
  exact if_pos has

private theorem leads_makeInline (offered : Refactoring.makeInline? scene = some offer)
    (result : offer.result? scene.document = some updated) :
    scene.Leads steps Refactoring.makeInline? updated := by
  obtain ⟨stated, first, -, rfl⟩ := Refactoring.makeInline?_eq_some offered
  refine leads_fragmentDirective apart first (by simp) result fun revisited _ there => ?_
  rw [Refactoring.makeInline?, there]
  exact if_pos (Directed.hasDirective_addDirective ..)

private theorem leads_makeRefetchable (offered : Refactoring.makeRefetchable? scene = some offer)
    (result : offer.result? scene.document = some updated) :
    scene.Leads steps Refactoring.makeRefetchable? updated := by
  obtain ⟨stated, first, -, rfl⟩ := Refactoring.makeRefetchable?_eq_some offered
  refine leads_fragmentDirective apart first (by simp) result fun revisited _ there => ?_
  rw [Refactoring.makeRefetchable?, there]
  exact if_pos (Directed.hasDirective_addDirective ..)

private theorem leads_makePlural (offered : Refactoring.makePlural? scene = some offer)
    (result : offer.result? scene.document = some updated) :
    scene.Leads steps Refactoring.makePlural? updated := by
  obtain ⟨stated, first, -, rfl⟩ := Refactoring.makePlural?_eq_some offered
  refine leads_fragmentDirective apart first (by simp) result fun revisited _ there => ?_
  have has := Directed.hasDirectiveWith_addDirective "relay".toList
    (Argument.anyNamed_merge (Argument.ofBoolean "plural".toList true) [])
    (Argument.anyNamed_merge (Argument.ofBoolean "plural".toList true)) stated
  rw [Refactoring.makePlural?, there]
  exact if_pos has

private theorem leads_pagination (leads : scene.LeadsToField steps)
    (known : ∀ made, scene.context.place.field = some made → made.head.span.isSome)
    (around : ∀ made stated, scene.context.place.field = some made →
      scene.fragment? = some stated → stated.span.isSome)
    (offered : Pagination.offer? scene = some offer)
    (result : offer.result? scene.document = some updated) :
    scene.Leads steps Pagination.offer? updated := by
  obtain ⟨made, type, here, -, -, rfl⟩ := Pagination.offer?_eq_some_iff.mp offered
  obtain ⟨pagination, field, fragment, applied⟩ : ∃ pagination : Pagination,
      pagination.fieldSpan = made.head.span ∧
      pagination.fragmentSpan = scene.fragment?.bind (·.span) ∧
      pagination.replacer.apply scene.document = some updated :=
    ⟨.ofField scene made type, rfl, rfl, result⟩
  obtain ⟨under, typed⟩ := cursorField?_iff.mp here
  have retires (there : (scene.revisited steps updated).context.place.field =
      some (pagination.field made)) : Pagination.offer? (scene.revisited steps updated) = none := by
    have again : (scene.revisited steps updated).cursorField? =
        some (pagination.field made, type) := cursorField?_iff.mpr ⟨there, typed⟩
    rw [Pagination.offer?, Pagination.ofScene?, again]
    simp only [Option.bind_eq_bind, Option.bind_some, pagination.hasDirective_field made,
      Bool.or_true]
    rfl
  have reached := leads made under
  cases inside : scene.fragment? with
  | none =>
    rw [inside] at fragment
    have changed := (pagination.targets_of_fragmentSpan fragment).replaceAt?_eq
      (Replacer.editsOwners_field pagination.field) apart reached field.symm rfl applied
    exact ⟨.pagination under inside changed,
      retires (by simp [revisited, under, Document.nodeAt?_of_replaceAt? changed])⟩
  | some stated =>
    obtain ⟨place, spanned⟩ := Option.isSome_iff_exists.mp (known made under)
    obtain ⟨outer, enclosed⟩ := Option.isSome_iff_exists.mp (around made stated under inside)
    have top := fragment?_iff.mp inside
    rw [inside, Option.bind_some, enclosed] at fragment
    rw [spanned] at field
    obtain ⟨between, selections, other, connected, enclosing, changed, made', there⟩ :=
      pagination.apply_around apart field fragment reached spanned top enclosed
    cases applied.symm.trans made'
    refine ⟨.paginationInFragment under (by simp [inside]) connected enclosing changed,
      retires ?_⟩
    have there : updated.nodeAt? (scene.fieldPath steps) =
        some (.field (pagination.field made)) := there
    simp [revisited, under, there]

/-- A decision that is made changes only what it is about, and is not made again. -/
theorem leads_of_mem (leads : scene.LeadsToField steps)
    (known : ∀ made, scene.context.place.field = some made → made.head.span.isSome)
    (around : ∀ made stated, scene.context.place.field = some made →
      scene.fragment? = some stated → stated.span.isSome)
    {decision : Decision} (member : decision ∈ decisions) (offered : decision scene = some offer)
    (result : offer.result? scene.document = some updated) :
    scene.Leads steps decision updated := by
  simp only [decisions, List.mem_cons, List.not_mem_nil, or_false] at member
  rcases member with rfl | rfl | rfl | rfl | rfl | rfl | rfl | rfl
  · exact leads_declareVariable apart offered result
  · exact leads_pagination apart leads known around offered result
  · exact leads_markTestOperation apart offered result
  · exact leads_expandUnion apart leads offered result
  · exact leads_declareArgument apart offered result
  · exact leads_makeInline apart offered result
  · exact leads_makeRefetchable apart offered result
  · exact leads_makePlural apart offered result

end Decisions

end Scene

namespace CodeAction

private theorem decision_of_mem {scene : Scene} {offer : Offer}
    (member : offer ∈ (offers scene).1 ∨ offer ∈ (offers scene).2) :
    ∃ decision ∈ decisions, decision scene = some offer := by
  rcases member with before | after
  · exact ⟨Refactoring.declareVariable?, by simp [decisions], Option.mem_toList.mp before⟩
  · obtain ⟨decision, member, offered⟩ := List.mem_filterMap.mp after
    exact ⟨decision, List.mem_cons_of_mem _ member, offered⟩

/-- An action that replaces the region was decided in the scene at the cursor. -/
theorem decided_of_offered {request : Request} {schema : Option Schema} {title : Text}
    {edit : TextEdit} (offered : Offered request schema (.replace title edit)) :
    ∃ known region document offset decision offer updated, schema = some known ∧
      CursorAt request region document offset ∧
      decision ∈ decisions ∧ decision (sceneAt request known document offset) = some offer ∧
      offer.title = title ∧ offer.result? document = some updated ∧
      edit = replacement region updated := by
  obtain ⟨known, region, document, offset, rfl, cursor⟩ := exists_cursor_of_offered offered
  obtain ⟨extraction, -, ⟨offer, member, made⟩ | ⟨command, -, other⟩⟩ :=
    (offered_iff_of_cursor cursor).mp offered
  · obtain ⟨decision, among, decided⟩ := decision_of_mem member
    obtain ⟨updated, result, same⟩ := Option.map_eq_some_iff.mp made
    cases same
    exact ⟨known, region, document, offset, decision, offer, updated, rfl, cursor, among, decided,
      rfl, result, rfl⟩
  · cases other

/-- What is decided in the scene at the cursor and changes something is among the actions. -/
theorem mem_available {request : Request} {schema : Schema} {region : Region}
    {document updated : Document} {offset : Nat} {decision : Decision} {offer : Offer}
    (cursor : CursorAt request region document offset) (among : decision ∈ decisions)
    (decided : decision (sceneAt request schema document offset) = some offer)
    (result : offer.result? document = some updated) {actions : List CodeAction}
    (computed : available request (some schema) = .ok actions) :
    .replace offer.title (replacement region updated) ∈ actions := by
  have made : ofOffer? region document offer =
      some (.replace offer.title (replacement region updated)) := by
    rw [ofOffer?, result]
    rfl
  rw [available_of_cursor cursor] at computed
  obtain ⟨extraction, -, computed⟩ := Checked.bind_eq_ok_iff.mp computed
  obtain rfl := Except.ok.inj computed
  rcases List.mem_cons.mp among with rfl | other
  · exact List.mem_append_left _ (List.mem_append_left _
      (List.mem_filterMap.mpr ⟨offer, Option.mem_toList.mpr decided, made⟩))
  · exact List.mem_append_right _ (List.mem_filterMap.mpr
      ⟨offer, List.mem_filterMap.mpr ⟨decision, other, decided⟩, made⟩)

/-- Every edit that is offered replaces the region under the cursor by a document that differs from
the former one only in what the action is about, and there the action is not offered again. -/
theorem leads_of_available {request : Request} {schema : Option Schema} {title : Text}
    {edit : TextEdit} (offered : Offered request schema (.replace title edit)) :
    ∃ known region document offset decision offer updated steps, schema = some known ∧
      CursorAt request region document offset ∧
      decision ∈ decisions ∧ decision (sceneAt request known document offset) = some offer ∧
      offer.title = title ∧ offer.result? document = some updated ∧
      edit = replacement region updated ∧
      (sceneAt request known document offset).LeadsToField steps ∧
      (sceneAt request known document offset).Leads steps decision updated := by
  obtain ⟨known, region, document, offset, decision, offer, updated, same, cursor, among, decided,
    called, result, replaces⟩ := decided_of_offered offered
  have apart := Document.ownersApart_of_parse? cursor.parsed
  obtain ⟨steps, leads⟩ : ∃ steps, (sceneAt request known document offset).LeadsToField steps := by
    cases under : (sceneAt request known document offset).context.place.field with
    | none => exact ⟨[], fun made found => by cases under.symm.trans found⟩
    | some made =>
      obtain ⟨-, -, steps, reached⟩ := CursorContext.exists_steps under
      refine ⟨steps, fun other found => ?_⟩
      cases under.symm.trans found
      exact reached
  refine ⟨known, region, document, offset, decision, offer, updated, steps, same, cursor, among,
    decided, called, result, replaces, leads, ?_⟩
  refine Scene.leads_of_mem apart leads (fun made under => (CursorContext.exists_steps under).1)
    ?_ among decided result
  intro made stated under inside
  obtain ⟨-, ⟨definition, there, spanned⟩, -⟩ := CursorContext.exists_steps under
  obtain ⟨second, there', navigable⟩ :=
    Document.nodeAt?_singleton.mp (Scene.fragment?_iff.mp inside)
  cases there.symm.trans there'
  cases definition <;> cases navigable
  exact spanned

/-- A connection in a fragment is paginated. -/
theorem leads_of_available_pagination :
    let schema : Schema := {
      types := [
        ⟨{ name := "User".toList, body := .object [] [
          { name := "pets".toList, type := .named "PetConnection".toList false }] }, false⟩,
        ⟨{ name := "PetConnection".toList, body := .object [] [] }, false⟩]
      directives := []
      roots := [] }
    let request : Request := {
      language := "graphql"
      text := "fragment F on User \x7b id pets \x7d".toList
      selection := ⟨⟨0, 24⟩, ⟨0, 24⟩⟩
      moduleName := "Page".toList }
    let title := "Set up pagination on \"pets\" for fragment".toList
    let edit : TextEdit := ⟨⟨⟨0, 0⟩, ⟨0, 30⟩⟩, ("fragment F on User ".toList ++
      "@refetchable(queryName: \"PagePaginationQuery\") ".toList ++
      "@argumentDefinitions(first: \x7btype: \"Int\", defaultValue: 5\x7d, ".toList ++
      "after: \x7btype: \"String\"\x7d) \x7b\n  id\n".toList ++
      "  pets(first: $first, after: $after) @connection(key: \"F_pets\") \x7b\n".toList ++
      "    edges \x7b\n      node \x7b\n        id\n      \x7d\n    \x7d\n  \x7d\n\x7d\n".toList)⟩
    Offered request (some schema) (.replace title edit) ∧
      ∃ region document offset decision updated steps,
        CursorAt request region document offset ∧ decision ∈ decisions ∧
          (sceneAt request schema document offset).Leads steps decision updated := by
  intro schema request title edit
  have offered : Offered request (some schema) (.replace title edit) := by decide +kernel
  obtain ⟨known, region, document, offset, decision, offer, updated, steps, same, cursor, among, -,
    -, -, -, -, leads⟩ := leads_of_available offered
  cases same
  exact ⟨offered, region, document, offset, decision, updated, steps, cursor, among, leads⟩

end CodeAction

end RelayWorkbench.Relay
