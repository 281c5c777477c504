import RelayWorkbench.Proofs.GraphQL.DirectiveRuns
import RelayWorkbench.Proofs.Relay.OfferedEdits

/-! Documents after the pagination of a connection. The field changes, and of a fragment around it
the directives do; whatever the two had before they keep, each in its place. -/

namespace RelayWorkbench.Relay

open RelayWorkbench.GraphQL RelayWorkbench.Host

namespace Pagination

variable (pagination : Pagination)

/-- What is selected of a connection of which nothing is selected. -/
def edgesOf (shown : Name) : List Selection :=
  [.ofField "edges".toList [.ofField "node".toList [.ofField shown []]]]

/-- A field after its pagination: it takes `first` and `after` from variables, has the directive
with its key behind its others, and selects what it selected, if that was anything. -/
structure Connects (key : Text) (shown : Name) (former made : Field) : Prop where
  head : made.head = { former.head with
    arguments := made.head.arguments, directives := made.head.directives }
  arguments : Argument.Merged former.head.arguments
    [.ofVariable "first".toList, .ofVariable "after".toList] made.head.arguments
  directives : made.head.directives = former.head.directives ++
    [{ name := "connection".toList, arguments := [.ofString "key".toList key] }]
  selections : made.selections =
    if former.selections.isEmpty then edgesOf shown else former.selections

/-- Directives of a fragment around a paginated field: those for refetching and for the arguments
come last, with the arguments that they had. -/
def Refetches (queryName : Text) (formers directives : List Directive) : Prop :=
  ∃ refetchable definitions,
    directives = (formers.eraseP (·.name == "refetchable".toList)).eraseP
      (·.name == "argumentDefinitions".toList) ++ [refetchable, definitions] ∧
    Directive.Extends "refetchable".toList [.ofString "queryName".toList queryName] formers
      refetchable ∧
    Directive.Extends "argumentDefinitions".toList
      [.declaring "first".toList "Int".toList (some 5),
        .declaring "after".toList "String".toList none] formers definitions

theorem connects_field {former : Field}
    (plain : Directed.hasDirective "connection".toList former = false) :
    Connects pagination.key pagination.shown former (pagination.field former) where
  head := rfl
  arguments := Argument.merged_merge _ _
  directives := by
    have absent : "connection".toList ∉ Directive.names former.head.directives := by
      simpa [Directed.hasDirective, Directed.hasDirectiveWith, Directed.directives,
        Directive.names] using plain
    exact Directive.add_of_absent absent _
  selections := by
    simp only [field]
    rfl

theorem refetches_fragment (former : Fragment) :
    ∃ directives, pagination.fragment former = { former with directives } ∧
      Refetches pagination.queryName former.directives directives := by
  have single : (Argument.names
      [.ofString "queryName".toList pagination.queryName]).Nodup := List.nodup_singleton _
  have paged : (Argument.names [.declaring "first".toList "Int".toList (some 5),
      .declaring "after".toList "String".toList none]).Nodup := by decide
  obtain ⟨refetchable, definitions, added, refetches, declares⟩ := Directive.exists_add_add
    (by decide : "refetchable".toList ≠ "argumentDefinitions".toList) single paged
    former.directives
  exact ⟨_, rfl, refetchable, definitions, added, refetches, declares⟩

/-- The names of the fields that lead to the node at a path, its own with them. -/
def fieldNames (document : Document) (path : List Nat) : List Name :=
  (document.trail path).filterMap Node.fieldName?

/-- A document after the pagination of the field at a path. -/
inductive Paginates (moduleName : Text) (shown : Name) (document : Document) (path : List Nat)
    (former : Field) : Document → Prop where
  /-- In an operation nothing changes but the field. -/
  | inOperation {stated : Operation} {made : Field} {updated : Document}
      (around : document.nodeAt? (path.take 1) = some (.operation stated))
      (connects : Connects (Text.joinWith ['_'] (fieldNames document path)) shown former made)
      (changed : document.replaceAt? (.field made) path = some updated) :
      Paginates moduleName shown document path former updated
  /-- In a fragment the field changes, and then the directives of the fragment. -/
  | inFragment {stated : Fragment} {made : Field} {selections : List Selection}
      {directives : List Directive} {between updated : Document}
      (around : document.nodeAt? (path.take 1) = some (.fragment stated))
      (connects : Connects (Text.joinWith ['_'] (stated.name :: fieldNames document path)) shown
        former made)
      (connected : document.replaceAt? (.field made) path = some between)
      (kept : between.nodeAt? (path.take 1) = some (.fragment { stated with selections }))
      (refetches : Refetches (moduleName ++ "PaginationQuery".toList) stated.directives directives)
      (changed : between.replaceAt? (.fragment { stated with selections, directives })
        (path.take 1) = some updated)
      (holds : updated.nodeAt? path = some (.field made)) :
      Paginates moduleName shown document path former updated

section Scenes

variable {scene : Scene} {index : Nat} {steps : List Nat} {made : Field}
  (apart : scene.document.OwnersApart) (here : scene.context.definition = index)
  (names : scene.context.place.path = fieldNames scene.document (index :: steps))
  (reached : scene.document.nodeAt? (index :: steps) = some (.field made))
  (spanned : made.head.span.isSome)
  (plain : Directed.hasDirective "connection".toList made = false)
include apart here names reached spanned plain

private theorem paginates_in_operation {stated : Operation} (type : TypeDefinition)
    (around : scene.document.nodeAt? [index] = some (.operation stated)) :
    ∃ updated, (ofField scene made type).replacer.apply scene.document = some updated ∧
      Paginates scene.moduleName (scene.shownField (nodeType? scene.schema type.name))
        scene.document (index :: steps) made updated := by
  have outside : scene.fragment? = none := by
    rw [Option.eq_none_iff_forall_ne_some]
    intro fragment stands
    have same := Scene.fragment?_iff.mp stands
    rw [here] at same
    cases same.symm.trans around
  let pagination := ofField scene made type
  have unbound : pagination.fragmentSpan = none := by
    simp [pagination, ofField, outside]
  have key : pagination.key =
      Text.joinWith ['_'] (fieldNames scene.document (index :: steps)) := by
    simp [pagination, ofField, connectionKey, outside, names]
  obtain ⟨updated, applied, changed⟩ := (pagination.targets_of_fragmentSpan unbound).apply_eq
    (Replacer.editsOwners_field pagination.field) apart reached rfl spanned rfl
  exact ⟨updated, applied, .inOperation around (key ▸ pagination.connects_field plain) changed⟩

private theorem paginates_in_fragment {stated : Fragment} (type : TypeDefinition)
    (around : scene.document.nodeAt? [index] = some (.fragment stated))
    (enclosed : stated.span.isSome) :
    ∃ updated, (ofField scene made type).replacer.apply scene.document = some updated ∧
      Paginates scene.moduleName (scene.shownField (nodeType? scene.schema type.name))
        scene.document (index :: steps) made updated := by
  have inside : scene.fragment? = some stated := by
    rw [Scene.fragment?_iff, here]
    exact around
  obtain ⟨place, spanned⟩ := Option.isSome_iff_exists.mp spanned
  obtain ⟨outer, enclosed⟩ := Option.isSome_iff_exists.mp enclosed
  let pagination := ofField scene made type
  have bound : pagination.fragmentSpan = some outer := by
    simp only [pagination, ofField, inside, Option.bind_some]
    exact enclosed
  have key : pagination.key =
      Text.joinWith ['_'] (stated.name :: fieldNames scene.document (index :: steps)) := by
    simp [pagination, ofField, connectionKey, inside, names]
  obtain ⟨between, selections, updated, connected, kept, changed, applied, holds⟩ :=
    pagination.apply_around apart spanned bound reached spanned around enclosed
  obtain ⟨directives, same, refetches⟩ := pagination.refetches_fragment { stated with selections }
  rw [same] at changed
  exact ⟨updated, applied, .inFragment around (key ▸ pagination.connects_field plain) connected
    kept refetches changed holds⟩

end Scenes

/-- Where the cursor is on a field without a key, the pagination of that field takes place. -/
theorem paginates_of_finds (moduleName : Text) {schema : Schema} {document : Document}
    {offset : Nat} {path : List Nat} {made : Field} (apart : document.OwnersApart)
    (finds : CursorContext.Finds schema offset document path made)
    (plain : Directed.hasDirective "connection".toList made = false) (type : TypeDefinition) :
    let scene : Scene := ⟨schema, moduleName, document, .ofOffset schema document offset⟩
    ∃ updated, (ofField scene made type).replacer.apply document = some updated ∧
      Paginates moduleName (scene.shownField (nodeType? schema type.name)) document path made
        updated := by
  intro scene
  have reached := finds.reaches
  obtain ⟨index, steps, definition, top, rfl, found, navigable, -⟩ :=
    Document.nodeAt?_eq_some reached
  have around : document.nodeAt? [index] = some top :=
    Document.nodeAt?_singleton.mpr ⟨definition, found, navigable⟩
  -- What is on the way to the field is under the cursor, and so at known bytes.
  have spanned : made.head.span.isSome :=
    underCursor_isSome (finds.under _ (Document.mem_trail_of_nodeAt? reached))
  have enclosed : top.span.isSome := underCursor_isSome (finds.under top (by
    rw [Document.trail_cons found navigable]
    exact Node.mem_trail_self top steps))
  obtain ⟨top', placed⟩ := finds.ofOffset
  have here : scene.context.definition = index := (Option.some.inj top').symm
  have names : scene.context.place.path = fieldNames document (index :: steps) :=
    congrArg CursorPlace.path placed
  cases definition with
  | operation stated =>
    cases navigable
    exact paginates_in_operation apart here names reached spanned plain type around
  | fragment stated =>
    cases navigable
    exact paginates_in_fragment apart here names reached spanned plain type around enclosed
  | directive | schema | schemaExtension | type | typeExtension => cases navigable

end Pagination

namespace CodeAction

/-- A connection under the cursor that has no key yet can be paginated, at every depth and in
operations as well as in fragments, and that changes what it is about and keeps the rest. It is
among the actions at the cursor; they are computed if nothing is selected or 32 bits can measure
the document. -/
theorem paginates_of_connection {request : Request} {schema : Schema} {region : Region}
    {document : Document} {offset : Nat} (cursor : CursorAt request region document offset)
    {made : Field} {type : TypeDefinition}
    (under : (sceneAt request schema document offset).cursorField? = some (made, type))
    (connection : Pagination.isConnection type)
    (plain : Directed.hasDirective "connection".toList made = false) :
    (request.selection.isEmpty ∨ request.text.width < 2 ^ 32 →
      ∃ actions, available request (some schema) = .ok actions) ∧
    ∃ path updated, CursorContext.Finds schema offset document path made ∧
      (∀ actions, available request (some schema) = .ok actions →
        .replace (Pagination.titleOf made) (replacement region updated) ∈ actions) ∧
      Pagination.Paginates request.moduleName
        ((sceneAt request schema document offset).shownField
          (Pagination.nodeType? schema type.name)) document path made updated := by
  obtain ⟨path, finds⟩ := CursorContext.field_eq_some_iff.mp (Scene.cursorField?_iff.mp under).1
  obtain ⟨updated, applied, paginates⟩ := Pagination.paginates_of_finds request.moduleName
    (Document.ownersApart_of_parse? cursor.parsed) finds plain type
  have offered := Pagination.offer?_eq_some_iff.mpr ⟨made, type, under, connection, plain, rfl⟩
  exact ⟨available_of_cursor_returns cursor, path, updated, finds,
    fun _ => mem_available cursor (by simp [decisions]) offered applied, paginates⟩

/-- A connection two fields deep, in a fragment that declares an argument already. -/
theorem paginates_of_connection_nested :
    let schema : Schema := {
      types := [
        ⟨{ name := "User".toList, body := .object [] [
          { name := "best".toList, type := .named "User".toList false },
          { name := "pets".toList, type := .named "PetConnection".toList false }] }, false⟩,
        ⟨{ name := "PetConnection".toList, body := .object [] [] }, false⟩]
      directives := []
      roots := [] }
    let request : Request := {
      language := "graphql"
      text := "fragment F on User @argumentDefinitions(size: \x7btype: \"Int\"\x7d) ".toList ++
        "@live \x7b best \x7b pets(first: 3, by: NAME) @stale \x7b id \x7d \x7d \x7d".toList
      selection := ⟨⟨0, 77⟩, ⟨0, 77⟩⟩
      moduleName := "Page".toList }
    ∃ region document offset made type path updated, CursorAt request region document offset ∧
      (sceneAt request schema document offset).cursorField? = some (made, type) ∧
      Pagination.isConnection type ∧ Directed.hasDirective "connection".toList made = false ∧
      Pagination.fieldNames document path = ["best".toList, "pets".toList] ∧
      Pagination.Paginates "Page".toList "id".toList document path made updated := by
  intro schema request
  have computed : (request.region?.bind fun region =>
      (Document.parse? region.content).bind fun document =>
      (request.offsetIn region).toOption.join.bind fun offset =>
      (sceneAt request schema document offset).cursorField?.map fun found =>
        (Pagination.isConnection found.2, Directed.hasDirective "connection".toList found.1,
          (sceneAt request schema document offset).context.place.path,
          (sceneAt request schema document offset).shownField
            (Pagination.nodeType? schema found.2.name))) =
      some (true, false, ["best".toList, "pets".toList], "id".toList) := by
    decide +kernel
  obtain ⟨region, here, computed⟩ := Option.bind_eq_some_iff.mp computed
  obtain ⟨document, parsed, computed⟩ := Option.bind_eq_some_iff.mp computed
  obtain ⟨offset, located, computed⟩ := Option.bind_eq_some_iff.mp computed
  obtain ⟨⟨made, type⟩, under, computed⟩ := Option.map_eq_some_iff.mp computed
  simp only [Prod.mk.injEq] at computed
  obtain ⟨connection, plain, names, shown⟩ := computed
  have cursor : CursorAt request region document offset :=
    ⟨here, parsed, Checked.eq_ok_of_join located⟩
  obtain ⟨-, path, updated, finds, -, paginates⟩ :=
    paginates_of_connection cursor under connection plain
  rw [shown] at paginates
  have fields : Pagination.fieldNames document path = ["best".toList, "pets".toList] :=
    (congrArg CursorPlace.path finds.ofOffset.2).symm.trans names
  exact ⟨region, document, offset, made, type, path, updated, cursor, under, connection, plain,
    fields, paginates⟩

end CodeAction

end RelayWorkbench.Relay
