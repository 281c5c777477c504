import RelayWorkbench.Proofs.Relay.PaginatedConnections
import RelayWorkbench.Proofs.Text.Cutting

/-! The keys of connections in fragments. A key is the name of the fragment and the names of the
fields that lead to the connection, with an underscore between them; it tells them apart as far as
they have no underscores themselves. -/

namespace RelayWorkbench.Relay

open RelayWorkbench.GraphQL RelayWorkbench.Host

namespace Pagination

open CodeAction (CursorAt sceneAt)

/-- At a request a connection in a fragment is paginated, and the field gets a key. The connection
is given by the name of the fragment and the names of the fields that lead to it. -/
inductive GivesKey (request : Request) (schema : Schema) : Name → List Name → Text → Prop where
  | intro {region : Region} {document updated : Document} {offset : Nat} {offer : Offer}
      {path : List Nat} {former made : Field} {stated : Fragment} {key : Text}
      (cursor : CursorAt request region document offset)
      (offered : offer? (sceneAt request schema document offset) = some offer)
      (result : offer.result? document = some updated)
      (finds : CursorContext.Finds schema offset document path former)
      (around : document.nodeAt? (path.take 1) = some (.fragment stated))
      (reached : updated.nodeAt? path = some (.field made))
      (keyed : made.head.directives.getLast? =
        some { name := "connection".toList, arguments := [.ofString "key".toList key] }) :
      GivesKey request schema stated.name (fieldNames document path) key

variable {request : Request} {schema : Schema} {fragment : Name} {fields : List Name} {key : Text}

/-- A key is made of the name of its fragment and those of the fields. -/
theorem GivesKey.eq (gives : GivesKey request schema fragment fields key) :
    key = Text.joinWith ['_'] (fragment :: fields) := by
  obtain ⟨cursor, offered, result, finds, around, reached, keyed⟩ := gives
  obtain ⟨made, type, under, -, plain, rfl⟩ := offer?_eq_some_iff.mp offered
  have found := CursorContext.field_eq_some_iff.mpr ⟨_, finds⟩
  obtain rfl := Option.some.inj (found.symm.trans (Scene.cursorField?_iff.mp under).1)
  obtain ⟨_, applied, paginates⟩ := paginates_of_finds request.moduleName
    (Document.ownersApart_of_parse? cursor.parsed) finds plain type
  cases applied.symm.trans result
  cases paginates with
  | inOperation top => cases around.symm.trans top
  | inFragment top connects _ _ _ _ holds =>
    cases around.symm.trans top
    cases reached.symm.trans holds
    rw [connects.directives, List.getLast?_concat] at keyed
    cases keyed
    rfl

/-- The fragment and the fields that lead to the connection that is paginated at a request. -/
def paginated? (request : Request) (schema : Schema) : Option (Name × List Name) := do
  let region ← request.region?
  let document ← Document.parse? region.content
  let offset ← (request.offsetIn region).toOption.join
  let scene := sceneAt request schema document offset
  let _ ← offer? scene
  return ((← scene.fragment?).name, scene.context.place.path)

/-- Whatever connection in a fragment is paginated gets a key. -/
theorem givesKey_of_paginated? (paginated : paginated? request schema = some (fragment, fields)) :
    GivesKey request schema fragment fields (Text.joinWith ['_'] (fragment :: fields)) := by
  simp only [paginated?, Option.bind_eq_bind, Option.bind_eq_some_iff] at paginated
  obtain ⟨region, here, document, parsed, offset, located, offer, offered, stated, inside, same⟩ :=
    paginated
  cases same
  have cursor : CursorAt request region document offset :=
    ⟨here, parsed, Checked.eq_ok_of_join located⟩
  obtain ⟨made, type, under, -, plain, rfl⟩ := offer?_eq_some_iff.mp offered
  obtain ⟨path, finds⟩ := CursorContext.field_eq_some_iff.mp (Scene.cursorField?_iff.mp under).1
  obtain ⟨updated, applied, paginates⟩ := paginates_of_finds request.moduleName
    (Document.ownersApart_of_parse? parsed) finds plain type
  obtain ⟨first, placed⟩ := finds.ofOffset
  have around : document.nodeAt? (path.take 1) = some (.fragment stated) := by
    obtain ⟨steps, rfl⟩ := List.head?_eq_some_iff.mp first
    exact Scene.fragment?_iff.mp inside
  have names : (sceneAt request schema document offset).context.place.path =
      fieldNames document path := congrArg CursorPlace.path placed
  cases paginates with
  | inOperation top => cases around.symm.trans top
  | inFragment top connects _ _ _ _ holds =>
    cases around.symm.trans top
    rw [names]
    refine .intro cursor offered applied finds around holds ?_
    rw [connects.directives, List.getLast?_concat]

end Pagination

/-- Two connections in fragments get the same key exactly if the names of their fragments and
fields fall into the same pieces at their underscores. Where no field has an underscore in its
name, different connections get different keys if they are in fragments of the same name, or below
the same number of fields, or in fragments whose names have no underscores either. -/
theorem Pagination.keys_eq_iff {request other : Request} {schema otherSchema : Schema}
    {fragment otherFragment : Name} {fields otherFields : List Name} {key otherKey : Text}
    (first : GivesKey request schema fragment fields key)
    (second : GivesKey other otherSchema otherFragment otherFields otherKey) :
    (key = otherKey ↔ (fragment :: fields).flatMap (·.splitOn '_') =
      (otherFragment :: otherFields).flatMap (·.splitOn '_')) ∧
    ((∀ name ∈ fields ++ otherFields, '_' ∉ name) →
      fragment = otherFragment ∨ fields.length = otherFields.length ∨
        ('_' ∉ fragment ∧ '_' ∉ otherFragment) →
      fragment ≠ otherFragment ∨ fields ≠ otherFields → key ≠ otherKey) := by
  have same : key = otherKey ↔ (fragment :: fields).flatMap (·.splitOn '_') =
      (otherFragment :: otherFields).flatMap (·.splitOn '_') := by
    rw [first.eq, second.eq, ← Text.splitOn_joinWith, ← Text.splitOn_joinWith]
    exact ⟨congrArg _, Text.splitOn_injective '_'⟩
  refine ⟨same, fun plain close differ equal => ?_⟩
  obtain ⟨own, others⟩ := List.forall_mem_append.mp plain
  have pieces := same.mp equal
  rw [List.flatMap_cons, List.flatMap_cons, Text.flatMap_splitOn own,
    Text.flatMap_splitOn others] at pieces
  have split : fragment.splitOn '_' = otherFragment.splitOn '_' ∧ fields = otherFields := by
    rcases close with rfl | long | ⟨named, namedToo⟩
    · exact ⟨rfl, List.append_cancel_left pieces⟩
    · exact List.append_inj' pieces long
    · have single {name : Name} (plain : '_' ∉ name) : name.splitOn '_' = [name] := by
        simpa using Text.flatMap_splitOn (List.forall_mem_singleton.mpr plain)
      rw [single named, single namedToo] at pieces ⊢
      obtain ⟨rfl, rfl⟩ := List.cons.inj pieces
      exact ⟨rfl, rfl⟩
  rcases differ with name | path
  · exact name (Text.splitOn_injective '_' split.1)
  · exact path split.2

/-- Two connections of one fragment, one of them below the other field. -/
theorem Pagination.keys_eq_iff_nested :
    let schema : Schema := {
      types := [
        ⟨{ name := "User".toList, body := .object [] [
          { name := "best".toList, type := .named "User".toList false },
          { name := "pets".toList, type := .named "PetConnection".toList false }] }, false⟩,
        ⟨{ name := "PetConnection".toList, body := .object [] [] }, false⟩]
      directives := []
      roots := [] }
    let near : Request := {
      language := "graphql"
      text := "fragment Page_user on User \x7b pets \x7d".toList
      selection := ⟨⟨0, 30⟩, ⟨0, 30⟩⟩
      moduleName := "Page".toList }
    let far : Request := {
      language := "graphql"
      text := "fragment Page_user on User \x7b best \x7b pets \x7d \x7d".toList
      selection := ⟨⟨0, 37⟩, ⟨0, 37⟩⟩
      moduleName := "Page".toList }
    let name := "Page_user".toList
    GivesKey near schema name ["pets".toList] "Page_user_pets".toList ∧
      GivesKey far schema name ["best".toList, "pets".toList] "Page_user_best_pets".toList ∧
      "Page_user_pets".toList ≠ "Page_user_best_pets".toList := by
  intro schema near far name
  have first : GivesKey near schema name ["pets".toList] "Page_user_pets".toList :=
    givesKey_of_paginated? (by decide +kernel)
  have second : GivesKey far schema name ["best".toList, "pets".toList]
      "Page_user_best_pets".toList := givesKey_of_paginated? (by decide +kernel)
  exact ⟨first, second, (keys_eq_iff first second).2 (by decide) (.inl rfl) (.inr (by decide))⟩

/-- An underscore in the name of a fragment may stand for one between the names of fields. -/
theorem Pagination.keys_collide :
    let schema : Schema := {
      types := [
        ⟨{ name := "User".toList, body := .object [] [
          { name := "best".toList, type := .named "User".toList false },
          { name := "pets".toList, type := .named "PetConnection".toList false }] }, false⟩,
        ⟨{ name := "PetConnection".toList, body := .object [] [] }, false⟩]
      directives := []
      roots := [] }
    let near : Request := {
      language := "graphql"
      text := "fragment A_best on User \x7b pets \x7d".toList
      selection := ⟨⟨0, 27⟩, ⟨0, 27⟩⟩
      moduleName := "Page".toList }
    let far : Request := {
      language := "graphql"
      text := "fragment A on User \x7b best \x7b pets \x7d \x7d".toList
      selection := ⟨⟨0, 29⟩, ⟨0, 29⟩⟩
      moduleName := "Page".toList }
    let key := "A_best_pets".toList
    GivesKey near schema "A_best".toList ["pets".toList] key ∧
      GivesKey far schema "A".toList ["best".toList, "pets".toList] key ∧
      "A_best".toList ≠ "A".toList := by
  intro schema near far key
  have first : GivesKey near schema "A_best".toList ["pets".toList] key :=
    givesKey_of_paginated? (by decide +kernel)
  have second : GivesKey far schema "A".toList ["best".toList, "pets".toList] key :=
    givesKey_of_paginated? (by decide +kernel)
  exact ⟨first, second, by decide⟩

end RelayWorkbench.Relay
