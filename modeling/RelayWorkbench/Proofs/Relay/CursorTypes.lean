import RelayWorkbench.Proofs.GraphQL.CursorField
import RelayWorkbench.Proofs.GraphQL.Placement
import RelayWorkbench.Proofs.Relay.OwnedSets

/-! A cursor on a field and the selection sets that are listed for an extraction. The two walks over
a document type nested selections each in their own way; at the end of the cursor's way the types
they know are the same. -/

namespace RelayWorkbench.Relay

open RelayWorkbench.GraphQL

/-- What a cursor says of the field under it, told by the document and its listed sets. The field is
the selection `index` of the node at `above`. -/
structure TypedAlike (schema : Schema) (document : Document) (offset : Nat) (made : Field)
    (above : List Nat) (index : Nat) : Prop where
  reached : document.nodeAt? (above ++ [index]) = some (.field made)
  defined : above.head? = some (CursorContext.ofOffset schema document offset).definition
  named : made.head.isNamedAt offset
  token : (CursorContext.ofOffset schema document offset).place.token =
    .field made.head.name.name
  path : (CursorContext.ofOffset schema document offset).place.path =
    (document.trail (above ++ [index])).filterMap Node.fieldName?
  parent : ∃ node bytes selections, document.nodeAt? above = some node ∧ node.span = some bytes ∧
    node.selections? = some selections ∧ OwnedSet.IsListed schema document
      ⟨bytes, (CursorContext.ofOffset schema document offset).place.parentType, selections⟩
  fieldType : (CursorContext.ofOffset schema document offset).place.fieldType =
    ((CursorContext.ofOffset schema document offset).place.parentType.bind
      (schema.field? · made.head.name.name)).map (·.type.innerName)
  own : made.selections ≠ [] → ∃ bytes, made.head.span = some bytes ∧
    OwnedSet.IsListed schema document
      ⟨bytes, (CursorContext.ofOffset schema document offset).place.fieldType, made.selections⟩

/-- A cursor on a field knows the types that are listed for the sets around and below it. -/
theorem typedAlike_of_field {text : Text} {document : Document} {schema : Schema} {offset : Nat}
    {made : Field} (parsed : Document.parse? text = some document)
    (found : (CursorContext.ofOffset schema document offset).place.field = some made) :
    ∃ above index, TypedAlike schema document offset made above index := by
  obtain ⟨path, finds⟩ := CursorContext.field_eq_some_iff.mp found
  have reached := finds.reaches
  obtain ⟨defined, placed⟩ := finds.ofOffset
  obtain ⟨above, index, node, selections, rfl, reachedAbove, owned, there⟩ :=
    Document.exists_above reached rfl
  have known : ∀ passed ∈ document.trail (above ++ [index]), passed.span.isSome :=
    fun passed member => underCursor_isSome (finds.under passed member)
  have whole := Document.trail_concat reached
  have knownAbove : ∀ passed ∈ document.trail above, passed.span.isSome :=
    fun passed member => known passed (by simp [whole, member])
  obtain ⟨bytes, spanned⟩ := Option.isSome_iff_exists.mp
    (knownAbove node (Document.mem_trail_of_nodeAt? reachedAbove))
  obtain ⟨ownBytes, ownSpanned⟩ := Option.isSome_iff_exists.mp
    (known _ (Document.mem_trail_of_nodeAt? reached))
  have apart := Document.ownersApart_of_parse? parsed
  have parentType : (CursorContext.ofOffset schema document offset).place.parentType =
      document.typeAt (some schema) above := by
    rw [placed, whole]
    simp [CursorPlace.atEnd, Document.typeAt]
  have fieldType : (CursorContext.ofOffset schema document offset).place.fieldType =
      document.typeAt (some schema) (above ++ [index]) := by
    rw [placed]
    rfl
  refine ⟨above, index, reached, ?_, finds.named, ?_, ?_, ?_, ?_, fun more => ?_⟩
  · rwa [List.head?_append_of_ne_nil _ (Document.ne_nil_of_nodeAt? reachedAbove)] at defined
  · rw [placed]
    rfl
  · rw [placed]
    simp [CursorPlace.atEnd]
  · refine ⟨node, bytes, selections, reachedAbove, spanned, owned, ?_⟩
    rw [parentType]
    exact OwnedSet.isListed_of_nodeAt? apart knownAbove reachedAbove spanned owned
      (List.ne_nil_of_mem (List.mem_of_getElem? there))
  · rw [fieldType, parentType, ← Node.inside_field schema _ made, Document.typeAt, whole]
    simp [Document.typeAt]
  · refine ⟨ownBytes, ownSpanned, ?_⟩
    rw [fieldType]
    exact OwnedSet.isListed_of_nodeAt? apart known reached ownSpanned rfl more

/-- A labelled field in an inline fragment: the path leaves the fragment out, and the parent type is
the one that the fragment states. -/
theorem typedAlike_of_field_inline :
    let schema : Schema := {
      types := [
        ⟨{ name := "Query".toList, body := .object [] [
          { name := "node".toList, type := .named "Node".toList false }] }, false⟩,
        ⟨{ name := "User".toList, body := .object [] [
          { name := "pet".toList, type := .named "Pet".toList false }] }, false⟩]
      directives := []
      roots := [(.query, "Query".toList)] }
    let text := "\x7b node \x7b ... on User \x7b dog: pet \x7b name \x7d \x7d \x7d \x7d".toList
    ∃ document made above index, Document.parse? text = some document ∧
      (CursorContext.ofOffset schema document 24).place.field = some made ∧
      (CursorContext.ofOffset schema document 24).place.path = ["node".toList, "pet".toList] ∧
      (CursorContext.ofOffset schema document 24).place.fieldType = some "Pet".toList ∧
      TypedAlike schema document 24 made above index := by
  intro schema text
  have evaluates : (Document.parse? text).map (fun document =>
      let place := (CursorContext.ofOffset schema document 24).place
      (place.field.isSome, place.path, place.fieldType)) =
        some (true, ["node".toList, "pet".toList], some "Pet".toList) := by decide +kernel
  obtain ⟨document, parsed, reported⟩ := Option.map_eq_some_iff.mp evaluates
  simp only [Prod.mk.injEq] at reported
  obtain ⟨known, path, fieldType⟩ := reported
  obtain ⟨made, found⟩ := Option.isSome_iff_exists.mp known
  obtain ⟨above, index, alike⟩ := typedAlike_of_field parsed found
  exact ⟨document, made, above, index, parsed, found, path, fieldType, alike⟩

end RelayWorkbench.Relay
