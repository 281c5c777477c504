import RelayWorkbench.Proofs.GraphQL.NodeSpans
import RelayWorkbench.Proofs.Host.RegionPlaces
import RelayWorkbench.Proofs.Relay.OwnedSets
import RelayWorkbench.Proofs.Text.LineColumns

/-! The selection set that an extraction takes its selections from. The sets are listed with every
owner before the owners inside it, so the last owner that spans some lines has no other one inside
it that does. -/

namespace RelayWorkbench.Relay

open RelayWorkbench.GraphQL RelayWorkbench.Host

namespace OwnedSet

variable {schema : Option Schema}

/-- Behind every listed set come the sets in its selections. -/
def PreOrder (schema : Option Schema) (sets : List OwnedSet) : Prop :=
  ∀ early set late, sets = early ++ set :: late →
    inSelections schema set.typeName set.selections <+: late

namespace PreOrder

variable {sets others : List OwnedSet}

theorem nil : PreOrder schema [] := by
  intro early set late listed
  simp at listed

theorem append (ordered : PreOrder schema sets) (orderedToo : PreOrder schema others) :
    PreOrder schema (sets ++ others) := by
  intro early set late listed
  rcases List.append_eq_append_iff.mp listed with ⟨between, rfl, same⟩ | ⟨between, same, rest⟩
  · exact orderedToo between set late same
  · cases between with
    | nil => exact orderedToo [] set late rest.symm
    | cons head between =>
      obtain ⟨rfl, rfl⟩ := List.cons.inj rest
      exact (ordered early set between same).trans (List.prefix_append between others)

theorem ofOwner {typeName : Option Name} {selections : List Selection} (owner : Option Span)
    (ordered : PreOrder schema (inSelections schema typeName selections)) :
    PreOrder schema (ofOwner owner typeName selections
      (inSelections schema typeName selections)) := by
  cases owner with
  | none => exact nil
  | some owner =>
    intro early set late listed
    cases early with
    | nil =>
      obtain ⟨rfl, rfl⟩ := List.cons.inj listed
      exact List.prefix_rfl
    | cons head early => exact ordered early set late (List.cons.inj listed).2

end PreOrder

mutual

private theorem preOrder_inSelection : ∀ (selection : Selection) (typeName : Option Name),
    PreOrder schema (inSelection schema typeName selection)
  | .field head selections, typeName => by
    simp only [inSelection]
    split
    · exact .nil
    · exact .ofOwner _ (preOrder_inSelections selections _)
  | .inline head selections, typeName => .ofOwner _ (preOrder_inSelections selections _)
  | .spread _, _ => .nil

private theorem preOrder_inSelections : ∀ (selections : List Selection) (typeName : Option Name),
    PreOrder schema (inSelections schema typeName selections)
  | [], _ => .nil
  | first :: rest, typeName =>
    (preOrder_inSelection first typeName).append (preOrder_inSelections rest typeName)

end

theorem preOrder_inDocument (document : Document) :
    PreOrder schema (inDocument schema document) := by
  rw [inDocument]
  induction document.definitions with
  | nil => exact .nil
  | cons stated rest ih =>
    refine .append ?_ ih
    cases stated with
    | operation made | fragment made => exact .ofOwner _ (preOrder_inSelections made.selections _)
    | directive | schema | schemaExtension | type | typeExtension => exact .nil

/-- The set is the last one with a property. -/
def IsLast (holds : OwnedSet → Prop) (sets : List OwnedSet) (set : OwnedSet) : Prop :=
  ∃ early late, sets = early ++ set :: late ∧ holds set ∧ ∀ other ∈ late, ¬ holds other

theorem IsLast.congr {holds others : OwnedSet → Prop} {sets : List OwnedSet} {set : OwnedSet}
    (same : ∀ set ∈ sets, holds set ↔ others set) :
    IsLast holds sets set ↔ IsLast others sets set := by
  refine exists_congr fun early => exists_congr fun late => and_congr_right fun listed => ?_
  subst listed
  refine and_congr (same set (by simp)) (forall₂_congr fun other member => not_congr ?_)
  exact same other (List.mem_append_right early (List.mem_cons_of_mem set member))

theorem find?_reverse_eq_some_iff {holds : OwnedSet → Bool} {sets : List OwnedSet}
    {set : OwnedSet} :
    sets.reverse.find? holds = some set ↔ IsLast (fun set => holds set) sets set := by
  rw [List.find?_eq_some_iff_append]
  constructor
  · rintro ⟨found, late, early, listed, passed⟩
    refine ⟨early.reverse, late.reverse, ?_, found, fun other member => ?_⟩
    · rw [← List.reverse_reverse sets, listed]
      simp
    · simpa using passed other (List.mem_reverse.mp member)
  · rintro ⟨early, late, rfl, found, passed⟩
    refine ⟨found, late.reverse, early.reverse, by simp, fun other member => ?_⟩
    simpa using passed other (List.mem_reverse.mp member)

end OwnedSet

namespace ExtractionCommand

variable {schema : Schema} {document : Document} {content : Text} {first last : UInt32}

/-- A span without the layout at its ends reaches over all of some lines. -/
def Covers (content : Text) (first last : UInt32) (span : Span) : Prop :=
  ∃ ends, (RegionLocator.ofContent content).ends (span.trimmed content) = .ok ends ∧
    ends.1.line ≤ first ∧ last ≤ ends.2.line

/-- A span without the layout at its ends lies on some lines. -/
def LiesOn (content : Text) (first last : UInt32) (span : Span) : Prop :=
  ∃ ends, (RegionLocator.ofContent content).ends (span.trimmed content) = .ok ends ∧
    first ≤ ends.1.line ∧ ends.2.line ≤ last

theorem spansLines_iff {span : Span} (tight : span.Tight content) :
    spansLines (.ofContent content) first last span = .ok true ↔
      Covers content first last span := by
  rw [spansLines, Covers, tight.trimmed_eq, Checked.bind_eq_ok_iff]
  refine exists_congr fun ends => and_congr_right fun _ => ?_
  rw [← decide_eq_true_iff (p := ends.1.line ≤ first), ← decide_eq_true_iff (p := last ≤ _),
    ← Bool.and_eq_true]
  exact ⟨Except.ok.inj, congrArg Except.ok⟩

theorem onLines_iff {span : Span} (tight : span.Tight content) :
    onLines (.ofContent content) first last span = .ok true ↔ LiesOn content first last span := by
  rw [onLines, LiesOn, tight.trimmed_eq, Checked.bind_eq_ok_iff]
  refine exists_congr fun ends => and_congr_right fun _ => ?_
  rw [← decide_eq_true_iff (p := first ≤ ends.1.line), ← decide_eq_true_iff (p := _ ≤ last),
    ← Bool.and_eq_true]
  exact ⟨Except.ok.inj, congrArg Except.ok⟩

/-- What a command takes from a set: all selections on some lines and nothing else. The owner of the
set has no owner below it that covers the lines too. -/
structure Takes (document : Document) (content : Text) (first last : UInt32) (set : OwnedSet)
    (command : ExtractionCommand) : Prop where
  target : command.target = set.owner
  typed : set.typeName = some command.parentType
  innermost : ∃ path node, document.nodeAt? path = some node ∧ node.span = some command.target ∧
    node.selections? = some set.selections ∧
      ∀ below inner bytes within, below ≠ [] → node.descend? below = some inner →
        inner.span = some bytes → inner.selections? = some within → within ≠ [] →
          ¬ Covers content first last bytes
  inOrder : command.selected.Pairwise (·.stop ≤ ·.start)
  distinct : command.selected.Nodup
  selected : ∀ span, span ∈ command.selected ↔
    ∃ selection ∈ set.selections, selection.span = some span ∧ LiesOn content first last span

/-- The set that an extraction takes its selections from, if it takes any. -/
def IsTarget (schema : Schema) (document : Document) (content : Text) (first last : UInt32)
    (set : OwnedSet) : Prop :=
  OwnedSet.IsLast (Covers content first last ·.owner) (OwnedSet.inDocument (some schema) document)
    set

theorem IsTarget.mem {set : OwnedSet} (target : IsTarget schema document content first last set) :
    set ∈ OwnedSet.inDocument (some schema) document := by
  obtain ⟨early, late, listed, -⟩ := target
  simp [listed]

/-- What a search for a command that comes to an end has found. -/
theorem eq_some_iff_of_ofLines? {taken : Option ExtractionCommand}
    (returned : ofLines? schema document content first last = .ok taken)
    {command : ExtractionCommand} :
    taken = some command ↔
      ∃ set, (OwnedSet.inDocument (some schema) document).reverse.find?
          (spansLines (.ofContent content) first last ·.owner = .ok true) = some set ∧
        ∃ typeName, set.typeName = some typeName ∧ schema.isObject typeName ∧
          ∃ selected, (set.selections.filterMap Selection.span).filter
              (onLines (.ofContent content) first last · = .ok true) = selected ∧ selected ≠ [] ∧
            command = { parentType := typeName, target := set.owner, selected } := by
  obtain ⟨found, searched, returned⟩ := Checked.bind_eq_ok_iff.mp returned
  rw [Checked.find?_of_findM? searched]
  constructor
  · rintro rfl
    cases found with
    | none => cases returned
    | some set =>
    cases typed : set.typeName with
    | none =>
      simp only [typed] at returned
      cases returned
    | some typeName =>
    cases object : schema.isObject typeName with
    | false =>
      simp only [typed, object] at returned
      cases returned
    | true =>
    simp only [typed, object] at returned
    obtain ⟨selected, kept, returned⟩ := Checked.bind_eq_ok_iff.mp returned
    cases written : selected.isEmpty with
    | true =>
      rw [written] at returned
      cases returned
    | false =>
      rw [written] at returned
      have same := Option.some.inj (Except.ok.inj returned)
      exact ⟨set, rfl, typeName, typed, object, selected, Checked.filter_of_filterM kept,
        by simpa using written, same.symm⟩
  · rintro ⟨set, rfl, typeName, typed, object, selected, filtered, some, rfl⟩
    simp only [typed, object] at returned
    obtain ⟨kept, selects, returned⟩ := Checked.bind_eq_ok_iff.mp returned
    obtain rfl : kept = selected := (Checked.filter_of_filterM selects).symm.trans filtered
    have written : kept.isEmpty = false := by simpa using some
    rw [written] at returned
    exact (Except.ok.inj returned).symm

section Parsed

variable {set : OwnedSet} (parsed : Document.parse? content = some document)

include parsed

/-- The owner of a listed set, and what it selects, are at tight bytes. -/
theorem tight_of_mem (member : set ∈ OwnedSet.inDocument (some schema) document) :
    set.owner.Tight content ∧ ∀ span ∈ set.selections.filterMap Selection.span,
      span.Tight content ∧ span.start < span.stop := by
  obtain ⟨path, node, reached, owner, owned⟩ := OwnedSet.exists_node member
  obtain ⟨span, spanned, tight, -⟩ := Document.exists_span_of_parse? parsed reached
  obtain rfl : span = set.owner := by simpa [Node.ownsAt, owned, spanned] using owner
  refine ⟨tight, fun span there => ?_⟩
  obtain ⟨selection, present, spanned⟩ := List.mem_filterMap.mp there
  obtain ⟨index, found⟩ := List.getElem?_of_mem present
  obtain ⟨span', spanned', tight⟩ :=
    Document.exists_span_of_parse? parsed (Document.nodeAt?_concat reached owned found)
  rw [Node.span_ofSelection, spanned] at spanned'
  cases spanned'
  exact tight

private theorem find?_eq_some_iff_isTarget :
    (OwnedSet.inDocument (some schema) document).reverse.find?
        (spansLines (.ofContent content) first last ·.owner = .ok true) = some set ↔
      IsTarget schema document content first last set := by
  rw [OwnedSet.find?_reverse_eq_some_iff]
  refine OwnedSet.IsLast.congr fun set member => ?_
  rw [decide_eq_true_iff, spansLines_iff (tight_of_mem parsed member).1]

private theorem mem_selected_iff (member : set ∈ OwnedSet.inDocument (some schema) document)
    (span : Span) :
    span ∈ (set.selections.filterMap Selection.span).filter
        (onLines (.ofContent content) first last · = .ok true) ↔
      ∃ selection ∈ set.selections, selection.span = some span ∧
        LiesOn content first last span := by
  have tight := (tight_of_mem parsed member).2
  rw [List.mem_filter]
  constructor
  · rintro ⟨there, lies⟩
    obtain ⟨selection, present, spanned⟩ := List.mem_filterMap.mp there
    exact ⟨selection, present, spanned,
      (onLines_iff (tight span there).1).mp (decide_eq_true_iff.mp lies)⟩
  · rintro ⟨selection, present, spanned, lies⟩
    have there := List.mem_filterMap.mpr ⟨selection, present, spanned⟩
    exact ⟨there, decide_eq_true_iff.mpr ((onLines_iff (tight span there).1).mpr lies)⟩

/-- Behind the last owner that covers some lines stands none below it that does. -/
private theorem innermost_of_isTarget (target : IsTarget schema document content first last set) :
    ∃ path node, document.nodeAt? path = some node ∧ node.span = some set.owner ∧
      node.selections? = some set.selections ∧
        ∀ below inner bytes within, below ≠ [] → node.descend? below = some inner →
          inner.span = some bytes → inner.selections? = some within → within ≠ [] →
            ¬ Covers content first last bytes := by
  obtain ⟨path, node, reached, owner, owned⟩ := OwnedSet.exists_node target.mem
  obtain ⟨early, late, listed, -, passed⟩ := target
  obtain ⟨span, spanned, -⟩ := Document.exists_span_of_parse? parsed reached
  obtain rfl : span = set.owner := by simpa [Node.ownsAt, owned, spanned] using owner
  refine ⟨path, node, reached, spanned, owned, ?_⟩
  intro below inner bytes within deeper descends spannedBelow ownedBelow more
  have known : ∀ path passed, node.descend? path = some passed → passed.span.isSome := by
    intro way passed descends
    have there : document.nodeAt? (path ++ way) = some passed := by
      rw [Document.nodeAt?_append (Document.ne_nil_of_nodeAt? reached), reached]
      exact descends
    obtain ⟨span, spanned, -⟩ := Document.exists_span_of_parse? parsed there
    rw [spanned]
    rfl
  obtain ⟨other, there, same⟩ : ∃ other ∈ OwnedSet.inSelections (some schema) set.typeName
      set.selections, other.owner = bytes :=
    OwnedSet.exists_mem_inSelections _ known owned deeper descends spannedBelow ownedBelow more
  have behind := OwnedSet.preOrder_inDocument document early set late listed
  exact same ▸ passed other (behind.subset there)

/-- Selections of one set are taken in order, and none of them twice. -/
private theorem pairwise_selected (member : set ∈ OwnedSet.inDocument (some schema) document)
    (holds : Span → Bool) :
    ((set.selections.filterMap Selection.span).filter holds).Pairwise (·.stop ≤ ·.start) ∧
      ((set.selections.filterMap Selection.span).filter holds).Nodup := by
  obtain ⟨path, node, reached, -, owned⟩ := OwnedSet.exists_node member
  have ordered := Document.selections_pairwise_of_parse? parsed reached owned
  refine ⟨ordered.filter holds, List.Nodup.filter holds (ordered.imp_of_mem ?_)⟩
  rintro span later there - apart rfl
  have wide := ((tight_of_mem parsed member).2 span there).2
  omega

omit parsed in
private theorem ends_returns {span : Span} (short : content.width < 2 ^ 32)
    (tight : span.Tight content) :
    ∃ ends, (RegionLocator.ofContent content).ends span = .ok ends := by
  have numbered : ∀ offset, ∃ place,
      (RegionLocator.ofContent content).position offset = .ok place := fun offset =>
    RegionLocator.position_returns <|
      Nat.lt_of_le_of_lt (LineIndex.lineColumn_lt tight.exists_written offset) short
  obtain ⟨start, here⟩ := numbered span.start
  obtain ⟨stop, there⟩ := numbered span.stop
  exact ⟨(start, stop), by rw [RegionLocator.ends, here, there]; rfl⟩

/-- In a region of less than `2 ^ 32` bytes the search for a command comes to an end. -/
theorem ofLines?_returns (short : content.width < 2 ^ 32) :
    ∃ taken, ofLines? schema document content first last = .ok taken := by
  obtain ⟨found, searched⟩ := @Checked.findM?_returns _
    (spansLines (.ofContent content) first last ·.owner)
    (OwnedSet.inDocument (some schema) document).reverse fun set member => by
      have tight := (tight_of_mem parsed (List.mem_reverse.mp member)).1
      obtain ⟨ends, numbered⟩ := ends_returns short tight
      exact ⟨_, by rw [spansLines, numbered]; rfl⟩
  rw [ofLines?, searched]
  cases found with
  | none => exact ⟨none, rfl⟩
  | some set =>
  have member : set ∈ OwnedSet.inDocument (some schema) document :=
    List.mem_reverse.mp (List.mem_of_find?_eq_some (Checked.find?_of_findM? searched))
  obtain ⟨selected, kept⟩ := @Checked.filterM_returns _
    (onLines (.ofContent content) first last) (set.selections.filterMap Selection.span)
    fun span there => by
      obtain ⟨ends, numbered⟩ := ends_returns short ((tight_of_mem parsed member).2 span there).1
      exact ⟨_, by rw [onLines, numbered]; rfl⟩
  simp only [bind, Except.bind]
  cases set.typeName with
  | none => exact ⟨none, rfl⟩
  | some typeName =>
  dsimp only
  cases schema.isObject typeName with
  | false => exact ⟨none, rfl⟩
  | true =>
    simp only [kept]
    cases selected.isEmpty with
    | true => exact ⟨none, rfl⟩
    | false => exact ⟨_, rfl⟩

end Parsed

/-- The search for a command comes to an end in every region of less than `2 ^ 32` bytes. Wherever
it does, an extraction is offered when the last owner that covers the lines is on an object type and
some of its selections lie on them. It takes those selections, and from the innermost owner. -/
theorem ofLines?_takes_innermost (parsed : Document.parse? content = some document) :
    (content.width < 2 ^ 32 →
      ∃ taken, ofLines? schema document content first last = .ok taken) ∧
    ∀ taken, ofLines? schema document content first last = .ok taken →
      (taken.isSome ↔
        ∃ set, IsTarget schema document content first last set ∧
          (∃ typeName, set.typeName = some typeName ∧ schema.isObject typeName) ∧
            ∃ selection ∈ set.selections, ∃ span, selection.span = some span ∧
              LiesOn content first last span) ∧
      ∀ command, taken = some command →
        ∃ set, IsTarget schema document content first last set ∧
          schema.isObject command.parentType ∧ Takes document content first last set command := by
  refine ⟨ofLines?_returns parsed, fun taken returned => ⟨?_, ?_⟩⟩
  · have made : ∀ {command}, taken = some command ↔ _ := eq_some_iff_of_ofLines? returned
    rw [Option.isSome_iff_exists]
    constructor
    · rintro ⟨command, there⟩
      obtain ⟨set, found, typeName, typed, object, selected, rfl, written, -⟩ := made.mp there
      have target := (find?_eq_some_iff_isTarget parsed).mp found
      obtain ⟨span, there⟩ := List.exists_mem_of_ne_nil _ written
      obtain ⟨selection, present, spanned, lies⟩ :=
        (mem_selected_iff parsed target.mem span).mp there
      exact ⟨set, target, ⟨typeName, typed, object⟩, selection, present, span, spanned, lies⟩
    · rintro ⟨set, target, ⟨typeName, typed, object⟩, selection, present, span, spanned, lies⟩
      have there := (mem_selected_iff parsed target.mem span).mpr
        ⟨selection, present, spanned, lies⟩
      have found := (find?_eq_some_iff_isTarget parsed).mpr target
      exact ⟨_, made.mpr ⟨set, found, typeName, typed, object, _, rfl, List.ne_nil_of_mem there,
        rfl⟩⟩
  · intro command there
    obtain ⟨set, found, typeName, typed, object, selected, rfl, written, rfl⟩ :=
      (eq_some_iff_of_ofLines? returned).mp there
    have target := (find?_eq_some_iff_isTarget parsed).mp found
    obtain ⟨inOrder, distinct⟩ := pairwise_selected parsed target.mem
      (onLines (.ofContent content) first last · = .ok true)
    exact ⟨set, target, object, rfl, typed, innermost_of_isTarget parsed target, inOrder, distinct,
      mem_selected_iff parsed target.mem⟩

/-- Three owners cover the third line; the innermost one has a comma behind it. -/
theorem ofLines?_takes_innermost_line :
    let schema : Schema := {
      types := [
        ⟨{ name := "Query".toList, body := .object [] [
          { name := "me".toList, type := .named "User".toList false }] }, false⟩,
        ⟨{ name := "User".toList, body := .object [] [
          { name := "pet".toList, type := .named "Pet".toList false }] }, false⟩,
        ⟨{ name := "Pet".toList, body := .object [] [] }, false⟩]
      directives := []
      roots := [(.query, "Query".toList)] }
    let text : Text :=
      "\x7b\n  me \x7b\n    pet \x7b id, name \x7d ,\n    id\n  \x7d\n\x7d\n".toList
    ∃ document command set, Document.parse? text = some document ∧
      ofLines? schema document text 3 3 = .ok (some command) ∧
      command.parentType = "Pet".toList ∧ command.selected = [⟨19, 21⟩, ⟨23, 27⟩] ∧
      IsTarget schema document text 3 3 set ∧ Takes document text 3 3 set command := by
  intro schema text
  have evaluates : ((Document.parse? text).bind fun document =>
      (ofLines? schema document text 3 3).toOption.join).map (fun command =>
        (command.parentType, command.selected)) =
          some ("Pet".toList, [⟨19, 21⟩, ⟨23, 27⟩]) := by decide +kernel
  obtain ⟨command, taken, reported⟩ := Option.map_eq_some_iff.mp evaluates
  obtain ⟨document, parsed, taken⟩ := Option.bind_eq_some_iff.mp taken
  obtain ⟨parentType, selected⟩ := Prod.mk.inj reported
  obtain ⟨-, takes⟩ := ofLines?_takes_innermost parsed
  have returned := Checked.eq_ok_of_join taken
  obtain ⟨set, target, -, takes⟩ := (takes _ returned).2 command rfl
  exact ⟨document, command, set, parsed, returned, parentType, selected, target, takes⟩

end ExtractionCommand

end RelayWorkbench.Relay
