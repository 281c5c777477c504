import RelayWorkbench.Proofs.GraphQL.CursorField
import RelayWorkbench.Proofs.GraphQL.Placement

/-! Which fields a cursor is recognised on. In a parsed document at most one field has its name or
label under the cursor, and nothing around that field stops the search on its way down. Only a
selection right before the field can, as the search enters the first selection it meets. -/

namespace RelayWorkbench.GraphQL

open Document

/-- A name that is the lexeme `place` is under the cursor. -/
def NameUnder (lexemes : List Lexeme) (spans : List Span) (offset place : Nat) : Prop :=
  ∃ name span, lexemes[place]? = some (.name name) ∧ spans[place]? = some span ∧
    span.touches offset

variable {lexemes : List Lexeme} {spans : List Span} {offset place first last start stop : Nat}

theorem Span.touches_iff {span : Span} {offset : Nat} :
    span.touches offset ↔ span.start ≤ offset ∧ offset ≤ span.stop := by
  simp [Span.touches]

/-- No two names are under the cursor. -/
theorem NameUnder.place_eq (order : InOrder lexemes spans) {other : Nat}
    (under : NameUnder lexemes spans offset place)
    (underOther : NameUnder lexemes spans offset other) : place = other := by
  obtain ⟨name, span, named, found, touches⟩ := under
  obtain ⟨name', span', named', found', touches'⟩ := underOther
  rw [Span.touches_iff] at touches touches'
  rcases Nat.lt_trichotomy place other with less | same | more
  · have := order.named less found found' named named'
    omega
  · exact same
  · have := order.named more found' found named' named
    omega

section Bytes

theorem NameUnder.around (order : InOrder lexemes spans)
    (under : NameUnder lexemes spans offset place) (after : start ≤ place) (before : place < stop)
    (within : stop ≤ lexemes.length) :
    underCursor offset (locate spans.toArray (some ⟨start, stop⟩)) := by
  obtain ⟨name, span, -, found, touches⟩ := under
  rw [Span.touches_iff] at touches
  have bound := order.length
  have begins : spans[start]? = some spans[start] := List.getElem?_eq_getElem (by omega)
  have ends : spans[stop - 1]? = some spans[stop - 1] := List.getElem?_eq_getElem (by omega)
  rw [locate_eq_some_iff.mpr ⟨_, _, begins, ends, rfl⟩]
  have lower := order.starts_le after begins found
  have upper := order.stops_le (Nat.le_sub_one_of_lt before) found ends
  exact Span.touches_iff.mpr ⟨Nat.le_trans lower touches.1, Nat.le_trans touches.2 upper⟩

theorem NameUnder.stop_le (order : InOrder lexemes spans)
    (under : NameUnder lexemes spans offset place) {target : Span} (before : stop - 1 < place)
    (located : locate spans.toArray (some ⟨start, stop⟩) = some target) :
    target.stop ≤ offset := by
  obtain ⟨name, span, -, found, touches⟩ := under
  obtain ⟨_, ends, -, foundEnd, rfl⟩ := locate_eq_some_iff.mp located
  have apart : ends.stop ≤ span.start := order.apart before foundEnd found
  exact Nat.le_trans apart (Span.touches_iff.mp touches).1

theorem NameUnder.not_under (order : InOrder lexemes spans)
    (under : NameUnder lexemes spans offset place) {between : Nat} (before : stop - 1 < between)
    (behind : between < place) :
    ¬ underCursor offset (locate spans.toArray (some ⟨start, stop⟩)) := by
  obtain ⟨name, span, -, found, touches⟩ := under
  rw [Span.touches_iff] at touches
  intro touched
  obtain ⟨target, located⟩ := Option.isSome_iff_exists.mp (underCursor_isSome touched)
  rw [located] at touched
  obtain ⟨_, ends, -, foundEnd, rfl⟩ := locate_eq_some_iff.mp located
  obtain ⟨inside, -⟩ := List.getElem?_eq_some_iff.mp found
  have stands : spans[between]? = some spans[between] := List.getElem?_eq_getElem (by omega)
  have wide := order.wide _ (List.mem_of_getElem? stands)
  have apart : ends.stop ≤ spans[between].start := order.apart before foundEnd stands
  have apartLater := order.apart behind stands found
  have reaches : offset ≤ ends.stop := (Span.touches_iff.mp touched).2
  omega

end Bytes

section Names

theorem Ident.Stands.nameUnder {ident : Ident}
    (stands : ident.Stands lexemes (locate spans.toArray) first last)
    (under : underCursor offset ident.span) :
    ∃ place, NameUnder lexemes spans offset place ∧ first ≤ place ∧ place < last := by
  obtain ⟨place, name, spanned, named, after, before⟩ := stands
  refine ⟨place, ⟨name, ?_⟩, after, before⟩
  obtain ⟨target, known⟩ := Option.isSome_iff_exists.mp (underCursor_isSome under)
  rw [known] at spanned under
  obtain ⟨span, _, found, foundLast, rfl⟩ := locate_eq_some_iff.mp spanned.symm
  rw [Nat.add_sub_cancel] at foundLast
  cases found.symm.trans foundLast
  exact ⟨span, named, found, under⟩

/-- A field whose name or label is under the cursor has a name of its own there. -/
theorem FieldHead.Stands.nameUnder {head : FieldHead}
    (stands : head.Stands lexemes (locate spans.toArray) first last)
    (named : head.isNamedAt offset) :
    ∃ place, NameUnder lexemes spans offset place ∧ first ≤ place ∧ place < last := by
  simp only [isNamedAt, Bool.or_eq_true] at named
  rcases named with name | label
  · exact stands.name.nameUnder name
  · obtain ⟨ident, labelled, under⟩ : ∃ ident ∈ head.label, underCursor offset ident.span := by
      cases known : head.label with
      | none => simp [known, underCursor] at label
      | some ident => exact ⟨ident, rfl, by simpa [known] using label⟩
    exact (stands.label ident labelled).nameUnder under

/-- A field whose name or label is under the cursor holds the name that is there. -/
theorem holds_of_named (order : InOrder lexemes spans)
    (under : NameUnder lexemes spans offset place) {made : Field}
    (named : made.head.isNamedAt offset) :
    (Node.field made).Holds lexemes (locate spans.toArray) place := by
  intro first last start opens stop stands
  obtain ⟨other, underOther, after, before⟩ := (stands.head made rfl).nameUnder named
  obtain rfl := under.place_eq order underOther
  exact ⟨after, Nat.le_of_lt before, Nat.lt_of_lt_of_le before stands.before⟩

end Names

/-- A selection before the one at the path, in the same node, ends at the cursor. -/
def Node.IsShadowed (offset : Nat) (node : Node) (path : List Nat) : Prop :=
  ∃ above index earlier sibling span, path = above ++ [index] ∧ earlier < index ∧
    node.descend? (above ++ [earlier]) = some sibling ∧ sibling.span = some span ∧
      span.stop = offset

theorem Node.IsShadowed.of_child {node : Node} {selections : List Selection} {index : Nat}
    {selection : Selection} {path : List Nat} (owned : node.selections? = some selections)
    (found : selections[index]? = some selection)
    (shadowed : (ofSelection selection).IsShadowed offset path) :
    node.IsShadowed offset (index :: path) := by
  obtain ⟨above, later, earlier, sibling, span, rfl, less, reached, rest⟩ := shadowed
  refine ⟨index :: above, later, earlier, sibling, span, rfl, less, ?_, rest⟩
  rw [List.cons_append, descend?_cons owned found, reached]

namespace CursorContext

variable {schema : Schema} {type : Option Name} {node : Node} {path : List Nat} {made : Field}

theorem argumentUse?_eq_none {declared : Name → Option TypeRef} {arguments : List Argument}
    (past : ∀ argument ∈ arguments, ¬ underCursor offset argument.span) :
    argumentUse? schema offset declared arguments = none := by
  refine List.findSome?_eq_none_iff.mpr fun argument member => ?_
  simp [past argument member]

theorem directiveUse?_eq_none {directives : List Directive}
    (past : ∀ directive ∈ directives, ¬ underCursor offset directive.span) :
    directiveUse? schema offset directives = none := by
  refine List.findSome?_eq_none_iff.mpr fun directive member => ?_
  simp [past directive member]

private theorem fieldUse?_eq_none {definition : Option FieldDefinition} {head : FieldHead}
    (past : ∀ argument ∈ head.arguments, ¬ underCursor offset argument.span)
    (pastDirectives : ∀ directive ∈ head.directives, ¬ underCursor offset directive.span) :
    fieldUse? schema offset definition head = none := by
  rw [fieldUse?, argumentUse?_eq_none past, Option.none_or, directiveUse?_eq_none pastDirectives]

/-- A name behind the head of a node is none that the search could stop at before. -/
private theorem passes_of_behind (order : InOrder lexemes spans) {opens : Nat}
    (stands : node.StandsAt lexemes (locate spans.toArray) first last start opens stop)
    (under : NameUnder lexemes spans offset place) (behind : opens < place) :
    Passes schema offset type node := by
  cases node with
  | field made =>
    have head := stands.head made rfl
    obtain ⟨name, -, -, -, after, before⟩ := head.name
    have ended : ∀ span, EndsBy (locate spans.toArray) opens span → ¬ underCursor offset span := by
      rintro _ ⟨begin, stop, rfl, ends⟩
      exact under.not_under order (by omega) behind
    refine ⟨Bool.eq_false_iff.mpr fun named => ?_, fieldUse?_eq_none ?_ ?_⟩
    · obtain ⟨other, underOther, -, ahead⟩ := head.nameUnder named
      have same := under.place_eq order underOther
      omega
    · exact fun argument member => ended _ (head.arguments argument member)
    · exact fun directive member => ended _ (head.directives directive member)
  | operation | fragment | inline | spread => trivial

/-- A node above a field whose name or label is under the cursor is under the cursor. -/
private theorem under_of_below (order : InOrder lexemes spans)
    (under : NameUnder lexemes spans offset place) (named : made.head.isNamedAt offset)
    (stands : node.Stands lexemes (locate spans.toArray) first last)
    (within : last ≤ lexemes.length) (reached : node.descend? path = some (.field made)) :
    underCursor offset node.span := by
  obtain ⟨start, opens, stop, stands⟩ := stands
  obtain ⟨after, before⟩ :=
    (stands.self.below reached).place_bounds (holds_of_named order under named)
  rw [stands.frame.spanned]
  exact under.around order after before (Nat.le_trans stands.frame.within within)

/-- The name under the cursor is behind the start of a node above its field. -/
private theorem place_gt_of_below (order : InOrder lexemes spans)
    (under : NameUnder lexemes spans offset place) (named : made.head.isNamedAt offset)
    (stands : node.Stands lexemes (locate spans.toArray) first last) {index : Nat}
    (reached : node.descend? (index :: path) = some (.field made)) : first < place := by
  obtain ⟨start, opens, stop, stands⟩ := stands
  obtain ⟨selections, selection, owned, found, below⟩ := Node.descend?_cons_eq_some reached
  obtain ⟨after, -⟩ :=
    ((stands.child owned found).below below).place_bounds (holds_of_named order under named)
  have begins := stands.frame.after
  have behind := stands.behind
  omega

/-- A node that ends by `middle` is not under the cursor when the name that is stands behind. -/
private theorem not_under_of_ahead (order : InOrder lexemes spans)
    (under : NameUnder lexemes spans offset place) {middle : Nat}
    (stands : node.Stands lexemes (locate spans.toArray) first middle) (behind : middle < place) :
    ¬ underCursor offset node.span := by
  obtain ⟨start, opens, stop, stands⟩ := stands
  have wide := stands.frame.wide
  have ends := stands.frame.within
  rw [stands.frame.spanned]
  exact under.not_under order (by omega) behind

/-- A selection before a field whose name or label is under the cursor is not under the cursor,
unless it ends there. -/
private theorem stop_eq_of_before (order : InOrder lexemes spans)
    (under : NameUnder lexemes spans offset place) {middle : Nat}
    (stands : node.Stands lexemes (locate spans.toArray) first middle) (behind : middle ≤ place)
    (touched : underCursor offset node.span) :
    ∃ span, node.span = some span ∧ span.stop = offset := by
  obtain ⟨start, opens, stop, stands⟩ := stands
  obtain ⟨span, known⟩ := Option.isSome_iff_exists.mp (underCursor_isSome touched)
  have wide := stands.frame.wide
  have ends := stands.frame.within
  have upper := under.stop_le order (by omega) (stands.frame.spanned.symm.trans known)
  rw [known] at touched
  exact ⟨span, known, Nat.le_antisymm upper (Span.touches_iff.mp touched).2⟩

/-- The search enters the selection that a path leads into, unless the path ends there and a
selection before it ends at the cursor. -/
private theorem first_of_stands (order : InOrder lexemes spans)
    (under : NameUnder lexemes spans offset place) (named : made.head.isNamedAt offset)
    {selections : List Selection} {selection : Selection} {index : Nat}
    (inside : Selection.AllStand lexemes (locate spans.toArray) first last selections)
    (within : last ≤ lexemes.length) (owned : node.selections? = some selections)
    (found : selections[index]? = some selection)
    (below : (Node.ofSelection selection).descend? path = some (.field made))
    (clear : ¬ node.IsShadowed offset (index :: path)) :
    selections.findIdx? (underCursor offset ·.span) = some index := by
  obtain ⟨bound, rfl⟩ := List.getElem?_eq_some_iff.mp found
  refine List.findIdx?_eq_some_iff_getElem.mpr ⟨bound, ?_, fun earlier less touched => ?_⟩
  · rw [← Node.span_ofSelection]
    exact under_of_below order under named (inside.of_getElem? found).node within below
  · have present : selections[earlier]? = some selections[earlier] :=
      List.getElem?_eq_getElem (Nat.lt_trans less bound)
    obtain ⟨middle, early, late⟩ := inside.split present found less
    rw [← Node.span_ofSelection] at touched
    cases path with
    | nil =>
      obtain ⟨behind, -⟩ :=
        (late.node.below below).place_bounds (holds_of_named order under named)
      obtain ⟨span, known, ends⟩ := stop_eq_of_before order under early.node behind touched
      exact clear ⟨[], index, earlier, _, span, rfl, less, Node.descend?_cons owned present [],
        known, ends⟩
    | cons next path =>
      have behind := place_gt_of_below order under named late.node below
      exact not_under_of_ahead order under early.node behind touched

/-- The search of a node leads to a field whose name or label is under the cursor, unless a
selection before the field ends there. -/
theorem leads_of_stands (order : InOrder lexemes spans)
    (under : NameUnder lexemes spans offset place) (named : made.head.isNamedAt offset)
    (stands : node.Stands lexemes (locate spans.toArray) first last)
    (within : last ≤ lexemes.length) (reached : node.descend? path = some (.field made))
    (clear : ¬ node.IsShadowed offset path) : Leads schema offset type node path made := by
  induction path generalizing node type first last with
  | nil =>
    cases reached
    exact .ends named
  | cons index path ih =>
    obtain ⟨start, opens, stop, stands⟩ := stands
    obtain ⟨selections, selection, owned, found, below⟩ := Node.descend?_cons_eq_some reached
    have child := stands.child owned found
    have ends := Nat.le_trans stands.frame.within within
    obtain ⟨behind, -⟩ := (child.below below).place_bounds (holds_of_named order under named)
    refine .enters (passes_of_behind order stands under behind) owned ?_ found ?_
    · exact first_of_stands order under named (stands.inside selections owned) ends owned found
        below clear
    · exact ih child ends below fun shadowed => clear (shadowed.of_child owned found)

/-- The search of a node enters no selection when one before it is under the cursor. -/
theorem Leads.not_under (leads : Leads schema offset type node path made) {above : List Nat}
    {index earlier : Nat} {sibling : Node} (last : path = above ++ [index])
    (less : earlier < index) (there : node.descend? (above ++ [earlier]) = some sibling) :
    ¬ underCursor offset sibling.span := by
  induction leads generalizing above with
  | ends => simp at last
  | enters _ owned first found _ ih =>
    cases above with
    | nil =>
      obtain ⟨rfl, rfl⟩ : _ = index ∧ _ = [] := by simpa using last
      obtain ⟨bound, -, past⟩ := List.findIdx?_eq_some_iff_getElem.mp first
      rw [List.nil_append, Node.descend?_cons owned
        (List.getElem?_eq_getElem (Nat.lt_trans less bound))] at there
      cases there
      rw [Node.span_ofSelection]
      exact past earlier less
    | cons step above =>
      obtain ⟨rfl, rest⟩ : _ = step ∧ _ = above ++ [index] := by simpa using last
      rw [List.cons_append, Node.descend?_cons owned found] at there
      exact ih rest there

end CursorContext

/-- A selection before the one at the path, in the same selection set, ends at the cursor. -/
def Document.IsShadowed (offset : Nat) (document : Document) (path : List Nat) : Prop :=
  ∃ above index earlier sibling span, path = above ++ [index] ∧ earlier < index ∧
    document.nodeAt? (above ++ [earlier]) = some sibling ∧ sibling.span = some span ∧
      span.stop = offset

theorem Node.IsShadowed.document {document : Document} {index : Nat} {stated : Definition}
    {top : Node} {below : List Nat} (found : document.definitions[index]? = some stated)
    (navigable : Node.ofDefinition? stated = some top) (shadowed : top.IsShadowed offset below) :
    document.IsShadowed offset (index :: below) := by
  obtain ⟨above, later, earlier, sibling, span, rfl, less, reached, rest⟩ := shadowed
  refine ⟨index :: above, later, earlier, sibling, span, rfl, less, ?_, rest⟩
  rw [List.cons_append, Document.nodeAt?_cons found navigable, reached]

namespace CursorContext

variable {schema : Schema} {document : Document} {path : List Nat} {made : Field}

/-- The search of a document leads to a field whose name or label is under the cursor, unless a
selection before the field ends there. -/
private theorem finds_of_stands (order : InOrder lexemes spans)
    (stands : Definition.AllStand lexemes (locate spans.toArray) 0 document.definitions)
    (reached : document.nodeAt? path = some (.field made)) (named : made.head.isNamedAt offset)
    (clear : ¬ document.IsShadowed offset path) : Finds schema offset document path made := by
  obtain ⟨_, _, _, own⟩ := stands.of_nodeAt? reached
  obtain ⟨place, under, -⟩ := (own.head made rfl).nameUnder named
  obtain ⟨index, below, stated, top, rfl, found, navigable, descends⟩ := nodeAt?_eq_some reached
  have top_stands := stands.of_getElem? found top navigable
  refine .intro ?_ found navigable (leads_of_stands order under named top_stands (Nat.le_refl _)
    descends fun shadowed => clear (shadowed.document found navigable))
  obtain ⟨bound, rfl⟩ := List.getElem?_eq_some_iff.mp found
  refine List.findIdx?_eq_some_iff_getElem.mpr ⟨bound, ?_, fun earlier less touched => ?_⟩
  · rw [← Node.span_ofDefinition? navigable]
    exact under_of_below order under named top_stands (Nat.le_refl _) descends
  · have present : document.definitions[earlier]? = some document.definitions[earlier] :=
      List.getElem?_eq_getElem (Nat.lt_trans less bound)
    obtain ⟨middle, early, late⟩ := stands.split present found less
    obtain ⟨other, navigableOther, spanned⟩ := Node.exists_ofDefinition?
      (underCursor_isSome touched)
    rw [← spanned] at touched
    cases below with
    | nil =>
      cases descends
      cases same : document.definitions[index] <;> rw [same] at navigable <;> cases navigable
    | cons next below =>
      have behind := place_gt_of_below order under named (late top navigable) descends
      exact not_under_of_ahead order under (early other navigableOther) behind touched

/-- The search leads to a field only where no selection before it ends at the cursor. -/
private theorem not_isShadowed (order : InOrder lexemes spans)
    (stands : Definition.AllStand lexemes (locate spans.toArray) 0 document.definitions)
    (finds : Finds schema offset document path made) : ¬ document.IsShadowed offset path := by
  rintro ⟨above, index, earlier, sibling, span, last, less, there, known, ends⟩
  obtain ⟨start, opens, stop, standsAt⟩ := stands.of_nodeAt? there
  have located := standsAt.frame.spanned.symm.trans known
  have wide := locate_wide order standsAt.frame.wide located
  have touched : underCursor offset sibling.span := by
    rw [known]
    exact Span.touches_iff.mpr ⟨by omega, Nat.le_of_eq ends.symm⟩
  obtain ⟨first, found, navigable, leads⟩ := finds
  cases above with
  | nil =>
    obtain ⟨rfl, -⟩ : _ = index ∧ _ = [] := by simpa using last
    obtain ⟨stated, present, navigableOther⟩ := nodeAt?_singleton.mp there
    obtain ⟨bound, -, past⟩ := List.findIdx?_eq_some_iff_getElem.mp first
    obtain ⟨_, rfl⟩ := List.getElem?_eq_some_iff.mp present
    rw [Node.span_ofDefinition? navigableOther] at touched
    exact past earlier less touched
  | cons step above =>
    obtain ⟨rfl, rest⟩ : _ = step ∧ _ = above ++ [index] := by simpa using last
    rw [List.cons_append, nodeAt?_cons found navigable] at there
    exact leads.not_under rest less there touched

/-- A cursor on the name or label of a field is recognised exactly where no selection before the
field in its selection set ends at the cursor. -/
theorem recognised_iff {text : Text} (parsed : parse? text = some document)
    (reached : document.nodeAt? path = some (.field made)) (named : made.head.isNamedAt offset)
    (schema : Schema) :
    (¬ document.IsShadowed offset path →
      path.head? = some (ofOffset schema document offset).definition ∧
        (ofOffset schema document offset).place.token = .field made.head.name.name ∧
          (ofOffset schema document offset).place.field = some made) ∧
    (document.IsShadowed offset path →
      (ofOffset schema document offset).place.field = none ∧
        ∀ name, (ofOffset schema document offset).place.token ≠ .field name) := by
  have order := inOrder text
  have stands := allStand_of_parse? parsed
  refine ⟨fun clear => ?_, fun shadowed => ?_⟩
  · have finds : Finds schema offset document path made :=
      finds_of_stands order stands reached named clear
    obtain ⟨defined, placed⟩ := finds.ofOffset
    rw [placed]
    exact ⟨defined, rfl, rfl⟩
  · have none : (ofOffset schema document offset).place.field = none := by
      refine Option.eq_none_iff_forall_ne_some.mpr fun other found => ?_
      obtain ⟨way, finds⟩ := field_eq_some_iff.mp found
      -- No two fields have a name under the cursor, so the search leads to this one.
      obtain ⟨_, _, _, own⟩ := stands.of_nodeAt? reached
      obtain ⟨place, under, -⟩ := (own.head made rfl).nameUnder named
      obtain rfl := path_eq_of_holds stands reached (holds_of_named order under named)
        finds.reaches (holds_of_named order under finds.named)
      exact not_isShadowed order stands finds shadowed
    refine ⟨none, fun name token => ?_⟩
    have known := isSome_of_token token
    rw [none] at known
    cases known

private def isFieldAt (offset : Nat) : Node → Bool
  | .field made => made.head.isNamedAt offset
  | _ => false

/-- A cursor at the end of a field's name that is right behind a selection set. -/
theorem recognised_iff_end_of_name :
    let schema : Schema := { types := [], directives := [], roots := [] }
    let text := "\x7bviewer\x7buser\x7bname\x7d\x7duser\x7bname\x7d\x7d".toList
    ∃ document made, parse? text = some document ∧
      document.nodeAt? [0, 1] = some (.field made) ∧ made.head.isNamedAt 23 ∧
      ¬ document.IsShadowed 23 [0, 1] ∧
      (ofOffset schema document 23).place.field = some made := by
  intro schema text
  have evaluates : (parse? text).map (fun document =>
      ((document.nodeAt? [0, 1]).any (isFieldAt 23),
      (document.nodeAt? [0, 0]).bind Node.span)) = some (true, some ⟨1, 19⟩) := by
    decide +kernel
  obtain ⟨document, parsed, facts⟩ := Option.map_eq_some_iff.mp evaluates
  obtain ⟨there, before⟩ := Prod.mk.inj facts
  obtain ⟨node, reached, named⟩ := (Option.any_eq_true ..).mp there
  cases node with
  | field made =>
    have clear : ¬ document.IsShadowed 23 [0, 1] := by
      rintro ⟨above, index, earlier, sibling, span, last, less, found, known, ends⟩
      obtain ⟨rfl, ⟨⟩⟩ := List.append_inj' (show [0] ++ [1] = above ++ [index] from last) rfl
      obtain rfl := Nat.lt_one_iff.mp less
      rw [List.singleton_append] at found
      rw [found, Option.bind_some, known] at before
      cases before
      cases ends
    exact ⟨document, made, parsed, reached, named, clear,
      ((recognised_iff parsed reached named schema).1 clear).2.2⟩
  | operation | fragment | inline | spread => cases named

/-- A cursor right behind a selection set and right before the next field is on that field's name,
and is reported to be on no field. -/
theorem unrecognised_behind_brace :
    let schema : Schema := { types := [], directives := [], roots := [] }
    let text := "\x7bviewer\x7buser\x7bname\x7d\x7duser\x7bname\x7d\x7d".toList
    ∃ document made, parse? text = some document ∧
      document.nodeAt? [0, 1] = some (.field made) ∧ made.head.isNamedAt 19 ∧
      (ofOffset schema document 19).place.token = .other ∧
      (ofOffset schema document 19).place.field = none := by
  intro schema text
  have evaluates : (parse? text).map (fun document =>
      ((document.nodeAt? [0, 1]).any (isFieldAt 19),
      (ofOffset schema document 19).place.token,
      (ofOffset schema document 19).place.field.isNone)) = some (true, .other, true) := by
    decide +kernel
  obtain ⟨document, parsed, facts⟩ := Option.map_eq_some_iff.mp evaluates
  simp only [Prod.mk.injEq, Option.isNone_iff_eq_none] at facts
  obtain ⟨there, token, unreported⟩ := facts
  obtain ⟨node, reached, named⟩ := (Option.any_eq_true ..).mp there
  cases node with
  | field made => exact ⟨document, made, parsed, reached, named, token, unreported⟩
  | operation | fragment | inline | spread => cases named

end CursorContext

end RelayWorkbench.GraphQL
