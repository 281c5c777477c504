import RelayWorkbench.Proofs.GraphQL.RecognisedFields
import RelayWorkbench.Proofs.GraphQL.VariableUses

/-! A cursor inside a variable. Around the variable nothing stops the search: what it meets before
ends before the variable starts, so it comes to the argument that holds the variable and, in the
value of that argument, to the variable. It reports the type that the schema gives the argument and
the one that is left of it where the variable stands. -/

namespace RelayWorkbench.GraphQL

open Document

/-- A step into a value. -/
inductive ValueStep where
  /-- To an item of a list. -/
  | item
  /-- To a field of an object. -/
  | key (name : Name)

/-- The type that is expected behind some steps. An item of a list is of the type that a list type
names, whether or not the list may be null; a field is of the type that the input type of the
innermost name gives it. -/
def Schema.expectedAlong (schema : Schema) : List ValueStep → Option TypeRef → Option TypeRef
  | [], expected => expected
  | .item :: steps, some (.list item _) => schema.expectedAlong steps (some item)
  | .item :: steps, _ => schema.expectedAlong steps none
  | .key name :: steps, expected =>
    let definition := expected.bind fun type => schema.type? type.innerName
    schema.expectedAlong steps <| definition.bind fun definition =>
      match definition.body with
      | .input fields => (fields.find? (·.name == name)).map (·.type)
      | _ => none

theorem Schema.expectedAlong_item (schema : Schema) (steps : List ValueStep)
    (expected : Option TypeRef) : schema.expectedAlong (.item :: steps) expected =
      schema.expectedAlong steps (expected.bind TypeRef.item?) := by
  cases expected with
  | none => rfl
  | some type => cases type <;> rfl

theorem Schema.expectedAlong_key (schema : Schema) (name : Name) (steps : List ValueStep)
    (expected : Option TypeRef) : schema.expectedAlong (.key name :: steps) expected =
      schema.expectedAlong steps (schema.fieldExpected expected name) := by
  rw [expectedAlong, fieldExpected]
  congr 1
  cases expected with
  | none => rfl
  | some type =>
    simp only [Option.bind_some, Option.map_some, inputField?]
    cases schema.type? type.innerName with
    | none => rfl
    | some definition => cases same : definition.body <;> simp [same]

/-- The cursor is strictly inside a variable that some steps lead to in a value. -/
inductive Value.HoldsVariable (offset : Nat) (name : Name) : List ValueStep → Value → Prop where
  | here {span : Span} (after : span.start < offset) (before : offset < span.stop) :
      HoldsVariable offset name [] (.scalar (some span) (.ofVariable name))
  | item {steps : List ValueStep} {span : Option Span} {items : List Value} {item : Value}
      (member : item ∈ items) (below : HoldsVariable offset name steps item) :
      HoldsVariable offset name (.item :: steps) (.list span items)
  | key {steps : List ValueStep} {span : Option Span} {fields : List (Name × Value)} {key : Name}
      {value : Value} (member : (key, value) ∈ fields)
      (below : HoldsVariable offset name steps value) :
      HoldsVariable offset name (.key key :: steps) (.object span fields)

variable {lexemes : List Lexeme} {spans : List Span} {schema : Schema}
  {offset first middle last near far : Nat}

/-- The cursor is strictly inside something that stands from `first` on and ends by `last`. -/
def Inside (spans : List Span) (offset first last : Nat) : Prop :=
  ∃ start stop target, Frame (locate spans.toArray) first last (some target) start stop ∧
    target.start < offset ∧ offset < target.stop

namespace Inside

variable {span : Option Span} {start stop : Nat}

theorem widen (inside : Inside spans offset first last) (lower : near ≤ first)
    (upper : last ≤ far) : Inside spans offset near far := by
  obtain ⟨start, stop, target, frame, strict⟩ := inside
  exact ⟨start, stop, target, frame.widen lower upper, strict⟩

theorem under (inside : Inside spans offset start stop) (order : InOrder lexemes spans)
    (frame : Frame (locate spans.toArray) first last span start stop)
    (within : last ≤ lexemes.length) : underCursor offset span := by
  obtain ⟨begin, ends, target, inner, after, before⟩ := inside
  obtain ⟨from_, upTo, found, foundLast, rfl⟩ := locate_eq_some_iff.mp inner.spanned.symm
  have bound := order.length
  have frameWithin := frame.within
  have wide := frame.wide
  have opening : spans[start]? = some spans[start] := List.getElem?_eq_getElem (by omega)
  have closing : spans[stop - 1]? = some spans[stop - 1] := List.getElem?_eq_getElem (by omega)
  have lower := order.starts_le inner.after opening found
  have upper := order.stops_le (Nat.sub_le_sub_right inner.within 1) foundLast closing
  rw [frame.spanned, locate_eq_some_iff.mpr ⟨_, _, opening, closing, rfl⟩]
  exact Span.touches_iff.mpr ⟨Nat.le_trans lower after.le, Nat.le_trans before.le upper⟩

theorem not_under_ahead (inside : Inside spans offset middle last) (order : InOrder lexemes spans)
    (frame : Frame (locate spans.toArray) first middle span start stop) :
    ¬ underCursor offset span := by
  intro touched
  obtain ⟨begin, ends, target, inner, after, before⟩ := inside
  obtain ⟨other, rfl⟩ := Option.isSome_iff_exists.mp (underCursor_isSome touched)
  have reaches : offset ≤ other.stop := (Span.touches_iff.mp touched).2
  have apart : other.stop ≤ target.start := stop_le_start_of_locate order frame.wide
    (Nat.le_trans frame.within inner.after) frame.spanned.symm inner.spanned.symm
  omega

theorem not_under_behind (inside : Inside spans offset first middle) (order : InOrder lexemes spans)
    (frame : Frame (locate spans.toArray) middle last span start stop) :
    ¬ underCursor offset span := by
  intro touched
  obtain ⟨begin, ends, target, inner, after, before⟩ := inside
  obtain ⟨other, rfl⟩ := Option.isSome_iff_exists.mp (underCursor_isSome touched)
  have reaches : other.start ≤ offset := (Span.touches_iff.mp touched).1
  have apart : target.stop ≤ other.start := stop_le_start_of_locate order inner.wide
    (Nat.le_trans inner.within frame.after) inner.spanned.symm frame.spanned.symm
  omega

end Inside

/-- The cursor is strictly inside something that a span is around. -/
def Around (spans : List Span) (offset first last : Nat) (span : Option Span) : Prop :=
  ∃ start stop, Frame (locate spans.toArray) first last span start stop ∧
    Inside spans offset start stop

namespace Around

variable {span : Option Span}

theorem inside (around : Around spans offset first last span) : Inside spans offset first last := by
  obtain ⟨start, stop, frame, inside⟩ := around
  exact inside.widen frame.after frame.within

theorem under (around : Around spans offset first last span) (order : InOrder lexemes spans)
    (within : last ≤ lexemes.length) : underCursor offset span := by
  obtain ⟨start, stop, frame, inside⟩ := around
  exact inside.under order frame within

end Around

theorem Ident.Stands.frame {ident : Ident} {move : Respan}
    (stands : ident.Stands lexemes move first last) :
    ∃ start stop, Frame move first last ident.span start stop := by
  obtain ⟨place, -, spanned, -, after, before⟩ := stands
  exact ⟨place, place + 1, spanned, after, Nat.lt_succ_self place, before⟩

/-- A search through items in line finds what it finds in the one around the cursor, when it finds
nothing in those that end before. -/
theorem InLine.findSome?_eq {α β : Type} {stands : Nat → Nat → α → Prop} (widens : Widens stands)
    {items : List α} {item : α} {found : α → Option β} {result : β}
    (line : InLine stands first last items) (member : item ∈ items)
    (around : ∀ {middle}, stands middle last item → Inside spans offset middle last)
    (past : ∀ {middle other}, Inside spans offset middle last → stands first middle other →
      found other = none)
    (here : found item = some result) : items.findSome? found = some result := by
  obtain ⟨front, back, middle, rfl, -, early, late⟩ := line.exists_split widens member
  have none : front.findSome? found = none :=
    List.findSome?_eq_none_iff.mpr fun other present => past (around late) (early other present)
  rw [List.findSome?_append, none, Option.none_or, List.findSome?_cons, here]

namespace Value

theorem variableInItems?_eq (expected : Option TypeRef) (items : List Value) :
    variableInItems? schema offset expected items =
      items.findSome? (variableAt? schema offset expected) := by
  induction items with
  | nil => rfl
  | cons item rest ih =>
    rw [variableInItems?, ih, List.findSome?_cons]
    cases variableAt? schema offset expected item <;> rfl

theorem variableInFields?_eq (expected : Option TypeRef) (fields : List (Name × Value)) :
    variableInFields? schema offset (expected.map TypeRef.innerName) fields =
      fields.findSome? fun field =>
        variableAt? schema offset (schema.fieldExpected expected field.1) field.2 := by
  induction fields with
  | nil => rfl
  | cons field rest ih =>
    rw [variableInFields?, ih, List.findSome?_cons, ← Schema.fieldExpected]
    cases variableAt? schema offset (schema.fieldExpected expected field.1) field.2 <;> rfl

variable {value : Value} {name : Name} {steps : List ValueStep}

theorem variableAt?_eq_none (order : InOrder lexemes spans) (expected : Option TypeRef)
    (lies : value.Lies (locate spans.toArray) first middle)
    (inside : Inside spans offset middle last) :
    value.variableAt? schema offset expected = none := by
  cases value with
  | scalar span leaf =>
    obtain ⟨start, stop, frame⟩ := lies
    have past := inside.not_under_ahead order frame
    cases leaf <;> simp [variableAt?, past]
  | list span parts | object span parts =>
    obtain ⟨start, stop, frame, -⟩ := lies
    simp [variableAt?, inside.not_under_ahead order frame]

namespace HoldsVariable

theorem inside (holds : HoldsVariable offset name steps value)
    (lies : value.Lies (locate spans.toArray) first last) : Inside spans offset first last := by
  induction holds generalizing first last with
  | here after before =>
    obtain ⟨start, stop, frame⟩ := lies
    exact ⟨start, stop, _, frame, after, before⟩
  | item member _ ih =>
    obtain ⟨start, stop, frame, line⟩ := lies
    exact (ih ((itemsLie_iff.mp line).of_mem widens member)).widen frame.after frame.within
  | key member _ ih =>
    obtain ⟨start, stop, frame, line⟩ := lies
    have own := (fieldsLie_iff.mp line).of_mem widens_keyed member
    exact (ih own).widen frame.after frame.within

/-- The search of the value finds the variable, with the type that is expected behind the steps. -/
theorem variableAt?_eq (holds : HoldsVariable offset name steps value)
    (order : InOrder lexemes spans) (lies : value.Lies (locate spans.toArray) first last)
    (within : last ≤ lexemes.length) (expected : Option TypeRef) :
    value.variableAt? schema offset expected =
      some (name, schema.expectedAlong steps expected) := by
  induction holds generalizing first last expected with
  | here after before =>
    have under : underCursor offset (some _) := Span.touches_iff.mpr ⟨after.le, before.le⟩
    simp [variableAt?, under, Schema.expectedAlong]
  | item member below ih =>
    obtain ⟨start, stop, frame, line⟩ := lies
    have line := itemsLie_iff.mp line
    have ends := Nat.le_trans frame.within within
    have around := below.inside (line.of_mem widens member)
    rw [variableAt?, if_pos (around.under order frame within), variableInItems?_eq,
      Schema.expectedAlong_item]
    exact line.findSome?_eq widens member below.inside
      (fun inside lies => variableAt?_eq_none order _ lies inside)
      (ih (line.of_mem widens member) ends _)
  | key member below ih =>
    obtain ⟨start, stop, frame, line⟩ := lies
    have line := fieldsLie_iff.mp line
    have ends := Nat.le_trans frame.within within
    have around := below.inside (line.of_mem widens_keyed member)
    rw [variableAt?, if_pos (around.under order frame within), variableInFields?_eq,
      Schema.expectedAlong_key]
    exact line.findSome?_eq widens_keyed member below.inside
      (fun inside lies => variableAt?_eq_none order _ lies inside)
      (ih (line.of_mem widens_keyed member) ends _)

end HoldsVariable

end Value

namespace CursorPlace

/-- The place is on a variable, as it was found on the way. -/
structure IsOn (place : CursorPlace) (use : VariableUse) : Prop where
  token : place.token = .ofVariable use.name
  inputType : place.inputType = use.expected
  argumentType : place.argumentType = use.argumentType

variable {place : CursorPlace} {use : VariableUse}

theorem isOn_orUse (free : place.token = .other) : (place.orUse (some use)).IsOn use := by
  unfold orUse
  rw [free]
  exact ⟨rfl, rfl, rfl⟩

theorem IsOn.orUse (onUse : place.IsOn use) (other : Option VariableUse) :
    (place.orUse other).IsOn use := by
  unfold CursorPlace.orUse
  split
  · next free => exact absurd (onUse.token.symm.trans free) nofun
  · exact onUse

end CursorPlace

namespace CursorContext

variable {name : Name} {steps : List ValueStep} {argument : Argument}
  {declared : Option TypeRef}

section Ahead

variable (order : InOrder lexemes spans) (inside : Inside spans offset middle last)

include order inside

theorem argumentUse?_eq_none_of_ahead {types : Name → Option TypeRef} {arguments : List Argument}
    (line : InLine (Argument.Lies (locate spans.toArray)) first middle arguments) :
    argumentUse? schema offset types arguments = none := by
  refine argumentUse?_eq_none fun other present => ?_
  obtain ⟨start, stop, frame, -⟩ := line.of_mem Argument.widens present
  exact inside.not_under_ahead order frame

theorem directiveUse?_eq_none_of_ahead {directives : List Directive}
    (line : InLine (Directive.Lies (locate spans.toArray)) first middle directives) :
    directiveUse? schema offset directives = none := by
  refine directiveUse?_eq_none fun other present => ?_
  obtain ⟨start, stop, frame, -⟩ := line.of_mem Directive.widens present
  exact inside.not_under_ahead order frame

theorem not_isNamedAt {head : FieldHead} {given opens : Nat}
    (stands : head.StandsAt lexemes (locate spans.toArray) first middle given opens) :
    head.isNamedAt offset = false := by
  rw [FieldHead.isNamedAt, Bool.or_eq_false_iff]
  constructor
  · obtain ⟨start, stop, frame⟩ := stands.name.frame
    exact Bool.eq_false_iff.mpr (inside.not_under_ahead order frame)
  · cases labelled : head.label with
    | none => rfl
    | some ident =>
      obtain ⟨start, stop, frame⟩ := (stands.label ident labelled).frame
      exact Bool.eq_false_iff.mpr (inside.not_under_ahead order frame)

theorem not_under_selection_ahead {selection : Selection}
    (stands : selection.Stands lexemes (locate spans.toArray) first middle) :
    ¬ underCursor offset selection.span := by
  obtain ⟨start, stop, frame⟩ := stands.frame
  exact inside.not_under_ahead order frame

end Ahead

/-- The search of a selection set goes on in the first selection under the cursor. -/
theorem placeInSet_of_past {front back : List Selection} {selection : Selection}
    (past : ∀ other ∈ front, ¬ underCursor offset other.span)
    (under : underCursor offset selection.span) (path : List Name) (type : Option Name) :
    placeInSet schema offset path type (front ++ selection :: back) =
      placeInSelection schema offset path type selection := by
  have none : front.findIdx? (underCursor offset ·.span) = none :=
    List.findIdx?_eq_none_iff.mpr fun other present => Bool.eq_false_iff.mpr (past other present)
  have first : (front ++ selection :: back).findIdx? (underCursor offset ·.span) =
      some front.length := by
    rw [List.findIdx?_append, none, Option.none_or, List.findIdx?_cons, if_pos under]
    simp
  exact placeInSet_of_first first (by simp) path type

theorem token_placeInSet_of_behind (order : InOrder lexemes spans)
    (inside : Inside spans offset first middle) {selections : List Selection}
    (stands : Selection.AllStand lexemes (locate spans.toArray) middle last selections)
    (path : List Name) (type : Option Name) :
    (placeInSet schema offset path type selections).token = .other := by
  have past : ∀ selection ∈ selections, ¬ underCursor offset selection.span := by
    intro selection member
    obtain ⟨start, stop, frame⟩ :=
      ((Selection.allStand_iff.mp stands).of_mem Selection.widens member).frame
    exact inside.not_under_behind order frame
  induction selections with
  | nil => rfl
  | cons head rest ih =>
    obtain ⟨own, others⟩ := List.forall_mem_cons.mp past
    obtain ⟨between, below, above, -, more⟩ := stands
    rw [placeInSet, if_neg own]
    exact ih (more.widen above (Nat.le_refl _)) others

/-- A field with a variable under the cursor is where the search ends. -/
theorem isOn_placeInSelection_of_use {onType : Option Name} {head : FieldHead} {use : VariableUse}
    (unnamed : head.isNamedAt offset = false)
    (used : fieldUse? schema offset (onType.bind (schema.field? · head.name.name)) head = some use)
    (selections : List Selection) (path : List Name) :
    (placeInSelection schema offset path onType (.field head selections)).IsOn use := by
  simp only [placeInSelection]
  rw [if_neg (by simpa [FieldHead.isNamedAt] using unnamed), used]
  exact CursorPlace.isOn_orUse rfl

section Uses

variable (holds : argument.value.HoldsVariable offset name steps)

include holds

theorem around_argument (lies : argument.Lies (locate spans.toArray) first last) :
    Around spans offset first last argument.span := by
  obtain ⟨start, stop, frame, inner⟩ := lies
  exact ⟨start, stop, frame, holds.inside inner⟩

theorem around_directive {directive : Directive} (member : argument ∈ directive.arguments)
    (lies : directive.Lies (locate spans.toArray) first last) :
    Around spans offset first last directive.span := by
  obtain ⟨start, stop, frame, inner⟩ := lies
  exact ⟨start, stop, frame,
    (around_argument holds (inner.of_mem Argument.widens member)).inside⟩

theorem inside_directives {directives : List Directive}
    (given : Directive.Gives schema argument directives declared)
    (line : InLine (Directive.Lies (locate spans.toArray)) first last directives) :
    Inside spans offset first last := by
  obtain ⟨applied, member⟩ := given
  exact (around_directive holds member (line.of_mem Directive.widens applied)).inside

variable (order : InOrder lexemes spans)

include order

/-- The search of arguments finds the variable in the one that holds it. -/
theorem argumentUse?_eq (types : Name → Option TypeRef) {arguments : List Argument}
    (line : InLine (Argument.Lies (locate spans.toArray)) first last arguments)
    (within : last ≤ lexemes.length) (member : argument ∈ arguments) :
    argumentUse? schema offset types arguments = some ⟨name,
      schema.expectedAlong steps (types argument.name), types argument.name⟩ := by
  refine line.findSome?_eq Argument.widens member
    (fun lies => (around_argument holds lies).inside) ?_ ?_
  · rintro middle other inside ⟨start, stop, frame, -⟩
    simp [inside.not_under_ahead order frame]
  · have lies := line.of_mem Argument.widens member
    have under := (around_argument holds lies).under order within
    obtain ⟨start, stop, frame, inner⟩ := lies
    have found : argument.value.variableAt? schema offset (types argument.name) = _ :=
      holds.variableAt?_eq order inner (Nat.le_trans frame.within within) _
    simp [under, found]

theorem directiveUse?_eq {directives : List Directive}
    (line : InLine (Directive.Lies (locate spans.toArray)) first last directives)
    (within : last ≤ lexemes.length)
    (given : Directive.Gives schema argument directives declared) :
    directiveUse? schema offset directives =
      some ⟨name, schema.expectedAlong steps declared, declared⟩ := by
  obtain ⟨applied, member⟩ := given
  refine line.findSome?_eq Directive.widens applied
    (fun lies => (around_directive holds member lies).inside) ?_ ?_
  · rintro middle other inside ⟨start, stop, frame, -⟩
    simp [inside.not_under_ahead order frame]
  · have lies := line.of_mem Directive.widens applied
    rw [if_neg (by simpa using (around_directive holds member lies).under order within)]
    obtain ⟨start, stop, frame, inner⟩ := lies
    exact argumentUse?_eq holds order _ inner (Nat.le_trans frame.within within) member

end Uses

section Selections

variable (holds : argument.value.HoldsVariable offset name steps) (order : InOrder lexemes spans)

include holds

theorem around_selection {selection : Selection} {onType : Option Name}
    (given : selection.Gives schema argument declared onType)
    (stands : selection.Stands lexemes (locate spans.toArray) first last) :
    Around spans offset first last selection.span := by
  induction given generalizing first last with
  | argument member =>
    obtain ⟨start, opens, stop, frame, before, ⟨named, given, head⟩, -⟩ := stands
    have inside := (around_argument holds (head.arguments.of_mem Argument.widens member)).inside
    exact ⟨start, stop, frame,
      inside.widen head.first_le (Nat.le_trans head.before before)⟩
  | fieldDirective own =>
    obtain ⟨start, opens, stop, frame, before, head, -⟩ := stands
    exact ⟨start, stop, frame,
      (inside_directives holds own head.directives_inLine).widen (Nat.le_refl _) before⟩
  | inField member _ ih =>
    obtain ⟨start, opens, stop, frame, before, head, inner⟩ := stands
    have child := ih ((Selection.allStand_iff.mp inner).of_mem Selection.widens member)
    exact ⟨start, stop, frame,
      child.inside.widen (Nat.le_succ_of_le head.le) (Nat.le_refl _)⟩
  | inlineDirective own =>
    obtain ⟨start, opens, stop, frame, behind, before, line, -⟩ := stands
    exact ⟨start, stop, frame, (inside_directives holds own line).widen (Nat.le_refl _) before⟩
  | inInline member _ ih =>
    obtain ⟨start, opens, stop, frame, behind, before, line, inner⟩ := stands
    have child := ih ((Selection.allStand_iff.mp inner).of_mem Selection.widens member)
    exact ⟨start, stop, frame, child.inside.widen (Nat.le_succ_of_le behind) (Nat.le_refl _)⟩
  | spreadDirective own =>
    obtain ⟨start, stop, frame, line⟩ := stands
    exact ⟨start, stop, frame, inside_directives holds own line⟩

theorem around_definition {definition : Definition}
    (given : definition.Gives schema argument declared)
    (stands : definition.Stands lexemes (locate spans.toArray) first last) :
    Around spans offset first last definition.span := by
  cases given with
  | @operationDirective stated own | @fragmentDirective stated own =>
    obtain ⟨start, opens, stop, node⟩ := stands _ rfl
    have line : InLine (Directive.Lies (locate spans.toArray)) start opens stated.directives :=
      node.directives
    exact ⟨start, stop, node.frame,
      (inside_directives holds own line).widen (Nat.le_refl _) node.before⟩
  | inOperation member below | inFragment member below =>
    obtain ⟨start, opens, stop, node⟩ := stands _ rfl
    have inner := node.inside _ rfl
    have child := (Selection.allStand_iff.mp inner).of_mem Selection.widens member
    exact ⟨start, stop, node.frame, (around_selection holds below child).inside.widen
      (Nat.le_succ_of_le node.behind) (Nat.le_refl _)⟩

include order

/-- The search of a selection set finds what is found in the selection that holds the variable. -/
theorem isOn_placeInSet {selections : List Selection} {selection : Selection}
    {onType : Option Name} {path : List Name} {use : VariableUse}
    (stands : Selection.AllStand lexemes (locate spans.toArray) first last selections)
    (within : last ≤ lexemes.length) (member : selection ∈ selections)
    (given : selection.Gives schema argument declared onType)
    (here : (placeInSelection schema offset path onType selection).IsOn use) :
    (placeInSet schema offset path onType selections).IsOn use := by
  obtain ⟨front, back, middle, rfl, -, early, late⟩ :=
    (Selection.allStand_iff.mp stands).exists_split Selection.widens member
  have around := around_selection holds given late
  rw [placeInSet_of_past (fun other present =>
    not_under_selection_ahead order around.inside (early other present))
      (around.under order within)]
  exact here

/-- The search of a selection finds the variable, with the types the schema gives it. -/
theorem isOn_placeInSelection {selection : Selection} {onType : Option Name}
    (given : selection.Gives schema argument declared onType)
    (stands : selection.Stands lexemes (locate spans.toArray) first last)
    (within : last ≤ lexemes.length) (path : List Name) :
    (placeInSelection schema offset path onType selection).IsOn
      ⟨name, schema.expectedAlong steps declared, declared⟩ := by
  induction given generalizing first last path with
  | argument member typed =>
    subst typed
    obtain ⟨start, opens, stop, frame, before, ⟨named, given, head⟩, -⟩ := stands
    have inside := (around_argument holds (head.arguments.of_mem Argument.widens member)).inside
    have ends : given ≤ lexemes.length :=
      Nat.le_trans head.before (Nat.le_trans before (Nat.le_trans frame.within within))
    refine isOn_placeInSelection_of_use (not_isNamedAt order inside head) ?_ _ path
    rw [fieldUse?, argumentUse?_eq holds order _ head.arguments ends member, Option.some_or]
  | fieldDirective own =>
    obtain ⟨start, opens, stop, frame, before, ⟨named, given, head⟩, -⟩ := stands
    have inside := inside_directives holds own head.directives
    have ends : opens ≤ lexemes.length :=
      Nat.le_trans before (Nat.le_trans frame.within within)
    refine isOn_placeInSelection_of_use
      (not_isNamedAt order (inside.widen head.behind (Nat.le_refl _)) head) ?_ _ path
    rw [fieldUse?, argumentUse?_eq_none_of_ahead order inside head.arguments, Option.none_or,
      directiveUse?_eq holds order head.directives ends own]
  | inField member below ih =>
    obtain ⟨start, opens, stop, frame, before, ⟨named, given, head⟩, inner⟩ := stands
    have ends := Nat.le_trans frame.within within
    have child := (Selection.allStand_iff.mp inner).of_mem Selection.widens member
    -- The cursor is behind the brace, and so behind all other parts of the field.
    have inside := (around_selection holds below child).inside
    have directed := inside.widen (Nat.le_succ opens) (Nat.le_refl _)
    have given := directed.widen head.before (Nat.le_refl _)
    have unnamed := not_isNamedAt order (given.widen head.behind (Nat.le_refl _)) head
    simp only [placeInSelection]
    rw [if_neg (by simpa [FieldHead.isNamedAt] using unnamed), fieldUse?,
      argumentUse?_eq_none_of_ahead order given head.arguments, Option.none_or,
      directiveUse?_eq_none_of_ahead order directed head.directives]
    exact isOn_placeInSet holds order inner ends member below (ih child ends _)
  | inlineDirective own =>
    obtain ⟨start, opens, stop, frame, behind, before, line, inner⟩ := stands
    have ends := Nat.le_trans before (Nat.le_trans frame.within within)
    rw [placeInSelection, directiveUse?_eq holds order line ends own]
    exact CursorPlace.isOn_orUse (token_placeInSet_of_behind order
      (inside_directives holds own line) (inner.widen (Nat.le_succ _) (Nat.le_refl _)) _ _)
  | inInline member below ih =>
    obtain ⟨start, opens, stop, frame, behind, before, line, inner⟩ := stands
    have ends := Nat.le_trans frame.within within
    have child := (Selection.allStand_iff.mp inner).of_mem Selection.widens member
    rw [placeInSelection]
    exact (isOn_placeInSet holds order inner ends member below (ih child ends path)).orUse _
  | spreadDirective own =>
    obtain ⟨start, stop, frame, line⟩ := stands
    rw [placeInSelection, directiveUse?_eq holds order line (Nat.le_trans frame.within within) own]
    exact CursorPlace.isOn_orUse rfl

theorem isOn_placeInDefinition {definition : Definition}
    (given : definition.Gives schema argument declared)
    (stands : definition.Stands lexemes (locate spans.toArray) first last)
    (within : last ≤ lexemes.length) : (placeInDefinition schema offset definition).IsOn
      ⟨name, schema.expectedAlong steps declared, declared⟩ := by
  cases given with
  | @operationDirective stated own | @fragmentDirective stated own =>
    obtain ⟨start, opens, stop, node⟩ := stands _ rfl
    have ends := Nat.le_trans node.before (Nat.le_trans node.frame.within within)
    have line : InLine (Directive.Lies (locate spans.toArray)) start opens stated.directives :=
      node.directives
    rw [placeInDefinition, directiveUse?_eq holds order line ends own]
    exact CursorPlace.isOn_orUse (token_placeInSet_of_behind order
      (inside_directives holds own line)
      ((node.inside _ rfl).widen (Nat.le_succ _) (Nat.le_refl _)) _ _)
  | inOperation member below | inFragment member below =>
    obtain ⟨start, opens, stop, node⟩ := stands _ rfl
    have ends := Nat.le_trans node.frame.within within
    have inner := node.inside _ rfl
    have child := (Selection.allStand_iff.mp inner).of_mem Selection.widens member
    rw [placeInDefinition]
    exact (isOn_placeInSet holds order inner ends member below
      (isOn_placeInSelection holds order below child ends [])).orUse _

end Selections

/-- A cursor strictly inside a variable in an argument is on the variable. The type of the argument
is the one that the schema gives it, and the type that is expected of the variable is what is left
of it behind the steps from the value of the argument to the variable. -/
theorem ofOffset_eq_of_holdsVariable {text : Text} {document : Document}
    {definition : Definition} {index : Nat} (parsed : parse? text = some document)
    (there : document.definitions[index]? = some definition)
    (given : definition.Gives schema argument declared)
    (holds : argument.value.HoldsVariable offset name steps) :
    let context := ofOffset schema document offset
    context.definition = index ∧ context.place.token = .ofVariable name ∧
      context.place.argumentType = declared ∧
        context.place.inputType = schema.expectedAlong steps declared := by
  have order := inOrder text
  have stands := allStand_of_parse? parsed
  have own := stands.of_getElem? there
  have first : document.definitions.findIdx? (underCursor offset ·.span) = some index := by
    obtain ⟨bound, rfl⟩ := List.getElem?_eq_some_iff.mp there
    refine List.findIdx?_eq_some_iff_getElem.mpr ⟨bound, ?_, fun earlier less touched => ?_⟩
    · exact (around_definition holds given own).under order (Nat.le_refl _)
    · obtain ⟨middle, early, late⟩ := stands.split
        (List.getElem?_eq_getElem (Nat.lt_trans less bound)) there less
      obtain ⟨other, navigable, spanned⟩ := Node.exists_ofDefinition? (underCursor_isSome touched)
      obtain ⟨start, opens, stop, node⟩ := early other navigable
      rw [← spanned] at touched
      exact (around_definition holds given late).inside.not_under_ahead order node.frame
        touched
  have placed := isOn_placeInDefinition holds order given own (Nat.le_refl _)
  have found : ofOffset schema document offset =
      ⟨index, placeInDefinition schema offset definition⟩ := by
    unfold ofOffset
    rw [first]
    simp [there]
  rw [found]
  exact ⟨rfl, placed.token, placed.argumentType, placed.inputType⟩

/-- A root field with an argument of an input type that has a list. -/
private def itemsSchema : Schema where
  types := [
    ⟨{ name := "Query".toList, body := .object [] [
      { name := "items".toList
        arguments := [{ name := "by".toList, type := .named "Filter".toList true }]
        type := .named "Item".toList false }] }, false⟩,
    ⟨{ name := "Filter".toList, body := .input [
      { name := "ids".toList, type := .list (.named "ID".toList true) true }] }, false⟩]
  directives := []
  roots := [(.query, "Query".toList)]

/-- The argument of the field, with a variable from 28 to 31. -/
private def itemsFilter : Argument where
  span := some ⟨14, 33⟩
  name := "by".toList
  value := .object (some ⟨18, 33⟩) [("ids".toList, .list (some ⟨24, 32⟩)
    [.scalar (some ⟨25, 26⟩) (.int ['1']), .scalar (some ⟨28, 31⟩) (.ofVariable "id".toList)])]

/-- A query of that one field, in an inline fragment. -/
private def itemsQuery : Operation where
  span := some ⟨0, 38⟩
  kind := .query
  selections := [.inline { span := some ⟨2, 36⟩ }
    [.field { span := some ⟨8, 34⟩, name := ⟨some ⟨8, 13⟩, "items".toList⟩
              arguments := [itemsFilter] } []]]

set_option maxRecDepth 20000 in
/-- A variable in a list in an input object, behind another item of the list. -/
theorem ofOffset_eq_of_holdsVariable_item :
    parse? "\x7b ... \x7b items(by: \x7bids: [1, $id]\x7d) \x7d \x7d".toList =
        some ⟨[.operation itemsQuery]⟩ ∧
      let context := ofOffset itemsSchema ⟨[.operation itemsQuery]⟩ 29
      context.definition = 0 ∧ context.place.token = .ofVariable "id".toList ∧
        context.place.argumentType = some (.named "Filter".toList true) ∧
          context.place.inputType = some (.named "ID".toList true) := by
  have parsed : parse? "\x7b ... \x7b items(by: \x7bids: [1, $id]\x7d) \x7d \x7d".toList =
      some ⟨[.operation itemsQuery]⟩ := by cbv
  have given : Definition.Gives itemsSchema itemsFilter (some (.named "Filter".toList true))
      (.operation itemsQuery) := by
    refine .inOperation List.mem_cons_self (.inInline List.mem_cons_self ?_)
    exact .argument List.mem_cons_self (by decide)
  have holds : itemsFilter.value.HoldsVariable 29 "id".toList [.key "ids".toList, .item] := by
    refine .key List.mem_cons_self (.item (List.mem_cons_of_mem _ List.mem_cons_self) ?_)
    exact .here (by decide) (by decide)
  have there : (Document.mk [.operation itemsQuery]).definitions[0]? =
      some (.operation itemsQuery) := rfl
  obtain ⟨index, token, argumentType, inputType⟩ :=
    ofOffset_eq_of_holdsVariable parsed there given holds
  exact ⟨parsed, index, token, argumentType, inputType.trans (by decide)⟩

end CursorContext

end RelayWorkbench.GraphQL
