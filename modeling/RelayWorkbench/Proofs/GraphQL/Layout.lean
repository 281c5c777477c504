import Mathlib
import RelayWorkbench.GraphQL.Document.Spans

/-! Where arguments and directives stand among the lexemes of a document. What is written one after
the other stands in line, and what a list, an object, an argument or a directive holds stands in
line in it. -/

namespace RelayWorkbench.GraphQL

variable {α β : Type} {move : Respan} {first last near far : Nat}

/-- A node that starts from `first` on and ends by `last`; `move` gives the spans of places. -/
structure Frame (move : Respan) (first last : Nat) (span : Option Span) (start stop : Nat) :
    Prop where
  spanned : span = move (some ⟨start, stop⟩)
  after : first ≤ start
  wide : start < stop
  within : stop ≤ last

/-- Something that ends by `last`. -/
def EndsBy (move : Respan) (last : Nat) (span : Option Span) : Prop :=
  ∃ start stop, span = move (some ⟨start, stop⟩) ∧ stop ≤ last

theorem Frame.widen {span : Option Span} {start stop : Nat}
    (frame : Frame move first last span start stop) (lower : near ≤ first) (upper : last ≤ far) :
    Frame move near far span start stop :=
  ⟨frame.spanned, Nat.le_trans lower frame.after, frame.wide, Nat.le_trans frame.within upper⟩

theorem Frame.respan {span : Option Span} {start stop : Nat} (move : Respan)
    (frame : Frame id first last span start stop) : Frame move first last (move span) start stop :=
  ⟨congrArg move frame.spanned, frame.after, frame.wide, frame.within⟩

theorem Frame.endsBy {span : Option Span} {start stop : Nat}
    (frame : Frame move first last span start stop) : EndsBy move last span :=
  ⟨start, stop, frame.spanned, frame.within⟩

/-- Items one after the other, from `first` on and by `last`; each stands where `stands` says. -/
def InLine (stands : Nat → Nat → α → Prop) (first last : Nat) : List α → Prop
  | [] => True
  | item :: rest =>
    ∃ middle ≤ last, first ≤ middle ∧ stands first middle item ∧ InLine stands middle last rest

/-- What stands in a stretch stands in a wider one. -/
def Widens (stands : Nat → Nat → α → Prop) : Prop :=
  ∀ ⦃near first last far item⦄, near ≤ first → last ≤ far → stands first last item →
    stands near far item

namespace InLine

variable {stands : Nat → Nat → α → Prop} {items : List α} (widens : Widens stands)

include widens

theorem widen (line : InLine stands first last items) (lower : near ≤ first) (upper : last ≤ far) :
    InLine stands near far items := by
  induction items generalizing near first with
  | nil => trivial
  | cons item rest ih =>
    obtain ⟨middle, below, above, own, others⟩ := line
    exact ⟨middle, Nat.le_trans below upper, Nat.le_trans lower above,
      widens lower (Nat.le_refl _) own, ih others (Nat.le_refl _)⟩

theorem exists_split {item : α} (line : InLine stands first last items) (member : item ∈ items) :
    ∃ front back middle, items = front ++ item :: back ∧ first ≤ middle ∧
      (∀ other ∈ front, stands first middle other) ∧ stands middle last item := by
  induction items generalizing first with
  | nil => cases member
  | cons head rest ih =>
    obtain ⟨middle, below, above, own, others⟩ := line
    rcases List.mem_cons.mp member with rfl | later
    · exact ⟨[], rest, first, rfl, Nat.le_refl _, nofun, widens (Nat.le_refl _) below own⟩
    · obtain ⟨front, back, between, rfl, order, early, late⟩ := ih others later
      refine ⟨head :: front, back, between, rfl, Nat.le_trans above order, ?_, late⟩
      refine List.forall_mem_cons.mpr ⟨widens (Nat.le_refl _) order own, fun other member => ?_⟩
      exact widens above (Nat.le_refl _) (early other member)

theorem of_mem {item : α} (line : InLine stands first last items) (member : item ∈ items) :
    stands first last item := by
  obtain ⟨front, back, middle, -, order, -, late⟩ := line.exists_split widens member
  exact widens order (Nat.le_refl _) late

/-- An earlier item ends before a later one starts. -/
theorem split {index other : Nat} {item later : α} (line : InLine stands first last items)
    (found : items[index]? = some item) (foundLater : items[other]? = some later)
    (order : index < other) : ∃ middle, stands first middle item ∧ stands middle last later := by
  induction items generalizing first index other with
  | nil => simp at found
  | cons head rest ih =>
    obtain ⟨middle, below, above, own, others⟩ := line
    obtain ⟨other, rfl⟩ : ∃ less, other = less + 1 := ⟨other - 1, by omega⟩
    have foundLater : rest[other]? = some later := by simpa using foundLater
    cases index with
    | zero =>
      obtain rfl : head = item := by simpa using found
      exact ⟨middle, own, others.of_mem widens (List.mem_of_getElem? foundLater)⟩
    | succ index =>
      obtain ⟨between, early, late⟩ := ih others (by simpa using found) foundLater (by omega)
      exact ⟨between, widens above (Nat.le_refl _) early, late⟩

omit widens in
theorem map {others : Nat → Nat → β → Prop} {f : α → β} (line : InLine stands first last items)
    (maps : ∀ first last item, stands first last item → others first last (f item)) :
    InLine others first last (items.map f) := by
  induction items generalizing first with
  | nil => trivial
  | cons item rest ih =>
    obtain ⟨middle, below, above, own, more⟩ := line
    exact ⟨middle, below, above, maps _ _ _ own, ih more⟩

end InLine

mutual

/-- A value from `first` on that ends by `last`; what it holds stands in it. -/
def Value.Lies (move : Respan) (first last : Nat) : Value → Prop
  | .scalar span _ => ∃ start stop, Frame move first last span start stop
  | .list span items =>
    ∃ start stop, Frame move first last span start stop ∧ Value.ItemsLie move start stop items
  | .object span fields =>
    ∃ start stop, Frame move first last span start stop ∧ Value.FieldsLie move start stop fields

/-- The same of the items of a list, one after the other. -/
def Value.ItemsLie (move : Respan) (first last : Nat) : List Value → Prop
  | [] => True
  | item :: rest =>
    ∃ middle ≤ last, first ≤ middle ∧ item.Lies move first middle ∧
      Value.ItemsLie move middle last rest

/-- The same of the fields of an object. -/
def Value.FieldsLie (move : Respan) (first last : Nat) : List (Name × Value) → Prop
  | [] => True
  | (_, value) :: rest =>
    ∃ middle ≤ last, first ≤ middle ∧ value.Lies move first middle ∧
      Value.FieldsLie move middle last rest

end

/-- An argument from `first` on that ends by `last`, with its value in it. -/
def Argument.Lies (move : Respan) (first last : Nat) (argument : Argument) : Prop :=
  ∃ start stop, Frame move first last argument.span start stop ∧
    argument.value.Lies move start stop

/-- A directive from `first` on that ends by `last`, with its arguments in line in it. -/
def Directive.Lies (move : Respan) (first last : Nat) (directive : Directive) : Prop :=
  ∃ start stop, Frame move first last directive.span start stop ∧
    InLine (Argument.Lies move) start stop directive.arguments

namespace Value

theorem itemsLie_iff {items : List Value} :
    ItemsLie move first last items ↔ InLine (Lies move) first last items := by
  induction items generalizing first with
  | nil => rfl
  | cons item rest ih => simp only [ItemsLie, InLine, ih]

theorem fieldsLie_iff {fields : List (Name × Value)} :
    FieldsLie move first last fields ↔
      InLine (fun first last field => Lies move first last field.2) first last fields := by
  induction fields generalizing first with
  | nil => rfl
  | cons field rest ih => simp only [FieldsLie, InLine, ih]

theorem widens : Widens (Value.Lies move) := by
  intro near first last far value lower upper lies
  cases value with
  | scalar span leaf =>
    obtain ⟨start, stop, frame⟩ := lies
    exact ⟨start, stop, frame.widen lower upper⟩
  | list span parts | object span parts =>
    obtain ⟨start, stop, frame, inside⟩ := lies
    exact ⟨start, stop, frame.widen lower upper, inside⟩

theorem widens_keyed :
    Widens fun first last (field : Name × Value) => Value.Lies move first last field.2 :=
  fun _ _ _ _ _ lower upper lies => widens lower upper lies

mutual

theorem Lies.respan : ∀ {value : Value} {first last : Nat}, value.Lies id first last →
    (value.respan move).Lies move first last
  | .scalar _ _, _, _, ⟨start, stop, frame⟩ => ⟨start, stop, frame.respan move⟩
  | .list _ _, _, _, ⟨start, stop, frame, inside⟩ =>
    ⟨start, stop, frame.respan move, inside.respanItems⟩
  | .object _ _, _, _, ⟨start, stop, frame, inside⟩ =>
    ⟨start, stop, frame.respan move, inside.respanFields⟩

theorem ItemsLie.respanItems : ∀ {items : List Value} {first last : Nat},
    ItemsLie id first last items → ItemsLie move first last (Value.respanItems move items)
  | [], _, _, _ => trivial
  | _ :: _, _, _, ⟨middle, below, above, own, others⟩ =>
    ⟨middle, below, above, own.respan, others.respanItems⟩

theorem FieldsLie.respanFields : ∀ {fields : List (Name × Value)} {first last : Nat},
    FieldsLie id first last fields → FieldsLie move first last (Value.respanFields move fields)
  | [], _, _, _ => trivial
  | (_, _) :: _, _, _, ⟨middle, below, above, own, others⟩ =>
    ⟨middle, below, above, own.respan, others.respanFields⟩

end

end Value

namespace Argument

theorem widens : Widens (Argument.Lies move) := by
  rintro near first last far argument lower upper ⟨start, stop, frame, inside⟩
  exact ⟨start, stop, frame.widen lower upper, inside⟩

theorem Lies.respan {argument : Argument} (lies : argument.Lies id first last) :
    (argument.respan move).Lies move first last := by
  obtain ⟨start, stop, frame, inside⟩ := lies
  exact ⟨start, stop, frame.respan move, inside.respan⟩

theorem Lies.endsBy {argument : Argument} (lies : argument.Lies move first last) :
    EndsBy move last argument.span := by
  obtain ⟨start, stop, frame, -⟩ := lies
  exact frame.endsBy

end Argument

namespace Directive

theorem widens : Widens (Directive.Lies move) := by
  rintro near first last far directive lower upper ⟨start, stop, frame, inside⟩
  exact ⟨start, stop, frame.widen lower upper, inside⟩

theorem Lies.respan {directive : Directive} (lies : directive.Lies id first last) :
    (directive.respan move).Lies move first last := by
  obtain ⟨start, stop, frame, inside⟩ := lies
  exact ⟨start, stop, frame.respan move, inside.map fun _ _ _ lies => lies.respan⟩

theorem Lies.endsBy {directive : Directive} (lies : directive.Lies move first last) :
    EndsBy move last directive.span := by
  obtain ⟨start, stop, frame, -⟩ := lies
  exact frame.endsBy

end Directive

end RelayWorkbench.GraphQL
