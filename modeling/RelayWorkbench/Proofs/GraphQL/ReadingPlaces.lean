import RelayWorkbench.Proofs.GraphQL.Nesting
import RelayWorkbench.Proofs.GraphQL.Reads

/-! Reading puts names, arguments and directives where their lexemes are: what a step reads stands
between the cursors before and after it, and what it reads one after the other stands in line. -/

namespace RelayWorkbench.GraphQL.Reading

-- The instances of long steps are found bind by bind.
set_option synthInstance.maxSize 1000

variable {α β : Type} {lexemes : List Lexeme} {first : Nat}

/-- What is read stands in `lexemes` from `first` on. -/
structure From (lexemes : List Lexeme) (first : Nat) (cursor : Cursor) : Prop where
  behind : first ≤ cursor.index
  within : cursor.index ≤ lexemes.length
  rest : cursor.rest = lexemes.drop cursor.index

theorem From.lower {near : Nat} {cursor : Cursor} (here : From lexemes first cursor)
    (lower : near ≤ first) : From lexemes near cursor :=
  { here with behind := Nat.le_trans lower here.behind }

theorem From.start {cursor : Cursor} (here : From lexemes first cursor) :
    From lexemes cursor.index cursor :=
  { here with behind := Nat.le_refl _ }

theorem From.passes {former cursor : Cursor} (here : From lexemes first former)
    (passes : Cursor.Passes former cursor) (clean : cursor.clean) : From lexemes first cursor := by
  have counted := passes.counted clean
  have length := congrArg List.length here.rest
  rw [List.length_drop] at length
  have bound := here.within
  refine ⟨Nat.le_trans here.behind (passes.index_le clean), by omega, ?_⟩
  have ahead : cursor.rest <:+ lexemes :=
    passes.ahead.trans (here.rest ▸ List.drop_suffix former.index lexemes)
  rw [List.suffix_iff_eq_drop.mp ahead]
  congr 1
  omega

theorem reads_from {step : Reading α} [Passing step] :
    Reads (From lexemes first) step fun _ => From lexemes first :=
  fun cursor start clean => start.passes (Passing.passes cursor) clean

/-- A step on the way to what matters. -/
theorem From.skip {step : Reading α} {next : α → Reading β} {after : β → Cursor → Prop}
    [Passing step] [∀ value, Passing (next value)]
    (goes : ∀ value, Reads (From lexemes first) (next value) after) :
    Reads (From lexemes first) (step >>= next) after :=
  Reads.bind reads_from goes

theorem From.next {lexeme : Lexeme} {rest : List Lexeme} {index : Nat} {clean : Bool}
    (here : From lexemes first ⟨lexeme :: rest, index, clean⟩) :
    From lexemes (first + 1) ⟨rest, index + 1, clean⟩ ∧ lexemes[index]? = some lexeme := by
  have found : lexemes[index]? = some lexeme := by
    rw [← List.head?_drop, ← here.rest]
    rfl
  obtain ⟨bound, -⟩ := List.getElem?_eq_some_iff.mp found
  refine ⟨⟨Nat.succ_le_succ here.behind, bound, ?_⟩, found⟩
  rw [← List.tail_drop, ← here.rest]
  rfl

theorem reads_advance :
    Reads (fun cursor => From lexemes first cursor ∧ cursor.rest ≠ []) advance
      fun _ => From lexemes (first + 1)
  | ⟨[], _, _⟩, ⟨_, more⟩, _ => absurd rfl more
  | ⟨_ :: _, _, _⟩, ⟨start, _⟩, _ => start.next.1

theorem From.advanced {next : Unit → Reading β} {after : β → Cursor → Prop}
    (goes : Reads (From lexemes (first + 1)) (next ()) after) :
    Reads (fun cursor => From lexemes first cursor ∧ cursor.rest ≠ []) (advance >>= next) after
  | ⟨[], _, _⟩, ⟨_, more⟩, _ => absurd rfl more
  | ⟨_ :: rest, index, clean⟩, ⟨start, _⟩, ended =>
    goes ⟨rest, index + 1, clean⟩ start.next.1 ended

theorem rest_ne_nil {cursor : Cursor} {lexeme : Lexeme}
    (next : cursor.rest.head? = some lexeme) : cursor.rest ≠ [] := by
  intro none
  rw [none] at next
  cases next

theorem run_acceptMark (char : Char) (cursor : Cursor) :
    (acceptMark char).run cursor =
      if cursor.rest.head? == some (.mark char) then (true, (advance.run cursor).2)
      else (false, cursor) := by
  have looked : (atMark char).run cursor = (cursor.rest.head? == some (.mark char), cursor) := rfl
  rw [acceptMark, run_bind, looked]
  split <;> rfl

theorem reads_acceptMark (char : Char) :
    Reads (From lexemes first) (acceptMark char)
      fun accepted => From lexemes (if accepted then first + 1 else first) := by
  intro cursor start clean
  rw [run_acceptMark] at clean ⊢
  by_cases next : cursor.rest.head? == some (.mark char)
  · rw [if_pos next] at clean ⊢
    exact reads_advance cursor ⟨start, rest_ne_nil (by simpa using next)⟩ clean
  · rw [if_neg next]
    exact start

theorem reads_name? (start : Nat) :
    Reads (fun cursor => From lexemes first cursor ∧ cursor.index = start) name? fun _ cursor =>
      From lexemes (first + 1) cursor ∧ cursor.index = start + 1 ∧
        ∃ text, lexemes[start]? = some (.name text) := by
  unfold name?
  refine Reads.peek fun next => ?_
  split
  · next text =>
    have passes : Reads (fun cursor => (From lexemes first cursor ∧ cursor.index = start) ∧
        cursor.rest.head? = some (.name text)) advance fun _ cursor =>
          From lexemes (first + 1) cursor ∧ cursor.index = start + 1 ∧
            ∃ text, lexemes[start]? = some (.name text) := by
      rintro ⟨rest, index, clean⟩ ⟨⟨here, rfl⟩, next⟩ ended
      cases rest with
      | nil => cases next
      | cons lexeme rest =>
        cases next
        obtain ⟨there, found⟩ := here.next
        exact ⟨there, rfl, text, found⟩
    exact passes.bind fun _ => Reads.pure fun cursor after => after
  · exact Reads.fault

theorem reads_ident? : Reads (From lexemes first) ident? fun read cursor =>
    From lexemes (first + 1) cursor ∧
      ∀ ident ∈ read, ident.Stands lexemes id first cursor.index := by
  unfold ident?
  refine Reads.place fun start cursor ⟨here, index⟩ clean => ?_
  obtain ⟨there, moved, text, found⟩ := reads_name? start cursor ⟨here, index⟩ clean
  refine ⟨there, fun ident member => ?_⟩
  obtain ⟨name, -, rfl⟩ := Option.mem_map.mp member
  have after : first ≤ start := index ▸ here.behind
  exact ⟨start, text, rfl, found, after, Nat.lt_of_lt_of_eq start.lt_succ_self moved.symm⟩

theorem reads_since {before : Cursor → Prop} (start : Nat) :
    Reads before (since start) fun span cursor =>
      before cursor ∧ span = some ⟨start, cursor.index⟩ :=
  fun _ holds _ => ⟨holds, rfl⟩

theorem reads_expectMark (char : Char) :
    Reads (From lexemes first) (expectMark char) fun _ => From lexemes (first + 1) := by
  unfold expectMark
  refine (reads_acceptMark char).bind fun accepted => ?_
  refine Reads.ite (fun _ => fun _ _ clean => by cases clean) fun met => ?_
  have accepts : accepted = true := by simpa using met
  exact Reads.pure fun cursor here => by rwa [if_pos accepts] at here

/-- What a step leaves alone holds behind it when it holds at every later lexeme. -/
theorem reads_keeping (holds : Nat → Prop) {step : Reading α} [Passing step]
    {after : α → Cursor → Prop} (keeps : ∀ ⦃near far⦄, near ≤ far → holds near → holds far)
    (reads : Reads (From lexemes first) step after) :
    Reads (fun cursor => From lexemes first cursor ∧ holds cursor.index) step
      fun value cursor => after value cursor ∧ holds cursor.index :=
  fun cursor ⟨here, held⟩ clean =>
    ⟨reads cursor here clean, keeps ((Passing.passes cursor).index_le clean) held⟩

section InLine

variable {stands : Nat → Nat → α → Prop} (widens : Widens stands)

/-- What is read, if anything, stands from `first` on. -/
abbrev Placed (stands : Nat → Nat → α → Prop) (lexemes : List Lexeme) (first : Nat)
    (read : Option α) (cursor : Cursor) : Prop :=
  From lexemes first cursor ∧ ∀ value ∈ read, stands first cursor.index value

/-- Items that are read stand in line from `first` on. -/
abbrev PlacedAll (stands : Nat → Nat → α → Prop) (lexemes : List Lexeme) (first : Nat)
    (read : List α) (cursor : Cursor) : Prop :=
  From lexemes first cursor ∧ InLine stands first cursor.index read

include widens

/-- What is read from a place on is read from before it. -/
theorem placed_start {step : Nat → Reading (Option α)} {also : Cursor → Prop}
    (goes : ∀ start, Reads (fun cursor => From lexemes start cursor ∧ also cursor) (step start)
      (Placed stands lexemes start)) :
    Reads (fun cursor => From lexemes first cursor ∧ also cursor) (place >>= step)
      (Placed stands lexemes first) := by
  refine Reads.place fun start cursor ⟨⟨after, more⟩, here⟩ clean => ?_
  subst here
  obtain ⟨behind, own⟩ := goes cursor.index cursor ⟨after.start, more⟩ clean
  exact ⟨behind.lower after.behind, fun value same =>
    widens after.behind (Nat.le_refl _) (own value same)⟩

/-- What was read in line still stands in line behind a step. -/
theorem placedAll_keeping {step : Reading β} [Passing step] {after : β → Cursor → Prop}
    {read : List α} (reads : Reads (From lexemes first) step after) :
    Reads (PlacedAll stands lexemes first read) step
      fun value cursor => after value cursor ∧ InLine stands first cursor.index read :=
  reads_keeping (fun last => InLine stands first last read)
    (fun _ _ ordered line => line.widen widens (Nat.le_refl _) ordered) reads

variable {announces : Lexeme → Bool} {item : Reading (Option α)} [Passing item]

theorem many_placed (reads : ∀ first, Reads (fun cursor => From lexemes first cursor ∧
      cursor.rest.head?.any announces) item (Placed stands lexemes first)) (fuel first : Nat) :
    Reads (From lexemes first) (many announces item fuel) (PlacedAll stands lexemes first) := by
  induction fuel generalizing first with
  | zero =>
    unfold many
    exact Reads.fault
  | succ fuel ih =>
    unfold many
    refine Reads.peek fun next => Reads.ite (fun announced => ?_) fun _ => ?_
    · refine Reads.bind ((reads first).weaken ?_) fun read => ?_
      · rintro cursor ⟨start, rfl⟩
        exact ⟨start, announced⟩
      · -- The other items start where this one ends.
        refine Reads.each (fun origin => From lexemes origin.index) fun origin ⟨after, own⟩ =>
          ⟨after.start, ?_⟩
        refine Reads.bind (ih origin.index) fun more => Reads.pure ?_
        intro last ⟨later, others⟩
        refine ⟨later.lower after.behind, ?_⟩
        cases read with
        | none => exact others.widen widens after.behind (Nat.le_refl _)
        | some value =>
          exact ⟨origin.index, later.behind, after.behind, own value rfl, others⟩
    · exact Reads.pure fun cursor ⟨start, _⟩ => ⟨start, trivial⟩

theorem manyOf_placed (reads : ∀ first, Reads (fun cursor => From lexemes first cursor ∧
      cursor.rest.head?.any announces) item (Placed stands lexemes first)) (first : Nat) :
    Reads (From lexemes first) (manyOf announces item) (PlacedAll stands lexemes first) :=
  fun cursor => many_placed widens reads (cursor.rest.length + 1) first cursor

theorem someOf_placed (reads : ∀ first, Reads (fun cursor => From lexemes first cursor ∧
      cursor.rest.head?.any announces) item (Placed stands lexemes first)) (first : Nat) :
    Reads (From lexemes first) (someOf announces item) (PlacedAll stands lexemes first) := by
  unfold someOf
  exact From.skip fun next => Reads.ite (fun _ => Reads.fault) fun _ =>
    manyOf_placed widens reads first

end InLine

open From (skip advanced)

section Values

/-- Something that started at `start`, when it was read past its first lexeme and up to its end. -/
theorem placed_ends {stands : Nat → Nat → α → Prop} {start : Nat} (holds : Nat → Prop)
    {read : Option Span → Option α}
    (ends : ∀ last, start < last → holds last → ∀ value ∈ read (some ⟨start, last⟩),
      stands start last value) :
    Reads (fun cursor => From lexemes (start + 1) cursor ∧ holds cursor.index)
      (since start >>= fun span => pure (read span)) (Placed stands lexemes start) := by
  refine Reads.bind (reads_since start) fun span => Reads.pure ?_
  rintro cursor ⟨⟨here, held⟩, rfl⟩
  exact ⟨here.lower (Nat.le_succ _), ends cursor.index here.behind held⟩

private theorem scalar_ends {start : Nat} (read : Option α) (leaf : α → Scalar) :
    Reads (From lexemes (start + 1))
      (since start >>= fun span => pure (read.map fun made => .scalar span (leaf made)))
      (Placed (Value.Lies id) lexemes start) := by
  refine (placed_ends (fun _ => True) ?_).weaken fun _ here => ⟨here, trivial⟩
  intro last before _ value member
  obtain ⟨made, -, rfl⟩ := Option.map_eq_some_iff.mp member
  exact ⟨start, last, rfl, Nat.le_refl _, before, Nat.le_refl _⟩

variable {part : Reading (Option Value)} [Passing part]

private theorem keyed_placed (parts : ∀ first, Reads (From lexemes first) part
      (Placed (Value.Lies id) lexemes first)) (first : Nat) :
    Reads (From lexemes first) (do
        let name ← name?
        let value ← if ← acceptMark ':' then part else pure none
        return name.bind fun name => value.map (name, ·))
      (Placed (fun first last field => Value.Lies id first last field.2) lexemes first) := by
  have keyed : ∀ {name : Option Name} {value : Option Value} {last : Nat},
      (∀ made ∈ value, made.Lies id first last) →
        ∀ field ∈ name.bind fun name => value.map (name, ·), field.2.Lies id first last := by
    intro name value last lies field member
    obtain ⟨name, -, made⟩ := Option.bind_eq_some_iff.mp member
    obtain ⟨value, present, rfl⟩ := Option.map_eq_some_iff.mp made
    exact lies value present
  refine skip fun name => skip fun accepted => Reads.ite (fun _ => ?_) fun _ => ?_
  · exact (parts first).bind fun value => Reads.pure fun cursor ⟨here, lies⟩ => ⟨here, keyed lies⟩
  · have none : Reads (From lexemes first) (pure none) (Placed (Value.Lies id) lexemes first) :=
      Reads.pure fun cursor here => ⟨here, nofun⟩
    exact none.bind fun value => Reads.pure fun cursor ⟨here, lies⟩ => ⟨here, keyed lies⟩

private theorem valueWith_placed (constant inside : Bool) (parts : ∀ first,
      Reads (From lexemes first) part (Placed (Value.Lies id) lexemes first)) (first : Nat) :
    Reads (From lexemes first) (valueWith constant inside part)
      (Placed (Value.Lies id) lexemes first) := by
  simp only [valueWith]
  suffices reads : Reads (fun cursor => From lexemes first cursor ∧ True) _
      (Placed (Value.Lies id) lexemes first) from reads.weaken fun _ start => ⟨start, trivial⟩
  refine placed_start Value.widens fun start => Reads.peek fun next => ?_
  have more : ∀ {lexeme}, next = some lexeme → ∀ cursor : Cursor,
      (From lexemes start cursor ∧ True) ∧ cursor.rest.head? = next →
        From lexemes start cursor ∧ cursor.rest ≠ [] :=
    fun same cursor both => ⟨both.1.1, rest_ne_nil (both.2.trans same)⟩
  split
  · next leaf begins =>
    have same : ∃ lexeme, next = some lexeme := by
      cases next with
      | none => cases begins
      | some lexeme => exact ⟨lexeme, rfl⟩
    obtain ⟨lexeme, same⟩ := same
    exact (advanced (scalar_ends (some leaf) id)).weaken (more same)
  · refine Reads.ite (fun mark => ?_) fun _ => Reads.ite (fun mark => ?_) fun _ =>
      Reads.ite (fun mark => ?_) fun _ => Reads.fault
    all_goals have here := more (by simpa using mark)
    · exact Reads.ite (fun _ => Reads.fault) fun _ =>
        (advanced (skip fun name => scalar_ends name .ofVariable)).weaken here
    · have widens : Widens (Value.Lies id) := Value.widens
      refine (advanced ((manyOf_placed widens (fun first => ?_) (start + 1)).bind
        fun items => ?_)).weaken here
      · exact (parts first).weaken fun _ start => start.1
      · refine (placedAll_keeping widens reads_from).bind fun _ =>
          placed_ends (InLine _ (start + 1) · _) ?_
        rintro last before line _ ⟨⟩
        exact ⟨start, last, ⟨rfl, Nat.le_refl _, before, Nat.le_refl _⟩,
          Value.itemsLie_iff.mpr (line.widen widens (Nat.le_succ _) (Nat.le_refl _))⟩
    · have widens : Widens fun first last (field : Name × Value) => field.2.Lies id first last :=
        Value.widens_keyed
      refine (advanced ((manyOf_placed widens (fun first => ?_) (start + 1)).bind
        fun fields => ?_)).weaken here
      · exact (keyed_placed parts first).weaken fun _ start => start.1
      · refine (placedAll_keeping widens reads_from).bind fun _ =>
          placed_ends (InLine _ (start + 1) · _) ?_
        rintro last before line _ ⟨⟩
        exact ⟨start, last, ⟨rfl, Nat.le_refl _, before, Nat.le_refl _⟩,
          Value.fieldsLie_iff.mpr (line.widen widens (Nat.le_succ _) (Nat.le_refl _))⟩

private theorem nestedValue_placed (constant : Bool) (budget first : Nat) :
    Reads (From lexemes first) (nestedValue constant budget)
      (Placed (Value.Lies id) lexemes first) := by
  induction budget generalizing first with
  | zero =>
    unfold nestedValue tooDeep
    exact skip fun _ => Reads.pure fun _ here => ⟨here, nofun⟩
  | succ budget ih =>
    unfold nestedValue
    exact valueWith_placed constant true ih first

theorem value_placed (constant : Bool) (budget first : Nat) :
    Reads (From lexemes first) (value constant budget)
      (Placed (Value.Lies id) lexemes first) := by
  unfold value
  exact valueWith_placed constant false (nestedValue_placed constant budget) first

end Values

section Arguments

private theorem argument_placed (constant : Bool) (budget first : Nat) :
    Reads (From lexemes first) (argument constant budget)
      (Placed (Argument.Lies id) lexemes first) := by
  simp only [argument]
  suffices reads : Reads (fun cursor => From lexemes first cursor ∧ True) _
      (Placed (Argument.Lies id) lexemes first) from reads.weaken fun _ start => ⟨start, trivial⟩
  refine placed_start Argument.widens fun start => ?_
  have named : Reads (fun cursor => From lexemes start cursor ∧ True) name?
      fun _ => From lexemes (start + 1) := fun cursor ⟨here, _⟩ clean =>
    (reads_name? cursor.index cursor ⟨here, rfl⟩ clean).1
  have ends : ∀ {name : Option Name} {read : Option Value}, Reads
      (Placed (Value.Lies id) lexemes (start + 1) read)
      (since start >>= fun span => pure (name.bind fun name => read.map fun value =>
        ({ span, name, value } : Argument)))
      (Placed (Argument.Lies id) lexemes start) := by
    intro name read
    refine placed_ends (fun last => ∀ value ∈ read, value.Lies id (start + 1) last) ?_
    intro last before lies argument member
    obtain ⟨name, -, made⟩ := Option.bind_eq_some_iff.mp member
    obtain ⟨value, present, rfl⟩ := Option.map_eq_some_iff.mp made
    exact ⟨start, last, ⟨rfl, Nat.le_refl _, before, Nat.le_refl _⟩,
      Value.widens (Nat.le_succ _) (Nat.le_refl _) (lies value present)⟩
  refine named.bind fun name => skip fun accepted => Reads.ite (fun _ => ?_) fun _ => ?_
  · exact (value_placed constant budget (start + 1)).bind fun read => ends
  · have none : Reads (From lexemes (start + 1)) (pure none)
        (Placed (Value.Lies id) lexemes (start + 1)) :=
      Reads.pure fun _ here => ⟨here, nofun⟩
    exact none.bind fun read => ends

theorem arguments_placed (constant : Bool) (budget first : Nat) :
    Reads (From lexemes first) (arguments constant budget)
      (PlacedAll (Argument.Lies id) lexemes first) := by
  unfold arguments
  refine (reads_acceptMark '(').bind fun accepted => Reads.ite (fun opened => ?_) fun refused => ?_
  · rw [if_pos opened]
    have widens : Widens (Argument.Lies id) := Argument.widens
    refine (someOf_placed widens (fun first => ?_) (first + 1)).bind fun read => ?_
    · exact (argument_placed constant budget first).weaken fun _ start => start.1
    · refine (placedAll_keeping widens reads_from).bind fun _ => Reads.pure ?_
      rintro cursor ⟨here, line⟩
      exact ⟨here.lower (Nat.le_succ _), line.widen widens (Nat.le_succ _) (Nat.le_refl _)⟩
  · rw [if_neg refused]
    exact Reads.pure fun _ here => ⟨here, trivial⟩

private theorem directive_placed (constant : Bool) (budget first : Nat) :
    Reads (From lexemes first) (directive constant budget)
      (Placed (Directive.Lies id) lexemes first) := by
  simp only [directive]
  suffices reads : Reads (fun cursor => From lexemes first cursor ∧ True) _
      (Placed (Directive.Lies id) lexemes first) from reads.weaken fun _ start => ⟨start, trivial⟩
  refine placed_start Directive.widens fun start => ?_
  refine ((reads_expectMark '@').weaken fun _ start => start.1).bind fun _ => skip fun name => ?_
  refine (arguments_placed constant budget (start + 1)).bind fun arguments =>
    placed_ends (InLine _ (start + 1) · _) ?_
  intro last before line directive member
  obtain ⟨name, -, rfl⟩ := Option.map_eq_some_iff.mp member
  exact ⟨start, last, ⟨rfl, Nat.le_refl _, before, Nat.le_refl _⟩,
    line.widen Argument.widens (Nat.le_succ _) (Nat.le_refl _)⟩

theorem directives_placed (constant : Bool) (budget first : Nat) :
    Reads (From lexemes first) (directives constant budget)
      (PlacedAll (Directive.Lies id) lexemes first) := by
  unfold directives
  exact manyOf_placed Directive.widens (fun first =>
    (directive_placed constant budget first).weaken fun _ start => start.1) first

end Arguments

end RelayWorkbench.GraphQL.Reading
