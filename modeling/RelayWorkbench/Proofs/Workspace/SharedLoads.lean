import RelayWorkbench.Proofs.Workspace.LoadHistories

/-! Loads that calls share. Between two events that give up the cell of a root all calls for the
root take one cell, so that one load at most runs for them at a time and one at most makes a schema.
A call runs one load at most, and it returns without a schema only when that load failed. -/

namespace RelayWorkbench.Workspace.SchemaCache

variable {cache : SchemaCache} {events early period late : List Event} {root : Path} {call : Nat}

section Census

/-- The tickets of the calls that have not returned or that ran a load. -/
def tickets (cache : SchemaCache) : List Ticket :=
  cache.held ++ cache.cells.flatMap (·.waiting) ++ cache.loads

/-- The number of tickets of a call. -/
def census (cache : SchemaCache) (call : Nat) : Nat := cache.tickets.countP (·.call == call)

theorem countP_waiting_set {cells : List Cell} {index : Nat} {former : Cell}
    (found : cells[index]? = some former) (state : Cell) (wanted : Ticket → Bool) :
    ((cells.set index state).flatMap (·.waiting)).countP wanted + former.waiting.countP wanted =
      (cells.flatMap (·.waiting)).countP wanted + state.waiting.countP wanted := by
  obtain ⟨inside, rfl⟩ := List.getElem?_eq_some_iff.mp found
  obtain ⟨front, back, whole, -, put⟩ : ∃ front back, cells = front ++ cells[index] :: back ∧
      front.length = index ∧ cells.set index state = front ++ state :: back :=
    List.exists_of_set inside
  have before := congrArg (fun cells => (cells.flatMap (·.waiting)).countP wanted) whole
  simp only [List.flatMap_append, List.flatMap_cons, List.countP_append] at before
  rw [put, before]
  simp only [List.flatMap_append, List.flatMap_cons, List.countP_append]
  omega

theorem census_put (cache : SchemaCache) {cell : Nat} {former : Cell}
    (found : cache.cells[cell]? = some former) (state : Cell) (call : Nat) :
    (cache.put cell state).census call + former.waiting.countP (·.call == call) =
      cache.census call + state.waiting.countP (·.call == call) := by
  have moved := countP_waiting_set found state (·.call == call)
  simp only [census, tickets, put, List.countP_append] at moved ⊢
  omega

theorem census_begin (cache : SchemaCache) {ticket : Ticket} {former : Cell}
    (found : cache.cells[ticket.cell]? = some former) (state : Cell) (call : Nat) :
    (cache.begin ticket state).census call + former.waiting.countP (·.call == call) =
      cache.census call + state.waiting.countP (·.call == call) +
        [ticket].countP (·.call == call) := by
  have moved := countP_waiting_set found { state with running := some cache.loads.length }
    (·.call == call)
  simp only [census, tickets, SchemaCache.begin, put, List.countP_append] at moved ⊢
  omega

theorem census_release {asks : Nat} {ticket : Ticket}
    (held : cache.held.find? (·.call == asks) = some ticket) (call : Nat) :
    (cache.release asks).census call + [ticket].countP (·.call == call) = cache.census call := by
  obtain ⟨own, front, back, whole, others⟩ := List.find?_eq_some_iff_append.mp held
  have left : cache.held.eraseP (·.call == asks) = front ++ back := by
    rw [whole, List.eraseP_append_right _ fun other member => by simpa using others other member,
      List.eraseP_cons_of_pos (p := fun ticket : Ticket => ticket.call == asks) own]
  rw [census, census, tickets, tickets, release, left, whole]
  simp only [List.countP_append, List.countP_cons, List.countP_nil]
  omega

theorem census_hold (ticket : Ticket) (call : Nat) :
    (cache.hold ticket).census call = cache.census call + [ticket].countP (·.call == call) := by
  simp only [census, tickets, hold, List.countP_append]
  omega

theorem census_renew (root : Path) (call : Nat) :
    (cache.renew root).census call = cache.census call := by
  simp [census, tickets, renew, forget]

/-- An event adds no ticket of a call unless it begins the call. -/
theorem census_step (sound : cache.Sound) (event : Event) (call : Nat) :
    (cache.step event).1.census call ≤
      cache.census call + event.opening?.toList.countP (·.1 == call) := by
  generalize (cache.step event).2 = replies, (cache.step event).1 = next,
    moves_step cache event = moves
  cases moves with
  | idle | invalidate => exact Nat.le_add_right ..
  | take =>
    rw [census_hold]
    simp [Event.opening?]
  | make | refresh =>
    rw [census_hold, census_renew]
    simp [Event.opening?]
  | lose held | receive held =>
    have fewer := census_release held call
    omega
  | @begin asks _ state held found =>
    have fewer := census_release held call
    have more := census_begin (cache.release asks) found state call
    omega
  | @wait asks ticket state held found =>
    have fewer := census_release held call
    have more := census_put (cache.release asks) found
      { state with waiting := state.waiting ++ [ticket] } call
    simp only [List.countP_append] at more
    omega
  | @takeOver _ state ticket waiting found _ waits =>
    obtain ⟨rfl, -, -⟩ := (sound.cells _ _ found).first_waiting waits
    have more := census_begin cache found { state with waiting } call
    simp only [waits, List.countP_cons, List.countP_nil] at more
    omega
  | @load load ticket state _ found =>
    have fewer := census_put cache found { root := state.root, schema := some load } call
    simp only [List.countP_nil] at fewer
    omega
  | @fail _ _ state _ found =>
    have same := census_put cache found { state with running := none } call
    simp only at same
    omega

theorem census_after (events : List Event) (call : Nat) :
    (after events).census call ≤ (events.filterMap Event.opening?).countP (·.1 == call) := by
  induction events using List.reverseRecOn with
  | nil => exact Nat.le_refl _
  | append_singleton events event ih =>
    have more := census_step (sound_after events) event call
    have alone : [event].filterMap Event.opening? = event.opening?.toList := by
      cases opening : event.opening? <;> simp [opening]
    rw [after_concat, List.filterMap_append, List.countP_append, alone]
    omega

theorem Distinct.census_le_one (distinct : Distinct events) (call : Nat) :
    (after events).census call ≤ 1 := by
  have once := List.nodup_iff_count_le_one.mp distinct call
  rw [List.count_eq_countP, List.countP_map] at once
  exact Nat.le_trans (census_after events call) once

end Census

/-- A call runs or ran a load. -/
def RunBy (events : List Event) (load call : Nat) : Prop :=
  ∃ ticket, (after events).loads[load]? = some ticket ∧ ticket.call = call

/-- A call for a root begins in a part of a history. -/
def BeginsIn (period : List Event) (root : Path) (call : Nat) : Prop :=
  ∃ start ∈ period, ∃ known, start.opening? = some (call, known) ∧ known.same root

section Calls

theorem RunBy.concat {load : Nat} (run : RunBy events load call) (event : Event) :
    RunBy (events ++ [event]) load call := by
  obtain ⟨ticket, began, own⟩ := run
  obtain ⟨inside, rfl⟩ := List.getElem?_eq_some_iff.mp began
  have longer := loads_after events [event]
  have within := Nat.lt_of_lt_of_le inside longer.length_le
  refine ⟨_, List.getElem?_eq_getElem within, ?_⟩
  rw [← longer.getElem inside, own]

theorem RunBy.unique (distinct : Distinct events) {first second : Nat}
    (run : RunBy events first call) (again : RunBy events second call) : first = second := by
  obtain ⟨ticket, began, own⟩ := run
  obtain ⟨other, started, same⟩ := again
  have once : ((after events).loads.map (·.call)).Nodup := by
    apply List.nodup_iff_count_le_one.mpr
    intro call
    have few := distinct.census_le_one call
    rw [census, tickets, List.countP_append] at few
    rw [List.count_eq_countP, List.countP_map]
    exact Nat.le_trans (Nat.le_add_left ..) few
  have inside := (List.getElem?_eq_some_iff.mp began).1
  apply (List.getElem?_inj (by simpa using inside) once).mp
  rw [List.getElem?_map, List.getElem?_map, began, started]
  exact congrArg some (own.trans same.symm)

/-- A call returns without a schema only when a load that it ran itself has failed. -/
theorem failed_of_reply (given : (⟨call, root, none⟩ : Reply) ∈ replies events) :
    ∃ load, RunBy events load call ∧ Ended events load false := by
  induction events using List.reverseRecOn with
  | nil => cases given
  | append_singleton events event ih =>
    rw [replies_concat] at given
    rcases List.mem_append.mp given with before | now
    · obtain ⟨load, run, ended⟩ := ih before
      exact ⟨load, run.concat event, ended.concat event⟩
    · generalize ((after events).step event).2 = answers, ((after events).step event).1 = next,
        moves_step (after events) event = moves at now
      cases moves with
      | idle | take | make | refresh | invalidate | lose | begin | wait | takeOver => cases now
      | receive => cases List.mem_singleton.mp now
      | load =>
        obtain ⟨_, -, same⟩ := List.mem_map.mp now
        cases same
      | @fail load ticket state began found runs =>
        cases List.mem_singleton.mp now
        have ran := (story_after events _ _ found).running load runs
        exact ⟨load, RunBy.concat ⟨ticket, began, rfl⟩ _, events, [], rfl, ran⟩

end Calls

section Cells

variable {load : Nat}

theorem Made.append {schema cell : Nat} (made : Made early schema cell) (late : List Event) :
    Made (early ++ late) schema cell := by
  induction late using List.reverseRecOn with
  | nil => rwa [List.append_nil]
  | append_singleton late event ih =>
    rw [← List.append_assoc]
    exact ih.concat event

theorem Made.unique {first second cell : Nat} (made : Made events first cell)
    (again : Made events second cell) : first = second := by
  obtain ⟨-, state, found, holds⟩ := made
  obtain ⟨-, other, there, has⟩ := again
  cases found.symm.trans there
  exact Option.some.inj (holds.symm.trans has)

theorem ended_of_lt {first second : Nat} {ticket other : Ticket}
    (began : (after events).loads[first]? = some ticket)
    (next : (after events).loads[second]? = some other) (same : other.cell = ticket.cell)
    (before : first < second) : Ended events first false := by
  obtain ⟨state, found, -⟩ := (sound_after events).loads _ (List.mem_of_getElem? began)
  have story := story_after events _ _ found
  have notLast : ¬ (state.running = some first ∨ state.schema = some first) := fun present =>
    absurd (story.last first present second other next same) (by omega)
  rw [not_or] at notLast
  exact story.failed first ticket began rfl notLast.1 notLast.2

/-- For the cell of a load that runs, that load runs. -/
theorem Runs.running (runs : Runs events load) :
    ∃ ticket state, (after events).loads[load]? = some ticket ∧
      (after events).cells[ticket.cell]? = some state ∧ state.running = some load := by
  have began := List.getElem?_eq_getElem runs.lt_length
  obtain ⟨state, found, -⟩ := (sound_after events).loads _ (List.mem_of_getElem? began)
  have story := story_after events _ _ found
  refine ⟨_, state, began, found, ?_⟩
  by_contra idle
  by_cases made : state.schema = some load
  · exact runs.not_ended (story.made load made)
  · exact runs.not_ended (story.failed load _ began rfl idle made)

/-- When a load fails, the call that ran it returns, and those that wait go on waiting. -/
theorem Runs.step_fail (runs : Runs events load) :
    ∃ ticket state, (after events).loads[load]? = some ticket ∧
      (after events).cells[ticket.cell]? = some state ∧
      (after events).step (.finish load false) =
        ((after events).put ticket.cell { state with running := none },
          [⟨ticket.call, ticket.root, none⟩]) := by
  obtain ⟨ticket, state, began, found, ran⟩ := runs.running
  refine ⟨ticket, state, began, found, ?_⟩
  simp [step, began, found, ran, finishIn, Reply.ofTicket]

/-- A cell that is empty, and for which a load runs when the next call goes on: the first that waits
or, if none waits, one that begins. -/
structure Retries (events : List Event) (cell : Nat) (state : Cell) : Prop where
  found : (after events).cells[cell]? = some state
  empty : state.schema = none
  idle : state.running = none
  cached : ∀ root, (after events).slot? root = some cell → (after events).cached? root = none
  waits : ∀ ticket waiting, state.waiting = ticket :: waiting →
    (after (events ++ [.takeOver cell])).loads = (after events).loads ++ [ticket]
  next : state.waiting = [] → ∀ call root, (after events).slot? root = some cell →
    Distinct (events ++ [.get call root]) →
      (after (events ++ [.get call root, .ask call])).loads =
        (after events).loads ++ [⟨call, root, cell⟩]

theorem Distinct.find?_held (distinct : Distinct (events ++ [.get call root])) :
    (after events).held.find? (·.call == call) = none := by
  have once := List.nodup_iff_count_le_one.mp distinct call
  have few := census_after events call
  rw [List.count_eq_countP, List.countP_map, List.filterMap_append, List.countP_append] at once
  have none : (after events).census call = 0 := by
    have added : ([Event.get call root].filterMap Event.opening?).countP
        ((· == call) ∘ (·.1)) = 1 := by simp [Event.opening?]
    rw [added] at once
    exact Nat.le_zero.mp (Nat.le_trans few (Nat.le_of_succ_le_succ once))
  rw [List.find?_eq_none]
  intro ticket member
  rw [census, List.countP_eq_zero] at none
  exact none ticket (List.mem_append_left _ (List.mem_append_left _ member))

/-- The cell of a failed load is empty, and until a load is begun for it, the next call that goes on
begins one. -/
theorem Ended.retries {ticket : Ticket} (began : (after events).loads[load]? = some ticket)
    (ended : Ended events load false)
    (last : ∀ (later : Nat) (other : Ticket), (after events).loads[later]? = some other →
      other.cell = ticket.cell → later ≤ load) : ∃ state, Retries events ticket.cell state := by
  obtain ⟨state, found, -⟩ := (sound_after events).loads _ (List.mem_of_getElem? began)
  have story := story_after events _ _ found
  have present : ∀ current, state.running = some current ∨ state.schema = some current →
      current = load := by
    intro current present
    obtain ⟨other, started, own⟩ := ((sound_after events).cells _ _ found).loading current
      present.symm
    exact Nat.le_antisymm (last current other started own)
      (story.last current present load ticket began rfl)
  have idle : state.running = none := by
    apply Option.eq_none_iff_forall_ne_some.mpr
    intro current runs
    have same := present current (.inl runs)
    subst same
    exact (story.running current runs).not_ended ended
  have empty : state.schema = none := by
    apply Option.eq_none_iff_forall_ne_some.mpr
    intro current made
    have same := present current (.inr made)
    subst same
    cases (story.made current made).unique ended
  refine ⟨state, found, empty, idle, ?_, ?_, ?_⟩
  · intro root slot
    simp [cached?, slot, found, empty]
  · intro next waiting waits
    rw [after_concat]
    simp [step, found, idle, waits, SchemaCache.begin, put]
  · intro alone call root slot distinct
    have got : ((after events).step (.get call root)).1 =
        (after events).hold ⟨call, root, ticket.cell⟩ := by simp [step, slot]
    have asks : ((after events).hold ⟨call, root, ticket.cell⟩).held.find? (·.call == call) =
        some ⟨call, root, ticket.cell⟩ := by
      rw [hold, List.find?_append, distinct.find?_held]
      simp
    have free : state.isFree := by simp [Cell.isFree, idle, alone]
    have there : (((after events).hold ⟨call, root, ticket.cell⟩).release
        call).cells[ticket.cell]? = some state := found
    rw [List.append_cons, after_concat, after_concat, got]
    simp only [step, asks, join, there, empty, free, if_true]
    rfl

end Cells

section Periods

/-- Calls for a root that begin while its cell is not given up take the cell that the root has
then. -/
theorem cell_of_call (distinct : Distinct (early ++ (period ++ late)))
    (keeps : ∀ event ∈ period.tail, event.renews root = false) (begins : BeginsIn period root call)
    {ticket : Ticket} (took : Took (early ++ (period ++ late)) ticket) (own : ticket.call = call) :
    (after (early ++ period)).slot? root = some ticket.cell := by
  obtain ⟨start, member, known, opens, same⟩ := begins
  obtain ⟨front, back, rfl⟩ := List.append_of_mem member
  obtain ⟨first, other, second, split, reopens, present⟩ := took
  have whole : early ++ (front ++ start :: back ++ late) =
      (early ++ front) ++ start :: (back ++ late) := by simp
  rw [whole] at distinct split
  rw [own] at reopens
  obtain ⟨rfl, rfl⟩ := distinct.split_eq opens split reopens
  cases opens.symm.trans reopens
  rw [slot?_congr _ same] at present
  have kept : ∀ event ∈ back, event.renews root = false := by
    intro event behind
    apply keeps
    cases front with
    | nil => exact behind
    | cons head front => exact List.mem_append_right _ (List.mem_cons_of_mem _ behind)
  simpa using slot?_after present kept

/-- What a root is known to have while its cell is not given up is the schema of the cell it has
then. -/
theorem cell_of_cached {front back : List Event} (begun : front ≠ []) {schema : Nat}
    (keeps : ∀ event ∈ (front ++ back).tail, event.renews root = false)
    (cached : (after (early ++ front)).cached? root = some schema) :
    ∃ cell, (after (early ++ (front ++ back))).slot? root = some cell ∧
      Made (early ++ (front ++ back)) schema cell := by
  obtain ⟨cell, slot, cached⟩ := Option.bind_eq_some_iff.mp cached
  obtain ⟨state, found, has⟩ := Option.bind_eq_some_iff.mp cached
  rw [List.tail_append_of_ne_nil begun, List.forall_mem_append] at keeps
  have stays := slot?_after slot keeps.2
  have made := (made_after found has).append back
  rw [List.append_assoc] at stays made
  exact ⟨cell, stays, made⟩

/-- A load that a call runs or ran, where the call is for a root and begins in a period. -/
def LoadIn (events period : List Event) (root : Path) (load : Nat) : Prop :=
  ∃ call, BeginsIn period root call ∧ RunBy events load call

/-- What calls for a root share that begin in a period in which the cell of the root is not given
up: of their loads one at most runs and one at most succeeds, and one schema is all that they are
given and that the root is known to have. -/
structure SharesLoads (events early period : List Event) (root : Path) : Prop where
  running : ∀ first second, LoadIn events period root first → LoadIn events period root second →
    Runs events first → Runs events second → first = second
  succeeded : ∀ first second, LoadIn events period root first →
    LoadIn events period root second → Ended events first true → Ended events second true →
      first = second
  schema : ∃ schema,
    (∀ call known given, BeginsIn period root call → ⟨call, known, some given⟩ ∈ replies events →
      given = schema) ∧
    ∀ front back, period = front ++ back → front ≠ [] →
      (after (early ++ front)).cached? root = none ∨
        (after (early ++ front)).cached? root = some schema

private theorem ended_of_lt_in (distinct : Distinct (early ++ (period ++ late)))
    (keeps : ∀ event ∈ period.tail, event.renews root = false) {first second : Nat}
    (run : LoadIn (early ++ (period ++ late)) period root first)
    (again : LoadIn (early ++ (period ++ late)) period root second) (before : first < second) :
    Ended (early ++ (period ++ late)) first false := by
  obtain ⟨call, begins, ticket, began, own⟩ := run
  obtain ⟨other, starts, next, started, same⟩ := again
  have took := (took_after (early ++ (period ++ late))).loads
  have here := cell_of_call distinct keeps begins (took _ (List.mem_of_getElem? began)) own
  have there := cell_of_call distinct keeps starts (took _ (List.mem_of_getElem? started)) same
  exact ended_of_lt began started (Option.some.inj (there.symm.trans here)) before

/-- The schema that a call in a period is given is that of the cell the root has then. -/
private theorem cell_of_given (distinct : Distinct (early ++ (period ++ late)))
    (keeps : ∀ event ∈ period.tail, event.renews root = false) (begins : BeginsIn period root call)
    {known : Path} {schema : Nat}
    (given : (⟨call, known, some schema⟩ : Reply) ∈ replies (early ++ (period ++ late))) :
    ∃ cell, (after (early ++ period)).slot? root = some cell ∧
      Made (early ++ (period ++ late)) schema cell := by
  obtain ⟨ticket, took, same, made⟩ := answered_of_mem given
  cases same
  exact ⟨_, cell_of_call distinct keeps begins took rfl, made schema rfl⟩

theorem sharesLoads_of_keeps (distinct : Distinct (early ++ (period ++ late)))
    (keeps : ∀ event ∈ period.tail, event.renews root = false) :
    SharesLoads (early ++ (period ++ late)) early period root := by
  constructor
  · intro first second run again runs others
    by_contra apart
    rcases Nat.lt_or_gt_of_ne apart with before | after
    · exact runs.not_ended (ended_of_lt_in distinct keeps run again before)
    · exact others.not_ended (ended_of_lt_in distinct keeps again run after)
  · intro first second run again ended others
    by_contra apart
    rcases Nat.lt_or_gt_of_ne apart with before | after
    · cases ended.unique (ended_of_lt_in distinct keeps run again before)
    · cases others.unique (ended_of_lt_in distinct keeps again run after)
  · -- whatever schema is made for the cell is the one
    have one : ∃ schema, ∀ cell, (after (early ++ period)).slot? root = some cell →
        ∀ made, Made (early ++ (period ++ late)) made cell → made = schema := by
      by_cases some : ∃ cell made, (after (early ++ period)).slot? root = some cell ∧
          Made (early ++ (period ++ late)) made cell
      · obtain ⟨cell, schema, slot, made⟩ := some
        refine ⟨schema, fun other same again holds => holds.unique ?_⟩
        rwa [← Option.some.inj (slot.symm.trans same)]
      · exact ⟨0, fun cell slot made holds => absurd ⟨cell, made, slot, holds⟩ some⟩
    obtain ⟨schema, one⟩ := one
    refine ⟨schema, ?_, ?_⟩
    · intro call known given begins member
      obtain ⟨cell, slot, made⟩ := cell_of_given distinct keeps begins member
      exact one cell slot given made
    · rintro front back rfl begun
      cases cached : (after (early ++ front)).cached? root with
      | none => exact .inl rfl
      | some given =>
        obtain ⟨cell, slot, made⟩ := cell_of_cached begun keeps cached
        have lasts := made.append late
        rw [List.append_assoc] at lasts
        rw [one cell slot given lasts]
        exact .inr rfl

end Periods

/-- Calls share loads, in whatever order events come. Between two events that give up the cell of a
root, one load at most runs for the calls that begin then, one at most succeeds, and all get its
schema. A call runs one load at most and returns without a schema only when that load failed; the
calls that wait for it go on waiting. The cell of a failed load is empty, and the next call that
goes on runs a load. -/
theorem shares_loads (distinct : Distinct events) :
    (∀ early period late root, events = early ++ (period ++ late) →
      (∀ event ∈ period.tail, event.renews root = false) →
        SharesLoads events early period root) ∧
      (∀ call root, ⟨call, root, none⟩ ∈ replies events →
        ∃ load, RunBy events load call ∧ Ended events load false) ∧
      (∀ call first second, RunBy events first call → RunBy events second call →
        first = second) ∧
      (∀ load, Runs events load → ∃ ticket state, (after events).loads[load]? = some ticket ∧
        (after events).cells[ticket.cell]? = some state ∧
        (after events).step (.finish load false) =
          ((after events).put ticket.cell { state with running := none },
            [⟨ticket.call, ticket.root, none⟩])) ∧
      ∀ load ticket, (after events).loads[load]? = some ticket → Ended events load false →
        (∀ (later : Nat) (other : Ticket), (after events).loads[later]? = some other →
          other.cell = ticket.cell → later ≤ load) →
        ∃ state, Retries events ticket.cell state := by
  refine ⟨?_, fun _ _ => failed_of_reply, fun _ _ _ run again => run.unique distinct again,
    fun _ runs => runs.step_fail, fun _ _ began ended last => ended.retries began last⟩
  rintro early period late root rfl keeps
  exact sharesLoads_of_keeps distinct keeps

/-- Four calls for one root, the third of which refreshes it. The load of the first fails, and the
second, which waited, runs one of its own; the fourth gets what the third loads. -/
def refreshAmidLoads : List Event :=
  [.get 0 ⟨['a']⟩, .ask 0, .get 1 ⟨['a', '/']⟩, .ask 1, .refresh 2 ⟨['a']⟩, .get 3 ⟨['a']⟩, .ask 2,
    .ask 3, .finish 0 false, .takeOver 0, .finish 1 true, .finish 2 true]

theorem shares_loads_amid_refresh :
    Distinct refreshAmidLoads ∧
      replies refreshAmidLoads = [⟨0, ⟨['a']⟩, none⟩, ⟨2, ⟨['a']⟩, some 1⟩, ⟨3, ⟨['a']⟩, some 1⟩,
        ⟨1, ⟨['a', '/']⟩, some 2⟩] ∧
      SharesLoads refreshAmidLoads [] (refreshAmidLoads.take 4) ⟨['a']⟩ ∧
      SharesLoads refreshAmidLoads (refreshAmidLoads.take 4) (refreshAmidLoads.drop 4) ⟨['a']⟩ ∧
      ∃ load, RunBy refreshAmidLoads load 0 ∧ Ended refreshAmidLoads load false := by
  have distinct : Distinct refreshAmidLoads := by decide
  have returned : replies refreshAmidLoads = [⟨0, ⟨['a']⟩, none⟩, ⟨2, ⟨['a']⟩, some 1⟩,
      ⟨3, ⟨['a']⟩, some 1⟩, ⟨1, ⟨['a', '/']⟩, some 2⟩] := by decide
  obtain ⟨shares, fails, -⟩ := shares_loads distinct
  exact ⟨distinct, returned,
    shares [] (refreshAmidLoads.take 4) (refreshAmidLoads.drop 4) ⟨['a']⟩ rfl (by decide),
    shares (refreshAmidLoads.take 4) (refreshAmidLoads.drop 4) [] ⟨['a']⟩ rfl (by decide),
    fails 0 ⟨['a']⟩ (by rw [returned]; exact List.mem_cons_self ..)⟩

end RelayWorkbench.Workspace.SchemaCache
