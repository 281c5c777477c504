import RelayWorkbench.Proofs.Workspace.RootsApart

/-! What calls get from a schema cache. A call takes the cell that its root has when the call
begins, and a cell is never older than the latest event that gave up the cell before it. So no call
gets a schema whose load was begun before that. -/

namespace RelayWorkbench.Workspace.SchemaCache

variable {cache : SchemaCache} {events early late : List Event} {start : Event} {root : Path}

section Slots

theorem slot?_congr (cache : SchemaCache) {first second : Path} (same : first.same second) :
    cache.slot? first = cache.slot? second := by
  have alike : (fun slot : Path × Nat => slot.1.same first) = fun slot => slot.1.same second := by
    funext slot
    rw [Path.same_comm, Path.same_congr same, Path.same_comm]
  exact congrArg (fun matches' => (cache.slots.find? matches').map (·.2)) alike

theorem slot?_forget (root other : Path) :
    (cache.forget root).slot? other =
      if root.same other then none else cache.slot? other := by
  split
  · next same =>
    rw [← slot?_congr _ same]
    simp [slot?, forget, List.find?_filter]
  · next apart =>
    simp only [slot?, forget, List.find?_filter]
    congr 2
    funext slot
    cases known : slot.1.same other with
    | false => simp
    | true =>
      have away : slot.1.same root = false := by
        rw [Path.same_congr known, Path.same_comm]
        simpa using apart
      simp [away]

theorem slot?_renew (root other : Path) :
    (cache.renew root).slot? other =
      if root.same other then some cache.cells.length else cache.slot? other := by
  have behind : (cache.forget root).slot? other = _ := slot?_forget root other
  simp only [slot?, renew] at behind ⊢
  by_cases same : root.same other
  · simp [same]
  · rw [List.find?_cons_of_neg (by simpa using same), behind, if_neg same, if_neg same]

/-- The cell of a root changes only to a new one. -/
theorem slot?_step {cell : Nat} {event : Event}
    (present : (cache.step event).1.slot? root = some cell) :
    cell = cache.cells.length ∨ event.renews root = false ∧ cache.slot? root = some cell := by
  generalize (cache.step event).2 = replies, (cache.step event).1 = next,
    moves_step cache event = moves at present
  cases moves with
  | idle _ keeps => exact .inr ⟨keeps root, present⟩
  | make absent =>
    change (cache.renew _).slot? root = some cell at present
    rw [slot?_renew] at present
    split at present
    · exact .inl (Option.some.inj present).symm
    · exact .inr ⟨rfl, present⟩
  | refresh =>
    change (cache.renew _).slot? root = some cell at present
    rw [slot?_renew] at present
    split at present
    · exact .inl (Option.some.inj present).symm
    · next apart => exact .inr ⟨by simpa [Event.renews] using apart, present⟩
  | invalidate =>
    rw [slot?_forget] at present
    split at present
    · cases present
    · next apart => exact .inr ⟨by simpa [Event.renews] using apart, present⟩
  | take | lose | receive | begin | wait | takeOver | load | fail => exact .inr ⟨rfl, present⟩

/-- Unless it is given up, the cell of a root stays. -/
theorem slot?_step_of_keeps {cell : Nat} {event : Event} (present : cache.slot? root = some cell)
    (keeps : event.renews root = false) : (cache.step event).1.slot? root = some cell := by
  generalize (cache.step event).2 = replies, (cache.step event).1 = next,
    moves_step cache event = moves
  cases moves with
  | @make _ known absent =>
    change (cache.renew known).slot? root = some cell
    rw [slot?_renew, if_neg, present]
    intro same
    rw [slot?_congr cache same, present] at absent
    cases absent
  | @refresh _ known =>
    change (cache.renew known).slot? root = some cell
    rw [slot?_renew, if_neg (by simpa [Event.renews] using keeps), present]
  | @invalidate known =>
    rw [slot?_forget, if_neg (by simpa [Event.renews] using keeps), present]
  | idle | take | lose | receive | begin | wait | takeOver | load | fail => exact present

end Slots

section Histories

/-- A call took its cell when it began. -/
def Took (events : List Event) (ticket : Ticket) : Prop :=
  ∃ early start late, events = early ++ start :: late ∧
    start.opening? = some (ticket.call, ticket.root) ∧
    (after (early ++ [start])).slot? ticket.root = some ticket.cell

/-- A load that ended well made the schema of a cell. -/
def Made (events : List Event) (schema cell : Nat) : Prop :=
  Event.finish schema true ∈ events ∧
    ∃ state : Cell, (after events).cells[cell]? = some state ∧ state.schema = some schema

/-- What holds of the tickets of all calls that have not returned or that ran a load. -/
structure Tickets (holds : Ticket → Prop) (cache : SchemaCache) : Prop where
  held : ∀ ticket ∈ cache.held, holds ticket
  waiting : ∀ state ∈ cache.cells, ∀ ticket ∈ state.waiting, holds ticket
  loads : ∀ ticket ∈ cache.loads, holds ticket

theorem Took.concat {ticket : Ticket} (took : Took events ticket) (event : Event) :
    Took (events ++ [event]) ticket := by
  obtain ⟨early, start, late, rfl, opens, present⟩ := took
  exact ⟨early, start, late ++ [event], by simp, opens, present⟩

theorem Made.concat {schema cell : Nat} (made : Made events schema cell) (event : Event) :
    Made (events ++ [event]) schema cell := by
  obtain ⟨finished, state, found, holds⟩ := made
  refine ⟨List.mem_append_left _ finished, ?_⟩
  rw [after_concat]
  exact schema_step (sound_after events) found holds event

namespace Tickets

variable {holds : Ticket → Prop}

theorem imp {other : Ticket → Prop} (all : cache.Tickets holds)
    (implies : ∀ ticket, holds ticket → other ticket) : cache.Tickets other where
  held ticket member := implies ticket (all.held ticket member)
  waiting state member ticket waits := implies ticket (all.waiting state member ticket waits)
  loads ticket member := implies ticket (all.loads ticket member)

theorem of_getElem? (all : cache.Tickets holds) {cell : Nat} {state : Cell}
    (found : cache.cells[cell]? = some state) : ∀ ticket ∈ state.waiting, holds ticket :=
  all.waiting state (List.mem_of_getElem? found)

theorem hold (all : cache.Tickets holds) {ticket : Ticket} (new : holds ticket) :
    (cache.hold ticket).Tickets holds where
  held := by
    intro other member
    rcases List.mem_append.mp member with before | added
    · exact all.held other before
    · rwa [List.mem_singleton.mp added]
  waiting := all.waiting
  loads := all.loads

theorem renew (all : cache.Tickets holds) (root : Path) : (cache.renew root).Tickets holds where
  held := all.held
  waiting := by
    intro state member ticket waits
    rcases List.mem_append.mp member with before | new
    · exact all.waiting state before ticket waits
    · rw [List.mem_singleton.mp new] at waits
      cases waits
  loads := all.loads

theorem forget (all : cache.Tickets holds) (root : Path) : (cache.forget root).Tickets holds :=
  ⟨all.held, all.waiting, all.loads⟩

theorem release (all : cache.Tickets holds) (call : Nat) : (cache.release call).Tickets holds :=
  ⟨fun ticket member => all.held ticket (List.mem_of_mem_eraseP member), all.waiting, all.loads⟩

theorem put (all : cache.Tickets holds) (cell : Nat) {state : Cell}
    (waits : ∀ ticket ∈ state.waiting, holds ticket) : (cache.put cell state).Tickets holds where
  held := all.held
  waiting := by
    intro other member
    rcases List.mem_or_eq_of_mem_set member with before | rfl
    · exact all.waiting other before
    · exact waits
  loads := all.loads

theorem begin (all : cache.Tickets holds) {ticket : Ticket} {state : Cell} (own : holds ticket)
    (waits : ∀ ticket ∈ state.waiting, holds ticket) :
    (cache.begin ticket state).Tickets holds := by
  have longer : ({ cache with loads := cache.loads ++ [ticket] } : SchemaCache).Tickets holds := by
    refine ⟨all.held, all.waiting, fun other member => ?_⟩
    rcases List.mem_append.mp member with before | new
    · exact all.loads other before
    · rwa [List.mem_singleton.mp new]
  exact longer.put ticket.cell waits

/-- An event adds no ticket but that of a call it begins. -/
theorem step (all : cache.Tickets holds) {event : Event}
    (begins : ∀ call root cell, event.opening? = some (call, root) →
      (cache.step event).1.slot? root = some cell → holds ⟨call, root, cell⟩) :
    (cache.step event).1.Tickets holds := by
  have here : ∀ {call : Nat} {ticket : Ticket},
      cache.held.find? (·.call == call) = some ticket → holds ticket :=
    fun held => all.held _ (List.mem_of_find?_eq_some held)
  generalize (cache.step event).2 = replies, (cache.step event).1 = next,
    moves_step cache event = moves at begins
  cases moves with
  | idle => exact all
  | take present => exact all.hold (begins _ _ _ rfl present)
  | @make call root | @refresh call root =>
    exact (all.renew root).hold (begins _ _ _ rfl (by simp [SchemaCache.hold, slot?,
      SchemaCache.renew, Path.same_refl]))
  | invalidate => exact all.forget _
  | lose | receive => exact all.release _
  | begin held found => exact (all.release _).begin (here held) (all.of_getElem? found)
  | wait held found =>
    refine (all.release _).put _ fun other member => ?_
    rcases List.mem_append.mp member with before | new
    · exact all.of_getElem? found other before
    · rw [List.mem_singleton.mp new]
      exact here held
  | takeOver found _ waits =>
    have each := all.of_getElem? found
    rw [waits] at each
    obtain ⟨own, others⟩ := List.forall_mem_cons.mp each
    exact all.begin own others
  | load => exact all.put _ (List.forall_mem_nil _)
  | fail _ found =>
    have each := all.of_getElem? found
    exact all.put _ each

end Tickets

theorem took_after (events : List Event) : (after events).Tickets (Took events) := by
  induction events using List.reverseRecOn with
  | nil => exact ⟨nofun, nofun, nofun⟩
  | append_singleton events event ih =>
    rw [after_concat]
    refine (ih.imp fun ticket took => took.concat event).step fun call root cell opens present => ?_
    exact ⟨events, event, [], by simp, opens, by rwa [after_concat]⟩

/-- What a history says of a reply: the call took a cell when it began, and the schema it was given
is that of the cell. -/
def Answered (events : List Event) (reply : Reply) : Prop :=
  ∃ ticket, Took events ticket ∧ reply = Reply.ofTicket reply.schema ticket ∧
    ∀ schema, reply.schema = some schema → Made events schema ticket.cell

theorem made_after {index schema : Nat} {state : Cell}
    (found : (after events).cells[index]? = some state) (made : state.schema = some schema) :
    Made events schema index := by
  induction events using List.reverseRecOn with
  | nil => cases found
  | append_singleton events event ih =>
    rw [after_concat] at found
    rcases schema_of_step (sound_after events) found made with before | rfl
    · exact (ih before).concat event
    · exact ⟨by simp, state, by rwa [after_concat], made⟩

/-- The calls that return with an event are given the schemas of the cells they took. -/
private theorem answered_step (events : List Event) (event : Event) {reply : Reply}
    (member : reply ∈ ((after events).step event).2) : Answered (events ++ [event]) reply := by
  have took := (took_after events).imp fun ticket took => took.concat event
  have made : ∀ {index schema : Nat} {state : Cell},
      ((after events).step event).1.cells[index]? = some state → state.schema = some schema →
        Made (events ++ [event]) schema index := by
    rw [← after_concat]
    exact made_after
  generalize ((after events).step event).2 = replies, ((after events).step event).1 = next,
    moves_step (after events) event = moves at member made
  cases moves with
  | idle | take | make | refresh | invalidate | lose | begin | wait | takeOver => cases member
  | receive held found has =>
    rw [List.mem_singleton.mp member]
    refine ⟨_, took.held _ (List.mem_of_find?_eq_some held), rfl, fun schema same => ?_⟩
    cases same
    exact made found has
  | load began found runs =>
    have sound := (sound_after events).cells _ _ found
    obtain ⟨ticket, asks, rfl⟩ := List.mem_map.mp member
    have inside := (List.getElem?_eq_some_iff.mp found).1
    have placed := made (List.getElem?_set_self inside) rfl
    rcases List.mem_cons.mp asks with rfl | waits
    · refine ⟨_, took.loads _ (List.mem_of_getElem? began), rfl, fun schema same => ?_⟩
      cases same
      exact placed
    · refine ⟨ticket, took.of_getElem? found ticket waits, rfl, fun schema same => ?_⟩
      cases same
      rw [(sound.waiting ticket waits).1]
      exact placed
  | fail began =>
    rw [List.mem_singleton.mp member]
    exact ⟨_, took.loads _ (List.mem_of_getElem? began), rfl, nofun⟩

theorem Answered.concat {reply : Reply} (answered : Answered events reply) (event : Event) :
    Answered (events ++ [event]) reply := by
  obtain ⟨ticket, took, same, made⟩ := answered
  exact ⟨ticket, took.concat event, same, fun schema given => (made schema given).concat event⟩

theorem answered_of_mem {reply : Reply} (member : reply ∈ replies events) :
    Answered events reply := by
  induction events using List.reverseRecOn with
  | nil => cases member
  | append_singleton events event ih =>
    rw [replies_concat] at member
    rcases List.mem_append.mp member with before | now
    · exact (ih before).concat event
    · exact answered_step events event now

end Histories

section Freshness

/-- What a history says of a schema that a root was given at some time in it: a load for the root
made it, and that load was begun when the root was last given up before that time or later. -/
structure Fresh (events history : List Event) (root : Path) (schema : Nat) : Prop where
  finished : Event.finish schema true ∈ events
  own : ∃ maker, (after events).loads[schema]? = some maker ∧ maker.root.same root
  begun : ∀ early event late, history = early ++ event :: late → event.renews root →
    (after early).loads.length ≤ schema

/-- The cell of a root was made when the root was last given up, or later. -/
theorem length_cells_le_slot {event : Event} (renews : event.renews root) {cell : Nat}
    (present : (after (early ++ event :: late)).slot? root = some cell) :
    (after early).cells.length ≤ cell := by
  induction late using List.reverseRecOn with
  | nil =>
    rw [after_concat] at present
    rcases slot?_step present with rfl | ⟨keeps, -⟩
    · exact Nat.le_refl _
    · cases renews.symm.trans keeps
  | append_singleton late other ih =>
    rw [← List.cons_append, ← List.append_assoc, after_concat] at present
    rcases slot?_step present with rfl | ⟨-, before⟩
    · exact length_cells_after early (event :: late)
    · exact ih before

theorem slot?_after {cell : Nat} (present : (after early).slot? root = some cell)
    (keeps : ∀ event ∈ late, event.renews root = false) :
    (after (early ++ late)).slot? root = some cell := by
  induction late using List.reverseRecOn with
  | nil => rwa [List.append_nil]
  | append_singleton late event ih =>
    rw [List.forall_mem_append, List.forall_mem_singleton] at keeps
    rw [← List.append_assoc, after_concat]
    exact slot?_step_of_keeps (ih keeps.1) keeps.2

theorem Made.maker {schema cell : Nat} (made : Made events schema cell) :
    ∃ maker, (after events).loads[schema]? = some maker ∧ maker.cell = cell := by
  obtain ⟨-, state, found, holds⟩ := made
  exact ((sound_after events).cells _ _ found).loading schema (.inl holds)

/-- The schema of a cell was made by a load that was not begun before the cell was there. -/
theorem Made.length_loads_le {schema cell : Nat} (made : Made (early ++ late) schema cell)
    (new : (after early).cells.length ≤ cell) : (after early).loads.length ≤ schema := by
  obtain ⟨maker, began, rfl⟩ := made.maker
  refine Nat.le_of_not_lt fun before => ?_
  have known := List.getElem?_eq_getElem before
  have same := (loads_after early late).getElem before
  obtain ⟨inside, rfl⟩ := List.getElem?_eq_some_iff.mp began
  rw [← same] at new
  obtain ⟨state, found, -⟩ := (sound_after early).loads _ (List.getElem_mem before)
  exact absurd (List.getElem?_eq_some_iff.mp found).1 (by omega)

/-- The schema of the cell that a root has at some time is fresh at that time. -/
theorem fresh_of_made {history : List Event} {cell schema : Nat}
    (present : (after history).slot? root = some cell)
    (made : Made (history ++ late) schema cell) : Fresh (history ++ late) history root schema where
  finished := made.1
  own := by
    obtain ⟨maker, began, rfl⟩ := made.maker
    obtain ⟨state, found, same⟩ := ((sound_after history).fits_slot present 0).after late
    have own := ((sound_after _).loads maker (List.mem_of_getElem? began)).same found
    refine ⟨maker, began, ?_⟩
    rw [Path.same_comm, ← Path.same_congr same, own]
  begun := by
    rintro early event between rfl renews
    rw [List.append_assoc] at made
    exact made.length_loads_le (length_cells_le_slot renews present)

/-- What a root is known to have at any time is fresh. -/
theorem fresh_of_cached? {schema : Nat} (cached : (after events).cached? root = some schema) :
    Fresh events events root schema := by
  obtain ⟨cell, present, cached⟩ := Option.bind_eq_some_iff.mp cached
  obtain ⟨state, found, made⟩ := Option.bind_eq_some_iff.mp cached
  have made := made_after found made
  rw [← List.append_nil events] at made ⊢
  simpa using fresh_of_made present made

/-- Whether no two events begin the same call. -/
def Distinct (events : List Event) : Prop := ((events.filterMap Event.opening?).map (·.1)).Nodup

instance (events : List Event) : Decidable (Distinct events) :=
  inferInstanceAs (Decidable (List.Nodup _))

private theorem Distinct.begins_once {between : List Event} {start other : Event} {call : Nat}
    {root known : Path} (opens : start.opening? = some (call, root))
    (reopens : other.opening? = some (call, known)) :
    ¬ Distinct (early ++ start :: (between ++ other :: late)) := by
  intro distinct
  rw [Distinct, List.filterMap_append, List.map_append, List.filterMap_cons_some opens,
    List.map_cons] at distinct
  refine (List.nodup_cons.mp (List.nodup_append.mp distinct).2.1).1 ?_
  rw [List.filterMap_append, List.filterMap_cons_some reopens]
  simp

/-- A call begins where it was said to begin, if no two events begin it. -/
theorem Distinct.split_eq {first second : List Event} {start other : Event} {call : Nat}
    {root known : Path} (distinct : Distinct (early ++ start :: late))
    (opens : start.opening? = some (call, root))
    (again : early ++ start :: late = first ++ other :: second)
    (reopens : other.opening? = some (call, known)) : early = first ∧ start = other := by
  rcases List.append_eq_append_iff.mp again with
    ⟨between, rfl, same⟩ | ⟨between, rfl, same⟩
  · cases between with
    | nil =>
      cases same
      exact ⟨(List.append_nil _).symm, rfl⟩
    | cons head between =>
      cases same
      exact absurd distinct (Distinct.begins_once opens reopens)
  · cases between with
    | nil =>
      cases same
      exact ⟨List.append_nil _, rfl⟩
    | cons head between =>
      cases same
      rw [List.append_assoc, List.cons_append] at distinct
      exact absurd distinct (Distinct.begins_once reopens opens)

/-- A call that was given a schema took the cell that its root had when the call began, and was
given the schema of that cell. -/
private theorem cell_of_reply (distinct : Distinct (early ++ start :: late))
    {call schema : Nat} {known : Path} (opens : start.opening? = some (call, known))
    (given : (⟨call, known, some schema⟩ : Reply) ∈ replies (early ++ start :: late)) :
    ∃ cell, (after (early ++ [start])).slot? known = some cell ∧
      Made (early ++ start :: late) schema cell := by
  obtain ⟨⟨_, _, cell⟩, ⟨first, other, second, again, reopens, present⟩, same, made⟩ :=
    answered_of_mem given
  cases same
  obtain ⟨rfl, rfl⟩ := distinct.split_eq opens again reopens
  exact ⟨cell, present, made schema rfl⟩

/-- What a call for a root is given is fresh when the call begins. -/
theorem fresh_of_reply {start : Event} (distinct : Distinct (early ++ start :: late))
    {call schema : Nat} {known : Path} (opens : start.opening? = some (call, known))
    (same : known.same root)
    (given : (⟨call, known, some schema⟩ : Reply) ∈ replies (early ++ start :: late)) :
    Fresh (early ++ start :: late) (early ++ [start]) root schema := by
  obtain ⟨cell, present, made⟩ := cell_of_reply distinct opens given
  rw [slot?_congr _ same] at present
  rw [List.append_cons] at made ⊢
  exact fresh_of_made present made

/-- The call that refreshed a root last is given what the root is known to have. -/
theorem cached?_of_reply {call schema : Nat} {known : Path}
    (distinct : Distinct (early ++ .refresh call known :: late)) (same : known.same root)
    (last : ∀ event ∈ late, event.renews root = false)
    (given : (⟨call, known, some schema⟩ : Reply) ∈
      replies (early ++ .refresh call known :: late)) :
    (after (early ++ .refresh call known :: late)).cached? root = some schema := by
  obtain ⟨cell, present, -, state, found, made⟩ := cell_of_reply distinct rfl given
  rw [slot?_congr _ same] at present
  have stays := slot?_after present last
  rw [← List.append_cons] at stays
  simp [cached?, stays, found, made]

/-- What a call was given that began before a root was given up is not what the root is known to
have after that. -/
theorem cached?_ne_of_reply {first : List Event} {start event : Event} {call schema : Nat}
    {known : Path} (distinct : Distinct (first ++ start :: (early ++ event :: late)))
    (opens : start.opening? = some (call, known)) (renews : event.renews root)
    (given : (⟨call, known, some schema⟩ : Reply) ∈
      replies (first ++ start :: (early ++ event :: late))) :
    (after (first ++ start :: (early ++ event :: late))).cached? root ≠ some schema := by
  intro cached
  obtain ⟨former, present, made⟩ := cell_of_reply distinct opens given
  obtain ⟨cell, stays, cached⟩ := Option.bind_eq_some_iff.mp cached
  obtain ⟨state, found, holds⟩ := Option.bind_eq_some_iff.mp cached
  obtain ⟨maker, began, rfl⟩ := made.maker
  obtain ⟨again, started, rfl⟩ := (made_after found holds).maker
  cases began.symm.trans started
  obtain ⟨old, there, -⟩ := (sound_after _).fits_slot present 0
  have before : maker.cell < (after (first ++ [start])).cells.length :=
    (List.getElem?_eq_some_iff.mp there).1
  have kept := length_cells_after (first ++ [start]) early
  rw [List.append_cons, ← List.append_assoc] at stays
  have new := length_cells_le_slot renews stays
  omega

end Freshness

/-- A schema cache never serves a stale schema, in whatever order events come. What a root is known
to have is fresh, and what a call is given was fresh when the call began. The last call that
refreshed a root determines what it is known to have, against all calls before it, whichever load
ends first. What calls for one root are given does not depend on the other roots. -/
theorem serves_fresh_schemas {events : List Event} (distinct : Distinct events) (root : Path) :
    (∀ schema, (after events).cached? root = some schema → Fresh events events root schema) ∧
      (∀ early start late call known schema, events = early ++ start :: late →
        start.opening? = some (call, known) → known.same root →
        ⟨call, known, some schema⟩ ∈ replies events →
          Fresh events (early ++ [start]) root schema) ∧
      (∀ early call known late, events = early ++ .refresh call known :: late → known.same root →
        (∀ event ∈ late, event.renews root = false) →
          (∀ schema, ⟨call, known, some schema⟩ ∈ replies events →
            (after events).cached? root = some schema) ∧
          ∀ start ∈ early, ∀ former wanted schema, start.opening? = some (former, wanted) →
            ⟨former, wanted, some schema⟩ ∈ replies events →
              (after events).cached? root ≠ some schema) ∧
      replies (ownEvents root {} events) =
        ((replies events).filter (·.root.same root)).map
          (Reply.renumber ((after events).loadRank root)) ∧
      (after (ownEvents root {} events)).cached? root =
        ((after events).cached? root).map ((after events).loadRank root) := by
  obtain ⟨alone, returned⟩ := after_ownEvents root events
  refine ⟨fun schema => fresh_of_cached?, ?_, ?_, returned, ?_⟩
  · rintro early start late call known schema rfl opens same given
    exact fresh_of_reply distinct opens same given
  · rintro early call known late rfl same last
    refine ⟨fun schema => cached?_of_reply distinct same last, ?_⟩
    intro start before former wanted schema opens given
    obtain ⟨first, between, rfl⟩ := List.append_of_mem before
    rw [List.append_assoc, List.cons_append] at distinct given ⊢
    exact cached?_ne_of_reply distinct opens same given
  · rw [alone, cached?_only (sound_after events)]

/-- Two calls that refresh one root while a call for another root comes between them: the load of
the second ends first, and that of the first does not replace what it made. -/
def overlappingRefreshes : List Event :=
  [.refresh 0 ⟨['a']⟩, .ask 0, .get 1 ⟨['b']⟩, .refresh 2 ⟨['a', '/']⟩, .ask 1, .ask 2,
    .finish 2 true, .finish 0 true, .finish 1 true]

theorem serves_fresh_schemas_of_overlap :
    Distinct overlappingRefreshes ∧
      (after overlappingRefreshes).cached? ⟨['a']⟩ = some 2 ∧
      Fresh overlappingRefreshes overlappingRefreshes ⟨['a']⟩ 2 ∧
      replies (ownEvents ⟨['a']⟩ {} overlappingRefreshes) =
        [⟨2, ⟨['a', '/']⟩, some 1⟩, ⟨0, ⟨['a']⟩, some 0⟩] := by
  have distinct : Distinct overlappingRefreshes := by decide
  have cached : (after overlappingRefreshes).cached? ⟨['a']⟩ = some 2 := by decide
  obtain ⟨known, -, -, alone, -⟩ := serves_fresh_schemas distinct ⟨['a']⟩
  exact ⟨distinct, cached, known 2 cached, alone.trans (by decide)⟩

end RelayWorkbench.Workspace.SchemaCache
