import Mathlib
import RelayWorkbench.Workspace.SchemaCache

/-! Runs of a schema cache. `Moves` lists what one event can do; a cache that was reached by events
is sound: whatever names a cell or a load names one of the right root. -/

namespace RelayWorkbench

namespace Path

theorem same_iff {first second : Path} :
    first.same second ↔ first.components = second.components := by
  simp [same]

theorem same_refl (path : Path) : path.same path := same_iff.mpr rfl

theorem same_comm (first second : Path) : first.same second = second.same first := by
  rw [Bool.eq_iff_iff, same_iff, same_iff, eq_comm]

theorem same_congr {first second : Path} (same : first.same second) (other : Path) :
    first.same other = second.same other := by
  rw [Bool.eq_iff_iff, same_iff, same_iff, same_iff.mp same]

end Path

namespace Workspace

private theorem getElem?_append_of_some {α : Type} {list : List α} {index : Nat} {item : α}
    (found : list[index]? = some item) (more : List α) : (list ++ more)[index]? = some item := by
  rw [List.getElem?_append_left (List.getElem?_eq_some_iff.mp found).1, found]

theorem cases_of_getElem?_concat {α : Type} {list : List α} {last item : α} {index : Nat}
    (found : (list ++ [last])[index]? = some item) :
    list[index]? = some item ∨ index = list.length ∧ item = last := by
  rcases Nat.lt_or_ge index list.length with before | new
  · exact .inl ((List.getElem?_append_left before).symm.trans found)
  · rw [List.getElem?_append_right new, List.getElem?_singleton] at found
    split at found
    · next first =>
      cases found
      exact .inr ⟨by omega, rfl⟩
    · cases found

/-- What a cell names is its own: the calls that wait for it, and the load that runs or ran for
it. -/
structure Cell.Sound (loads : List Ticket) (index : Nat) (state : Cell) : Prop where
  waiting : ∀ ticket ∈ state.waiting, ticket.cell = index ∧ state.root.same ticket.root
  loading : ∀ load, state.schema = some load ∨ state.running = some load →
    ∃ ticket, loads[load]? = some ticket ∧ ticket.cell = index
  full : state.schema.isSome → state.waiting = [] ∧ state.running = none

theorem Cell.Sound.more {loads : List Ticket} {index : Nat} {state : Cell}
    (sound : state.Sound loads index) (more : List Ticket) :
    state.Sound (loads ++ more) index where
  waiting := sound.waiting
  loading load named := by
    obtain ⟨ticket, began, own⟩ := sound.loading load named
    exact ⟨ticket, getElem?_append_of_some began more, own⟩
  full := sound.full

/-- A cell that calls wait for, or that a load runs for, has no schema. -/
theorem Cell.Sound.empty_of_busy {loads : List Ticket} {index : Nat} {state : Cell}
    (sound : state.Sound loads index) (busy : state.waiting = [] → state.running ≠ none) :
    state.schema = none := by
  apply Option.not_isSome_iff_eq_none.mp
  intro made
  obtain ⟨alone, idle⟩ := sound.full made
  exact busy alone idle

theorem Cell.Sound.empty_of_running {loads : List Ticket} {index load : Nat} {state : Cell}
    (sound : state.Sound loads index) (runs : state.running = some load) : state.schema = none :=
  sound.empty_of_busy fun _ => by simp [runs]

/-- The call that waits first waits for the cell, which has no schema. -/
theorem Cell.Sound.first_waiting {loads waiting : List Ticket} {index : Nat} {state : Cell}
    {ticket : Ticket} (sound : state.Sound loads index)
    (waits : state.waiting = ticket :: waiting) :
    ticket.cell = index ∧ state.root.same ticket.root ∧ state.schema = none := by
  have first : ticket ∈ state.waiting := by simp [waits]
  obtain ⟨here, same⟩ := sound.waiting ticket first
  exact ⟨here, same, sound.empty_of_busy (by simp [waits])⟩

namespace SchemaCache

theorem run_append (cache : SchemaCache) (front back : List Event) :
    cache.run (front ++ back) =
      (((cache.run front).1.run back).1,
        (cache.run front).2 ++ ((cache.run front).1.run back).2) := by
  induction front generalizing cache with
  | nil => rfl
  | cons event rest ih => simp only [List.cons_append, run, ih, List.append_assoc]

/-- The cache after events, from the start. -/
def after (events : List Event) : SchemaCache := (run {} events).1

/-- The calls that returned with events, from the start. -/
def replies (events : List Event) : List Reply := (run {} events).2

theorem after_concat (events : List Event) (event : Event) :
    after (events ++ [event]) = ((after events).step event).1 := by
  simp [after, run_append, run]

theorem replies_concat (events : List Event) (event : Event) :
    replies (events ++ [event]) = replies events ++ ((after events).step event).2 := by
  simp [after, replies, run_append, run]

/-- The call that an event begins, and the root it is for. -/
def Event.opening? : Event → Option (Nat × Path)
  | .get call root | .refresh call root => some (call, root)
  | _ => none

/-- Whether an event gives up the present cell of a root. -/
def Event.renews (root : Path) : Event → Bool
  | .refresh _ known | .invalidate known => known.same root
  | _ => false

/-- What an event does to a cache, and the calls that return with it. -/
inductive Moves (cache : SchemaCache) : Event → SchemaCache → List Reply → Prop where
  | idle {event : Event} (opens : event.opening? = none)
      (keeps : ∀ root, event.renews root = false) : Moves cache event cache []
  | take {call : Nat} {root : Path} {cell : Nat} (present : cache.slot? root = some cell) :
      Moves cache (.get call root) (cache.hold ⟨call, root, cell⟩) []
  | make {call : Nat} {root : Path} (absent : cache.slot? root = none) :
      Moves cache (.get call root) ((cache.renew root).hold ⟨call, root, cache.cells.length⟩) []
  | refresh {call : Nat} {root : Path} :
      Moves cache (.refresh call root)
        ((cache.renew root).hold ⟨call, root, cache.cells.length⟩) []
  | invalidate {root : Path} : Moves cache (.invalidate root) (cache.forget root) []
  | lose {call : Nat} {ticket : Ticket} (held : cache.held.find? (·.call == call) = some ticket)
      (lost : cache.cells[ticket.cell]? = none) : Moves cache (.ask call) (cache.release call) []
  | receive {call schema : Nat} {ticket : Ticket} {state : Cell}
      (held : cache.held.find? (·.call == call) = some ticket)
      (found : cache.cells[ticket.cell]? = some state) (made : state.schema = some schema) :
      Moves cache (.ask call) (cache.release call) [Reply.ofTicket (some schema) ticket]
  | begin {call : Nat} {ticket : Ticket} {state : Cell}
      (held : cache.held.find? (·.call == call) = some ticket)
      (found : cache.cells[ticket.cell]? = some state) (empty : state.schema = none)
      (free : state.isFree) : Moves cache (.ask call) ((cache.release call).begin ticket state) []
  | wait {call : Nat} {ticket : Ticket} {state : Cell}
      (held : cache.held.find? (·.call == call) = some ticket)
      (found : cache.cells[ticket.cell]? = some state) (empty : state.schema = none)
      (busy : ¬ state.isFree) :
      Moves cache (.ask call)
        ((cache.release call).put ticket.cell
          { state with waiting := state.waiting ++ [ticket] }) []
  | takeOver {cell : Nat} {state : Cell} {ticket : Ticket} {waiting : List Ticket}
      (found : cache.cells[cell]? = some state) (idle : state.running = none)
      (waits : state.waiting = ticket :: waiting) :
      Moves cache (.takeOver cell) (cache.begin ticket { state with waiting }) []
  | load {load : Nat} {ticket : Ticket} {state : Cell}
      (began : cache.loads[load]? = some ticket) (found : cache.cells[ticket.cell]? = some state)
      (runs : state.running = some load) :
      Moves cache (.finish load true)
        (cache.put ticket.cell { root := state.root, schema := some load })
        ((ticket :: state.waiting).map (Reply.ofTicket (some load)))
  | fail {load : Nat} {ticket : Ticket} {state : Cell}
      (began : cache.loads[load]? = some ticket) (found : cache.cells[ticket.cell]? = some state)
      (runs : state.running = some load) :
      Moves cache (.finish load false) (cache.put ticket.cell { state with running := none })
        [Reply.ofTicket none ticket]

private theorem moves_join {cache : SchemaCache} {call : Nat} {ticket : Ticket}
    (held : cache.held.find? (·.call == call) = some ticket) :
    Moves cache (.ask call) ((cache.release call).join ticket).1
      ((cache.release call).join ticket).2 := by
  simp only [join]
  split
  · next lost => exact .lose held lost
  · next state found =>
    split
    · next schema made => exact .receive held found made
    · next empty =>
      split
      · next free => exact .begin held found empty free
      · next busy => exact .wait held found empty busy

private theorem moves_finishIn {cache : SchemaCache} {load : Nat} {ticket : Ticket} {state : Cell}
    (began : cache.loads[load]? = some ticket) (found : cache.cells[ticket.cell]? = some state)
    (runs : state.running = some load) (succeeds : Bool) :
    Moves cache (.finish load succeeds) (cache.finishIn ticket load state succeeds).1
      (cache.finishIn ticket load state succeeds).2 := by
  cases succeeds with
  | true => exact .load began found runs
  | false => exact .fail began found runs

theorem moves_step (cache : SchemaCache) (event : Event) :
    Moves cache event (cache.step event).1 (cache.step event).2 := by
  cases event with
  | get call root =>
    simp only [step]
    split
    · next cell present => exact .take present
    · next absent => exact .make absent
  | refresh call root => exact .refresh
  | invalidate root => exact .invalidate
  | ask call =>
    simp only [step]
    split
    · exact .idle rfl fun _ => rfl
    · next ticket held => exact moves_join held
  | takeOver cell =>
    simp only [step]
    split
    · exact .idle rfl fun _ => rfl
    · next state found =>
      split
      · next ticket waiting idle waits => exact .takeOver found idle waits
      · exact .idle rfl fun _ => rfl
  | finish load succeeds =>
    simp only [step]
    split
    · exact .idle rfl fun _ => rfl
    · next ticket began =>
      split
      · exact .idle rfl fun _ => rfl
      · next state found =>
        split
        · next runs => exact moves_finishIn began found runs succeeds
        · exact .idle rfl fun _ => rfl

/-- A ticket names a cell of its root. -/
def Fits (cache : SchemaCache) (ticket : Ticket) : Prop :=
  ∃ state, cache.cells[ticket.cell]? = some state ∧ state.root.same ticket.root

/-- What a cache names is there: each root and each ticket has a cell of its own. -/
structure Sound (cache : SchemaCache) : Prop where
  slots : ∀ slot ∈ cache.slots, ∃ state, cache.cells[slot.2]? = some state ∧ state.root = slot.1
  held : ∀ ticket ∈ cache.held, cache.Fits ticket
  loads : ∀ ticket ∈ cache.loads, cache.Fits ticket
  cells : ∀ (index : Nat) (state : Cell), cache.cells[index]? = some state →
    state.Sound cache.loads index

/-- Cells stay where they are and belong to the root they were made for. -/
def Keeps (cache next : SchemaCache) : Prop :=
  ∀ (index : Nat) (state : Cell), cache.cells[index]? = some state →
    ∃ later : Cell, next.cells[index]? = some later ∧ later.root = state.root

theorem Fits.same {cache : SchemaCache} {ticket : Ticket} {state : Cell}
    (fits : cache.Fits ticket) (found : cache.cells[ticket.cell]? = some state) :
    state.root.same ticket.root := by
  obtain ⟨other, there, same⟩ := fits
  cases found.symm.trans there
  exact same

theorem Fits.keep {cache next : SchemaCache} {ticket : Ticket} (fits : cache.Fits ticket)
    (keeps : cache.Keeps next) : next.Fits ticket := by
  obtain ⟨state, found, own⟩ := fits
  obtain ⟨later, stays, same⟩ := keeps _ _ found
  exact ⟨later, stays, same ▸ own⟩

variable {cache : SchemaCache}

theorem keeps_put {cell : Nat} {former state : Cell} (found : cache.cells[cell]? = some former)
    (own : state.root = former.root) : cache.Keeps (cache.put cell state) := by
  intro index other there
  by_cases here : cell = index
  · subst here
    obtain rfl : former = other := Option.some.inj (found.symm.trans there)
    have inside := (List.getElem?_eq_some_iff.mp found).1
    exact ⟨state, by simp [put, inside], own⟩
  · exact ⟨other, by simpa [put, here] using there, rfl⟩

theorem keeps_renew (root : Path) : cache.Keeps (cache.renew root) :=
  fun _ state there => ⟨state, getElem?_append_of_some there _, rfl⟩

theorem Sound.fits_slot (sound : cache.Sound) {root : Path} {cell : Nat}
    (present : cache.slot? root = some cell) (call : Nat) : cache.Fits ⟨call, root, cell⟩ := by
  obtain ⟨⟨known, index⟩, found, rfl⟩ := Option.map_eq_some_iff.mp present
  have same : known.same root := by simpa using List.find?_some found
  obtain ⟨state, there, rfl⟩ := sound.slots _ (List.mem_of_find?_eq_some found)
  exact ⟨state, there, same⟩

theorem Sound.hold (sound : cache.Sound) {ticket : Ticket} (fits : cache.Fits ticket) :
    (cache.hold ticket).Sound where
  slots := sound.slots
  held := by
    intro other member
    rcases List.mem_append.mp member with before | new
    · exact sound.held other before
    · rw [List.mem_singleton.mp new]
      exact fits
  loads := sound.loads
  cells := sound.cells

theorem Sound.forget (sound : cache.Sound) (root : Path) : (cache.forget root).Sound where
  slots slot member := sound.slots slot (List.mem_filter.mp member).1
  held := sound.held
  loads := sound.loads
  cells := sound.cells

theorem Sound.renew (sound : cache.Sound) (root : Path) : (cache.renew root).Sound where
  slots := by
    intro slot member
    rcases List.mem_cons.mp member with rfl | before
    · exact ⟨{ root }, by simp [SchemaCache.renew], rfl⟩
    · obtain ⟨state, there, own⟩ := (sound.forget root).slots slot before
      exact ⟨state, getElem?_append_of_some there _, own⟩
  held ticket member := (sound.held ticket member).keep (keeps_renew root)
  loads ticket member := (sound.loads ticket member).keep (keeps_renew root)
  cells := by
    intro index state there
    rcases cases_of_getElem?_concat there with before | ⟨-, rfl⟩
    · exact sound.cells index state before
    · exact ⟨nofun, by simp, by simp⟩

theorem Sound.release (sound : cache.Sound) (call : Nat) : (cache.release call).Sound where
  slots := sound.slots
  held ticket member := sound.held ticket (List.mem_of_mem_eraseP member)
  loads := sound.loads
  cells := sound.cells

theorem Sound.put (sound : cache.Sound) {cell : Nat} {former state : Cell}
    (found : cache.cells[cell]? = some former) (own : state.root = former.root)
    (holds : state.Sound cache.loads cell) : (cache.put cell state).Sound where
  slots := by
    intro slot member
    obtain ⟨other, there, same⟩ := sound.slots slot member
    obtain ⟨later, stays, keeps⟩ := keeps_put found own _ _ there
    exact ⟨later, stays, keeps.trans same⟩
  held ticket member := (sound.held ticket member).keep (keeps_put found own)
  loads ticket member := (sound.loads ticket member).keep (keeps_put found own)
  cells := by
    intro index other there
    by_cases here : cell = index
    · subst here
      have inside := (List.getElem?_eq_some_iff.mp found).1
      obtain rfl : state = other := by simpa [SchemaCache.put, inside] using there
      exact holds
    · exact sound.cells index other (by simpa [SchemaCache.put, here] using there)

theorem Sound.begin (sound : cache.Sound) {ticket : Ticket} {former state : Cell}
    (found : cache.cells[ticket.cell]? = some former) (own : state.root = former.root)
    (same : former.root.same ticket.root) (empty : state.schema = none)
    (waiting : ∀ other ∈ state.waiting, other.cell = ticket.cell ∧ state.root.same other.root) :
    (cache.begin ticket state).Sound := by
  have longer : ({ cache with loads := cache.loads ++ [ticket] } : SchemaCache).Sound := {
    slots := sound.slots
    held := sound.held
    loads := by
      intro other member
      rcases List.mem_append.mp member with before | new
      · exact sound.loads other before
      · rw [List.mem_singleton.mp new]
        exact ⟨former, found, same⟩
    cells := fun index state there => (sound.cells index state there).more [ticket] }
  refine longer.put found own ⟨waiting, ?_, by simp [empty]⟩
  rintro load (made | runs)
  · cases empty.symm.trans made
  · cases runs
    exact ⟨ticket, by simp, rfl⟩

theorem Sound.step (sound : cache.Sound) (event : Event) : (cache.step event).1.Sound := by
  generalize (cache.step event).2 = replies, (cache.step event).1 = next,
    moves_step cache event = moves
  cases moves with
  | idle => exact sound
  | take present => exact sound.hold (sound.fits_slot present _)
  | @make _ root | @refresh _ root =>
    exact (sound.renew root).hold ⟨{ root }, by simp [SchemaCache.renew], Path.same_refl root⟩
  | invalidate => exact sound.forget _
  | lose | receive => exact sound.release _
  | begin held found empty free =>
    have same := (sound.held _ (List.mem_of_find?_eq_some held)).same found
    exact (sound.release _).begin found rfl same empty (sound.cells _ _ found).waiting
  | wait held found empty busy =>
    have same := (sound.held _ (List.mem_of_find?_eq_some held)).same found
    have former := sound.cells _ _ found
    refine (sound.release _).put found rfl ⟨?_, former.loading, by simp [empty]⟩
    intro other member
    rcases List.mem_append.mp member with before | new
    · exact former.waiting other before
    · rw [List.mem_singleton.mp new]
      exact ⟨rfl, same⟩
  | takeOver found idle waits =>
    have former := sound.cells _ _ found
    obtain ⟨rfl, same, empty⟩ := former.first_waiting waits
    refine sound.begin found rfl same empty fun other member => former.waiting other ?_
    rw [waits]
    exact List.mem_cons_of_mem _ member
  | load began found runs =>
    have former := sound.cells _ _ found
    refine sound.put found rfl ⟨nofun, ?_, fun _ => ⟨rfl, rfl⟩⟩
    rintro load (made | again)
    · cases made
      exact former.loading _ (.inr runs)
    · cases again
  | fail began found runs =>
    have former := sound.cells _ _ found
    refine sound.put found rfl ⟨former.waiting, ?_, fun made => ⟨(former.full made).1, rfl⟩⟩
    rintro load (made | again)
    · exact former.loading _ (.inl made)
    · cases again

theorem sound_after (events : List Event) : (after events).Sound := by
  induction events using List.reverseRecOn with
  | nil => exact ⟨nofun, nofun, nofun, nofun⟩
  | append_singleton events event ih =>
    rw [after_concat]
    exact ih.step event

section Growth

variable {early : List Event}

theorem length_cells_step (cache : SchemaCache) (event : Event) :
    cache.cells.length ≤ (cache.step event).1.cells.length := by
  generalize (cache.step event).2 = replies, (cache.step event).1 = next,
    moves_step cache event = moves
  cases moves <;> simp [hold, renew, forget, release, begin, put]

theorem loads_step (cache : SchemaCache) (event : Event) :
    cache.loads <+: (cache.step event).1.loads := by
  generalize (cache.step event).2 = replies, (cache.step event).1 = next,
    moves_step cache event = moves
  cases moves with
  | begin | takeOver => exact List.prefix_append ..
  | idle | take | make | refresh | invalidate | lose | receive | wait | load | fail =>
    exact List.prefix_refl _

theorem length_cells_after (early late : List Event) :
    (after early).cells.length ≤ (after (early ++ late)).cells.length := by
  induction late using List.reverseRecOn with
  | nil => simp
  | append_singleton late event ih =>
    rw [← List.append_assoc, after_concat]
    exact Nat.le_trans ih (length_cells_step _ event)

theorem loads_after (early late : List Event) :
    (after early).loads <+: (after (early ++ late)).loads := by
  induction late using List.reverseRecOn with
  | nil => simp
  | append_singleton late event ih =>
    rw [← List.append_assoc, after_concat]
    exact ih.trans (loads_step _ event)

/-- The cells after an event: one is new, or one without a schema is in another state. -/
theorem cells_step (sound : cache.Sound) (event : Event) :
    (cache.step event).1.cells = cache.cells ∨
      (∃ root : Path, (cache.step event).1.cells = cache.cells ++ [({ root } : Cell)]) ∨
      ∃ (cell : Nat) (former state : Cell), cache.cells[cell]? = some former ∧
        former.schema = none ∧ (cache.step event).1.cells = cache.cells.set cell state ∧
        state.root = former.root ∧
        ∀ schema, state.schema = some schema → event = .finish schema true := by
  generalize (cache.step event).2 = replies, (cache.step event).1 = next,
    moves_step cache event = moves
  cases moves with
  | idle | take | invalidate | lose | receive => exact .inl rfl
  | @make _ root | @refresh _ root => exact .inr (.inl ⟨root, rfl⟩)
  | begin _ found empty | wait _ found empty =>
    exact .inr (.inr ⟨_, _, _, found, empty, rfl, rfl, by simp [empty]⟩)
  | takeOver found _ waits =>
    obtain ⟨rfl, -, none⟩ := (sound.cells _ _ found).first_waiting waits
    exact .inr (.inr ⟨_, _, _, found, none, rfl, rfl, by simp [none]⟩)
  | load _ found runs =>
    have none := (sound.cells _ _ found).empty_of_running runs
    exact .inr (.inr ⟨_, _, _, found, none, rfl, rfl, by simp⟩)
  | fail _ found runs =>
    have none := (sound.cells _ _ found).empty_of_running runs
    exact .inr (.inr ⟨_, _, _, found, none, rfl, rfl, by simp [none]⟩)

theorem keeps_step (sound : cache.Sound) (event : Event) :
    cache.Keeps (cache.step event).1 := by
  rcases cells_step sound event with
    same | ⟨root, added⟩ | ⟨cell, former, next, there, -, put, own, -⟩
  · exact fun index state found => ⟨state, same ▸ found, rfl⟩
  · intro index state found
    rw [added]
    exact ⟨state, getElem?_append_of_some found _, rfl⟩
  · intro index state found
    rw [put]
    exact keeps_put there own index state found

theorem Fits.after {ticket : Ticket} (fits : (after early).Fits ticket) (late : List Event) :
    (after (early ++ late)).Fits ticket := by
  induction late using List.reverseRecOn with
  | nil => rwa [List.append_nil]
  | append_singleton late event ih =>
    rw [← List.append_assoc, after_concat]
    exact ih.keep (keeps_step (sound_after _) event)

/-- A cell is set once: its schema stays. -/
theorem schema_step (sound : cache.Sound) {index schema : Nat} {state : Cell}
    (found : cache.cells[index]? = some state) (made : state.schema = some schema) (event : Event) :
    ∃ later : Cell, (cache.step event).1.cells[index]? = some later ∧
      later.schema = some schema := by
  rcases cells_step sound event with
    same | ⟨root, added⟩ | ⟨cell, former, next, there, none, put, -, -⟩
  · exact ⟨state, same ▸ found, made⟩
  · rw [added]
    exact ⟨state, getElem?_append_of_some found _, made⟩
  · have apart : cell ≠ index := by
      rintro rfl
      cases Option.some.inj (there.symm.trans found)
      cases made.symm.trans none
    exact ⟨state, by rw [put, List.getElem?_set_ne apart, found], made⟩

/-- A load begins for an empty cell for which none runs, and for the call that came first. -/
theorem begins_in_turn (sound : cache.Sound) {event : Event} {ticket : Ticket}
    (begins : (cache.step event).1.loads = cache.loads ++ [ticket]) :
    ∃ state, cache.cells[ticket.cell]? = some state ∧ state.schema = none ∧ state.running = none ∧
      ∀ first waiting, state.waiting = first :: waiting → first = ticket := by
  generalize (cache.step event).2 = replies, (cache.step event).1 = next,
    moves_step cache event = moves at begins
  cases moves with
  | idle | take | make | refresh | invalidate | lose | receive | wait | load | fail =>
    cases List.self_eq_append_right.mp begins
  | @begin _ _ state _ found empty free =>
    obtain rfl := List.singleton_inj.mp (List.append_cancel_left begins)
    obtain ⟨idle, alone⟩ := Bool.and_eq_true_iff.mp free
    refine ⟨state, found, empty, Option.isNone_iff_eq_none.mp idle, fun first waiting waits => ?_⟩
    rw [List.isEmpty_iff.mp alone] at waits
    cases waits
  | @takeOver _ state _ _ found idle waits =>
    obtain rfl := List.singleton_inj.mp (List.append_cancel_left begins)
    obtain ⟨rfl, -, empty⟩ := (sound.cells _ _ found).first_waiting waits
    exact ⟨state, found, empty, idle, fun first waiting again =>
      (List.cons_eq_cons.mp (again.symm.trans waits)).1⟩

/-- A schema that a cell has after an event was there before, or the event made it. -/
theorem schema_of_step (sound : cache.Sound) {index schema : Nat} {later : Cell} {event : Event}
    (found : (cache.step event).1.cells[index]? = some later)
    (made : later.schema = some schema) :
    cache.cells[index]? = some later ∨ event = .finish schema true := by
  rcases cells_step sound event with
    same | ⟨root, added⟩ | ⟨cell, former, next, there, -, put, -, ends⟩
  · exact .inl (same ▸ found)
  · rw [added] at found
    rcases cases_of_getElem?_concat found with before | ⟨-, rfl⟩
    · exact .inl before
    · cases made
  · rw [put] at found
    by_cases here : cell = index
    · subst here
      rw [List.getElem?_set_self (List.getElem?_eq_some_iff.mp there).1] at found
      cases found
      exact .inr (ends schema made)
    · rw [List.getElem?_set_ne here] at found
      exact .inl found

end Growth

end SchemaCache

end Workspace

end RelayWorkbench
