import RelayWorkbench.Proofs.Workspace.FreshSchemas

/-! Histories of loads. A load runs from the event that begins it to the one that ends it. The loads
for a cell come one after the other, and all but the last have failed: what a cell holds, or what
runs for it, tells how its last load fared. -/

namespace RelayWorkbench.Workspace.SchemaCache

variable {events : List Event} {event : Event} {load : Nat}

section Loads

/-- A load runs: an event began it, and none since has ended it. -/
def Runs (events : List Event) (load : Nat) : Prop :=
  ∃ early start late, events = early ++ start :: late ∧ (after early).loads.length = load ∧
    load < (after (early ++ [start])).loads.length ∧ ∀ succeeds, .finish load succeeds ∉ late

/-- A load that ran has ended, with a schema or without. -/
def Ended (events : List Event) (load : Nat) (succeeds : Bool) : Prop :=
  ∃ early late, events = early ++ .finish load succeeds :: late ∧ Runs early load

theorem Runs.lt_length (runs : Runs events load) : load < (after events).loads.length := by
  obtain ⟨early, start, late, rfl, -, began, -⟩ := runs
  rw [List.append_cons]
  exact Nat.lt_of_lt_of_le began (loads_after _ late).length_le

theorem Runs.concat (runs : Runs events load)
    (goesOn : ∀ succeeds, event ≠ .finish load succeeds) : Runs (events ++ [event]) load := by
  obtain ⟨early, start, late, rfl, first, began, still⟩ := runs
  refine ⟨early, start, late ++ [event], by simp, first, began, fun succeeds => ?_⟩
  simpa [still succeeds] using (goesOn succeeds).symm

theorem runs_of_begins {ticket : Ticket}
    (begins : ((after events).step event).1.loads = (after events).loads ++ [ticket]) :
    Runs (events ++ [event]) (after events).loads.length := by
  refine ⟨events, event, [], rfl, rfl, ?_, fun _ => List.not_mem_nil⟩
  rw [after_concat, begins]
  simp

theorem Ended.concat {succeeds : Bool} (ended : Ended events load succeeds) (event : Event) :
    Ended (events ++ [event]) load succeeds := by
  obtain ⟨early, late, rfl, ran⟩ := ended
  exact ⟨early, late ++ [event], by simp, ran⟩

theorem Runs.not_ended (runs : Runs events load) {succeeds : Bool} :
    ¬ Ended events load succeeds := by
  obtain ⟨early, start, late, rfl, first, -, still⟩ := runs
  rintro ⟨front, back, split, ran⟩
  have begun := ran.lt_length
  rcases List.append_eq_append_iff.mp split with ⟨between, rfl, same⟩ | ⟨between, rfl, -⟩
  · cases between with
    | nil =>
      rw [List.append_nil] at begun
      omega
    | cons head between =>
      cases same
      exact still succeeds (by simp)
  · have fewer := (loads_after front between).length_le
    omega

theorem Ended.unique {first second : Bool} (ended : Ended events load first)
    (again : Ended events load second) : first = second := by
  obtain ⟨early, late, rfl, ran⟩ := ended
  obtain ⟨front, back, split, ranAgain⟩ := again
  rcases List.append_eq_append_iff.mp split with ⟨between, rfl, same⟩ | ⟨between, rfl, same⟩
  · cases between with
    | nil => cases same; rfl
    | cons head between =>
      cases same
      exact absurd ⟨early, between, rfl, ran⟩ ranAgain.not_ended
  · cases between with
    | nil => cases same; rfl
    | cons head between =>
      cases same
      exact absurd ⟨front, between, rfl, ranAgain⟩ ran.not_ended

end Loads

section Cells

variable {cache next : SchemaCache} {index : Nat} {later : Cell}

/-- What an event does to a cell and to the loads for it. -/
inductive CellMoves (cache next : SchemaCache) (event : Event) (index : Nat) (later : Cell) :
    Prop where
  | stays {state : Cell} (found : cache.cells[index]? = some state)
      (running : later.running = state.running) (schema : later.schema = state.schema)
      (own : ∀ (load : Nat) (ticket : Ticket), next.loads[load]? = some ticket →
        ticket.cell = index → cache.loads[load]? = some ticket)
  | opens (new : cache.cells.length = index) (loads : next.loads = cache.loads)
      (idle : later.running = none) (empty : later.schema = none)
  | begins {state : Cell} {ticket : Ticket} (found : cache.cells[index]? = some state)
      (idle : state.running = none) (empty : state.schema = none) (own : ticket.cell = index)
      (loads : next.loads = cache.loads ++ [ticket])
      (running : later.running = some cache.loads.length) (schema : later.schema = none)
  | ends {state : Cell} {load : Nat} {succeeds : Bool} (found : cache.cells[index]? = some state)
      (finish : event = .finish load succeeds) (ran : state.running = some load)
      (loads : next.loads = cache.loads) (idle : later.running = none)
      (schema : later.schema = if succeeds then some load else none)

private theorem cellMoves_same (loads : next.loads = cache.loads)
    (found : cache.cells[index]? = some later) : CellMoves cache next event index later :=
  .stays found rfl rfl fun _ _ began _ => by rwa [loads] at began

/-- A cell that an event puts in another state, and the cells that it leaves alone. -/
private theorem cellMoves_put {cell : Nat} {former state : Cell}
    (there : cache.cells[cell]? = some former)
    (put : next.cells = cache.cells.set cell state) (found : next.cells[index]? = some later)
    (elsewhere : index ≠ cell → ∀ (load : Nat) (ticket : Ticket), next.loads[load]? = some ticket →
      ticket.cell = index → cache.loads[load]? = some ticket)
    (here : CellMoves cache next event cell state) : CellMoves cache next event index later := by
  rw [put] at found
  by_cases same : cell = index
  · subst same
    rw [List.getElem?_set_self (List.getElem?_eq_some_iff.mp there).1] at found
    cases found
    exact here
  · rw [List.getElem?_set_ne same] at found
    exact .stays found rfl rfl (elsewhere (Ne.symm same))

private theorem cellMoves_renew {root : Path} (loads : next.loads = cache.loads)
    (found : (cache.renew root).cells[index]? = some later) :
    CellMoves cache next event index later := by
  rcases cases_of_getElem?_concat found with before | ⟨new, rfl⟩
  · exact cellMoves_same loads before
  · exact .opens new.symm loads rfl rfl

private theorem cellMoves_begin {ticket : Ticket} {former : Cell} (state : Cell)
    (there : cache.cells[ticket.cell]? = some former) (idle : former.running = none)
    (empty : former.schema = none) (same : state.schema = former.schema)
    (cells : next.cells = cache.cells.set ticket.cell
      { state with running := some cache.loads.length })
    (loads : next.loads = cache.loads ++ [ticket])
    (found : next.cells[index]? = some later) : CellMoves cache next event index later := by
  apply cellMoves_put there cells found
  · intro apart load other began own
    rw [loads] at began
    rcases cases_of_getElem?_concat began with before | ⟨-, rfl⟩
    · exact before
    · exact absurd own.symm apart
  · exact .begins there idle empty rfl loads rfl (same.trans empty)

theorem cellMoves_step (sound : cache.Sound) (event : Event)
    (found : (cache.step event).1.cells[index]? = some later) :
    CellMoves cache (cache.step event).1 event index later := by
  generalize (cache.step event).2 = replies, (cache.step event).1 = next,
    moves_step cache event = moves at found
  cases moves with
  | idle | take | invalidate | lose | receive => exact cellMoves_same rfl found
  | make | refresh => exact cellMoves_renew rfl found
  | @begin _ _ state _ there empty free =>
    have idle := Option.isNone_iff_eq_none.mp (Bool.and_eq_true_iff.mp free).1
    exact cellMoves_begin state there idle empty rfl rfl rfl found
  | wait _ there =>
    exact cellMoves_put there rfl found (fun _ _ _ began _ => began)
      (.stays there rfl rfl fun _ _ began _ => began)
  | @takeOver _ state _ waiting there idle waits =>
    obtain ⟨rfl, -, empty⟩ := (sound.cells _ _ there).first_waiting waits
    exact cellMoves_begin { state with waiting } there idle empty rfl rfl rfl found
  | load _ there runs =>
    exact cellMoves_put there rfl found (fun _ _ _ began _ => began)
      (.ends there rfl runs rfl rfl rfl)
  | fail _ there runs =>
    have empty := (sound.cells _ _ there).empty_of_running runs
    exact cellMoves_put there rfl found (fun _ _ _ began _ => began)
      (.ends there rfl runs rfl rfl empty)

/-- A load that runs ends when it is told to. -/
theorem step_finish (sound : cache.Sound) {state : Cell} (found : cache.cells[index]? = some state)
    (runs : state.running = some load) (succeeds : Bool) :
    ∃ ticket, cache.loads[load]? = some ticket ∧ ticket.cell = index ∧
      cache.step (.finish load succeeds) = cache.finishIn ticket load state succeeds := by
  obtain ⟨ticket, began, rfl⟩ := (sound.cells _ _ found).loading load (.inr runs)
  exact ⟨ticket, began, rfl, by simp [step, began, found, runs]⟩

/-- A load that ended runs for no cell. -/
theorem running_step_ne (sound : cache.Sound) {state : Cell}
    (found : cache.cells[index]? = some state)
    (there : (cache.step event).1.cells[index]? = some later)
    (runs : state.running = some load) (still : later.running = state.running) (succeeds : Bool) :
    event ≠ .finish load succeeds := by
  rintro rfl
  obtain ⟨ticket, -, rfl, ended⟩ := step_finish sound found runs succeeds
  have inside := (List.getElem?_eq_some_iff.mp found).1
  rw [ended] at there
  cases succeeds with
  | true =>
    cases (List.getElem?_set_self inside).symm.trans there
    cases still.trans runs
  | false =>
    cases (List.getElem?_set_self inside).symm.trans there
    cases still.trans runs

end Cells

/-- What the state of a cell tells of the loads for it: one that runs or that made the schema is the
last of them, and all others have failed. -/
structure Story (events : List Event) (index : Nat) (state : Cell) : Prop where
  running : ∀ load, state.running = some load → Runs events load
  made : ∀ load, state.schema = some load → Ended events load true
  last : ∀ load, state.running = some load ∨ state.schema = some load →
    ∀ (other : Nat) (ticket : Ticket), (after events).loads[other]? = some ticket →
      ticket.cell = index → other ≤ load
  failed : ∀ (load : Nat) (ticket : Ticket), (after events).loads[load]? = some ticket →
    ticket.cell = index → state.running ≠ some load → state.schema ≠ some load →
      Ended events load false

section Steps

variable {index : Nat} {state later : Cell}

theorem Story.keep (story : Story events index state)
    (goesOn : ∀ load, state.running = some load → ∀ succeeds, event ≠ .finish load succeeds)
    (running : later.running = state.running) (schema : later.schema = state.schema)
    (own : ∀ (load : Nat) (ticket : Ticket),
      (after (events ++ [event])).loads[load]? = some ticket → ticket.cell = index →
        (after events).loads[load]? = some ticket) :
    Story (events ++ [event]) index later := by
  constructor
  · intro load runs
    have ran := running.symm.trans runs
    exact (story.running load ran).concat (goesOn load ran)
  · intro load made
    exact (story.made load (schema.symm.trans made)).concat event
  · intro load present other ticket began here
    rw [running, schema] at present
    exact story.last load present other ticket (own other ticket began here) here
  · intro load ticket began here idle empty
    rw [running] at idle
    rw [schema] at empty
    exact (story.failed load ticket (own load ticket began here) here idle empty).concat event

theorem Story.fresh (new : (after events).cells.length = index)
    (loads : (after (events ++ [event])).loads = (after events).loads)
    (idle : later.running = none) (empty : later.schema = none) :
    Story (events ++ [event]) index later := by
  have none : ∀ ticket ∈ (after (events ++ [event])).loads, ticket.cell ≠ index := by
    intro ticket member same
    rw [loads] at member
    obtain ⟨state, there, -⟩ := (sound_after events).loads ticket member
    have inside := (List.getElem?_eq_some_iff.mp there).1
    omega
  constructor
  · intro load runs
    cases idle.symm.trans runs
  · intro load made
    cases empty.symm.trans made
  · intro load _ other ticket began here
    exact absurd here (none ticket (List.mem_of_getElem? began))
  · intro load ticket began here
    exact absurd here (none ticket (List.mem_of_getElem? began))

theorem Story.begin (story : Story events index state) (idle : state.running = none)
    (empty : state.schema = none) {ticket : Ticket}
    (loads : (after (events ++ [event])).loads = (after events).loads ++ [ticket])
    (running : later.running = some (after events).loads.length) (schema : later.schema = none) :
    Story (events ++ [event]) index later := by
  constructor
  · intro load runs
    cases running.symm.trans runs
    rw [after_concat] at loads
    exact runs_of_begins loads
  · intro load made
    cases schema.symm.trans made
  · intro load present other ticket began here
    rcases present with runs | made
    · cases running.symm.trans runs
      have inside := (List.getElem?_eq_some_iff.mp began).1
      rw [loads, List.length_append, List.length_singleton] at inside
      omega
    · cases schema.symm.trans made
  · intro load ticket began here apart _
    rw [loads] at began
    rcases cases_of_getElem?_concat began with before | ⟨rfl, -⟩
    · have failed := story.failed load ticket before here (by simp [idle]) (by simp [empty])
      exact failed.concat event
    · exact absurd running apart

theorem Story.finish (story : Story events index state) {ended : Nat} {succeeds : Bool}
    (ran : state.running = some ended) (none : state.schema = none)
    (loads : (after (events ++ [.finish ended succeeds])).loads = (after events).loads)
    (idle : later.running = Option.none)
    (schema : later.schema = if succeeds then some ended else Option.none) :
    Story (events ++ [.finish ended succeeds]) index later := by
  have past : Ended (events ++ [.finish ended succeeds]) ended succeeds :=
    ⟨events, [], rfl, story.running ended ran⟩
  have made_eq : ∀ load, later.schema = some load → succeeds = true ∧ load = ended := by
    intro load made
    rw [schema] at made
    cases succeeds with
    | true => exact ⟨rfl, (Option.some.inj made).symm⟩
    | false => cases made
  constructor
  · intro load runs
    cases idle.symm.trans runs
  · intro load made
    obtain ⟨rfl, rfl⟩ := made_eq load made
    exact past
  · intro load present other ticket began here
    rw [loads] at began
    rcases present with runs | made
    · cases idle.symm.trans runs
    · obtain ⟨-, rfl⟩ := made_eq load made
      exact story.last load (.inl ran) other ticket began here
  · intro load ticket began here _ empty
    rw [loads] at began
    by_cases same : load = ended
    · subst same
      cases succeeds with
      | true => exact absurd schema empty
      | false => exact past
    · have apart : state.running ≠ some load := by
        rw [ran]
        exact fun alike => same (Option.some.inj alike).symm
      exact (story.failed load ticket began here apart (by simp [none])).concat _

theorem Story.step
    (stories : ∀ (index : Nat) (state : Cell), (after events).cells[index]? = some state →
      Story events index state)
    (found : ((after events).step event).1.cells[index]? = some later) :
    Story (events ++ [event]) index later := by
  have sound := sound_after events
  have moves := cellMoves_step sound event found
  rw [← after_concat] at moves
  cases moves with
  | @stays state there running schema own =>
    exact (stories index state there).keep
      (fun _ ran => running_step_ne sound there found ran running) running schema own
  | opens new loads idle empty => exact .fresh new loads idle empty
  | @begins state _ there idle empty own loads running schema =>
    exact (stories index state there).begin idle empty loads running schema
  | @ends state _ _ there finish ran loads idle schema =>
    subst finish
    have none := (sound.cells _ _ there).empty_of_running ran
    exact (stories index state there).finish ran none loads idle schema

end Steps

theorem story_after (events : List Event) :
    ∀ (index : Nat) (state : Cell), (after events).cells[index]? = some state →
      Story events index state := by
  induction events using List.reverseRecOn with
  | nil =>
    intro index state found
    cases found
  | append_singleton events event ih =>
    intro index state found
    rw [after_concat] at found
    exact Story.step ih found

end RelayWorkbench.Workspace.SchemaCache
