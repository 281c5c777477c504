import RelayWorkbench.Proofs.Ranks
import RelayWorkbench.Proofs.Workspace.CacheRuns

/-! Roots of a schema cache do not meet. What happens to one root is what would happen if there
were no others, except that its cells and loads are numbered among those of all roots. -/

namespace RelayWorkbench.Workspace

def Ticket.renumber (cells : Nat → Nat) (ticket : Ticket) : Ticket :=
  { ticket with cell := cells ticket.cell }

def Cell.renumber (cells loads : Nat → Nat) (state : Cell) : Cell where
  root := state.root
  schema := state.schema.map loads
  running := state.running.map loads
  waiting := state.waiting.map (Ticket.renumber cells)

namespace SchemaCache

def Event.renumber (cells loads : Nat → Nat) : Event → Event
  | .takeOver cell => .takeOver (cells cell)
  | .finish load succeeds => .finish (loads load) succeeds
  | event => event

def Reply.renumber (loads : Nat → Nat) (reply : Reply) : Reply :=
  { reply with schema := reply.schema.map loads }

/-- The number of a cell among the cells of a root. -/
def cellRank (cache : SchemaCache) (root : Path) (cell : Nat) : Nat :=
  rank (·.root.same root) cache.cells cell

/-- The number of a load among the loads for a root. -/
def loadRank (cache : SchemaCache) (root : Path) (load : Nat) : Nat :=
  rank (·.root.same root) cache.loads load

/-- What a cache knows of one root, with cells and loads under other numbers. -/
def part (cells loads : Nat → Nat) (root : Path) (cache : SchemaCache) : SchemaCache where
  cells := (cache.cells.filter (·.root.same root)).map (Cell.renumber cells loads)
  slots := (cache.slots.filter (·.1.same root)).map fun slot => (slot.1, cells slot.2)
  held := (cache.held.filter (·.root.same root)).map (Ticket.renumber cells)
  loads := (cache.loads.filter (·.root.same root)).map (Ticket.renumber cells)

/-- What a cache knows of one root, with cells and loads numbered as if there were no others. -/
def only (root : Path) (cache : SchemaCache) : SchemaCache :=
  part (cache.cellRank root) (cache.loadRank root) root cache

/-- The root that an event is about. -/
def rootOf? (cache : SchemaCache) : Event → Option Path
  | .get _ root | .refresh _ root | .invalidate root => some root
  | .ask call => (cache.held.find? (·.call == call)).map (·.root)
  | .takeOver cell => cache.cells[cell]?.map (·.root)
  | .finish load _ => cache.loads[load]?.map (·.root)

/-- Whether an event is about a root. -/
def concerns (cache : SchemaCache) (root : Path) (event : Event) : Bool :=
  (cache.rootOf? event).any (·.same root)

/-- The events about one root, with cells and loads numbered as if there were no others. -/
def ownEvents (root : Path) (cache : SchemaCache) : List Event → List Event
  | [] => []
  | event :: rest =>
    let later := ownEvents root (cache.step event).1 rest
    if cache.concerns root event then
      event.renumber (cache.cellRank root) (cache.loadRank root) :: later
    else later

/-- Numbers of cells and loads that are right for what a cache has and will have next. -/
structure Numbers (cells loads : Nat → Nat) (root : Path) (cache : SchemaCache) : Prop where
  cells : ∀ cell ≤ cache.cells.length, cells cell = cache.cellRank root cell
  loads : ∀ load ≤ cache.loads.length, loads load = cache.loadRank root load

section Part

variable {cache : SchemaCache} {root : Path} {cells loads : Nat → Nat}

namespace Numbers

theorem rank (cache : SchemaCache) (root : Path) :
    cache.Numbers (cache.cellRank root) (cache.loadRank root) root :=
  ⟨fun _ _ => rfl, fun _ _ => rfl⟩

variable (numbers : cache.Numbers cells loads root)
include numbers

theorem length_cells : (part cells loads root cache).cells.length = cells cache.cells.length := by
  rw [numbers.cells _ (Nat.le_refl _), cellRank, rank_length, part, List.length_map]

theorem length_loads : (part cells loads root cache).loads.length = loads cache.loads.length := by
  rw [numbers.loads _ (Nat.le_refl _), loadRank, rank_length, part, List.length_map]

theorem cell {index : Nat} {state : Cell} (found : cache.cells[index]? = some state)
    (own : state.root.same root) :
    (part cells loads root cache).cells[cells index]? = some (state.renumber cells loads) := by
  have inside := (List.getElem?_eq_some_iff.mp found).1
  rw [numbers.cells index (Nat.le_of_lt inside), part, List.getElem?_map, cellRank,
    getElem?_filter_rank found own]
  rfl

theorem load {number : Nat} {ticket : Ticket} (found : cache.loads[number]? = some ticket)
    (own : ticket.root.same root) :
    (part cells loads root cache).loads[loads number]? = some (ticket.renumber cells) := by
  have inside := (List.getElem?_eq_some_iff.mp found).1
  rw [numbers.loads number (Nat.le_of_lt inside), part, List.getElem?_map, loadRank,
    getElem?_filter_rank found own]
  rfl

/-- The cells of a root after one cell is in another state. -/
private theorem cells_set {index : Nat} {former : Cell}
    (found : cache.cells[index]? = some former) (state : Cell) (same : state.root = former.root) :
    ((cache.cells.set index state).filter (·.root.same root)).map (Cell.renumber cells loads) =
      if former.root.same root then
        (part cells loads root cache).cells.set (cells index) (state.renumber cells loads)
      else (part cells loads root cache).cells := by
  have inside := (List.getElem?_eq_some_iff.mp found).1
  split
  · next own =>
    have owns : state.root.same root := same ▸ own
    have kept : (cache.cells.set index state).filter (·.root.same root) =
        (cache.cells.filter (·.root.same root)).set (cellRank cache root index) state :=
      filter_set_of_pos found own owns
    rw [kept, List.map_set, numbers.cells index (Nat.le_of_lt inside)]
    rfl
  · next other =>
    have other : former.root.same root = false := by simpa using other
    have others : state.root.same root = false := same ▸ other
    have kept : (cache.cells.set index state).filter (·.root.same root) =
        cache.cells.filter (·.root.same root) := filter_set_of_neg found other others
    rw [kept]
    rfl

theorem part_put {index : Nat} {former : Cell} (found : cache.cells[index]? = some former)
    (state : Cell) (same : state.root = former.root) :
    part cells loads root (cache.put index state) =
      if former.root.same root then
        (part cells loads root cache).put (cells index) (state.renumber cells loads)
      else part cells loads root cache := by
  have kept := numbers.cells_set found state same
  split
  · next own =>
    rw [if_pos own] at kept
    simp only [put, part, kept]
  · next other =>
    rw [if_neg other] at kept
    simp only [put, part, kept]

theorem part_begin {ticket : Ticket} {former : Cell}
    (found : cache.cells[ticket.cell]? = some former) (state : Cell)
    (same : state.root = former.root)
    (fits : former.root.same ticket.root) :
    part cells loads root (cache.begin ticket state) =
      if ticket.root.same root then
        (part cells loads root cache).begin (ticket.renumber cells) (state.renumber cells loads)
      else part cells loads root cache := by
  let started : Cell := { state with running := some cache.loads.length }
  have kept := numbers.cells_set found started same
  rw [Path.same_congr fits] at kept
  split
  · next own =>
    have began : started.renumber cells loads =
        { state.renumber cells loads with
          running := some (part cells loads root cache).loads.length } := by
      simp [started, Cell.renumber, numbers.length_loads]
    rw [if_pos own, began] at kept
    have longer : ((cache.loads ++ [ticket]).filter (·.root.same root)).map
        (Ticket.renumber cells) =
          (part cells loads root cache).loads ++ [ticket.renumber cells] := by
      simp [part, own]
    exact congrArg₂ (fun owned began =>
      { part cells loads root cache with cells := owned, loads := began }) kept longer
  · next other =>
    rw [if_neg other] at kept
    have same : ((cache.loads ++ [ticket]).filter (·.root.same root)).map
        (Ticket.renumber cells) = (part cells loads root cache).loads := by
      simp [part, other]
    exact congrArg₂ (fun owned began =>
      { part cells loads root cache with cells := owned, loads := began }) kept same

end Numbers

theorem slot?_part {other : Path} (same : other.same root) :
    (part cells loads root cache).slot? other = (cache.slot? other).map cells := by
  have alike (slot : Path × Nat) :
      (slot.1.same root ∧ slot.1.same other) ↔ slot.1.same other := by
    rw [Path.same_comm slot.1 root, Path.same_comm slot.1 other, Path.same_congr same, and_self]
  simp only [slot?, part, List.find?_map, List.find?_filter, Option.map_map, Function.comp_def,
    alike, Bool.decide_eq_true]

theorem part_hold (ticket : Ticket) :
    part cells loads root (cache.hold ticket) =
      if ticket.root.same root then
        (part cells loads root cache).hold (ticket.renumber cells)
      else part cells loads root cache := by
  split
  · next own => simp [part, hold, own]
  · next other => simp [part, hold, other]

theorem part_forget (other : Path) :
    part cells loads root (cache.forget other) =
      if other.same root then (part cells loads root cache).forget other
      else part cells loads root cache := by
  split
  · next own =>
    simp only [part, forget, List.filter_map, List.filter_filter]
    congr 3
    funext slot
    exact Bool.and_comm ..
  · next apart =>
    have kept (slot : Path × Nat) :
        (slot.1.same root && !slot.1.same other) = slot.1.same root := by
      cases own : slot.1.same root with
      | false => rfl
      | true =>
        have away : slot.1.same other = false := by
          rw [Path.same_congr own, Path.same_comm]
          simpa using apart
        simp [away]
    simp only [part, forget, List.filter_filter, kept]

theorem Numbers.part_renew (numbers : cache.Numbers cells loads root) (other : Path) :
    part cells loads root (cache.renew other) =
      if other.same root then (part cells loads root cache).renew other
      else part cells loads root cache := by
  have forgotten := congrArg SchemaCache.slots
    (part_forget other : part cells loads root (cache.forget other) = _)
  have length := numbers.length_cells
  split
  · next own =>
    rw [if_pos own] at forgotten
    simp only [part, forget, List.filter_filter] at forgotten length
    simp [part, renew, forget, own, forgotten, length, Cell.renumber]
  · next apart =>
    rw [if_neg apart] at forgotten
    simp only [part, forget, List.filter_filter] at forgotten
    simp [part, renew, forget, apart, forgotten]

private theorem filter_eraseP {α : Type} (own : α → Bool) {picked : α → Bool} {list : List α}
    {item : α} (found : list.find? picked = some item) :
    (list.eraseP picked).filter own =
      if own item then (list.filter own).eraseP picked else list.filter own := by
  induction list with
  | nil => cases found
  | cons head rest ih =>
    by_cases here : picked head
    · obtain rfl : head = item := by simpa [here] using found
      rw [List.eraseP_cons_of_pos here]
      by_cases owned : own head
      · simp [owned, here]
      · simp [owned]
    · rw [List.find?_cons_of_neg here] at found
      rw [List.eraseP_cons_of_neg here, List.filter_cons, List.filter_cons, ih found]
      by_cases owned : own head
      · by_cases owner : own item
        · simp [owned, owner, here]
        · simp [owned, owner]
      · simp [owned]

theorem part_release {call : Nat} {ticket : Ticket}
    (held : cache.held.find? (·.call == call) = some ticket) :
    part cells loads root (cache.release call) =
      if ticket.root.same root then (part cells loads root cache).release call
      else part cells loads root cache := by
  have erased := filter_eraseP (·.root.same root) held
  split
  · next own =>
    rw [if_pos own] at erased
    simp only [part, release, erased, List.eraseP_map]
    rfl
  · next apart =>
    rw [if_neg apart] at erased
    simp only [part, release, erased]

private theorem find?_filter_of_find? {α : Type} (own : α → Bool) {picked : α → Bool}
    {list : List α} {item : α} (found : list.find? picked = some item) (owned : own item) :
    (list.filter own).find? picked = some item := by
  obtain ⟨here, front, back, rfl, before⟩ := List.find?_eq_some_iff_append.mp found
  rw [List.find?_filter, List.find?_append, List.find?_eq_none.mpr]
  · simp [here, owned]
  · intro other member
    simpa using fun _ => by simpa using before other member

theorem find?_held_part {call : Nat} {ticket : Ticket}
    (held : cache.held.find? (·.call == call) = some ticket) (own : ticket.root.same root) :
    (part cells loads root cache).held.find? (·.call == call) = some (ticket.renumber cells) := by
  have there := find?_filter_of_find? (·.root.same root) held own
  simp only [part, List.find?_map]
  exact Option.map_eq_some_iff.mpr ⟨ticket, there, rfl⟩

end Part

section Steps

variable {cache : SchemaCache} {root : Path} {cells loads : Nat → Nat}

@[simp] theorem Reply.ofTicket_renumber (schema : Option Nat) (ticket : Ticket) :
    Reply.ofTicket schema (ticket.renumber cells) = Reply.ofTicket schema ticket := rfl

@[simp] theorem Reply.renumber_ofTicket (schema : Option Nat) (ticket : Ticket) :
    (Reply.ofTicket schema ticket).renumber loads = Reply.ofTicket (schema.map loads) ticket := rfl

private theorem map_renumber_ofTicket (cells loads : Nat → Nat) (load : Nat)
    (tickets : List Ticket) :
    (tickets.map (Reply.ofTicket (some load))).map (Reply.renumber loads) =
      (tickets.map (Ticket.renumber cells)).map (Reply.ofTicket (some (loads load))) := by
  simp [Function.comp_def]

section Joins

variable {ticket : Ticket} {state : Cell} (found : cache.cells[ticket.cell]? = some state)
include found

private theorem join_of_made {schema : Nat} (made : state.schema = some schema) :
    cache.join ticket = (cache, [Reply.ofTicket (some schema) ticket]) := by
  simp [join, found, made]

private theorem join_of_free (empty : state.schema = none) (free : state.isFree) :
    cache.join ticket = (cache.begin ticket state, []) := by
  simp [join, found, empty, free]

private theorem join_of_busy (empty : state.schema = none) (busy : ¬ state.isFree) :
    cache.join ticket =
      (cache.put ticket.cell { state with waiting := state.waiting ++ [ticket] }, []) := by
  simp [join, found, empty, busy]

end Joins

/-- A call of a root asks its cell. -/
private theorem join_part (numbers : cache.Numbers cells loads root) {ticket : Ticket}
    (fits : cache.Fits ticket) (own : ticket.root.same root) :
    (part cells loads root cache).join (ticket.renumber cells) =
      (part cells loads root (cache.join ticket).1,
        (cache.join ticket).2.map (Reply.renumber loads)) := by
  obtain ⟨state, found, same⟩ := fits
  have owned : state.root.same root := by rw [Path.same_congr same, own]
  have here : (part cells loads root cache).cells[(ticket.renumber cells).cell]? =
      some (state.renumber cells loads) := numbers.cell found owned
  have free : (state.renumber cells loads).isFree = state.isFree := by
    simp [Cell.isFree, Cell.renumber]
  cases made : state.schema with
  | some schema =>
    have given : (state.renumber cells loads).schema = some (loads schema) := by
      simp [Cell.renumber, made]
    rw [join_of_made found made, join_of_made here given]
    rfl
  | none =>
    have empty : (state.renumber cells loads).schema = none := by simp [Cell.renumber, made]
    by_cases idle : state.isFree
    · rw [join_of_free found made idle, join_of_free here empty (free ▸ idle),
        numbers.part_begin found state rfl same, if_pos own]
      rfl
    · rw [join_of_busy found made idle, join_of_busy here empty (free ▸ idle),
        numbers.part_put found { state with waiting := state.waiting ++ [ticket] } rfl,
        if_pos owned]
      simp [Cell.renumber, Ticket.renumber]

/-- The next call that waits for a cell of a root runs a load. -/
private theorem takeOver_part (sound : cache.Sound) (numbers : cache.Numbers cells loads root)
    {cell : Nat} {state : Cell} (found : cache.cells[cell]? = some state)
    (own : state.root.same root) :
    (part cells loads root cache).step (.takeOver (cells cell)) =
      (part cells loads root (cache.step (.takeOver cell)).1,
        (cache.step (.takeOver cell)).2.map (Reply.renumber loads)) := by
  have here := numbers.cell found own
  obtain ⟨known, schema, running, waiting⟩ := state
  simp only [step, found, here, Cell.renumber]
  cases running with
  | some load => rfl
  | none =>
    cases waiting with
    | nil => rfl
    | cons ticket waiting =>
      obtain ⟨rfl, fits⟩ := (sound.cells _ _ found).waiting ticket (List.mem_cons_self ..)
      have owned : ticket.root.same root := by rw [← Path.same_congr fits, own]
      have began := numbers.part_begin found ⟨known, schema, none, waiting⟩ rfl fits
      rw [if_pos owned] at began
      exact congrArg (·, []) began.symm

/-- The loads of a cell of a root are told apart. -/
private theorem running_renumber (sound : cache.Sound) (numbers : cache.Numbers cells loads root)
    {load : Nat} {ticket : Ticket} {state : Cell} (began : cache.loads[load]? = some ticket)
    (found : cache.cells[ticket.cell]? = some state) (own : state.root.same root) :
    (state.renumber cells loads).running = some (loads load) ↔ state.running = some load := by
  constructor
  · intro runs
    obtain ⟨other, runs, same⟩ := Option.map_eq_some_iff.mp runs
    obtain ⟨second, started, here⟩ := (sound.cells _ _ found).loading other (.inr runs)
    have owns : ∀ other ∈ cache.loads, other.cell = ticket.cell → other.root.same root := by
      intro other member here
      have fits := (sound.loads other member).same (here ▸ found)
      rw [← Path.same_congr fits, own]
    have inside := (List.getElem?_eq_some_iff.mp began).1
    have within := (List.getElem?_eq_some_iff.mp started).1
    rw [numbers.loads load (Nat.le_of_lt inside), numbers.loads other (Nat.le_of_lt within)] at same
    rw [runs, rank_inj started (owns _ (List.mem_of_getElem? started) here) began
      (owns _ (List.mem_of_getElem? began) rfl) same]
  · intro runs
    exact Option.map_eq_some_iff.mpr ⟨load, runs, rfl⟩

/-- A load that runs for a cell of a root ends. -/
private theorem finishIn_part (numbers : cache.Numbers cells loads root) {load : Nat}
    {ticket : Ticket} {state : Cell} (found : cache.cells[ticket.cell]? = some state)
    (own : state.root.same root) (succeeds : Bool) :
    (part cells loads root cache).finishIn (ticket.renumber cells) (loads load)
        (state.renumber cells loads) succeeds =
      (part cells loads root (cache.finishIn ticket load state succeeds).1,
        (cache.finishIn ticket load state succeeds).2.map (Reply.renumber loads)) := by
  cases succeeds with
  | true =>
    have ended := numbers.part_put found { root := state.root, schema := some load } rfl
    rw [if_pos own] at ended
    have returned := map_renumber_ofTicket cells loads load (ticket :: state.waiting)
    exact congrArg₂ Prod.mk ended.symm returned.symm
  | false =>
    have ended := numbers.part_put found { state with running := none } rfl
    rw [if_pos own] at ended
    exact congrArg (·, [Reply.ofTicket none ticket]) ended.symm

/-- An event about a root does what it would do if there were no other roots. -/
theorem step_part (sound : cache.Sound) (numbers : cache.Numbers cells loads root) {event : Event}
    (own : cache.concerns root event) :
    (part cells loads root cache).step (event.renumber cells loads) =
      (part cells loads root (cache.step event).1,
        (cache.step event).2.map (Reply.renumber loads)) := by
  cases event with
  | get call known =>
    have own : known.same root := own
    simp only [step, Event.renumber]
    rw [slot?_part own]
    cases present : cache.slot? known with
    | some cell => simp [part_hold, own, Ticket.renumber]
    | none =>
      simp [part_hold, own, numbers.part_renew, Ticket.renumber, numbers.length_cells]
  | refresh call known =>
    have own : known.same root := own
    simp [step, Event.renumber, part_hold, own, numbers.part_renew, Ticket.renumber,
      numbers.length_cells]
  | invalidate known =>
    have own : known.same root := own
    simp [step, Event.renumber, part_forget, own]
  | ask call =>
    obtain ⟨_, there, own⟩ := Option.any_eq_true .. |>.mp own
    obtain ⟨ticket, held, rfl⟩ := Option.map_eq_some_iff.mp there
    have released : (cache.release call).Numbers cells loads root := ⟨numbers.cells, numbers.loads⟩
    have fits : (cache.release call).Fits ticket := sound.held _ (List.mem_of_find?_eq_some held)
    have joined := join_part released fits own
    rw [part_release held, if_pos own] at joined
    simpa only [step, Event.renumber, held, find?_held_part held own] using joined
  | takeOver cell =>
    obtain ⟨_, there, own⟩ := Option.any_eq_true .. |>.mp own
    obtain ⟨state, found, rfl⟩ := Option.map_eq_some_iff.mp there
    exact takeOver_part sound numbers found own
  | finish load succeeds =>
    obtain ⟨_, there, own⟩ := Option.any_eq_true .. |>.mp own
    obtain ⟨ticket, began, rfl⟩ := Option.map_eq_some_iff.mp there
    obtain ⟨state, found, same⟩ := sound.loads _ (List.mem_of_getElem? began)
    have owned : state.root.same root := by rw [Path.same_congr same, own]
    have here : (part cells loads root cache).cells[(ticket.renumber cells).cell]? =
        some (state.renumber cells loads) := numbers.cell found owned
    simp only [step, Event.renumber, began, numbers.load began own, found, here,
      running_renumber sound numbers began found owned]
    split
    · exact finishIn_part numbers found owned succeeds
    · rfl

/-- An event about another root changes nothing. -/
theorem step_part_of_other (sound : cache.Sound) (numbers : cache.Numbers cells loads root)
    {event : Event} (other : cache.concerns root event = false) :
    part cells loads root (cache.step event).1 = part cells loads root cache := by
  have released : ∀ call, (cache.release call).Numbers cells loads root :=
    fun _ => ⟨numbers.cells, numbers.loads⟩
  generalize (cache.step event).2 = replies, (cache.step event).1 = next,
    moves_step cache event = moves
  cases moves with
  | idle => rfl
  | @take _ known =>
    have apart : ¬ known.same root := by simpa [concerns, rootOf?] using other
    rw [part_hold, if_neg apart]
  | @make _ known | @refresh _ known =>
    have apart : ¬ known.same root := by simpa [concerns, rootOf?] using other
    rw [part_hold, if_neg apart, numbers.part_renew, if_neg apart]
  | @invalidate known =>
    have apart : ¬ known.same root := by simpa [concerns, rootOf?] using other
    rw [part_forget, if_neg apart]
  | @lose _ ticket held | @receive _ _ ticket _ held =>
    have apart : ¬ ticket.root.same root := by simpa [concerns, rootOf?, held] using other
    rw [part_release held, if_neg apart]
  | @begin _ ticket state held found =>
    have apart : ¬ ticket.root.same root := by simpa [concerns, rootOf?, held] using other
    have fits := (sound.held _ (List.mem_of_find?_eq_some held)).same found
    rw [(released _).part_begin found state rfl fits, if_neg apart, part_release held,
      if_neg apart]
  | @wait _ ticket state held found =>
    have apart : ¬ ticket.root.same root := by simpa [concerns, rootOf?, held] using other
    have fits := (sound.held _ (List.mem_of_find?_eq_some held)).same found
    rw [← Path.same_congr fits] at apart
    rw [(released _).part_put found { state with waiting := state.waiting ++ [ticket] } rfl,
      if_neg apart, part_release held, if_neg]
    rwa [← Path.same_congr fits]
  | @takeOver _ state ticket waiting found _ waits =>
    have apart : ¬ state.root.same root := by simpa [concerns, rootOf?, found] using other
    obtain ⟨rfl, fits⟩ := (sound.cells _ _ found).waiting ticket (by simp [waits])
    rw [Path.same_congr fits] at apart
    rw [numbers.part_begin found { state with waiting } rfl fits, if_neg apart]
  | @load load ticket state began found =>
    have apart : ¬ ticket.root.same root := by simpa [concerns, rootOf?, began] using other
    have fits := (sound.loads _ (List.mem_of_getElem? began)).same found
    rw [← Path.same_congr fits] at apart
    rw [numbers.part_put found { root := state.root, schema := some load } rfl, if_neg apart]
  | @fail _ ticket state began found =>
    have apart : ¬ ticket.root.same root := by simpa [concerns, rootOf?, began] using other
    have fits := (sound.loads _ (List.mem_of_getElem? began)).same found
    rw [← Path.same_congr fits] at apart
    rw [numbers.part_put found { state with running := none } rfl, if_neg apart]

/-- The calls that return with an event are calls for the root that it is about. -/
theorem root_of_reply (sound : cache.Sound) {event : Event} {reply : Reply}
    (member : reply ∈ (cache.step event).2) :
    reply.root.same root = cache.concerns root event := by
  generalize (cache.step event).2 = replies, (cache.step event).1 = next,
    moves_step cache event = moves at member
  cases moves with
  | idle | take | make | refresh | invalidate | lose | begin | wait | takeOver => cases member
  | receive held =>
    rw [List.mem_singleton.mp member]
    simp [concerns, rootOf?, held, Reply.ofTicket]
  | @load _ ticket state began found =>
    obtain ⟨asks, waits, rfl⟩ := List.mem_map.mp member
    suffices alike : asks.root.same root = ticket.root.same root by
      simpa [concerns, rootOf?, began, Reply.ofTicket] using alike
    rcases List.mem_cons.mp waits with rfl | waits
    · rfl
    · have fits := (sound.loads _ (List.mem_of_getElem? began)).same found
      rw [← Path.same_congr fits, Path.same_congr ((sound.cells _ _ found).waiting asks waits).2]
  | fail began =>
    rw [List.mem_singleton.mp member]
    simp [concerns, rootOf?, began, Reply.ofTicket]

theorem Numbers.of_step (sound : cache.Sound) {event : Event}
    (numbers : (cache.step event).1.Numbers cells loads root) :
    cache.Numbers cells loads root := by
  have longer := length_cells_step cache event
  have more := loads_step cache event
  constructor
  · intro cell inside
    rw [numbers.cells cell (by omega), cellRank, cellRank]
    rcases cells_step sound event with
      same | ⟨added, new⟩ | ⟨index, former, state, found, -, put, own, -⟩
    · rw [same]
    · rw [new, rank_append _ inside]
    · rw [put, rank_set found (by rw [own])]
  · intro load inside
    obtain ⟨rest, same⟩ := more
    rw [numbers.loads load (by rw [← same, List.length_append]; omega), loadRank, loadRank, ← same,
      rank_append _ inside]

theorem Numbers.of_run (sound : cache.Sound) {events : List Event}
    (numbers : (cache.run events).1.Numbers cells loads root) :
    cache.Numbers cells loads root := by
  induction events generalizing cache with
  | nil => exact numbers
  | cons event rest ih => exact (ih (sound.step event) numbers).of_step sound

/-- An event about a root names cells and loads that are numbered rightly. -/
theorem renumber_eq (numbers : cache.Numbers cells loads root) {event : Event}
    (own : cache.concerns root event) :
    event.renumber (cache.cellRank root) (cache.loadRank root) = event.renumber cells loads := by
  cases event with
  | get | refresh | invalidate | ask => rfl
  | takeOver cell =>
    obtain ⟨_, there, -⟩ := Option.any_eq_true .. |>.mp own
    obtain ⟨state, found, rfl⟩ := Option.map_eq_some_iff.mp there
    have inside := (List.getElem?_eq_some_iff.mp found).1
    rw [Event.renumber, Event.renumber, numbers.cells cell (Nat.le_of_lt inside)]
  | finish load succeeds =>
    obtain ⟨_, there, -⟩ := Option.any_eq_true .. |>.mp own
    obtain ⟨ticket, began, rfl⟩ := Option.map_eq_some_iff.mp there
    have inside := (List.getElem?_eq_some_iff.mp began).1
    rw [Event.renumber, Event.renumber, numbers.loads load (Nat.le_of_lt inside)]

/-- The events about one root alone take its part of a cache where all events take it, and return
the same calls of that root. -/
theorem run_ownEvents (sound : cache.Sound) {events : List Event}
    (numbers : (cache.run events).1.Numbers cells loads root) :
    (part cells loads root cache).run (ownEvents root cache events) =
      (part cells loads root (cache.run events).1,
        ((cache.run events).2.filter (·.root.same root)).map (Reply.renumber loads)) := by
  induction events generalizing cache with
  | nil => rfl
  | cons event rest ih =>
    have later := ih (sound.step event) numbers
    have now : cache.Numbers cells loads root := Numbers.of_run sound numbers
    have returned : ∀ reply ∈ (cache.step event).2,
        reply.root.same root = cache.concerns root event := fun _ => root_of_reply sound
    simp only [ownEvents, run, List.filter_append, List.map_append]
    by_cases own : cache.concerns root event
    · have kept : (cache.step event).2.filter (·.root.same root) = (cache.step event).2 :=
        List.filter_eq_self.mpr fun reply member => by rw [returned reply member, own]
      rw [if_pos own, run, renumber_eq now own, step_part sound now own, kept]
      simp only [later]
    · have other : cache.concerns root event = false := by simpa using own
      have dropped : (cache.step event).2.filter (·.root.same root) = [] :=
        List.filter_eq_nil_iff.mpr fun reply member => by simp [returned reply member, other]
      rw [if_neg own, dropped, ← step_part_of_other sound now other, later]
      rfl

/-- What happens to one root is what happens to it without the others. -/
theorem after_ownEvents (root : Path) (events : List Event) :
    after (ownEvents root {} events) = (after events).only root ∧
      replies (ownEvents root {} events) =
        ((replies events).filter (·.root.same root)).map
          (Reply.renumber ((after events).loadRank root)) := by
  have whole := run_ownEvents (sound_after []) (Numbers.rank (after events) root)
  exact ⟨congrArg Prod.fst whole, congrArg Prod.snd whole⟩

theorem cached?_only (sound : cache.Sound) (root : Path) :
    (cache.only root).cached? root = (cache.cached? root).map (cache.loadRank root) := by
  simp only [cached?, only]
  rw [slot?_part (Path.same_refl root)]
  cases present : cache.slot? root with
  | none => rfl
  | some cell =>
    obtain ⟨state, found, own⟩ := sound.fits_slot present 0
    have here := (Numbers.rank cache root).cell found own
    simp [found, here, Cell.renumber]

end Steps

end SchemaCache

end RelayWorkbench.Workspace
