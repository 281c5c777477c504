import RelayWorkbench.Path

/-! A cache of the schemas of workspaces. Calls that want the schema of a root share a cell: the
first of them runs a load, the others wait for it, and when a load fails the next one that
waits runs a load of its own. To refresh a root is to give it a new cell; what is loaded into
an old one is seen only by the calls that already share it.

A load is known by its number, and a schema by the number of the load that made it. A call takes
its cell, asks it and runs a load in steps of their own, and events come in any order: nothing is
assumed about how long a load runs or when a call goes on.

The cells come from a library of asynchronous cells, and what a cell does is what the library
documents. A cell is set at most once (`schema_step`). Its loads run one at a time, each for the
call that came first (`begins_in_turn`): `join` lets a call that asks wait behind the others, and
after a load that fails `takeOver` goes on with the first of them. A load that succeeds answers all
calls of the cell, one that fails only the call that ran it: `finishIn`. The rest is the cache's
own: which cell a root has, and when it is given up, in `slot?`, `forget` and `renew` and in the
events `get`, `refresh` and `invalidate`. -/

namespace RelayWorkbench.Workspace

/-- A call that wants the schema of a root, with the cell it took for that. -/
structure Ticket where
  call : Nat
  /-- The root as the call wrote it. -/
  root : Path
  cell : Nat
  deriving DecidableEq, Repr

/-- Room for one schema, which is put in at most once. -/
structure Cell where
  /-- The root the cell was made for. -/
  root : Path
  /-- The load that made the schema. -/
  schema : Option Nat := none
  /-- The load that runs for the cell. -/
  running : Option Nat := none
  /-- The calls that wait for the cell, first come first. -/
  waiting : List Ticket := []
  deriving DecidableEq, Repr

/-- Whether a call that asks for the schema of an empty cell may run a load at once. -/
def Cell.isFree (state : Cell) : Bool := state.running.isNone && state.waiting.isEmpty

structure SchemaCache where
  /-- Every cell there ever was; a cell is known by its index. -/
  cells : List Cell := []
  /-- The present cell of a root, the latest one first. -/
  slots : List (Path × Nat) := []
  /-- The calls that took a cell and have not asked it yet. -/
  held : List Ticket := []
  /-- Every load that was begun, in order, as the ticket of the call that runs it. -/
  loads : List Ticket := []
  deriving DecidableEq, Repr

namespace SchemaCache

/-- What happens to a cache. -/
inductive Event where
  /-- A call for the schema of a root takes the cell of the root. -/
  | get (call : Nat) (root : Path)
  /-- A call for a new schema of a root takes a new cell, which is now that of the root. -/
  | refresh (call : Nat) (root : Path)
  /-- What is known of a root is forgotten. -/
  | invalidate (root : Path)
  /-- A call asks the cell it took. -/
  | ask (call : Nat)
  /-- The first call that waits for a cell runs a load, since the one before it failed. -/
  | takeOver (cell : Nat)
  /-- A load ends, with a schema or without. -/
  | finish (load : Nat) (succeeds : Bool)
  deriving DecidableEq, Repr

/-- A call that returns, with the schema it is given. -/
structure Reply where
  call : Nat
  root : Path
  schema : Option Nat
  deriving DecidableEq, Repr

def Reply.ofTicket (schema : Option Nat) (ticket : Ticket) : Reply :=
  ⟨ticket.call, ticket.root, schema⟩

/-- The present cell of a root. -/
def slot? (cache : SchemaCache) (root : Path) : Option Nat :=
  (cache.slots.find? fun (known, _) => known.same root).map (·.2)

/-- The cache without a cell for a root. -/
def forget (cache : SchemaCache) (root : Path) : SchemaCache :=
  { cache with slots := cache.slots.filter fun (known, _) => !known.same root }

/-- The cache with an empty cell for a root. -/
def renew (cache : SchemaCache) (root : Path) : SchemaCache :=
  let forgotten := cache.forget root
  { forgotten with
    cells := cache.cells ++ [{ root }]
    slots := (root, cache.cells.length) :: forgotten.slots }

/-- A call takes a cell. -/
def hold (cache : SchemaCache) (ticket : Ticket) : SchemaCache :=
  { cache with held := cache.held ++ [ticket] }

/-- The cache without the ticket of a call that asks its cell. -/
def release (cache : SchemaCache) (call : Nat) : SchemaCache :=
  { cache with held := cache.held.eraseP (·.call == call) }

def put (cache : SchemaCache) (cell : Nat) (state : Cell) : SchemaCache :=
  { cache with cells := cache.cells.set cell state }

/-- A call runs a load for the cell it took. -/
def begin (cache : SchemaCache) (ticket : Ticket) (state : Cell) : SchemaCache :=
  { cache with loads := cache.loads ++ [ticket] }.put ticket.cell
    { state with running := some cache.loads.length }

/-- A call asks its cell: it returns at once, runs a load or waits. -/
def join (cache : SchemaCache) (ticket : Ticket) : SchemaCache × List Reply :=
  match cache.cells[ticket.cell]? with
  | none => (cache, [])
  | some state =>
    match state.schema with
    | some schema => (cache, [Reply.ofTicket (some schema) ticket])
    | none =>
      if state.isFree then (cache.begin ticket state, [])
      else (cache.put ticket.cell { state with waiting := state.waiting ++ [ticket] }, [])

/-- A load that runs for a cell ends. With a schema, all calls of the cell return it; without one
only the call that ran it returns. -/
def finishIn (cache : SchemaCache) (ticket : Ticket) (load : Nat) (state : Cell)
    (succeeds : Bool) : SchemaCache × List Reply :=
  if succeeds then
    (cache.put ticket.cell { root := state.root, schema := some load },
      (ticket :: state.waiting).map (Reply.ofTicket (some load)))
  else (cache.put ticket.cell { state with running := none }, [Reply.ofTicket none ticket])

/-- The cache after an event, and the calls that return with it. A call that took no cell cannot
ask, and a load that does not run cannot end. -/
def step (cache : SchemaCache) : Event → SchemaCache × List Reply
  | .get call root =>
    match cache.slot? root with
    | some cell => (cache.hold ⟨call, root, cell⟩, [])
    | none => ((cache.renew root).hold ⟨call, root, cache.cells.length⟩, [])
  | .refresh call root => ((cache.renew root).hold ⟨call, root, cache.cells.length⟩, [])
  | .invalidate root => (cache.forget root, [])
  | .ask call =>
    match cache.held.find? (·.call == call) with
    | none => (cache, [])
    | some ticket => (cache.release call).join ticket
  | .takeOver cell =>
    match cache.cells[cell]? with
    | none => (cache, [])
    | some state =>
      match state.running, state.waiting with
      | none, ticket :: waiting => (cache.begin ticket { state with waiting }, [])
      | _, _ => (cache, [])
  | .finish load succeeds =>
    match cache.loads[load]? with
    | none => (cache, [])
    | some ticket =>
      match cache.cells[ticket.cell]? with
      | none => (cache, [])
      | some state =>
        if state.running = some load then cache.finishIn ticket load state succeeds
        else (cache, [])

/-- The cache after events, and the calls that returned, in order. -/
def run (cache : SchemaCache) : List Event → SchemaCache × List Reply
  | [] => (cache, [])
  | event :: rest =>
    let (next, replies) := cache.step event
    let (last, more) := next.run rest
    (last, replies ++ more)

/-- The schema of a root, as far as it is loaded. -/
def cached? (cache : SchemaCache) (root : Path) : Option Nat := do
  (← cache.cells[← cache.slot? root]?).schema

def oldestRunning? (cache : SchemaCache) : Option Nat := (cache.cells.filterMap (·.running)).min?

/-- The number of calls that asked and have not returned. -/
def pending (cache : SchemaCache) : Nat :=
  cache.cells.foldl (fun count cell => count + cell.running.toList.length + cell.waiting.length) 0

/-- Let loads end, the oldest first and each as `succeeds` tells, until none runs; `fuel` bounds
their number. The next call of a cell goes on as soon as a load failed. -/
def settleFrom (succeeds : Nat → Bool) : Nat → SchemaCache → SchemaCache × List Reply
  | 0, cache => (cache, [])
  | fuel + 1, cache =>
    match cache.oldestRunning? with
    | none => (cache, [])
    | some load =>
      let takeOver := cache.loads[load]?.toList.map fun ticket => Event.takeOver ticket.cell
      let (next, replies) := cache.run (.finish load (succeeds load) :: takeOver)
      let (last, more) := settleFrom succeeds fuel next
      (last, replies ++ more)

/-- A call that asks its cell as soon as it took it. -/
def Event.atOnce : Event → List Event
  | .get call root => [.get call root, .ask call]
  | .refresh call root => [.refresh call root, .ask call]
  | event => [event]

/-- The cache after calls that come while no load ends, once all loads have ended. -/
def serve (cache : SchemaCache) (succeeds : Nat → Bool) (calls : List Event) :
    SchemaCache × List Reply :=
  let (called, replies) := cache.run (calls.flatMap Event.atOnce)
  let (settled, more) := settleFrom succeeds called.pending called
  (settled, replies ++ more)

/-- The schema a call was given, if it was given one. -/
def Reply.schemaOf? (replies : List Reply) (call : Nat) : Option Nat :=
  (replies.find? (·.call == call)).bind (·.schema)

end SchemaCache

end RelayWorkbench.Workspace
