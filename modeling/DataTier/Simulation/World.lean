import DataTier.Cache.Shape
import DataTier.Cache.UnitOfWork
import DataTier.Pool.Service
import DataTier.Simulation.Rows
import DataTier.Simulation.Server

/-! Workers that look rows up through one cache, on connections of one pool. For each row
a worker takes a connection, reads the cache in a unit of work, asks the database after a
miss, ends the unit of work, and gives the connection back. A step of a worker is one
access to what the workers share; any worker that can move may be the next. -/

namespace DataTier.Simulation

inductive Failure where
  | pool (e : Pool.Error)
  | cache (e : Cache.Error)
  deriving DecidableEq, Repr

def Failure.message : Failure → String
  | .pool e => e.message
  | .cache e => e.message

abbrev Result := Except Failure Outcome

inductive Phase where
  | starting
  /-- Has asked for a connection. -/
  | asking
  | reading (v : Cache.Blocking.Visit)
  /-- Has missed the row, and so closed its gate if there are any. -/
  | missed (u : Cache.UnitOfWork)
  /-- Ends its unit of work, visit by visit. -/
  | ending (visits : List Cache.Blocking.Visit) (r : Result)
  | returning (r : Result)
  | finished
  | failed (e : Failure)

structure Worker where
  iteration : Nat := 0
  phase : Phase := .starting
  tally : Tally := {}

structure Options where
  workers : Nat
  iterations : Nat
  rows : Nat
  deriving DecidableEq, Repr

structure World (s : Cache.Shape) where
  options : Options
  desk : Pool.Service Nat Server
  chain : s.State
  workers : List Worker

namespace World

variable {s : Cache.Shape}

def start (s : Cache.Shape) (source : Source.DataSource) (pool : Pool.Settings) (options : Options) :
    World s where
  options := options
  desk := .start source pool {}
  chain := s.initial
  workers := List.replicate options.workers {}

def now (w : World s) : Time.Instant := w.desk.now

def rowOf (w : World s) (i : Nat) (worker : Worker) : Nat :=
  visitedRow i worker.iteration w.options.rows

/-- A worker with a connection reads the cache next. -/
def seated (w : World s) (i : Nat) (worker : Worker) : Phase :=
  .reading (s.visitor w.now (rowKey (w.rowOf i worker)) w.chain)

/-- What asking for a connection has led to, if to anything. -/
def asked (w : World s) (i : Nat) (worker : Worker) : Pool.Reply → Option Phase
  | .handle _ => some (w.seated i worker)
  | .waiting | .retrying => some .asking
  | .failed e => some (.failed (.pool e))
  | .refused | .answer _ | .done => none

def ask (w : World s) (i : Nat) (worker : Worker) (r : Pool.Request Nat) : Option (Phase × World s) := do
  let (reply, desk) := w.desk.serve Server.driver r
  let w := { w with desk }
  return (← w.asked i worker reply, w)

/-- The accesses to the cache that end a unit of work; those of a lookup read nothing. -/
def visitOf : Cache.Call → Option Cache.Blocking.Visit
  | .put k e => some (.write k e)
  | .remove k => some (.giveUp k)
  | _ => none

def commit (u : Cache.UnitOfWork) (o : Outcome) : Phase :=
  .ending (u.commitPlan.filterMap visitOf) (.ok o)

def rollBack (u : Cache.UnitOfWork) (e : Failure) : Phase :=
  .ending (u.rollbackPlan.filterMap visitOf) (.error e)

/-- What the answer to its read makes a worker do next. Who comes to grief over it loses its
connection. -/
def hear (w : World s) (i : Nat) (key : Cache.Key) (a : Cache.Answer (Option Cache.Entry)) :
    Phase × World s :=
  let (a, u) := ({} : Cache.UnitOfWork).learn key a
  match a with
  | .ok (some e) => (commit u (ofHit e), w)
  | .ok none => (.missed u, w)
  | .error e =>
    if e.isPanic then
      (.failed (.cache e), { w with desk := (w.desk.serve Server.driver (.drop i)).2 })
    else (.returning (.error (.cache e)), w)

theorem exists_hear_eq (w : World s) (i : Nat) (key : Cache.Key)
    (a : Cache.Answer (Option Cache.Entry)) : ∃ desk, (w.hear i key a).2 = { w with desk } := by
  unfold hear
  dsimp only
  split
  · exact ⟨w.desk, rfl⟩
  · exact ⟨w.desk, rfl⟩
  · split
    · exact ⟨_, rfl⟩
    · exact ⟨w.desk, rfl⟩

/-- The row is asked for on the worker's connection, and put into the unit of work. -/
def queryRow (w : World s) (i : Nat) (worker : Worker) (u : Cache.UnitOfWork) : Phase × World s :=
  let id := w.rowOf i worker
  let (reply, desk) := w.desk.serve Server.driver (.use i (.execute (rowStatement id)))
  let phase := match reply with
    | .failed e => rollBack u (.pool e)
    | _ =>
      let (o, entry?) := query id
      commit (match entry? with | some e => u.put (rowKey id) e | none => u) o
  (phase, { w with desk })

/-- The first problem of a unit of work is its result. -/
def noteProblem (r : Result) : Cache.Answer (Option Cache.Entry) → Result
  | .ok _ => r
  | .error e => match r with
    | .ok _ => .error (.cache e)
    | .error first => .error first

def onward (w : World s) (worker : Worker) (r : Result) : Worker :=
  match r with
  | .error e => { worker with phase := .failed e }
  | .ok o =>
    let worker := { worker with tally := worker.tally.record o, iteration := worker.iteration + 1 }
    { worker with phase := if worker.iteration < w.options.iterations then .starting else .finished }

/-- One step of a worker, unless it is through or has to wait. -/
def move (w : World s) (i : Nat) (worker : Worker) : Option (Worker × World s) :=
  let become (p : Phase × World s) : Worker × World s := ({ worker with phase := p.1 }, p.2)
  match worker.phase with
  | .starting =>
    if worker.iteration < w.options.iterations then
      (w.ask i worker (.acquire i none)).map become
    else some ({ worker with phase := .finished }, w)
  | .asking => (w.ask i worker (.resume i)).map become
  | .reading v =>
    match v.answer? with
    | some a => some (become (w.hear i v.key a))
    | none => (s.step w.now v w.chain).map fun (v, chain) => become (.reading v, { w with chain })
  | .missed u => some (become (w.queryRow i worker u))
  | .ending [] r => some (become (.returning r, w))
  | .ending (v :: rest) r =>
    match v.answer? with
    | some a => some (become (.ending rest (noteProblem r a), w))
    | none =>
      (s.step w.now v w.chain).map fun (v, chain) => become (.ending (v :: rest) r, { w with chain })
  | .returning r =>
    let (_, desk) := w.desk.serve Server.driver (.release i)
    some (w.onward worker r, { w with desk })
  | .finished | .failed _ => none

def step (w : World s) (i : Nat) : Option (World s) := do
  let worker ← w.workers[i]?
  let (worker, w) ← w.move i worker
  return { w with workers := w.workers.set i worker }

inductive Event where
  | step (worker : Nat)
  /-- The worker's time to wait for a connection is up. -/
  | expire (worker : Nat)
  | elapse (d : Time.Duration)

/-- A worker that cannot move stays where it is. -/
def next (w : World s) : Event → World s
  | .step i => (w.step i).getD w
  | .expire i => { w with desk := (w.desk.serve Server.driver (.expire i)).2 }
  | .elapse d => { w with desk := (w.desk.serve Server.driver (.elapse d)).2 }

def run (w : World s) (events : List Event) : World s := events.foldl next w

end DataTier.Simulation.World
