import DataTier.Config.Resolved
import DataTier.Pool.Status
import DataTier.Simulation.World

/-! A whole simulation, on a schedule of its own: a worker that can move goes on as long as
it can. The pool is shut down in the end. -/

namespace DataTier.Simulation

structure Report where
  status : Pool.Status
  tally : Tally
  cacheSize : Nat
  opened : Nat
  closed : Nat
  statements : Nat
  elapsed : Time.Duration

namespace World

variable {s : Cache.Shape}

/-- The worker goes on until it is through or has to wait. -/
def driveWorker (i : Nat) : Nat → World s → World s
  | 0, w => w
  | steps + 1, w =>
    match w.step i with
    | none => w
    | some w => driveWorker i steps w

/-- More than a lookup takes where no connection is bad: it asks for a connection and gives
it back, reads in at most eight steps, asks the database, and ends its unit of work. -/
def stepsOfLookup : Nat := 32

def drive (w : World s) : World s :=
  let steps := w.options.iterations * stepsOfLookup + 1
  (List.range w.options.workers).foldl (fun w i => driveWorker i steps w) w

/-- The tallies of all workers, or the failure of the first that failed. -/
def tally : List Worker → Except Failure Tally
  | [] => .ok {}
  | worker :: rest =>
    match worker.phase with
    | .failed e => .error e
    | _ => (tally rest).map worker.tally.add

def report (w : World s) : Except Failure Report := do
  let total ← tally w.workers
  let server := (w.desk.serve Server.driver .shutdown).2.pool.line.driver
  let cacheSize ← (((s.store w.now).size w.chain).1).mapError .cache
  return {
    status := w.desk.pool.state.status
    tally := total
    cacheSize
    opened := server.opened
    closed := server.closed
    statements := server.statements
    elapsed := w.now.since .start }

end World

def simulate (r : Resolved) (options : Options) : Except Failure Report :=
  (World.start r.cache.shape r.source r.pool options).drive.report

end DataTier.Simulation
