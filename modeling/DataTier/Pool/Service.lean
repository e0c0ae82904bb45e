import DataTier.Pool.Queue
import DataTier.Pool.Return
import DataTier.Table

/-! A pool among its callers. Each caller asks for a connection under its name, and holds
a handle, waits in the queue, or is between two candidates. Requests come one after
another; a waiting caller goes on when it has a notice or its time to wait is over. -/

namespace DataTier.Pool

/-- The pool, its clock, the callers without a connection, and the handles that are out. -/
structure Service (κ δ : Type) where
  pool : Pool δ
  now : Time.Instant := .start
  queue : Queue κ := {}
  /-- Callers whose last candidate was bad, and those that have just waited. -/
  retrying : Table κ Attempt := []
  held : Table κ Checkout := []

inductive Request (κ : Type) where
  /-- Without credentials, under those of the data source. -/
  | acquire (caller : κ) (credentials : Option Source.Credentials)
  | release (caller : κ)
  /-- The handle is lost without being released. -/
  | drop (caller : κ)
  /-- The caller gives up. -/
  | cancel (caller : κ)
  | use (caller : κ) (op : Operation)
  | closeAll
  | shutdown
  | reconfigure (change : Source.DataSource → Settings → Source.DataSource × Settings)
  | setTolerance (n : Nat)
  /-- A caller that can go on does so. -/
  | resume (caller : κ)
  /-- A caller that has had no notice finds its time to wait to be over. -/
  | expire (caller : κ)
  | elapse (d : Time.Duration)

inductive Reply where
  | handle (c : Checkout)
  | answer (b : Bool)
  | done
  | waiting
  | retrying
  | failed (e : Error)
  /-- The request makes no sense for this caller now. -/
  | refused

namespace Service

variable {κ δ : Type} [DecidableEq κ]

def start (source : Source.DataSource) (settings : Settings) (driver : δ) : Service κ δ where
  pool := { state := .new source settings, line := { driver } }

/-- No two requests are served at one reading of the clock. -/
def tick (s : Service κ δ) : Service κ δ := { s with now := s.now.plus ⟨1⟩ }

def isPending (s : Service κ δ) (caller : κ) : Bool :=
  (s.queue.waiter? caller).isSome || s.retrying.has caller

/-- One candidate for a caller, and what becomes of the caller after it. -/
def proceed (D : Driver δ) (caller : κ) (a : Attempt) (s : Service κ δ) : Reply × Service κ δ :=
  match examine D s.now a s.pool with
  | (.granted c, pool) => (.handle c, { s with pool, held := s.held.set caller c })
  | (.failed e, pool) => (.failed e, { s with pool })
  | (.waits a, pool) =>
    let w := Waiter.enter caller a s.now pool.state.settings.timeToWait
    (.waiting, { s with pool, queue := s.queue.join w })
  | (.retries a, pool) => (.retrying, { s with pool, retrying := s.retrying.set caller a })

def acquire (D : Driver δ) (caller : κ) (credentials : Option Source.Credentials)
    (s : Service κ δ) : Reply × Service κ δ :=
  if s.held.has caller || s.isPending caller then (.refused, s)
  else
    let credentials := credentials.getD s.pool.state.source.credentials
    proceed D caller { credentials, startedAt := s.now } s

/-- Whoever has waited gets its wait counted, and its candidate when it comes next. -/
def resume (D : Driver δ) (caller : κ) (s : Service κ δ) : Reply × Service κ δ :=
  match s.retrying.get? caller, s.queue.waiter? caller with
  | some a, _ => proceed D caller a { s with retrying := s.retrying.erase caller }
  | none, none => (.refused, s)
  | none, some w =>
    if w.isReady s.now then
      let waited := s.now.since w.since
      let state := s.pool.state.count fun k =>
        { k with waitTime := ⟨k.waitTime.nanoseconds + waited.nanoseconds⟩ }
      (.retrying, { s with
        pool := { s.pool with state }
        queue := s.queue.goOn caller
        retrying := s.retrying.set caller w.attempt })
    else (.refused, s)

/-- From here on the caller waits for its turn only. -/
def expire (caller : κ) (s : Service κ δ) : Reply × Service κ δ :=
  match s.queue.waiter? caller with
  | none => (.refused, s)
  | some w =>
    if w.notice.isNone && w.deadline.any s.now.reached then
      (.done, { s with queue := s.queue.expire caller })
    else (.refused, s)

/-- Whoever waits longest may try again. -/
def release (D : Driver δ) (caller : κ) (s : Service κ δ) : Reply × Service κ δ :=
  match s.held.get? caller with
  | none => (.refused, s)
  | some c =>
    (.done, { s with
      pool := Pool.release D s.now c s.pool
      held := s.held.erase caller
      queue := s.queue.notifyOne })

def drop (caller : κ) (s : Service κ δ) : Reply × Service κ δ :=
  if s.held.has caller then (.done, { s with held := s.held.erase caller }) else (.refused, s)

def cancel (caller : κ) (s : Service κ δ) : Reply × Service κ δ :=
  if s.isPending caller then
    (.done, { s with queue := s.queue.leave caller, retrying := s.retrying.erase caller })
  else (.refused, s)

/-- A handle that is no longer valid reaches no driver. -/
def use (D : Driver δ) (caller : κ) (op : Operation) (s : Service κ δ) : Reply × Service κ δ :=
  match s.held.get? caller with
  | none => (.refused, s)
  | some c =>
    if s.pool.state.isValid c then
      let (answer, line) := s.pool.line.ask D (.on c.connection op)
      let reply := match answer with
        | .error reason => .failed (.driver reason)
        | .ok b => if op.isQuestion then .answer b else .done
      (reply, { s with pool := { s.pool with line } })
    else (.failed (.invalidConnection c.physicalId), s)

/-- After a change to the whole pool everybody who waits may try again. -/
def overhaul (f : Pool δ → Pool δ) (s : Service κ δ) : Reply × Service κ δ :=
  (.done, { s with pool := f s.pool, queue := s.queue.notifyAll })

def serve (D : Driver δ) (s : Service κ δ) : Request κ → Reply × Service κ δ
  | .acquire caller credentials => acquire D caller credentials s.tick
  | .release caller => release D caller s.tick
  | .drop caller => drop caller s.tick
  | .cancel caller => cancel caller s.tick
  | .use caller op => use D caller op s.tick
  | .closeAll => overhaul (closeAll D) s.tick
  | .shutdown => overhaul (shutdown D) s.tick
  | .reconfigure change => overhaul (reconfigure D change) s.tick
  | .setTolerance n => (.done, { s.tick with pool := setTolerance n s.pool })
  | .resume caller => resume D caller s.tick
  | .expire caller => expire caller s.tick
  | .elapse d => (.done, { s with now := s.now.plus d })

def run (D : Driver δ) (s : Service κ δ) (requests : List (Request κ)) : Service κ δ :=
  requests.foldl (fun s r => (s.serve D r).2) s

/-- Who could go on: callers between two candidates, then those done with waiting. -/
def ready (s : Service κ δ) : List κ :=
  s.retrying.keys ++ (s.queue.waiters.filter (·.isReady s.now)).map (·.caller)

def isSettled (s : Service κ δ) : Bool := s.ready.isEmpty

/-- When its time is up a caller changes at most what is known of it in the queue. -/
theorem serve_expire (D : Driver δ) (s : Service κ δ) (caller : κ) :
    s.serve D (.expire caller) = (.refused, s.tick) ∨ s.serve D (.expire caller) =
      (.done, { s.tick with queue := s.tick.queue.expire caller }) := by
  simp only [serve, expire]
  split
  · exact .inl rfl
  · split
    · exact .inr rfl
    · exact .inl rfl

omit [DecidableEq κ] in
theorem isSettled_iff (s : Service κ δ) :
    s.isSettled = true ↔ s.retrying = [] ∧ ∀ w ∈ s.queue.waiters, w.isReady s.now = false := by
  simp [isSettled, ready, Table.keys]

theorem run_append (D : Driver δ) (s : Service κ δ) (rs ts : List (Request κ)) :
    s.run D (rs ++ ts) = (s.run D rs).run D ts := List.foldl_append

end DataTier.Pool.Service
