import DataTier.Pool.Error
import DataTier.Pool.State

/-! Getting a connection out of a pool. Candidates are the idle connections, the oldest
first, then a fresh connection while there is room, then the oldest checkout once it is
overdue. A candidate that passes its check is handed out; a bad one is closed and the
next is tried, up to a limit. With no candidate left the caller has to wait. Others may
use the pool between one candidate and the next. -/

namespace DataTier.Pool

inductive Candidate where
  | ready (d : Detached)
  | unreachable (reason : String)
  | none

/-- A caller on its way to a connection. -/
structure Attempt where
  credentials : Source.Credentials
  startedAt : Time.Instant
  /-- How many bad connections it has come upon. -/
  rejected : Nat := 0
  hasWaited : Bool := false

inductive Outcome where
  | granted (c : Checkout)
  | failed (e : Error)
  /-- Until a connection is released, or the time to wait is over. -/
  | waits (a : Attempt)
  /-- With the next candidate. -/
  | retries (a : Attempt)

variable {δ : Type}

/-- A connection that is closed, or fails its probe, is bad; a failed probe closes it. -/
def validate (D : Driver δ) (settings : Settings) (now : Time.Instant) (d : Detached)
    (l : Line δ) : Bool × Line δ :=
  match l.ask D (.on d.connection .isClosed) with
  | (.ok false, l) =>
    if !settings.pingEnabled || (now.since d.lastUsedAt).nanoseconds <
        settings.pingConnectionsNotUsedFor.nanoseconds then (true, l)
    else
      match l.ask D (.on d.connection (.execute settings.pingQuery)) with
      | (.error _, l) => (false, l.close D d.connection)
      | (.ok _, l) =>
        match l.rollbackIfNeeded D d.connection with
        | (.ok (), l) => (true, l)
        | (.error _, l) => (false, l.close D d.connection)
  | (_, l) => (false, l)

/-- A connection whose set-up fails gets no number. -/
def openConnection (D : Driver δ) (now : Time.Instant) (credentials : Source.Credentials)
    (p : Pool δ) : Candidate × Pool δ :=
  match p.line.connect D p.state.source credentials with
  | (.error e, line) => (.unreachable e, { p with line })
  | (.ok connection, line) =>
    let id := p.state.nextPhysicalId
    (.ready ⟨id, connection, now, now⟩,
      { line, state := { p.state with nextPhysicalId := id + 1 } })

/-- The oldest checkout is taken from its holder if it has lasted long enough; that its
transaction cannot be ended is no obstacle. -/
def claimOverdue (D : Driver δ) (now : Time.Instant) (p : Pool δ) :
    Candidate × Pool δ :=
  match p.state.active with
  | [] => (.none, p)
  | oldest :: rest =>
    let age := oldest.age now
    if age.nanoseconds < p.state.settings.maxCheckoutTime.nanoseconds then (.none, p)
    else
      let state := ({ p.state with active := rest }).invalidate oldest
      let state := state.count fun c =>
        { c with
          claimedOverdue := c.claimedOverdue + 1
          overdueCheckoutTime := ⟨c.overdueCheckoutTime.nanoseconds + age.nanoseconds⟩
          checkoutTime := ⟨c.checkoutTime.nanoseconds + age.nanoseconds⟩ }
      (.ready oldest.detach, { state, line := (p.line.rollbackIfNeeded D oldest.connection).2 })

def candidate (D : Driver δ) (now : Time.Instant) (credentials : Source.Credentials)
    (p : Pool δ) : Candidate × Pool δ :=
  match p.state.idle with
  | d :: rest => (.ready d, { p with state := { p.state with idle := rest } })
  | [] => if p.state.hasRoom then openConnection D now credentials p else claimOverdue D now p

/-- The new checkout is the youngest of all. -/
def accept (D : Driver δ) (now : Time.Instant) (a : Attempt) (d : Detached)
    (p : Pool δ) : Checkout × Pool δ :=
  let s := p.state
  let c := Checkout.of d s.nextTicket now (s.source.fingerprintFor a.credentials)
  let state := { s with
    active := s.active ++ [c]
    valid := c.ticket :: s.valid
    nextTicket := s.nextTicket + 1 }
  let state := state.count fun k =>
    { k with
      requests := k.requests + 1
      requestTime := ⟨k.requestTime.nanoseconds + (now.since a.startedAt).nanoseconds⟩ }
  (c, { state, line := (p.line.rollbackIfNeeded D d.connection).2 })

/-- A bad connection is closed; one more than the limit is too many. -/
def reject (D : Driver δ) (a : Attempt) (d : Detached) (p : Pool δ) : Outcome × Pool δ :=
  let rejected := a.rejected + 1
  let outcome := if rejected > p.state.settings.badConnectionLimit
    then .failed (.badConnections rejected) else .retries { a with rejected }
  (outcome, { state := p.state.countBad, line := p.line.close D d.connection })

def wait (a : Attempt) (p : Pool δ) : Outcome × Pool δ :=
  let state := if a.hasWaited then p.state
    else p.state.count fun c => { c with hadToWait := c.hadToWait + 1 }
  (.waits { a with hasWaited := true }, { p with state })

/-- What a caller does with the pool to itself, which is to try one candidate. -/
def examine (D : Driver δ) (now : Time.Instant) (a : Attempt) (p : Pool δ) : Outcome × Pool δ :=
  if p.state.closed then (.failed .shutDown, p)
  else
    match candidate D now a.credentials p with
    | (.none, p) => wait a p
    | (.unreachable reason, p) => (.failed (.connect reason), p)
    | (.ready d, p) =>
      match validate D p.state.settings now d p.line with
      | (false, line) => reject D a d { p with line }
      | (true, line) =>
        let (c, p) := accept D now a d { p with line }
        (.granted c, p)

end DataTier.Pool
