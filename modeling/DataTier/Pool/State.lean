import DataTier.Pool.Line
import DataTier.Pool.Settings
import DataTier.Time.Instant

/-! What a pool remembers. A connection is idle, or checked out under a ticket of its own;
a handle is valid as long as its ticket is. -/

namespace DataTier.Pool

/-- A connection that nobody holds. -/
structure Detached where
  physicalId : Nat
  connection : ConnectionId
  createdAt : Time.Instant
  lastUsedAt : Time.Instant
  deriving DecidableEq, Repr

/-- One checkout of a connection; its holder and the pool have it alike. -/
structure Checkout where
  ticket : Nat
  physicalId : Nat
  connection : ConnectionId
  createdAt : Time.Instant
  lastUsedAt : Time.Instant
  checkedOutAt : Time.Instant
  /-- The identity it was asked for under. -/
  fingerprint : Source.Fingerprint
  deriving DecidableEq, Repr

namespace Checkout

def of (d : Detached) (ticket : Nat) (now : Time.Instant) (f : Source.Fingerprint) : Checkout where
  ticket := ticket
  physicalId := d.physicalId
  connection := d.connection
  createdAt := d.createdAt
  lastUsedAt := now
  checkedOutAt := now
  fingerprint := f

def detach (c : Checkout) : Detached := ⟨c.physicalId, c.connection, c.createdAt, c.lastUsedAt⟩

def age (c : Checkout) (now : Time.Instant) : Time.Duration := now.since c.checkedOutAt

end Checkout

structure Counters where
  requests : Nat := 0
  requestTime : Time.Duration := .zero
  checkoutTime : Time.Duration := .zero
  claimedOverdue : Nat := 0
  overdueCheckoutTime : Time.Duration := .zero
  waitTime : Time.Duration := .zero
  hadToWait : Nat := 0
  badConnections : Nat := 0
  deriving DecidableEq, Repr

structure State where
  source : Source.DataSource
  settings : Settings
  /-- Taken from the front, returned to the back. -/
  idle : List Detached := []
  /-- The oldest checkout first. -/
  active : List Checkout := []
  counters : Counters := {}
  /-- The identity a connection must be held under to become idle again. -/
  expected : Source.Fingerprint
  nextPhysicalId : Nat := 1
  nextTicket : Nat := 0
  /-- The tickets of the handles that may be used. -/
  valid : List Nat := []
  closed : Bool := false
  deriving Repr

namespace State

def new (source : Source.DataSource) (settings : Settings) : State where
  source := source
  settings := settings
  expected := source.fingerprint

def isValid (s : State) (c : Checkout) : Bool := c.ticket ∈ s.valid

/-- A handle shows whose connection it is, but not its times. -/
def renderHandle (s : State) (c : Checkout) : String :=
  Text.Diagnostic.openRecord "PooledConnection"
    [("physical_id", toString c.physicalId), ("valid", Text.Diagnostic.bool (s.isValid c)),
      ("fingerprint", c.fingerprint.render)]

def invalidate (c : Checkout) (s : State) : State := { s with valid := s.valid.filter (· ≠ c.ticket) }

def removeActive (c : Checkout) (s : State) : State :=
  { s with active := s.active.filter (·.ticket ≠ c.ticket) }

def hasRoom (s : State) : Bool := s.active.length < s.settings.maxActive

def count (f : Counters → Counters) (s : State) : State := { s with counters := f s.counters }

def countBad : State → State := count fun c => { c with badConnections := c.badConnections + 1 }

theorem isValid_invalidate (s : State) (c d : Checkout) :
    (s.invalidate c).isValid d = (!decide (d.ticket = c.ticket) && s.isValid d) := by
  simp only [isValid, invalidate, List.mem_filter]
  by_cases h : d.ticket = c.ticket <;> simp [h]

theorem mem_active_removeActive (s : State) (c d : Checkout) :
    d ∈ (s.removeActive c).active ↔ d ∈ s.active ∧ d.ticket ≠ c.ticket := by
  simp [removeActive]

end State

end Pool

/-- A pool on its line to the driver. -/
structure Pool (δ : Type) where
  state : Pool.State
  line : Pool.Line δ

/-- A pool keeps all that it has from view. -/
def Pool.summary : String := Text.Diagnostic.openRecord "ConnectionPoolManager" []

end DataTier
