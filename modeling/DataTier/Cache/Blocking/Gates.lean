import DataTier.Cache.Key
import DataTier.Table
import DataTier.Time.Instant

/-! Gates, one for each key some caller is computing. A gate is closed by entering it in
the table; it is opened in two steps, of which the first takes it out of the table and the
second lets its waiters go. A gate once opened stays open. -/

namespace DataTier.Cache.Blocking

structure Gates where
  /-- The gate of each key that is locked. -/
  table : Table Key Nat := []
  /-- The gates that have not been opened yet, in the table or taken out of it. -/
  shut : List Nat := []
  /-- The number of the next gate. -/
  next : Nat := 0
  /-- How long a caller waits at a gate; none is without end. -/
  timeout : Option Time.Duration := none
  deriving Repr

namespace Gates

def lockedKeys (g : Gates) : Nat := g.table.length

def isLocked (g : Gates) (k : Key) : Bool := g.table.has k

def isShut (g : Gates) (gate : Nat) : Bool := gate ∈ g.shut

def close (g : Gates) (k : Key) : Gates :=
  { g with table := g.table.set k g.next, shut := g.next :: g.shut, next := g.next + 1 }

def takeOut (g : Gates) (k : Key) : Gates := { g with table := g.table.erase k }

def release (g : Gates) (gate : Nat) : Gates := { g with shut := g.shut.filter (· ≠ gate) }

/-- A wait of no length counts as one without end. -/
def setTimeout (g : Gates) (timeout : Option Time.Duration) : Gates :=
  { g with timeout := timeout.bind Time.Duration.positive? }

theorem isLocked_close (g : Gates) (k j : Key) :
    (g.close k).isLocked j = (decide (k = j) || g.isLocked j) := by
  simp only [isLocked, close, Table.has, Table.get?_set]
  by_cases h : k = j <;> simp [h]

theorem isLocked_takeOut (g : Gates) (k j : Key) :
    (g.takeOut k).isLocked j = (!decide (k = j) && g.isLocked j) := by
  simp only [isLocked, takeOut, Table.has, Table.get?_erase]
  by_cases h : k = j <;> simp [h]

theorem isShut_close (g : Gates) (k : Key) (gate : Nat) :
    (g.close k).isShut gate = (decide (gate = g.next) || g.isShut gate) := by
  simp [isShut, close]

theorem isShut_release (g : Gates) (a b : Nat) :
    (g.release a).isShut b = (!decide (b = a) && g.isShut b) := by
  simp only [isShut, release, List.mem_filter]
  by_cases h : b = a <;> simp [h]

end DataTier.Cache.Blocking.Gates
