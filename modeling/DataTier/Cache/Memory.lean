import DataTier.Cache.Store
import DataTier.Table
import DataTier.Text.Diagnostic

/-! The store at the bottom of every chain: a table in memory with an optional bound on
its entries. A logical clock ticks on every read and write and stamps the entry used; a
new key in a full table takes the place of the one with the oldest stamp. -/

namespace DataTier.Cache

structure Slot where
  entry : Entry
  lastAccessed : Nat
  deriving Repr

structure Memory where
  slots : Table Key Slot := []
  clock : Nat := 0
  hits : Nat := 0
  misses : Nat := 0
  evictions : Nat := 0
  deriving Repr

namespace Memory

def size (m : Memory) : Nat := m.slots.length

def holds (m : Memory) (k : Key) : Bool := m.slots.has k

def entry? (m : Memory) (k : Key) : Option Entry := (m.slots.get? k).map Slot.entry

def leastRecent? : Table Key Slot → Option (Key × Nat)
  | [] => none
  | (k, slot) :: rest =>
    match leastRecent? rest with
    | none => some (k, slot.lastAccessed)
    | some (j, t) => if slot.lastAccessed ≤ t then some (k, slot.lastAccessed) else some (j, t)

def evictLeastRecent (m : Memory) : Memory :=
  match leastRecent? m.slots with
  | none => m
  | some (k, _) => { m with slots := m.slots.erase k, evictions := m.evictions + 1 }

def tick (m : Memory) : Memory := { m with clock := m.clock + 1 }

def get (k : Key) (m : Memory) : Option Entry × Memory :=
  let m := m.tick
  match m.slots.get? k with
  | none => (none, { m with misses := m.misses + 1 })
  | some slot =>
    (some slot.entry,
      { m with slots := m.slots.set k { slot with lastAccessed := m.clock }, hits := m.hits + 1 })

/-- A bound of zero is no bound. -/
def bound? (maxEntries : Option Nat) : Option Nat := maxEntries.filter (0 < ·)

def isFull (maxEntries : Option Nat) (m : Memory) : Bool :=
  match bound? maxEntries with
  | none => false
  | some n => n ≤ m.size

/-- A key that is held already takes nobody's place. -/
def makeRoom (maxEntries : Option Nat) (k : Key) (m : Memory) : Memory :=
  if !m.holds k && m.isFull maxEntries then m.evictLeastRecent else m

def put (maxEntries : Option Nat) (k : Key) (e : Entry) (m : Memory) : Memory :=
  let m := m.tick.makeRoom maxEntries k
  { m with slots := m.slots.set k ⟨e, m.clock⟩ }

def remove (k : Key) (m : Memory) : Option Entry × Memory :=
  (m.entry? k, { m with slots := m.slots.erase k })

def clear (m : Memory) : Memory := { m with slots := [] }

def store (id : String) (maxEntries : Option Nat) : Store Memory where
  id := id
  size m := (.ok m.size, m)
  get k m := let (e, m) := m.get k; (.ok e, m)
  put k e m := (.ok (), m.put maxEntries k e)
  contains k m := (.ok (m.holds k), m)
  remove k m := let (e, m) := m.remove k; (.ok e, m)
  clear m := (.ok (), m.clear)

open Text Diagnostic in
def render (id : String) (maxEntries : Option Nat) : String :=
  openRecord "MemoryCache" [("id", text id), ("max_entries", option toString (bound? maxEntries))]

theorem evictLeastRecent_clock (m : Memory) : m.evictLeastRecent.clock = m.clock := by
  unfold evictLeastRecent
  split <;> rfl

theorem makeRoom_clock (maxEntries : Option Nat) (k : Key) (m : Memory) :
    (m.makeRoom maxEntries k).clock = m.clock := by
  unfold makeRoom
  split
  · exact evictLeastRecent_clock m
  · rfl

/-- Every write ticks the clock once, whether it evicts or not. -/
theorem put_clock (maxEntries : Option Nat) (k : Key) (e : Entry) (m : Memory) :
    (m.put maxEntries k e).clock = m.clock + 1 :=
  makeRoom_clock maxEntries k m.tick

end DataTier.Cache.Memory
