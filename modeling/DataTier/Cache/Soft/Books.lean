import DataTier.Cache.Key
import DataTier.Table

/-! The books of a soft layer: which keys it tracks, what each weighs, when each was last
touched, and which were read lately. Keys read lately are retained; all others may be
reclaimed, the one touched longest ago first. -/

namespace DataTier.Cache.Soft

structure Tracked where
  weight : Nat
  lastTouched : Nat
  deriving DecidableEq, Repr

structure Books where
  /-- The latest read first; a key read twice is there twice. -/
  retained : List Key := []
  tracked : Table Key Tracked := []
  totalWeight : Nat := 0
  /-- Reclaimed, but not yet removed from the layer below; the oldest first. -/
  reclaimed : List Key := []
  reclaimedTotal : Nat := 0
  clock : Nat := 0
  deriving Repr

namespace Books

def tick (b : Books) : Books := { b with clock := b.clock + 1 }

def weightOf (b : Books) (k : Key) : Nat :=
  match b.tracked.get? k with
  | none => 0
  | some t => t.weight

def track (k : Key) (weight : Nat) (b : Books) : Books :=
  let now := b.clock + 1
  { b with
    clock := now
    tracked := b.tracked.set k ⟨weight, now⟩
    totalWeight := b.totalWeight - b.weightOf k + weight }

/-- A key that is not tracked yet is tracked from now on. -/
def touch (k : Key) (weight : Nat) (b : Books) : Books :=
  let b := b.tick
  match b.tracked.get? k with
  | some t => { b with tracked := b.tracked.set k { t with lastTouched := b.clock } }
  | none => b.track k weight

def untrack (k : Key) (b : Books) : Books :=
  { b with tracked := b.tracked.erase k, totalWeight := b.totalWeight - b.weightOf k }

def retain (k : Key) (retentionSize : Nat) (b : Books) : Books :=
  { b with retained := (k :: b.retained).take retentionSize }

/-- The layer below no longer holds the key. -/
def forget (k : Key) (b : Books) : Books :=
  let b := b.untrack k
  { b with retained := b.retained.filter (· ≠ k) }

def oldestFirst (b : Books) : List Key :=
  (b.tracked.mergeSort fun x y => x.2.lastTouched ≤ y.2.lastTouched).map Prod.fst

def reclaim (k : Key) (b : Books) : Books :=
  let b := b.untrack k
  { b with reclaimed := b.reclaimed ++ [k], reclaimedTotal := b.reclaimedTotal + 1 }

def shed (budget : Nat) : List Key → Books → Books
  | [], b => b
  | k :: ks, b => if b.totalWeight ≤ budget then b else shed budget ks (b.reclaim k)

def enforceBudget (budget : Nat) (b : Books) : Books :=
  shed budget (b.oldestFirst.filter (· ∉ b.retained)) b

def unretained (b : Books) : List Key := b.tracked.keys.filter (· ∉ b.retained)

def reclaimUnretained (b : Books) : Books := b.unretained.foldl (fun b k => b.reclaim k) b

def clear (b : Books) : Books := { b with tracked := [], totalWeight := 0 }

end DataTier.Cache.Soft.Books
