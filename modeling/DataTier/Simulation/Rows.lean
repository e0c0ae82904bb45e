import DataTier.Cache.Key
import DataTier.Cache.Entry

/-! The rows of the simulated database, and which of them a worker asks for. Every fourth
row does not exist. -/

namespace DataTier.Simulation

def rowExists (id : Nat) : Bool := id % 4 != 3

def rowKey (id : Nat) : Cache.Key :=
  .ofParts [Digest.textBytes "select_row_by_id", Cache.Key.partOf (.nat id)]

def row (id : Nat) : Json := .ofMembers [("id", .nat id), ("name", .text ("row-" ++ toString id))]

def rowStatement (id : Nat) : String := "SELECT id, name FROM rows WHERE id = " ++ toString id

/-- Workers start at different rows and go through them in steps. The sum is one of sixty-four
bits, which it takes more than `2 ^ 63 / 7919` workers or `2 ^ 63 / 31` iterations to leave. -/
def visitedRow (worker iteration rows : Nat) : Nat := (worker * 7919 + iteration * 31) % max rows 1

/-- How a lookup was answered. -/
inductive Outcome where
  | cached
  | cachedAbsent
  | queried
  | queriedAbsent
  deriving DecidableEq, Repr

/-- What the database says of a row; one that exists is to be cached. -/
def query (id : Nat) : Outcome × Option Cache.Entry :=
  if rowExists id then (.queried, some (.found (row id))) else (.queriedAbsent, none)

def ofHit (e : Cache.Entry) : Outcome := if e.isAbsent then .cachedAbsent else .cached

structure Tally where
  cached : Nat := 0
  cachedAbsent : Nat := 0
  queried : Nat := 0
  queriedAbsent : Nat := 0
  deriving DecidableEq, Repr

namespace Tally

def record (t : Tally) : Outcome → Tally
  | .cached => { t with cached := t.cached + 1 }
  | .cachedAbsent => { t with cachedAbsent := t.cachedAbsent + 1 }
  | .queried => { t with queried := t.queried + 1 }
  | .queriedAbsent => { t with queriedAbsent := t.queriedAbsent + 1 }

def add (t u : Tally) : Tally where
  cached := t.cached + u.cached
  cachedAbsent := t.cachedAbsent + u.cachedAbsent
  queried := t.queried + u.queried
  queriedAbsent := t.queriedAbsent + u.queriedAbsent

def misses (t : Tally) : Nat := t.queried + t.queriedAbsent

def total (t : Tally) : Nat := t.cached + t.cachedAbsent + t.misses

end DataTier.Simulation.Tally
