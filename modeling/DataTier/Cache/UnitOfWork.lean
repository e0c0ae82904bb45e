import DataTier.Cache.Store
import DataTier.Table
import DataTier.Text.Diagnostic

/-! One unit of work on a shared store. Its writes stay with it until it commits; it
remembers the keys it looked for in vain, and a commit writes them down as known to be
absent unless something was written for them. Both ways to end it are plans: a list of
operations on the store below, each of which is attempted. -/

namespace DataTier.Cache

structure UnitOfWork where
  /-- The store is to be cleared first, and reads come back empty until then. -/
  clearOnCommit : Bool := false
  pending : Table Key Entry := []
  /-- In the order in which they were first missed, each key once. -/
  missed : List Key := []
  deriving Repr

namespace UnitOfWork

variable {σ : Type}

def note (k : Key) (u : UnitOfWork) : UnitOfWork :=
  if k ∈ u.missed then u else { u with missed := u.missed ++ [k] }

/-- What the unit of work makes of the answer to a read below. -/
def learn (k : Key) (a : Answer (Option Entry)) (u : UnitOfWork) :
    Answer (Option Entry) × UnitOfWork :=
  match a with
  | .error e => (.error e, u)
  | .ok none => (.ok none, u.note k)
  | .ok (some e) => (.ok (if u.clearOnCommit then none else some e), u)

def get (d : Store σ) (k : Key) (u : UnitOfWork) (s : σ) :
    Answer (Option Entry) × UnitOfWork × σ :=
  let (a, s) := d.get k s
  let (a, u) := u.learn k a
  (a, u, s)

def put (k : Key) (e : Entry) (u : UnitOfWork) : UnitOfWork :=
  { u with pending := u.pending.set k e }

/-- Removals are not kept for later, and nothing is removed at once. -/
def remove (_ : Key) (u : UnitOfWork) : Option Entry × UnitOfWork := (none, u)

def clear (u : UnitOfWork) : UnitOfWork := { u with clearOnCommit := true, pending := [] }

def hasPendingChanges (u : UnitOfWork) : Bool :=
  u.clearOnCommit || !u.pending.isEmpty || !u.missed.isEmpty

def unwritten (u : UnitOfWork) : List Key := u.missed.filter fun k => !u.pending.has k

def writes (u : UnitOfWork) : List Call :=
  u.pending.map (fun e => .put e.1 e.2) ++ u.unwritten.map fun k => .put k .knownAbsent

/-- What a commit does to the store below, in order. -/
def commitPlan (u : UnitOfWork) : List Call :=
  (if u.clearOnCommit then [.clear] else []) ++ u.writes

/-- Whoever waits for a key that was missed is let go. -/
def rollbackPlan (u : UnitOfWork) : List Call := u.missed.map .remove

/-- The first failure is the answer; the unit of work is over in any case. -/
def commit (d : Store σ) (u : UnitOfWork) (s : σ) : Answer Unit × UnitOfWork × σ :=
  let (r, s) := d.performAll u.commitPlan s
  (r, {}, s)

def rollback (d : Store σ) (u : UnitOfWork) (s : σ) : UnitOfWork × σ :=
  let (_, s) := d.performAll u.rollbackPlan s
  ({}, s)

open Text Diagnostic in
def render (id : String) (u : UnitOfWork) : String :=
  record "TransactionalCache"
    [("id", text id), ("clear_on_commit", bool u.clearOnCommit),
      ("pending_writes", toString u.pending.length), ("missed_keys", toString u.missed.length)]

theorem mem_missed_note (u : UnitOfWork) (k j : Key) :
    j ∈ (u.note k).missed ↔ j = k ∨ j ∈ u.missed := by
  unfold note
  split
  · next h =>
    refine ⟨Or.inr, fun hj => ?_⟩
    rcases hj with rfl | hj
    · exact h
    · exact hj
  · simp [or_comm]

theorem nodup_missed_note {u : UnitOfWork} (h : u.missed.Nodup) (k : Key) :
    (u.note k).missed.Nodup := by
  unfold note
  split
  · exact h
  · next hk =>
    refine List.nodup_append.mpr ⟨h, by simp, ?_⟩
    intro x hx y hy hxy
    simp only [List.mem_singleton] at hy
    exact hk (hy ▸ hxy ▸ hx)

/-- A clearing alone leaves what was missed to be written down. -/
@[simp] theorem missed_clear (u : UnitOfWork) : u.clear.missed = u.missed := rfl

end DataTier.Cache.UnitOfWork
