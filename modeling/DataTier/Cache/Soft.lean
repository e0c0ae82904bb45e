import DataTier.Cache.Soft.Books
import DataTier.Cache.Store
import DataTier.Text.Diagnostic

/-! A layer that keeps the weight of what it stores within a budget. A write that takes
the weight over the budget reclaims keys until it fits or only retained keys are left;
the keys reclaimed leave the layer below at the start of the next operation. -/

namespace DataTier.Cache

structure Soft (σ : Type) where
  below : σ
  books : Soft.Books := {}

namespace Soft

structure Limits where
  /-- How many of the latest reads protect their keys. -/
  retentionSize : Nat := 256
  /-- The weight above which keys are reclaimed; none is no such weight. -/
  budget : Option Nat := some (4 * 1024 * 1024)
  deriving DecidableEq, Repr

variable {σ : Type}

/-- A key whose removal fails has left the queue all the same. -/
def drain (d : Store σ) : List Key → Soft σ → Answer Unit × Soft σ
  | [], s => (.ok (), s)
  | k :: ks, s =>
    match d.remove k s.below with
    | (.error e, below) => (.error e, { below, books := { s.books with reclaimed := ks } })
    | (.ok _, below) => drain d ks { below, books := { s.books with reclaimed := ks } }

/-- Every operation first removes what was reclaimed. -/
def afterDrain {α : Type} (d : Store σ) (f : Soft σ → Answer α × Soft σ) (s : Soft σ) :
    Answer α × Soft σ :=
  match drain d s.books.reclaimed s with
  | (.error e, s) => (.error e, s)
  | (.ok (), s) => f s

/-- Keys that the layer below dropped are forgotten, the one touched longest ago first,
until no more keys are tracked than it holds. -/
def forgetEvicted (d : Store σ) (held : Nat) : List Key → Soft σ → Answer Unit × Soft σ
  | [], s => (.ok (), s)
  | k :: ks, s =>
    if s.books.tracked.length ≤ held then (.ok (), s)
    else
      match d.contains k s.below with
      | (.error e, below) => (.error e, { s with below })
      | (.ok true, below) => forgetEvicted d held ks { s with below }
      | (.ok false, below) => forgetEvicted d held ks { below, books := s.books.forget k }

def reconcile (d : Store σ) (s : Soft σ) : Answer Unit × Soft σ :=
  match d.size s.below with
  | (.error e, below) => (.error e, { s with below })
  | (.ok held, below) => forgetEvicted d held s.books.oldestFirst { s with below }

def enforce (limits : Limits) (s : Soft σ) : Soft σ :=
  match limits.budget with
  | none => s
  | some budget => { s with books := s.books.enforceBudget budget }

def size (d : Store σ) : Soft σ → Answer Nat × Soft σ :=
  afterDrain d fun s =>
    let (r, below) := d.size s.below
    (r, { s with below })

/-- A hit is touched and retained, a miss is no longer tracked. -/
def noteRead (limits : Limits) (k : Key) (a : Answer (Option Entry)) (s : Soft σ) : Soft σ :=
  match a with
  | .error _ => s
  | .ok none => { s with books := s.books.untrack k }
  | .ok (some e) =>
    { s with books := (s.books.touch k e.weight).retain k limits.retentionSize }

def get (limits : Limits) (d : Store σ) (k : Key) : Soft σ → Answer (Option Entry) × Soft σ :=
  afterDrain d fun s =>
    let (a, below) := d.get k s.below
    (a, noteRead limits k a { s with below })

def put (limits : Limits) (d : Store σ) (k : Key) (e : Entry) : Soft σ → Answer Unit × Soft σ :=
  afterDrain d fun s =>
    match d.put k e s.below with
    | (.error err, below) => (.error err, { s with below })
    | (.ok (), below) =>
      match reconcile d { below, books := s.books.track k e.weight } with
      | (.error err, s) => (.error err, s)
      | (.ok (), s) => (.ok (), enforce limits s)

def contains (d : Store σ) (k : Key) : Soft σ → Answer Bool × Soft σ :=
  afterDrain d fun s =>
    let (r, below) := d.contains k s.below
    (r, { s with below })

def remove (d : Store σ) (k : Key) : Soft σ → Answer (Option Entry) × Soft σ :=
  afterDrain d fun s =>
    let (r, below) := d.remove k s.below
    (r, { below, books := s.books.untrack k })

/-- The retained keys go first, whatever becomes of the rest. -/
def clear (d : Store σ) (s : Soft σ) : Answer Unit × Soft σ :=
  afterDrain d
    (fun s =>
      let (r, below) := d.clear s.below
      (r, { below, books := s.books.clear }))
    { s with books := { s.books with retained := [] } }

def store (limits : Limits) (d : Store σ) : Store (Soft σ) where
  id := d.id
  size := size d
  get := get limits d
  put := put limits d
  contains := contains d
  remove := remove d
  clear := clear d

/-- Reclaims every key that is not retained, and tells how many. -/
def reclaimUnretained (s : Soft σ) : Nat × Soft σ :=
  (s.books.unretained.length, { s with books := s.books.reclaimUnretained })

open Text Diagnostic in
def render (limits : Limits) (id : String) : String :=
  openRecord "SoftEvictingCache"
    [("id", text id), ("retention_size", toString limits.retentionSize),
      ("memory_budget", option toString limits.budget)]

end DataTier.Cache.Soft
