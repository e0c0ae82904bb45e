import DataTier.Cache.Entry
import DataTier.Time.Instant

/-! What every layer of a cache offers, over a state of its own. An operation gives its
answer together with the state it leaves behind, also when it fails. Operations are data
as well: a list of them can be performed in turn, none being left out when one fails. What
an operation comes to may depend on when it is begun, so a layer is a store for each reading
of the clock. -/

namespace DataTier.Cache

abbrev Answer (α : Type) := Except Error α

structure Store (σ : Type) where
  /-- All layers of one chain have the name of its lowest. -/
  id : String
  size : σ → Answer Nat × σ
  /-- No entry means a miss. -/
  get : Key → σ → Answer (Option Entry) × σ
  put : Key → Entry → σ → Answer Unit × σ
  /-- Does not count as an access where a layer can tell without one. -/
  contains : Key → σ → Answer Bool × σ
  remove : Key → σ → Answer (Option Entry) × σ
  clear : σ → Answer Unit × σ

inductive Call where
  | size
  | get (k : Key)
  | put (k : Key) (e : Entry)
  | contains (k : Key)
  | remove (k : Key)
  | clear
  deriving Repr

inductive Reply where
  | count (n : Nat)
  | entry (e : Option Entry)
  | flag (b : Bool)
  | done
  deriving Repr

namespace Store

variable {σ ω : Type}

def perform (d : Store σ) : Call → σ → Answer Reply × σ
  | .size, s => let (r, s) := d.size s; (r.map .count, s)
  | .get k, s => let (r, s) := d.get k s; (r.map .entry, s)
  | .put k e, s => let (r, s) := d.put k e s; (r.map fun _ => .done, s)
  | .contains k, s => let (r, s) := d.contains k s; (r.map .flag, s)
  | .remove k, s => let (r, s) := d.remove k s; (r.map .entry, s)
  | .clear, s => let (r, s) := d.clear s; (r.map fun _ => .done, s)

/-- The answers in order, and the state after the last operation. -/
def run (d : Store σ) : List Call → σ → List (Answer Reply) × σ
  | [], s => ([], s)
  | c :: cs, s =>
    let (r, s) := d.perform c s
    let (rs, s) := run d cs s
    (r :: rs, s)

/-- The first failure of several, if any. -/
def firstFailure : List (Answer Reply) → Answer Unit
  | [] => .ok ()
  | .error e :: _ => .error e
  | .ok _ :: rs => firstFailure rs

def performAll (d : Store σ) (cs : List Call) (s : σ) : Answer Unit × σ :=
  let (rs, s) := d.run cs s
  (firstFailure rs, s)

/-- Reads a key, and writes an entry for it if it is missed; says whether it was. -/
def getOrPut (d : Store σ) (k : Key) (e : Entry) (s : σ) : Answer Entry × Bool × σ :=
  match d.get k s with
  | (.error err, s) => (.error err, false, s)
  | (.ok (some held), s) => (.ok held, false, s)
  | (.ok none, s) =>
    let (a, s) := d.put k e s
    (a.map fun _ => e, true, s)

/-- A store on a part of a larger state. -/
def within (d : Store σ) (part : ω → σ) (replace : ω → σ → ω) : Store ω :=
  let lift {α : Type} (f : σ → α × σ) (w : ω) : α × ω :=
    let (a, s) := f (part w)
    (a, replace w s)
  { id := d.id
    size := lift d.size
    get := fun k => lift (d.get k)
    put := fun k e => lift (d.put k e)
    contains := fun k => lift (d.contains k)
    remove := fun k => lift (d.remove k)
    clear := lift d.clear }

theorem run_append (d : Store σ) (cs ds : List Call) (s : σ) :
    d.run (cs ++ ds) s =
      ((d.run cs s).1 ++ (d.run ds (d.run cs s).2).1, (d.run ds (d.run cs s).2).2) := by
  induction cs generalizing s with
  | nil => simp [run]
  | cons c cs ih => simp [run, ih]

theorem firstFailure_eq_ok_iff (rs : List (Answer Reply)) :
    firstFailure rs = .ok () ↔ ∀ e, .error e ∉ rs := by
  induction rs with
  | nil => simp [firstFailure]
  | cons r rs ih =>
    cases r with
    | error e => simp only [firstFailure, reduceCtorEq, false_iff]; exact fun h => h e (by simp)
    | ok a => simp [firstFailure, ih]

end Store

/-- A store at each reading of the clock. -/
abbrev Clocked (σ : Type) := Time.Instant → Store σ

namespace Clocked

variable {σ ω : Type}

/-- No layer's name depends on the time. -/
def id (d : Clocked σ) : String := (d .start).id

def within (d : Clocked σ) (part : ω → σ) (replace : ω → σ → ω) : Clocked ω :=
  fun now => (d now).within part replace

end Clocked

end DataTier.Cache
