import DataTier.Cache.Store
import DataTier.Table

/-! A layer that watches the one below: it logs the calls it passes on, and fails the next
calls of a kind when told to, before they reach the layer below. To find out whether a key
is held it reads the entry. -/

namespace DataTier.Cache

inductive CallKind where
  | size
  | get
  | put
  | remove
  | clear
  deriving DecidableEq, Repr

def CallKind.name : CallKind → String
  | .size => "size"
  | .get => "get"
  | .put => "put"
  | .remove => "remove"
  | .clear => "clear"

def CallKind.all : List CallKind := [.size, .get, .put, .remove, .clear]

def CallKind.ofName? (s : String) : Option CallKind := all.find? fun c => c.name = s

structure Probe (σ : Type) where
  below : σ
  log : List String := []
  /-- How many of the next calls of a kind are to fail. -/
  faults : Table CallKind Nat := []

namespace Probe

variable {σ : Type}

def note (c : CallKind) (k : Option Key) : String :=
  match k with
  | none => c.name
  | some k => c.name ++ " " ++ k.text

/-- Every call is logged, failing ones too. -/
def pass {α : Type} (c : CallKind) (k : Option Key) (f : σ → Answer α × σ) (p : Probe σ) :
    Answer α × Probe σ :=
  let p := { p with log := p.log ++ [note c k] }
  match p.faults.get? c with
  | some (n + 1) => (.error (.conversion (.injected c.name)), { p with faults := p.faults.set c n })
  | _ =>
    let (r, below) := f p.below
    (r, { p with below })

def get (d : Store σ) (k : Key) (p : Probe σ) : Answer (Option Entry) × Probe σ :=
  pass .get (some k) (d.get k) p

def contains (d : Store σ) (k : Key) (p : Probe σ) : Answer Bool × Probe σ :=
  let (r, p) := get d k p
  (r.map Option.isSome, p)

def store (d : Store σ) : Store (Probe σ) where
  id := d.id
  size := pass .size none d.size
  get := get d
  put k e := pass .put (some k) (d.put k e)
  contains := contains d
  remove k := pass .remove (some k) (d.remove k)
  clear := pass .clear none d.clear

def fail (c : CallKind) (times : Nat) (p : Probe σ) : Probe σ :=
  { p with faults := p.faults.set c times }

/-- The log so far, which starts anew. -/
def takeLog (p : Probe σ) : List String × Probe σ := (p.log, { p with log := [] })

end DataTier.Cache.Probe
