import DataTier.Cache.Blocking.Visit
import DataTier.Text.Diagnostic

/-! A layer that lets one caller at a time compute a missing key. As a store it serves a
caller who is alone: where such a caller has to wait, it waits until its time is up, for
nobody is there to open the gate. When its time is up depends on when it has come. -/

namespace DataTier.Cache.Blocking

variable {σ : Type}

/-- Alone, a caller that comes now finds out at its deadline whether it has waited in vain. -/
def alone (d : Store σ) (now : Time.Instant) (v : Visit) (s : Blocking σ) :
    Answer (Option Entry) × Blocking σ :=
  let (v, s) := v.settle d (v.deadline.getD now) s
  (v.answer?.getD (.error (.stalled v.key d.id)), s)

def get (d : Store σ) (now : Time.Instant) (k : Key) (s : Blocking σ) :
    Answer (Option Entry) × Blocking σ :=
  alone d now (.read d.id now k s.gates.timeout) s

def put (d : Store σ) (now : Time.Instant) (k : Key) (e : Entry) (s : Blocking σ) :
    Answer Unit × Blocking σ :=
  let (a, s) := alone d now (.write k e) s
  (a.map fun _ => (), s)

/-- Opens the gate; the layer below keeps what it has. -/
def remove (d : Store σ) (now : Time.Instant) (k : Key) (s : Blocking σ) :
    Answer (Option Entry) × Blocking σ :=
  alone d now (.giveUp k) s

def onBelow {α : Type} (f : σ → Answer α × σ) (s : Blocking σ) : Answer α × Blocking σ :=
  let (a, below) := f s.below
  (a, { s with below })

/-- Asking whether a key is held, counting and clearing pass all gates by. -/
def store (d : Clocked σ) : Clocked (Blocking σ) := fun now =>
  { id := (d now).id
    size := onBelow (d now).size
    get := get (d now) now
    put := put (d now) now
    contains := fun k => onBelow ((d now).contains k)
    remove := remove (d now) now
    clear := onBelow (d now).clear }

open Text Diagnostic in
def render (id : String) (g : Gates) : String :=
  openRecord "BlockingCache"
    [("id", text id), ("timeout", option Time.Duration.render g.timeout),
      ("locked_keys", toString g.lockedKeys)]

end DataTier.Cache.Blocking
