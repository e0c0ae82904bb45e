import DataTier.Proofs.Cache.Visit
import Mathlib.Data.List.Count
import Mathlib.Logic.Function.Basic

/-! Any number of clients at the gates of one layer, their calls interleaved step by step in
any order. A client that has missed a key owes it until it settles it: it writes the key or
gives it up. A crowd keeps a log of what matters about gates, and notes the keys that were
settled by a client that did not owe them (`strays`).

`Orderly` says what the gates have to do with the clients, and every move keeps it
(`Orderly.step`): a key's gate is in the table exactly as long as the client that closed it
has the key in its hands, except for keys that went astray. -/

namespace DataTier.Cache.Blocking

/-! ## Clients -/

def isMiss : Answer (Option Entry) → Bool
  | .ok none => true
  | _ => false

/-- A read has its key in hand from when it passes the gate until it has taken the gate out of
the table again; where it ends in a miss it does not let go of the key. -/
def Phase.readHolds : Phase → Bool
  | reading | leaving _ => true
  | finished a => isMiss a
  | _ => false

/-- A call that settles a key has it in hand until it has taken the gate out of the table. -/
def Phase.settlingHolds : Phase → Bool
  | writing _ | leaving _ => true
  | _ => false

/-- The call that a client is busy with. -/
inductive Activity where
  | idle
  | reading (v : Visit)
  /-- Writes a key or gives it up. -/
  | settling (v : Visit)

namespace Activity

def visit? : Activity → Option Visit
  | idle => none
  | reading v | settling v => some v

def proceed (v : Visit) : Activity → Activity
  | idle => idle
  | reading _ => reading v
  | settling _ => settling v

/-- The key that the call has in hand. -/
def held? : Activity → Option Key
  | idle => none
  | reading v => if v.phase.readHolds then some v.key else none
  | settling v => if v.phase.settlingHolds then some v.key else none

end Activity

structure Client where
  /-- The keys it has missed, and has not begun to settle since. -/
  owed : List Key := []
  activity : Activity := .idle

namespace Client

/-- The keys that are in the client's hands: by its call, or between a miss and the call that
settles the key. -/
def held (c : Client) : List Key := c.activity.held?.toList ++ c.owed

def read (id : String) (now : Time.Instant) (k : Key) (timeout : Option Time.Duration)
    (c : Client) : Client :=
  { c with activity := .reading (.read id now k timeout) }

/-- With an entry the key is written, without one it is given up. -/
def settle (k : Key) (e : Option Entry) (c : Client) : Client :=
  { owed := c.owed.erase k, activity := .settling (e.elim (.giveUp k) (.write k)) }

/-- The client that has taken the answer to its call, the key of the call, and the answer. -/
def collect (c : Client) : Option (Client × Key × Answer (Option Entry)) :=
  match c.activity with
  | .idle => none
  | .reading v =>
    v.answer?.map fun a =>
      ({ owed := if isMiss a then v.key :: c.owed else c.owed }, v.key, a)
  | .settling v => v.answer?.map fun a => ({ owed := c.owed }, v.key, a)

end Client

/-! ## Crowds -/

inductive Deed (ι : Type) where
  /-- A client's read has closed the gate. -/
  | closed (i : ι) (k : Key) (gate : Nat)
  /-- A client's call has opened the gate. -/
  | opened (i : ι) (k : Key) (gate : Nat)
  /-- The layer below has failed a client's call. -/
  | failedBelow (i : ι) (e : Error)
  /-- A client has taken the answer to its call. -/
  | answered (i : ι) (k : Key) (a : Answer (Option Entry))

structure Crowd (ι σ : Type) where
  shared : Blocking σ
  clients : ι → Client := fun _ => {}
  /-- The latest first. -/
  log : List (Deed ι) := []
  strays : List Key := []

inductive Move (ι σ : Type) where
  | read (i : ι) (k : Key) (now : Time.Instant)
  | settle (i : ι) (k : Key) (e : Option Entry)
  /-- The call of a client takes one step, if it need not wait. -/
  | step (i : ι) (now : Time.Instant)
  | collect (i : ι)
  /-- Something passes all gates by and changes the layer below. -/
  | below (f : σ → σ)
  | setTimeout (timeout : Option Time.Duration)

variable {ι σ α : Type}

def failure (i : ι) : Answer α → List (Deed ι)
  | .ok _ => []
  | .error e => [.failedBelow i e]

/-- What the next step of a visit will have done. -/
def Visit.deeds (d : Store σ) (i : ι) (v : Visit) (s : Blocking σ) : List (Deed ι) :=
  match v.phase with
  | .entering =>
    match s.gates.table.get? v.key with
    | none => [.closed i v.key s.gates.next]
    | some _ => []
  | .reading => failure i (d.get v.key s.below).1
  | .writing e => failure i (d.put v.key e s.below).1
  | .opening gate _ => [.opened i v.key gate]
  | _ => []

namespace Crowd

def start (below : σ) (timeout : Option Time.Duration) : Crowd ι σ :=
  { shared := { below, gates := Gates.setTimeout {} timeout } }

variable [DecidableEq ι]

def advance (d : Store σ) (w : Crowd ι σ) (i : ι) (v v' : Visit) (shared : Blocking σ) :
    Crowd ι σ :=
  let c := w.clients i
  { w with
    shared
    clients := Function.update w.clients i { c with activity := c.activity.proceed v' }
    log := v.deeds d i w.shared ++ w.log }

/-- A client who is busy begins no other call. -/
def move (d : Store σ) (w : Crowd ι σ) : Move ι σ → Crowd ι σ
  | .read i k now =>
    let c := w.clients i
    match c.activity with
    | .idle =>
      { w with clients := Function.update w.clients i (c.read d.id now k w.shared.gates.timeout) }
    | _ => w
  | .settle i k e =>
    let c := w.clients i
    match c.activity with
    | .idle =>
      { w with
        clients := Function.update w.clients i (c.settle k e)
        strays := if k ∈ c.owed then w.strays else k :: w.strays }
    | _ => w
  | .step i now =>
    match (w.clients i).activity.visit? with
    | none => w
    | some v =>
      match v.step d now w.shared with
      | none => w
      | some (v', shared) => w.advance d i v v' shared
  | .collect i =>
    match (w.clients i).collect with
    | none => w
    | some (c, k, a) =>
      { w with clients := Function.update w.clients i c, log := .answered i k a :: w.log }
  | .below f => { w with shared := { w.shared with below := f w.shared.below } }
  | .setTimeout timeout =>
    { w with shared := { w.shared with gates := w.shared.gates.setTimeout timeout } }

def run (d : Store σ) (w : Crowd ι σ) (ms : List (Move ι σ)) : Crowd ι σ := ms.foldl (move d) w

end Crowd

end DataTier.Cache.Blocking
