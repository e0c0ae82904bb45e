import DataTier.Cache.Blocking.Gates
import DataTier.Cache.Store

/-! A caller on its way through the gates. Each step is one access to what callers share:
the table of gates, a gate, or the layer below. A read closes the key's gate or waits for
the one that is closed; having read a hit, or failed, it opens the gate again, and after a
miss it leaves it closed. A write opens the gate after it, a removal does nothing else. -/

namespace DataTier.Cache

structure Blocking (σ : Type) where
  below : σ
  gates : Blocking.Gates := {}

namespace Blocking

inductive Phase where
  | entering
  | waiting (gate : Nat)
  | reading
  | writing (e : Entry)
  /-- About to take the key's gate out of the table. -/
  | leaving (answer : Answer (Option Entry))
  /-- About to open a gate that is out of the table. -/
  | opening (gate : Nat) (answer : Answer (Option Entry))
  | finished (answer : Answer (Option Entry))

structure Visit where
  key : Key
  phase : Phase
  timeout : Option Time.Duration := none
  deadline : Option Time.Instant := none

variable {σ : Type}

namespace Visit

/-- A reader knows from the start when it will have waited too long. -/
def read (id : String) (now : Time.Instant) (k : Key) (timeout : Option Time.Duration) : Visit :=
  match timeout with
  | none => { key := k, phase := .entering }
  | some t =>
    match now.after? t with
    | none => { key := k, phase := .finished (.error (.deadline k id t)), timeout }
    | some deadline => { key := k, phase := .entering, timeout, deadline := some deadline }

def write (k : Key) (e : Entry) : Visit := { key := k, phase := .writing e }

def giveUp (k : Key) : Visit := { key := k, phase := .leaving (.ok none) }

def hasExpired (v : Visit) (now : Time.Instant) : Bool :=
  match v.deadline with
  | none => false
  | some t => now.reached t

def answer? (v : Visit) : Option (Answer (Option Entry)) :=
  match v.phase with
  | .finished a => some a
  | _ => none

def finish (a : Answer (Option Entry)) (v : Visit) : Visit := { v with phase := .finished a }

def expire (id : String) (v : Visit) : Visit :=
  let e : Error := .lockTimeout v.key id (v.timeout.getD .zero)
  { v with phase := .finished (.error e) }

/-- The phase after the layer below was read. -/
def afterRead : Answer (Option Entry) → Phase
  | .ok none => .finished (.ok none)
  | a => .leaving a

/-- One step, or none for a visit that is over or has to wait. -/
def step (d : Store σ) (now : Time.Instant) (v : Visit) (s : Blocking σ) :
    Option (Visit × Blocking σ) :=
  match v.phase with
  | .entering =>
    match s.gates.table.get? v.key with
    | none => some ({ v with phase := .reading }, { s with gates := s.gates.close v.key })
    | some gate => some ({ v with phase := .waiting gate }, s)
  | .waiting gate =>
    if !s.gates.isShut gate then some ({ v with phase := .entering }, s)
    else if v.hasExpired now then some (v.expire d.id, s)
    else none
  | .reading =>
    let (a, below) := d.get v.key s.below
    some ({ v with phase := afterRead a }, { s with below })
  | .writing e =>
    let (a, below) := d.put v.key e s.below
    some ({ v with phase := .leaving (a.map fun _ => none) }, { s with below })
  | .leaving a =>
    match s.gates.table.get? v.key with
    | none => some ({ v with phase := .finished (.error (.invalidRelease v.key d.id)) }, s)
    | some gate =>
      some ({ v with phase := .opening gate a }, { s with gates := s.gates.takeOut v.key })
  | .opening gate a =>
    some ({ v with phase := .finished a }, { s with gates := s.gates.release gate })
  | .finished _ => none

def steps (d : Store σ) (now : Time.Instant) : Nat → Visit → Blocking σ → Visit × Blocking σ
  | 0, v, s => (v, s)
  | n + 1, v, s =>
    match v.step d now s with
    | none => (v, s)
    | some (v, s) => steps d now n v s

/-- As far as the visit gets while nobody else moves: entering, reading, leaving and
opening, after at most one gate that is found open. -/
def settle (d : Store σ) (now : Time.Instant) (v : Visit) (s : Blocking σ) : Visit × Blocking σ :=
  steps d now 8 v s

/-- As far as the layer below while nobody else moves: past the gate, if need be after one
that is found open. -/
def approach (d : Store σ) (now : Time.Instant) : Nat → Visit → Blocking σ → Visit × Blocking σ
  | 0, v, s => (v, s)
  | n + 1, v, s =>
    match v.phase with
    | .entering | .waiting _ =>
      match v.step d now s with
      | none => (v, s)
      | some (v, s) => approach d now n v s
    | _ => (v, s)

end DataTier.Cache.Blocking.Visit
