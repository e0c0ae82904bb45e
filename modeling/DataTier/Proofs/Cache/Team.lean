import DataTier.Proofs.Cache.Order
import DataTier.Cache.UnitOfWork

/-! Units of work beside each other on one layer of gates. Each is a client of a crowd: its reads
are the client's reads, and its commit or rollback is a number of calls that settle keys. It
writes a key only where one of its own reads has come back empty, and is over when it has been
committed or rolled back. In what order a plan is carried out is left open.

A team notes which keys are `veiled`: a read has found them below, but its unit of work, which
is to clear the store first, has made a miss of it. -/

namespace DataTier.Cache.Blocking

/-! ## Workers -/

/-- The key that a call of a plan settles, and the entry that it is given. -/
def settlement? : Call → Option (Key × Option Entry)
  | .put k e => some (k, some e)
  | .remove k => some (k, none)
  | _ => none

def settlements (plan : List Call) : List (Key × Option Entry) := plan.filterMap settlement?

inductive Stage where
  | working
  /-- A commit or a rollback, with what is left of it and the first failure so far. -/
  | ending (commits : Bool) (rest : List (Key × Option Entry)) (result : Answer Unit)
  | over

structure Worker where
  unit : UnitOfWork := {}
  /-- The keys for which one of its own reads has come back empty. -/
  blank : List Key := []
  stage : Stage := .working

namespace Worker

def learn (k : Key) (a : Answer (Option Entry)) (x : Worker) : Worker :=
  let (told, unit) := x.unit.learn k a
  { x with unit, blank := if isMiss told then k :: x.blank else x.blank }

/-- Whether the unit of work makes a miss of something that was found. -/
def veils (k : Key) (a : Answer (Option Entry)) (x : Worker) : Bool :=
  isMiss (x.unit.learn k a).1 && !isMiss a

end Worker

def firstOf (result : Answer Unit) (a : Answer (Option Entry)) : Answer Unit :=
  if result.isOk then a.map fun _ => () else result

/-- What the first part of a commit makes of the layer below. -/
def cleared {σ : Type} (d : Store σ) (u : UnitOfWork) (below : σ) : Answer Unit × σ :=
  if u.clearOnCommit then d.clear below else (.ok (), below)

/-! ## Teams -/

structure Team (ι σ : Type) where
  crowd : Crowd ι σ
  workers : ι → Worker := fun _ => {}
  /-- The answers to commits, the latest first. -/
  commits : List (ι × Answer Unit) := []
  veiled : List Key := []

inductive Act (ι σ : Type) where
  | get (i : ι) (k : Key) (now : Time.Instant)
  | put (i : ι) (k : Key) (e : Entry)
  | clear (i : ι)
  | commit (i : ι)
  | rollback (i : ι)
  /-- Begins one of the calls that are left. -/
  | next (i : ι) (n : Nat)
  | step (i : ι) (now : Time.Instant)
  | collect (i : ι)
  /-- Ends a commit or a rollback of which nothing is left. -/
  | conclude (i : ι)
  | below (f : σ → σ)
  | setTimeout (timeout : Option Time.Duration)

namespace Team

variable {ι σ : Type}

def start (below : σ) (timeout : Option Time.Duration) : Team ι σ :=
  { crowd := .start below timeout }

/-- The unit of work is in progress, and no call of it. -/
def isFree (w : Team ι σ) (i : ι) : Bool :=
  match (w.workers i).stage, (w.crowd.clients i).activity with
  | .working, .idle => true
  | _, _ => false

variable [DecidableEq ι]

def assign (w : Team ι σ) (i : ι) (x : Worker) : Team ι σ :=
  { w with workers := Function.update w.workers i x }

/-- If the store is to be cleared it is cleared at once, past all gates. -/
def commit (d : Store σ) (w : Team ι σ) (i : ι) : Team ι σ :=
  let u := (w.workers i).unit
  let s := w.crowd.shared
  let (a, below) := cleared d u s.below
  let crowd := { w.crowd with shared := { s with below }, log := failure i a ++ w.crowd.log }
  assign { w with crowd } i { stage := .ending true (settlements u.commitPlan) a }

def rollback (w : Team ι σ) (i : ι) : Team ι σ :=
  w.assign i { stage := .ending false (settlements (w.workers i).unit.rollbackPlan) (.ok ()) }

/-- The answer to a call is taken in. -/
def take (w : Team ι σ) (i : ι) (k : Key) (a : Answer (Option Entry)) : Team ι σ :=
  let x := w.workers i
  match x.stage with
  | .working =>
    assign { w with veiled := if x.veils k a then k :: w.veiled else w.veiled } i (x.learn k a)
  | .ending commits rest result =>
    w.assign i { x with stage := .ending commits rest (firstOf result a) }
  | .over => w

def act (d : Store σ) (w : Team ι σ) : Act ι σ → Team ι σ
  | .get i k now =>
    if w.isFree i then { w with crowd := w.crowd.move d (.read i k now) } else w
  | .put i k e =>
    let x := w.workers i
    if w.isFree i && k ∈ x.blank then w.assign i { x with unit := x.unit.put k e } else w
  | .clear i =>
    let x := w.workers i
    if w.isFree i then w.assign i { x with unit := x.unit.clear } else w
  | .commit i => if w.isFree i then w.commit d i else w
  | .rollback i => if w.isFree i then w.rollback i else w
  | .next i n =>
    let x := w.workers i
    match x.stage, (w.crowd.clients i).activity with
    | .ending commits rest result, .idle =>
      match rest[n]? with
      | none => w
      | some (k, e) =>
        assign { w with crowd := w.crowd.move d (.settle i k e) } i
          { x with stage := .ending commits (rest.eraseIdx n) result }
    | _, _ => w
  | .step i now => { w with crowd := w.crowd.move d (.step i now) }
  | .collect i =>
    match (w.crowd.clients i).collect with
    | none => w
    | some (_, k, a) => take { w with crowd := w.crowd.move d (.collect i) } i k a
  | .conclude i =>
    let x := w.workers i
    match x.stage, (w.crowd.clients i).activity with
    | .ending commits [] result, .idle =>
      assign { w with commits := if commits then (i, result) :: w.commits else w.commits } i
        { x with stage := .over }
    | _, _ => w
  | .below f => { w with crowd := w.crowd.move d (.below f) }
  | .setTimeout timeout => { w with crowd := w.crowd.move d (.setTimeout timeout) }

def run (d : Store σ) (w : Team ι σ) (as : List (Act ι σ)) : Team ι σ := as.foldl (act d) w

end Team

end DataTier.Cache.Blocking
