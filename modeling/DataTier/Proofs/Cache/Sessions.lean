import DataTier.Cache.Shape
import DataTier.Proofs.Cache.Team

/-! Units of work beside each other on one chain of any shape, each in a session of its own. A
step is one access to what the sessions share, and any session that can move may be the next. A
commit and a rollback settle their keys one after the other, in whatever order. -/

namespace DataTier.Cache

open Blocking (Visit)

/-! ## Sessions -/

inductive Task where
  | idle
  | reading (v : Visit)
  /-- A commit or a rollback, with the call it is busy with and the keys it has still to settle. -/
  | ending (commits : Bool) (call : Option Visit) (rest : List (Key × Option Entry))

namespace Task

def visit? : Task → Option Visit
  | idle => none
  | reading v => some v
  | ending _ call _ => call

def proceed (v : Visit) : Task → Task
  | idle => idle
  | reading _ => reading v
  | ending commits _ rest => ending commits (some v) rest

/-- Whether a rollback is under way. -/
def undoes : Task → Bool
  | ending false _ _ => true
  | _ => false

end Task

structure Session where
  unit : UnitOfWork := {}
  task : Task := .idle

structure Sessions (ι : Type) (s : Shape) where
  chain : s.State
  session : ι → Session := fun _ => {}

namespace Sessions

inductive Event (ι : Type) where
  | get (i : ι) (k : Key) (now : Time.Instant)
  | put (i : ι) (k : Key) (e : Entry)
  | clear (i : ι)
  | commit (i : ι) (now : Time.Instant)
  | rollback (i : ι)
  /-- Begins with one of the keys that are left, or ends what has none left. -/
  | next (i : ι) (n : Nat)
  | step (i : ι) (now : Time.Instant)
  /-- The answer to a call is taken in. -/
  | collect (i : ι)

variable {ι : Type} {s : Shape}

def start (s : Shape) : Sessions ι s := { chain := s.initial }

variable [DecidableEq ι]

def assign (w : Sessions ι s) (i : ι) (x : Session) : Sessions ι s :=
  { w with session := Function.update w.session i x }

/-- If the chain is to be cleared it is cleared at once, past all gates. -/
def commit (w : Sessions ι s) (i : ι) (now : Time.Instant) : Sessions ι s :=
  let u := (w.session i).unit
  let chain := if u.clearOnCommit then ((s.store now).clear w.chain).2 else w.chain
  assign { w with chain } i { task := .ending true none (Blocking.settlements u.commitPlan) }

def rollback (w : Sessions ι s) (i : ι) : Sessions ι s :=
  let u := (w.session i).unit
  w.assign i { task := .ending false none (Blocking.settlements u.rollbackPlan) }

/-- Whoever is busy begins nothing else. -/
def act (w : Sessions ι s) : Event ι → Sessions ι s
  | .get i k now =>
    let x := w.session i
    match x.task with
    | .idle => w.assign i { x with task := .reading (s.visitor now k w.chain) }
    | _ => w
  | .put i k e =>
    let x := w.session i
    match x.task with
    | .idle => w.assign i { x with unit := x.unit.put k e }
    | _ => w
  | .clear i =>
    let x := w.session i
    match x.task with
    | .idle => w.assign i { x with unit := x.unit.clear }
    | _ => w
  | .commit i now =>
    match (w.session i).task with
    | .idle => w.commit i now
    | _ => w
  | .rollback i =>
    match (w.session i).task with
    | .idle => w.rollback i
    | _ => w
  | .next i n =>
    let x := w.session i
    match x.task with
    | .ending commits none rest =>
      match rest[n]? with
      | some (k, e) =>
        let v := e.elim (.giveUp k) (.write k)
        w.assign i { x with task := .ending commits (some v) (rest.eraseIdx n) }
      | none => if rest.isEmpty then w.assign i { x with task := .idle } else w
    | _ => w
  | .step i now =>
    let x := w.session i
    match x.task.visit? with
    | none => w
    | some v =>
      match s.step now v w.chain with
      | none => w
      | some (v', chain) => assign { w with chain } i { x with task := x.task.proceed v' }
  | .collect i =>
    let x := w.session i
    match x.task with
    | .reading v =>
      match v.answer? with
      | none => w
      | some a => w.assign i { unit := (x.unit.learn v.key a).2 }
    | .ending commits (some v) rest =>
      if v.answer?.isSome then w.assign i { x with task := .ending commits none rest } else w
    | _ => w

def run (w : Sessions ι s) (es : List (Event ι)) : Sessions ι s := es.foldl act w

/-! ## What an event does -/

inductive Move (w : Sessions ι s) : Event ι → Sessions ι s → Prop
  /-- The session is busy with something else, or has to wait. -/
  | stays (e : Event ι) : Move w e w
  | reads {i : ι} {k : Key} {now : Time.Instant} (idle : (w.session i).task = .idle) :
    Move w (.get i k now)
      (w.assign i { w.session i with task := .reading (s.visitor now k w.chain) })
  /-- What a unit of work keeps to itself. -/
  | edits (e : Event ι) {i : ι} {u : UnitOfWork} (idle : (w.session i).task = .idle)
      (missed : u.missed = (w.session i).unit.missed) :
    Move w e (w.assign i { w.session i with unit := u })
  | commits {i : ι} {now : Time.Instant} (idle : (w.session i).task = .idle) :
    Move w (.commit i now) (w.commit i now)
  | rollsBack {i : ι} (idle : (w.session i).task = .idle) : Move w (.rollback i) (w.rollback i)
  | begins {i : ι} {n : Nat} {commits : Bool} {rest : List (Key × Option Entry)} {k : Key}
      {e : Option Entry} (task : (w.session i).task = .ending commits none rest)
      (look : rest[n]? = some (k, e)) :
    Move w (.next i n) (w.assign i { w.session i with
      task := .ending commits (some (e.elim (.giveUp k) (.write k))) (rest.eraseIdx n) })
  | ends {i : ι} {n : Nat} {commits : Bool} (task : (w.session i).task = .ending commits none []) :
    Move w (.next i n) (w.assign i { w.session i with task := .idle })
  | steps {i : ι} {now : Time.Instant} {v v' : Visit} {chain : s.State}
      (visit : (w.session i).task.visit? = some v)
      (step : s.step now v w.chain = some (v', chain)) :
    Move w (.step i now) (assign { w with chain } i
      { w.session i with task := (w.session i).task.proceed v' })
  | learns {i : ι} {v : Visit} {a : Answer (Option Entry)}
      (task : (w.session i).task = .reading v) (answer : v.answer? = some a) :
    Move w (.collect i) (w.assign i { unit := ((w.session i).unit.learn v.key a).2 })
  | settles {i : ι} {commits : Bool} {v : Visit} {rest : List (Key × Option Entry)}
      (task : (w.session i).task = .ending commits (some v) rest)
      (answered : v.answer?.isSome = true) :
    Move w (.collect i) (w.assign i { w.session i with task := .ending commits none rest })

theorem act_moves (w : Sessions ι s) (e : Event ι) : Move w e (w.act e) := by
  cases e with
  | get i k now =>
    simp only [act]
    split
    · exact .reads ‹_›
    · exact .stays _
  | put i k e =>
    simp only [act]
    split
    · exact .edits _ ‹_› rfl
    · exact .stays _
  | clear i =>
    simp only [act]
    split
    · exact .edits _ ‹_› rfl
    · exact .stays _
  | commit i now =>
    simp only [act]
    split
    · exact .commits ‹_›
    · exact .stays _
  | rollback i =>
    simp only [act]
    split
    · exact .rollsBack ‹_›
    · exact .stays _
  | next i n =>
    simp only [act]
    split
    · rename_i commits rest task
      split
      · exact .begins task ‹_›
      · split
        · rename_i none_left
          rw [List.isEmpty_iff] at none_left
          exact .ends (none_left ▸ task)
        · exact .stays _
    · exact .stays _
  | step i now =>
    simp only [act]
    split
    · exact .stays _
    · split
      · exact .stays _
      · exact .steps ‹_› ‹_›
  | collect i =>
    simp only [act]
    split
    · rename_i v task
      split
      · exact .stays _
      · exact .learns task ‹_›
    · rename_i commits v rest task
      split
      · exact .settles task ‹_›
      · exact .stays _
    · exact .stays _

end Sessions

end DataTier.Cache
