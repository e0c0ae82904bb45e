import DataTier.Pool.Acquire

/-! Callers that wait for a connection, the longest waiting first. A notice for one goes
to the first caller that has none; if there is no such caller it is kept for the next one
that comes, and one notice at most is kept. A notice for all is for those who wait now. A
caller whose time is up stays in its place until it has its turn at the pool, but takes no
notice along that comes so late. -/

namespace DataTier.Pool

inductive Notice where
  | forOne
  | forAll
  deriving DecidableEq, Repr

structure Waiter (κ : Type) where
  caller : κ
  attempt : Attempt
  since : Time.Instant
  /-- Without one the caller waits for a notice. -/
  deadline : Option Time.Instant
  notice : Option Notice := none
  /-- The caller has found its time to be up before any notice has come. -/
  expired : Bool := false

namespace Waiter

variable {κ : Type}

def isReady (now : Time.Instant) (w : Waiter κ) : Bool :=
  w.notice.isSome || w.deadline.any now.reached

/-- Only a notice that has not come yet is given. -/
def notify (n : Notice) (w : Waiter κ) : Waiter κ :=
  if w.notice.isSome then w else { w with notice := some n }

/-- A time to wait of no length is no limit. -/
def enter (caller : κ) (attempt : Attempt) (now : Time.Instant) (limit : Time.Duration) :
    Waiter κ where
  caller := caller
  attempt := attempt
  since := now
  deadline := limit.positive?.map now.plus

end Waiter

structure Queue (κ : Type) where
  waiters : List (Waiter κ) := []
  /-- A notice for one that nobody has received. -/
  kept : Bool := false

namespace Queue

variable {κ : Type}

/-- The first waiter without a notice receives one. -/
def notifyFirst : List (Waiter κ) → Option (List (Waiter κ))
  | [] => none
  | w :: rest =>
    if w.notice.isSome then (notifyFirst rest).map (w :: ·)
    else some (w.notify .forOne :: rest)

def notifyOne (q : Queue κ) : Queue κ :=
  match notifyFirst q.waiters with
  | some waiters => { q with waiters }
  | none => { q with kept := true }

def notifyAll (q : Queue κ) : Queue κ := { q with waiters := q.waiters.map (·.notify .forAll) }

/-- A kept notice is for the newcomer. -/
def join (w : Waiter κ) (q : Queue κ) : Queue κ :=
  if q.kept then { waiters := q.waiters ++ [w.notify .forOne], kept := false }
  else { q with waiters := q.waiters ++ [w] }

variable [DecidableEq κ]

def waiter? (caller : κ) (q : Queue κ) : Option (Waiter κ) :=
  q.waiters.find? (·.caller = caller)

def remove (caller : κ) (q : Queue κ) : Queue κ :=
  { q with waiters := q.waiters.filter (·.caller ≠ caller) }

/-- A caller that gives up hands a notice for one on to the next. -/
def leave (caller : κ) (q : Queue κ) : Queue κ :=
  let rest := q.remove caller
  match (q.waiter? caller).bind (·.notice) with
  | some .forOne => rest.notifyOne
  | _ => rest

def expire (caller : κ) (q : Queue κ) : Queue κ :=
  { q with waiters := q.waiters.map fun w =>
      if w.caller = caller then { w with expired := true } else w }

/-- A caller that goes on uses up its notice, or hands it on if it does not go on because of it. -/
def goOn (caller : κ) (q : Queue κ) : Queue κ :=
  if (q.waiter? caller).any (·.expired) then q.leave caller else q.remove caller

omit [DecidableEq κ] in
/-- A notice for all changes nothing but the notices. -/
theorem callers_notifyAll (q : Queue κ) :
    q.notifyAll.waiters.map (·.caller) = q.waiters.map (·.caller) := by
  simp only [notifyAll, List.map_map]
  refine List.map_congr_left fun w _ => ?_
  simp only [Function.comp_apply, Waiter.notify]
  split <;> rfl

end DataTier.Pool.Queue
