import DataTier.Pool.Service

/-! One way to run the callers, until nobody can go on. The first of those who can visits the
pool again and again for a whole turn. If it is not done by then, the others line up behind
it, and from there on each pays one visit before the first comes again. While time passes,
deadlines are met in their order. -/

namespace DataTier.Pool.Service

variable {κ δ : Type} [DecidableEq κ]

/-- Callers that are done with asking, with what they got. -/
abbrev Finished (κ : Type) := List (κ × Reply)

/-- So many visits a caller pays to the pool before it has to share it. -/
def turnLength : Nat := 128

/-- The callers that go on, in their order, and how many visits the first has left before
the others come. -/
structure Turn (κ : Type) where
  line : List κ := []
  left : Nat := turnLength

/-- A turn begins with the first who can go on; at its end everybody else joins the line. -/
def Turn.lineUp (t : Turn κ) (s : Service κ δ) : Turn κ :=
  match t.line, t.left with
  | [], _ => { line := s.ready.take 1 }
  | line, 0 => { t with line := line ++ s.ready.filter (· ∉ line) }
  | _, _ => t

def settleIn (D : Driver δ) : Nat → Turn κ → Service κ δ → Finished κ × Service κ δ
  | 0, _, s => ([], s)
  | visits + 1, t, s =>
    let t := t.lineUp s
    match t.line with
    | [] => ([], s)
    | caller :: rest =>
      match s.serve D (.resume caller) with
      | (.retrying, s) => settleIn D visits ⟨rest ++ [caller], t.left - 1⟩ s
      | (.waiting, s) => settleIn D visits ⟨rest, t.left - 1⟩ s
      | (reply, s) =>
        let (finished, s) := settleIn D visits ⟨rest, t.left - 1⟩ s
        ((caller, reply) :: finished, s)

/-- Nobody pays more visits than this: one for each candidate, of which one more than the
limit may be bad, one after the wait before them, and two about a second wait, which a kept
notice ends at once. -/
def settle (D : Driver δ) (s : Service κ δ) : Finished κ × Service κ δ :=
  let callers := s.queue.waiters.length + s.retrying.length
  settleIn D (callers * (s.pool.state.settings.badConnectionLimit + 4)) {} s

/-- Serves a request, then everybody who can go on; a caller that asked for a connection
has its answer unless it waits. -/
def perform (D : Driver δ) (r : Request κ) (s : Service κ δ) :
    Reply × Finished κ × Service κ δ :=
  let (reply, s) := s.serve D r
  let (finished, s) := s.settle D
  match r, reply with
  | .acquire caller _, .retrying =>
    (((Table.get? finished caller).getD .waiting), finished.filter (·.1 ≠ caller), s)
  | _, reply => (reply, finished, s)

def nextDeadline? (s : Service κ δ) : Option Time.Instant :=
  (s.queue.waiters.filterMap (·.deadline)).foldl
    (fun best t => match best with
      | none => some t
      | some b => if t.nanoseconds < b.nanoseconds then some t else some b) none

def passUntil (D : Driver δ) (target : Time.Instant) : Nat → Service κ δ → Finished κ × Service κ δ
  | 0, s => ([], s)
  | rounds + 1, s =>
    let stop := match s.nextDeadline? with
      | none => target
      | some t => if target.reached t then t else target
    let s := (s.serve D (.elapse (stop.since s.now))).2
    let (finished, s) := s.settle D
    if s.now.reached target then (finished, s)
    else
      let (later, s) := passUntil D target rounds s
      (finished ++ later, s)

/-- Time passes, and every deadline in it is met; each is a nanosecond apart at least. -/
def pass (D : Driver δ) (d : Time.Duration) (s : Service κ δ) : Finished κ × Service κ δ :=
  passUntil D (s.now.plus d) (d.nanoseconds + 1) s

end DataTier.Pool.Service
