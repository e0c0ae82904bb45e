import DataTier.Proofs.Pool.Seats
import DataTier.Proofs.Simulation.Moves

/-! Workers and their connections. A worker has a connection from when it is handed one until it
gives it back, also while it waits at a gate, and has been handed one for each lookup it has begun
(`Staffed`). So where no worker fails, the requests that the pool has counted are those lookups,
and when all workers are through, nobody has a connection. -/

namespace DataTier.Simulation

open Cache (Shape)

/-- The worker has a connection. -/
def Phase.Sits : Phase → Prop
  | .reading _ | .missed _ | .ending .. | .returning _ => True
  | .starting | .asking | .finished | .failed _ => False

instance (p : Phase) : Decidable p.Sits := by
  cases p <;> simp only [Phase.Sits] <;> infer_instance

/-- How many connections the worker has been handed. -/
def Worker.granted (x : Worker) : Nat := x.iteration + if x.phase.Sits then 1 else 0

namespace World

variable {s : Shape} {w u : World s} {i : Nat} {x x' : Worker} {source : Source.DataSource}
  {settings : Pool.Settings}

def requests (w : World s) : Nat := w.desk.pool.state.counters.requests

structure Staffed (source : Source.DataSource) (settings : Pool.Settings) (w : World s) : Prop where
  history : ∃ rs, w.desk = (Pool.Service.start source settings {}).run Server.driver rs
  manned : w.desk.Manned
  seated : ∀ i c, w.desk.held.get? i = some c → ∃ x, w.workers[i]? = some x ∧ x.phase.Sits
  requests : w.requests = (w.workers.map Worker.granted).sum

theorem Staffed.history_serve (h : w.Staffed source settings) (r : Pool.Request Nat) :
    ∃ rs, (w.desk.serve Server.driver r).2 =
      (Pool.Service.start source settings {}).run Server.driver rs := by
  obtain ⟨rs, past⟩ := h.history
  exact ⟨rs ++ [r], by rw [Pool.Service.run_append, ← past]; rfl⟩

theorem Staffed.sits (h : w.Staffed source settings) (at_i : w.workers[i]? = some x)
    {c : Pool.Checkout} (has : w.desk.held.get? i = some c) : x.phase.Sits := by
  obtain ⟨y, at_i', sits⟩ := h.seated i c has
  obtain rfl := Option.some.inj (at_i.symm.trans at_i')
  exact sits

/-- What a step has to show of the worker that makes it. -/
theorem Staffed.turn (h : w.Staffed source settings) (at_i : w.workers[i]? = some x)
    (history : ∃ rs, u.desk = (Pool.Service.start source settings {}).run Server.driver rs)
    (manned : u.desk.Manned)
    (others : ∀ k, k ≠ i → u.desk.held.get? k = w.desk.held.get? k)
    (place : ∀ c, u.desk.held.get? i = some c → x'.phase.Sits)
    (requests : u.requests + x.granted = w.requests + x'.granted) :
    Staffed source settings { u with workers := w.workers.set i x' } where
  history := history
  manned := manned
  seated k c has := by
    by_cases same : i = k
    · subst same
      have inside := (List.getElem?_eq_some_iff.mp at_i).1
      exact ⟨x', List.getElem?_set_self inside, place c has⟩
    · obtain ⟨y, at_k, sits⟩ := h.seated k c ((others k (Ne.symm same)).symm.trans has)
      exact ⟨y, (List.getElem?_set_ne same).trans at_k, sits⟩
  requests := by
    have sums := sum_map_set Worker.granted at_i x'
    have before := h.requests
    show u.requests = ((w.workers.set i x').map Worker.granted).sum
    omega

/-- A step that changes neither who has a connection nor what the pool has counted. -/
theorem Staffed.calm (h : w.Staffed source settings) (at_i : w.workers[i]? = some x)
    (history : ∃ rs, u.desk = (Pool.Service.start source settings {}).run Server.driver rs)
    (held : u.desk.held = w.desk.held) (state : u.desk.pool.state = w.desk.pool.state)
    (iteration : x'.iteration = x.iteration) (sits : x'.phase.Sits ↔ x.phase.Sits) :
    Staffed source settings { u with workers := w.workers.set i x' } := by
  refine h.turn at_i history (fun c hc => ?_) (fun k _ => by rw [held]) (fun c has => ?_) ?_
  · obtain ⟨k, has⟩ := h.manned c (state ▸ hc)
    exact ⟨k, by rw [held, has]⟩
  · rw [held] at has
    exact sits.mpr (h.sits at_i has)
  · simp only [World.requests, Worker.granted, state, iteration, sits]

/-- A step with a request of the worker's own to the pool. -/
theorem Staffed.serve (h : w.Staffed source settings) (at_i : w.workers[i]? = some x)
    {r : Pool.Request Nat} (desk : u.desk = (w.desk.serve Server.driver r).2)
    (seats : w.desk.Seats i (w.desk.serve Server.driver r).1 (w.desk.serve Server.driver r).2)
    (stood : (w.desk.serve Server.driver r).1.handle?.isSome → ¬x.phase.Sits)
    (place : ∀ c, (w.desk.serve Server.driver r).2.held.get? i = some c → x'.phase.Sits)
    (granted : x'.granted =
      x.granted + if (w.desk.serve Server.driver r).1.handle?.isSome then 1 else 0) :
    Staffed source settings { u with workers := w.workers.set i x' } := by
  have free : (w.desk.serve Server.driver r).1.handle?.isSome → w.desk.held.get? i = none := by
    intro handed
    by_contra has
    obtain ⟨c, has⟩ := Option.ne_none_iff_exists'.mp has
    exact stood handed (h.sits at_i has)
  have counted := seats.requests_eq
  refine h.turn at_i (desk ▸ h.history_serve r) ?_ (fun k other => ?_) ?_ ?_
  · rw [desk]
    exact seats.manned h.manned free
  · rw [desk]
    exact seats.get?_held other
  · rw [desk]
    exact place
  · rw [World.requests, desk, counted, World.requests]
    omega

theorem Asks.seats {r : Pool.Request Nat} (asks : w.Asks i x r) :
    w.desk.Seats i (w.desk.serve Server.driver r).1 (w.desk.serve Server.driver r).2 := by
  cases asks with
  | first => exact Pool.Service.acquire_seats ..
  | again => exact Pool.Service.resume_seats ..

theorem Asks.stands {r : Pool.Request Nat} (asks : w.Asks i x r) : ¬x.phase.Sits := by
  cases asks with
  | first phase | again phase => rw [phase]; exact id

/-- Whoever is handed a connection begins to read, and whoever is not does not. -/
theorem sits_asked {reply : Pool.Reply} {p : Phase} (led : w.asked i x reply = some p) :
    p.Sits ↔ reply.handle?.isSome := by
  unfold World.asked at led
  split at led <;> cases led <;> simp [Phase.Sits, seated, Pool.Reply.handle?]

theorem queryRow_sits (w : World s) (i : Nat) (x : Worker) (work : Cache.UnitOfWork) :
    (w.queryRow i x work).1.Sits := by
  unfold queryRow
  dsimp only
  split <;> trivial

theorem Staffed.asks (h : w.Staffed source settings) (at_i : w.workers[i]? = some x)
    {r : Pool.Request Nat} {p : Phase} (asks : w.Asks i x r)
    (led : World.asked { w with desk := (w.desk.serve Server.driver r).2 } i x
      (w.desk.serve Server.driver r).1 = some p) :
    Staffed source settings
      { w with
        desk := (w.desk.serve Server.driver r).2
        workers := w.workers.set i { x with phase := p } } := by
  have sits := sits_asked led
  refine h.serve (u := { w with desk := (w.desk.serve Server.driver r).2 }) at_i rfl asks.seats
    (fun _ => asks.stands) (fun c has => sits.mpr ?_) ?_
  · -- whoever has a connection has been handed it just now: before, the worker had none
    by_contra none
    have kept : (w.desk.serve Server.driver r).2.held.get? i = w.desk.held.get? i := by
      have seats := asks.seats
      generalize w.desk.serve Server.driver r = served at seats none has led
      obtain ⟨reply, desk⟩ := served
      cases seats with
      | takes => exact (none rfl).elim
      | leaves => cases led
      | stays _ held => rw [held]
    exact asks.stands (h.sits at_i (kept.symm.trans has))
  · simp only [Worker.granted, sits, asks.stands, if_false, Nat.add_zero]

theorem Staffed.returns (h : w.Staffed source settings) (at_i : w.workers[i]? = some x)
    {o : Outcome} (phase : x.phase = .returning (.ok o)) :
    Staffed source settings
      { w with
        desk := (w.desk.serve Server.driver (.release i)).2
        workers := w.workers.set i (w.onward x (.ok o)) } := by
  obtain ⟨unhanded, left⟩ := Pool.Service.release_leaves Server.driver w.desk i
  refine h.serve (u := { w with desk := (w.desk.serve Server.driver (.release i)).2 }) at_i rfl
    (Pool.Service.release_seats Server.driver w.desk i) (fun handed => ?_) (fun c has => ?_) ?_
  · rw [unhanded] at handed
    cases handed
  · rw [left] at has
    cases has
  · have stands : ¬(w.onward x (.ok o)).phase.Sits := by
      rcases onward_phase w x o with ⟨phase, -⟩ | ⟨phase, -⟩ <;> rw [phase] <;> exact id
    rw [unhanded, Worker.granted, Worker.granted, if_neg stands, phase]
    rfl

theorem Moves.staffed (moves : w.Moves i x x' u) (at_i : w.workers[i]? = some x)
    (h : w.Staffed source settings) :
    x'.phase.Fails ∨ Staffed source settings { u with workers := w.workers.set i x' } := by
  have calm {p : Phase} {chain : s.State} (sits : p.Sits ↔ x.phase.Sits) :
      Staffed source settings
        { w with chain, workers := w.workers.set i { x with phase := p } } :=
    h.calm (u := { w with chain }) at_i h.history rfl rfl rfl sits
  cases moves with
  | asks asks led => exact .inr (h.asks at_i asks led)
  | ends phase => exact .inr (calm (by simp [phase, Phase.Sits]))
  | @hears v said phase answer =>
    refine .inr (calm ?_)
    rw [phase]
    cases said <;> simp [hear, Cache.UnitOfWork.learn, Phase.Sits, commit]
  | fails => exact .inl (hear_fails ..)
  | reads phase | completes phase | settles phase | writes phase =>
    exact .inr (calm (by simp [phase, Phase.Sits]))
  | @queries work phase =>
    right
    obtain ⟨held, state⟩ := Pool.Service.use_keeps Server.driver w.desk i
      (.execute (rowStatement (w.rowOf i x)))
    have history := h.history_serve (.use i (.execute (rowStatement (w.rowOf i x))))
    refine h.calm at_i history held state rfl ?_
    rw [phase]
    exact iff_of_true (queryRow_sits ..) trivial
  | @returns r phase =>
    cases r with
    | error e => exact .inl trivial
    | ok o => exact .inr (h.returns at_i phase)

theorem Staffed.expire (h : w.Staffed source settings) (i : Nat) :
    Staffed source settings
      { w with desk := (w.desk.serve Server.driver (.expire i)).2 } := by
  obtain ⟨held, pool⟩ := Pool.Service.expire_keeps Server.driver w.desk i
  refine ⟨h.history_serve (.expire i), fun c hc => ?_, fun k c has => ?_, ?_⟩
  · obtain ⟨k, has⟩ := h.manned c (pool ▸ hc)
    exact ⟨k, by rw [held, has]⟩
  · exact h.seated k c (held ▸ has)
  · rw [World.requests, pool]
    exact h.requests

theorem Staffed.next (h : w.Staffed source settings) (event : Event) :
    (w.next event).Failing ∨ (w.next event).Staffed source settings :=
  next_keeps h h.expire
    (fun d => ⟨h.history_serve (.elapse d), h.manned, h.seated, h.requests⟩)
    (fun _ _ _ _ at_i moves => moves.staffed at_i h) event

theorem run_staffed (events : List Event) (h : w.Staffed source settings) :
    (w.run events).Failing ∨ (w.run events).Staffed source settings :=
  run_keeps (fun _ event h => h.next event) events h

theorem start_staffed (s : Shape) (source : Source.DataSource) (settings : Pool.Settings)
    (options : Options) : (start s source settings options).Staffed source settings where
  history := ⟨[], rfl⟩
  manned c hc := nomatch hc
  seated i c has := nomatch has
  requests := by
    simp [World.requests, start, Pool.Service.start, Pool.State.new, Worker.granted, Phase.Sits]

end World
end DataTier.Simulation
