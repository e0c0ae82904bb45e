import DataTier.Simulation.Run
import Mathlib.Algebra.GroupWithZero.Nat

/-! What a step of a worker does to the worker and to what workers share, said once for everything
that is shown of them (`Moves`). A worker that fails goes on failing, so a simulation in which no
worker has failed has met with no failure on the way. -/

namespace DataTier.Simulation

open Cache (Answer Entry Shape)
open Cache.Blocking (Visit)

/-- The lookup has met with a failure, which is all that can still come of it. -/
def Phase.Fails : Phase → Prop
  | .reading v => ∃ e, v.answer? = some (.error e)
  | .ending _ r | .returning r => ∃ e, r = .error e
  | .failed _ => True
  | .starting | .asking | .missed _ | .finished => False

namespace World

variable {s : Shape} {w u : World s} {i : Nat} {x x' : Worker}

/-- A worker asks for a connection, or asks again. -/
inductive Asks (w : World s) (i : Nat) (x : Worker) : Pool.Request Nat → Prop
  | first (phase : x.phase = .starting) (more : x.iteration < w.options.iterations) :
    Asks w i x (.acquire i none)
  | again (phase : x.phase = .asking) : Asks w i x (.resume i)

inductive Moves (w : World s) (i : Nat) (x : Worker) : Worker → World s → Prop
  | asks {r : Pool.Request Nat} {p : Phase} (asks : w.Asks i x r)
      (led : World.asked { w with desk := (w.desk.serve Server.driver r).2 } i x
        (w.desk.serve Server.driver r).1 = some p) :
    Moves w i x { x with phase := p } { w with desk := (w.desk.serve Server.driver r).2 }
  | ends (phase : x.phase = .starting) (through : ¬x.iteration < w.options.iterations) :
    Moves w i x { x with phase := .finished } w
  | hears {v : Visit} {said : Option Entry} (phase : x.phase = .reading v)
      (answer : v.answer? = some (.ok said)) :
    Moves w i x { x with phase := (w.hear i v.key (.ok said)).1 } w
  | fails {v : Visit} {e : Cache.Error} (phase : x.phase = .reading v)
      (answer : v.answer? = some (.error e)) :
    Moves w i x { x with phase := (w.hear i v.key (.error e)).1 } (w.hear i v.key (.error e)).2
  | reads {v v' : Visit} {chain : s.State} (phase : x.phase = .reading v)
      (pending : v.answer? = none) (step : s.step w.now v w.chain = some (v', chain)) :
    Moves w i x { x with phase := .reading v' } { w with chain }
  | queries {work : Cache.UnitOfWork} (phase : x.phase = .missed work) :
    Moves w i x { x with phase := (w.queryRow i x work).1 } (w.queryRow i x work).2
  | completes {r : Result} (phase : x.phase = .ending [] r) :
    Moves w i x { x with phase := .returning r } w
  | settles {v : Visit} {rest : List Visit} {r : Result} {a : Answer (Option Entry)}
      (phase : x.phase = .ending (v :: rest) r) (answer : v.answer? = some a) :
    Moves w i x { x with phase := .ending rest (noteProblem r a) } w
  | writes {v v' : Visit} {rest : List Visit} {r : Result} {chain : s.State}
      (phase : x.phase = .ending (v :: rest) r) (pending : v.answer? = none)
      (step : s.step w.now v w.chain = some (v', chain)) :
    Moves w i x { x with phase := .ending (v' :: rest) r } { w with chain }
  | returns {r : Result} (phase : x.phase = .returning r) :
    Moves w i x (w.onward x r) { w with desk := (w.desk.serve Server.driver (.release i)).2 }

theorem Asks.moves {r : Pool.Request Nat} (asks : w.Asks i x r)
    (ask : ((w.ask i x r).map fun p => ({ x with phase := p.1 }, p.2)) = some (x', u)) :
    w.Moves i x x' u := by
  obtain ⟨⟨p, u'⟩, asked, same⟩ := Option.map_eq_some_iff.mp ask
  obtain ⟨q, led, rest⟩ := Option.bind_eq_some_iff.mp asked
  cases rest
  cases same
  exact .asks asks led

theorem move_cases (move : w.move i x = some (x', u)) : w.Moves i x x' u := by
  unfold World.move at move
  dsimp only at move
  split at move <;> rename_i phase
  · split at move
    · rename_i more
      exact (Asks.first phase more).moves move
    · rename_i through
      cases move
      exact .ends phase through
  · exact (Asks.again phase).moves move
  · split at move
    · rename_i a answer
      cases move
      rcases a with e | _ | said
      · exact .fails phase answer
      · exact .hears phase answer
      · exact .hears phase answer
    · rename_i pending
      obtain ⟨⟨v', chain⟩, step, same⟩ := Option.map_eq_some_iff.mp move
      cases same
      exact .reads phase pending step
  · cases move
    exact .queries phase
  · cases move
    exact .completes phase
  · split at move
    · rename_i answer
      cases move
      exact .settles phase answer
    · rename_i pending
      obtain ⟨⟨v', chain⟩, step, same⟩ := Option.map_eq_some_iff.mp move
      cases same
      exact .writes phase pending step
  · cases move
    exact .returns phase
  · cases move
  · cases move

theorem Moves.workers (moves : w.Moves i x x' u) : u.workers = w.workers := by
  cases moves with
  | @fails v e =>
    obtain ⟨desk, same⟩ := w.exists_hear_eq i v.key (.error e)
    rw [same]
  | asks | ends | hears | reads | queries | completes | settles | writes | returns => rfl

/-- A step puts the worker that has moved back in its place. -/
theorem step_cases (step : w.step i = some u) : ∃ x x' v, w.workers[i]? = some x ∧
    w.Moves i x x' v ∧ u = { v with workers := w.workers.set i x' } := by
  obtain ⟨x, at_i, rest⟩ := Option.bind_eq_some_iff.mp step
  obtain ⟨⟨x', v⟩, move, last⟩ := Option.bind_eq_some_iff.mp rest
  have moves := move_cases move
  refine ⟨x, x', v, at_i, moves, ?_⟩
  rw [← moves.workers]
  exact (Option.some.inj last).symm

/-- Whoever got through with a row goes on to the next, if there is one. -/
theorem onward_phase (w : World s) (x : Worker) (o : Outcome) :
    (w.onward x (.ok o)).phase = .starting ∧ x.iteration + 1 < w.options.iterations ∨
      (w.onward x (.ok o)).phase = .finished ∧ ¬x.iteration + 1 < w.options.iterations := by
  unfold onward
  dsimp only
  split
  · rename_i more
    exact .inl ⟨rfl, more⟩
  · rename_i through
    exact .inr ⟨rfl, through⟩

/-! ## Failures -/

theorem hear_fails (w : World s) (i : Nat) (k : Cache.Key) (e : Cache.Error) :
    (w.hear i k (.error e)).1.Fails := by
  simp only [hear, Cache.UnitOfWork.learn]
  split
  · trivial
  · exact ⟨_, rfl⟩

theorem Moves.fails_of_fails (moves : w.Moves i x x' u) (fails : x.phase.Fails) : x'.phase.Fails := by
  cases moves with
  | asks asks =>
    cases asks with
    | first phase | again phase =>
      rw [phase] at fails
      exact fails.elim
  | ends phase | queries phase =>
    rw [phase] at fails
    exact fails.elim
  | hears phase answer =>
    rw [phase] at fails
    obtain ⟨e, failed⟩ := fails
    cases answer.symm.trans failed
  | fails => exact hear_fails ..
  | reads phase pending =>
    rw [phase] at fails
    obtain ⟨e, failed⟩ := fails
    cases pending.symm.trans failed
  | completes phase | writes phase =>
    rw [phase] at fails
    exact fails
  | @settles v rest r a phase =>
    rw [phase] at fails
    obtain ⟨e, rfl⟩ := fails
    exact ⟨e, by cases a <;> rfl⟩
  | returns phase =>
    rw [phase] at fails
    obtain ⟨e, rfl⟩ := fails
    trivial

def Failing (w : World s) : Prop := ∃ x ∈ w.workers, x.phase.Fails

theorem Failing.next (failing : w.Failing) (event : Event) : (w.next event).Failing := by
  cases event with
  | expire | elapse => exact failing
  | step i =>
    obtain ⟨y, mem, fails⟩ := failing
    unfold World.next
    dsimp only
    cases step : w.step i with
    | none => exact ⟨y, mem, fails⟩
    | some u =>
      obtain ⟨x, x', v, at_i, moves, rfl⟩ := step_cases step
      obtain ⟨j, at_j⟩ := List.mem_iff_getElem?.mp mem
      by_cases here : i = j
      · subst here
        obtain rfl := Option.some.inj (at_i.symm.trans at_j)
        have inside := (List.getElem?_eq_some_iff.mp at_i).1
        exact ⟨x', List.mem_set inside x', moves.fails_of_fails fails⟩
      · exact ⟨y, List.mem_of_getElem? ((List.getElem?_set_ne here).trans at_j), fails⟩

theorem Failing.run (failing : w.Failing) (events : List Event) : (w.run events).Failing := by
  induction events generalizing w with
  | nil => exact failing
  | cons event rest ih => exact ih (failing.next event)

/-- What time keeps, and the worker that moves unless it fails, is kept by each event. -/
theorem next_keeps {P : World s → Prop} (h : P w)
    (expires : ∀ i, P { w with desk := (w.desk.serve Server.driver (.expire i)).2 })
    (elapses : ∀ d, P { w with desk := (w.desk.serve Server.driver (.elapse d)).2 })
    (moves : ∀ (i : Nat) (x x' : Worker) (u : World s), w.workers[i]? = some x →
      w.Moves i x x' u → x'.phase.Fails ∨ P { u with workers := w.workers.set i x' })
    (event : Event) : (w.next event).Failing ∨ P (w.next event) := by
  cases event with
  | expire i => exact .inr (expires i)
  | elapse d => exact .inr (elapses d)
  | step i =>
    unfold World.next
    dsimp only
    cases step : w.step i with
    | none => exact .inr h
    | some u =>
      obtain ⟨x, x', v, at_i, moved, rfl⟩ := step_cases step
      have inside := (List.getElem?_eq_some_iff.mp at_i).1
      exact (moves i x x' v at_i moved).imp_left fun fails => ⟨x', List.mem_set inside x', fails⟩

/-- What each step keeps that does not lead to a failure, a run without one keeps. -/
theorem run_keeps {P : World s → Prop}
    (keeps : ∀ (w : World s) (event : Event), P w → (w.next event).Failing ∨ P (w.next event))
    (events : List Event) (h : P w) : (w.run events).Failing ∨ P (w.run events) := by
  induction events generalizing w with
  | nil => exact .inr h
  | cons event rest ih =>
    rcases keeps w event h with failing | kept
    · exact .inl (failing.run rest)
    · exact ih kept

end World

/-! ## Lists of workers -/

/-- Who is where in a list of which one member has been put in its place. -/
theorem getElem?_set_cases {α : Type} {xs : List α} {i j : Nat} {x y : α}
    (at_j : (xs.set i x)[j]? = some y) : j = i ∧ y = x ∨ j ≠ i ∧ xs[j]? = some y := by
  by_cases here : i = j
  · subst here
    have inside := (List.getElem?_eq_some_iff.mp at_j).1
    rw [List.length_set] at inside
    exact .inl ⟨rfl, Option.some.inj (at_j.symm.trans (List.getElem?_set_self inside))⟩
  · exact .inr ⟨Ne.symm here, (List.getElem?_set_ne here).symm.trans at_j⟩

/-- Where one member of a list changes, a sum over the list changes by as much as the member. -/
theorem sum_map_set {α : Type} (f : α → Nat) {xs : List α} {i : Nat} {x : α}
    (at_i : xs[i]? = some x) (y : α) :
    ((xs.set i y).map f).sum + f x = (xs.map f).sum + f y := by
  induction xs generalizing i with
  | nil => cases at_i
  | cons z zs ih =>
    cases i with
    | zero =>
      obtain rfl := Option.some.inj at_i
      simp only [List.set_cons_zero, List.map_cons, List.sum_cons]
      omega
    | succ i =>
      have rest := ih (i := i) at_i
      simp only [List.set_cons_succ, List.map_cons, List.sum_cons]
      omega

end DataTier.Simulation
