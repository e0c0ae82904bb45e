import DataTier.Proofs.Pool.Origin

/-! Who sits on which checkout. A caller's request grants it a checkout, which is counted, or ends
the one it has, or leaves the handles as they are (`Seats`); so as long as nobody loses a handle,
every active checkout is in somebody's hands (`Manned`). -/

namespace DataTier.Pool

variable {κ δ : Type} {D : Driver δ} {now : Time.Instant} {c : Checkout} {p p' : Pool δ}

/-! ## Visits and returns -/

theorem Offers.requests_eq {credentials : Source.Credentials} {o : Candidate}
    (offer : Offers D now credentials p o p') :
    p'.state.counters.requests = p.state.counters.requests := by
  cases offer <;> rfl

theorem Visits.grants {a : Attempt} (visit : Visits D now a p (.granted c) p') :
    p'.state.counters.requests = p.state.counters.requests + 1 ∧
      ∀ d ∈ p'.state.active, d = c ∨ d ∈ p.state.active := by
  obtain ⟨d, p₁, line, offer, -, rfl, rfl⟩ := visit.of_granted
  refine ⟨congrArg (· + 1) offer.requests_eq, fun e he => ?_⟩
  rcases List.mem_append.mp he with he | he
  · exact .inr (offer.thins.2 e he)
  · exact .inl (List.mem_singleton.mp he)

theorem Visits.keeps {a : Attempt} {o : Outcome} (visit : Visits D now a p o p')
    (none : o.reply.handle? = none) : p'.state.counters.requests = p.state.counters.requests ∧
      ∀ d ∈ p'.state.active, d ∈ p.state.active := by
  cases visit with
  | refused closed => exact ⟨rfl, fun _ hd => hd⟩
  | @waits closed p₁ offer =>
    unfold wait
    dsimp only
    split <;> exact ⟨offer.requests_eq, offer.thins.2⟩
  | unreachable closed offer | rejected closed offer bad => exact ⟨offer.requests_eq, offer.thins.2⟩
  | granted => cases none

theorem Returns.ends (back : Returns D now c p p') :
    p'.state.counters.requests = p.state.counters.requests ∧
      ∀ d ∈ p'.state.active, d ∈ p.state.active ∧ d ≠ c := by
  have left : ∀ d ∈ (p.state.checkIn c).active, d ∈ p.state.active ∧ d ≠ c := fun d hd => by
    obtain ⟨held, other⟩ := (State.mem_active_removeActive p.state c d).mp hd
    exact ⟨held, fun same => other (same ▸ rfl)⟩
  cases back <;> exact ⟨rfl, left⟩

namespace Service

variable [DecidableEq κ] {s s' : Service κ δ} {caller : κ}

/-! ## Requests of one caller -/

/-- What a request of the caller does to the handles that are out and to the checkouts. -/
inductive Seats (s : Service κ δ) (caller : κ) : Reply → Service κ δ → Prop
  | takes {c : Checkout} {s' : Service κ δ} (held : s'.held = s.held.set caller c)
      (active : ∀ d ∈ s'.pool.state.active, d = c ∨ d ∈ s.pool.state.active)
      (requests : s'.pool.state.counters.requests = s.pool.state.counters.requests + 1) :
      Seats s caller (.handle c) s'
  | leaves {c : Checkout} {s' : Service κ δ} (had : s.held.get? caller = some c)
      (held : s'.held = s.held.erase caller)
      (active : ∀ d ∈ s'.pool.state.active, d ∈ s.pool.state.active ∧ d ≠ c)
      (requests : s'.pool.state.counters.requests = s.pool.state.counters.requests) :
      Seats s caller .done s'
  | stays {reply : Reply} {s' : Service κ δ} (none : reply.handle? = none) (held : s'.held = s.held)
      (active : ∀ d ∈ s'.pool.state.active, d ∈ s.pool.state.active)
      (requests : s'.pool.state.counters.requests = s.pool.state.counters.requests) :
      Seats s caller reply s'

theorem proceed_seats (D : Driver δ) (a : Attempt) {s₀ : Service κ δ} (hp : s.pool = s₀.pool)
    (hh : s.held = s₀.held) :
    Seats s₀ caller (proceed D caller a s).1 (proceed D caller a s).2 := by
  have visit := examine_visits D s.now a s.pool
  unfold proceed
  split <;> rename_i h <;> rw [h, hp] at visit
  · obtain ⟨requests, active⟩ := visit.grants
    exact .takes (by rw [hh]) active requests
  all_goals
    obtain ⟨requests, active⟩ := visit.keeps rfl
    exact .stays rfl hh active requests

theorem acquire_seats (D : Driver δ) (s : Service κ δ) (caller : κ)
    (credentials : Option Source.Credentials) :
    Seats s caller (s.serve D (.acquire caller credentials)).1
      (s.serve D (.acquire caller credentials)).2 := by
  simp only [serve, acquire]
  split
  · exact .stays rfl rfl (fun _ hd => hd) rfl
  · exact proceed_seats D _ rfl rfl

theorem resume_seats (D : Driver δ) (s : Service κ δ) (caller : κ) :
    Seats s caller (s.serve D (.resume caller)).1 (s.serve D (.resume caller)).2 := by
  simp only [serve, resume]
  split
  · exact proceed_seats D _ rfl rfl
  · exact .stays rfl rfl (fun _ hd => hd) rfl
  · split <;> exact .stays rfl rfl (fun _ hd => hd) rfl

theorem release_seats (D : Driver δ) (s : Service κ δ) (caller : κ) :
    Seats s caller (s.serve D (.release caller)).1 (s.serve D (.release caller)).2 := by
  simp only [serve, release]
  split
  · exact .stays rfl rfl (fun _ hd => hd) rfl
  · rename_i c had
    obtain ⟨requests, active⟩ := (release_returns D s.tick.now c s.pool).ends
    exact .leaves had rfl active requests

/-- Whoever releases has no handle afterwards. -/
theorem release_leaves (D : Driver δ) (s : Service κ δ) (caller : κ) :
    (s.serve D (.release caller)).1.handle? = none ∧
      (s.serve D (.release caller)).2.held.get? caller = none := by
  simp only [serve, release]
  split
  · rename_i none
    exact ⟨rfl, none⟩
  · exact ⟨rfl, by rw [Table.get?_erase, if_pos rfl]⟩

/-- Using a connection changes nobody's place. -/
theorem use_keeps (D : Driver δ) (s : Service κ δ) (caller : κ) (op : Operation) :
    (s.serve D (.use caller op)).2.held = s.held ∧
      (s.serve D (.use caller op)).2.pool.state = s.pool.state := by
  simp only [serve, use]
  split
  · exact ⟨rfl, rfl⟩
  · split <;> exact ⟨rfl, rfl⟩

/-- Neither does it that somebody's time is up. -/
theorem expire_keeps (D : Driver δ) (s : Service κ δ) (caller : κ) :
    (s.serve D (.expire caller)).2.held = s.held ∧
      (s.serve D (.expire caller)).2.pool = s.pool := by
  rcases serve_expire D s caller with same | same <;> rw [same] <;> exact ⟨rfl, rfl⟩

theorem Seats.requests_eq {reply : Reply} (h : Seats s caller reply s') :
    s'.pool.state.counters.requests =
      s.pool.state.counters.requests + if reply.handle?.isSome then 1 else 0 := by
  cases h with
  | takes held active requests => exact requests
  | leaves had held active requests => exact requests
  | stays none held active requests =>
    rw [none]
    exact requests

/-! ## Who has what -/

/-- Every active checkout is in somebody's hands. -/
def Manned (s : Service κ δ) : Prop := ∀ c ∈ s.pool.state.active, s.Holds c

/-- Nobody else's handle is touched. -/
theorem Seats.get?_held {reply : Reply} (h : Seats s caller reply s') {k : κ} (other : k ≠ caller) :
    s'.held.get? k = s.held.get? k := by
  cases h with
  | takes held => rw [held, Table.get?_set, if_neg (Ne.symm other)]
  | leaves had held => rw [held, Table.get?_erase, if_neg (Ne.symm other)]
  | stays none held => rw [held]

/-- A caller that gets a handle must not have had one before, or that would be lost. -/
theorem Seats.manned {reply : Reply} (h : Seats s caller reply s') (manned : Manned s)
    (free : reply.handle?.isSome → s.held.get? caller = none) : Manned s' := by
  intro d hd
  have others {k : κ} (other : k ≠ caller) := h.get?_held other
  cases h with
  | takes held active =>
    rcases active d hd with rfl | old
    · exact ⟨caller, by rw [held, Table.get?_set_self]⟩
    · obtain ⟨k, holds⟩ := manned d old
      have other : k ≠ caller := fun same => by
        rw [same, free rfl] at holds
        cases holds
      exact ⟨k, (others other).trans holds⟩
  | leaves had held active =>
    obtain ⟨old, apart⟩ := active d hd
    obtain ⟨k, holds⟩ := manned d old
    have other : k ≠ caller := fun same => by
      rw [same, had] at holds
      exact apart (Option.some.inj holds).symm
    exact ⟨k, (others other).trans holds⟩
  | stays none held active =>
    obtain ⟨k, holds⟩ := manned d (active d hd)
    exact ⟨k, by rw [held, holds]⟩

end Service
end DataTier.Pool
