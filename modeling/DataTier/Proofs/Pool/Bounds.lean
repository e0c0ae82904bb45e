import DataTier.Proofs.Pool.Moves

/-! How large a pool may grow. The idle connections and the active ones together stay within
`maxActive`, which is why an idle connection can be handed out without a look at the active
ones. -/

namespace DataTier.Pool

variable {κ δ : Type} {D : Driver δ} {now : Time.Instant} {c : Checkout} {p p' : Pool δ}

structure Bounded (s : State) : Prop where
  idle : s.idle.length ≤ s.settings.maxIdle
  total : s.idle.length + s.active.length ≤ s.settings.maxActive

theorem Offers.bounded {credentials : Source.Credentials} {o : Candidate}
    (offer : Offers D now credentials p o p') (h : Bounded p.state) : Bounded p'.state := by
  obtain ⟨hi, ht⟩ := h
  cases offer with
  | idle idle =>
    rw [idle, List.length_cons] at hi ht
    exact ⟨Nat.le_of_succ_le hi, by dsimp only; omega⟩
  | overdue idle full active due =>
    rw [active, List.length_cons] at ht
    exact ⟨hi, Nat.le_of_succ_le ht⟩
  | fresh | unreachable | none => exact ⟨hi, ht⟩

/-- There is room for the candidate that a caller is offered. -/
theorem Offers.room {credentials : Source.Credentials} {d : Detached}
    (offer : Offers D now credentials p (.ready d) p') (h : Bounded p.state) :
    p'.state.idle.length + p'.state.active.length < p'.state.settings.maxActive := by
  have ht := h.total
  cases offer with
  | idle idle =>
    rw [idle, List.length_cons] at ht
    dsimp only
    omega
  | fresh idle room connect =>
    dsimp only
    rw [idle, List.length_nil, Nat.zero_add]
    exact room
  | overdue idle full active due =>
    rw [active, List.length_cons] at ht
    exact ht

theorem Visits.bounded {a : Attempt} {o : Outcome} (visit : Visits D now a p o p')
    (h : Bounded p.state) : Bounded p'.state := by
  cases visit with
  | refused closed => exact h
  | @waits closed p₁ offer =>
    obtain ⟨f, hf⟩ := wait_eq a p₁
    rw [hf]
    exact ⟨(offer.bounded h).idle, (offer.bounded h).total⟩
  | unreachable closed offer => exact offer.bounded h
  | rejected closed offer bad => exact ⟨(offer.bounded h).idle, (offer.bounded h).total⟩
  | @granted closed d p₁ line offer good =>
    refine ⟨(offer.bounded h).idle, ?_⟩
    have := offer.room h
    simp only [accept, State.count, List.length_append, List.length_singleton]
    omega

theorem Returns.bounded (back : Returns D now c p p') (hp : Custody p) (hk : Known p c)
    (h : Bounded p.state) : Bounded p'.state := by
  have rest : (p.state.checkIn c).active.length ≤ p.state.active.length :=
    List.length_filter_le _ _
  have total := h.total
  cases back with
  | stale | bad | closed => exact ⟨h.idle, Nat.le_trans (Nat.add_le_add_left rest _) total⟩
  | kept valid good keep =>
    have left := (hp.active_perm ((hp.isValid_iff hk).mp valid)).length_eq
    have space : p.state.idle.length < p.state.settings.maxIdle :=
      of_decide_eq_true (Bool.and_eq_true_iff.mp keep).1
    rw [List.length_cons] at left
    constructor
    · simp only [State.countReturn, State.count, List.length_append, List.length_singleton]
      exact space
    · simp only [State.countReturn, State.count, List.length_append, List.length_singleton]
      exact Nat.le_trans (by omega) total

theorem Move.bounded {held : Checkout → Prop} (move : Move D held p p') (hp : Custody p)
    (hk : ∀ c, held c → Known p c) (h : Bounded p.state) : Bounded p'.state := by
  cases move with
  | visit now a => exact (examine_visits D now a p).bounded h
  | @giveBack now c hc => exact (release_returns D now c p).bounded hp (hk c hc) h
  | overhaul source settings closed => exact ⟨Nat.zero_le _, Nat.zero_le _⟩
  | stays | recount | call | setTolerance => exact ⟨h.idle, h.total⟩

namespace Service

variable [DecidableEq κ]

theorem Orderly.bounded_run {s : Service κ δ} {handles : List Checkout} (h : Orderly s handles)
    (hb : Bounded s.pool.state) (D : Driver δ) (rs : List (Request κ)) :
    Bounded (s.run D rs).pool.state :=
  h.run_keeps (fun _ _ _ move hp hk => move.bounded hp hk) hb rs

/-- After any run of requests the pool has no more idle connections than it may keep, and no
more connections, idle or handed out, than may be handed out under its settings. -/
theorem run_bounded (D : Driver δ) (source : Source.DataSource) (settings : Settings)
    (driver : δ) (rs : List (Request κ)) :
    let s := ((start source settings driver : Service κ δ).run D rs).pool.state
    s.idle.length ≤ s.settings.maxIdle ∧
      s.idle.length + s.active.length ≤ s.settings.maxActive ∧
      s.active.length ≤ s.settings.maxActive := by
  intro s
  have h : Bounded s := (start_orderly source settings driver).bounded_run
    ⟨Nat.zero_le _, Nat.zero_le _⟩ D rs
  exact ⟨h.idle, h.total, Nat.le_trans (Nat.le_add_left _ _) h.total⟩

end Service
end DataTier.Pool
