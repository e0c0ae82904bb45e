import DataTier.Proofs.Pool.Accounting

/-! Which connections leak. A run of requests abandons those connections that the driver
cannot put into their mode and those that cannot say on their return whether they are
closed; every other connection that was opened is idle, active or closed, and after a
shutdown it is closed. -/

namespace DataTier.Pool

variable {κ δ : Type} {D : Driver δ} {now : Time.Instant} {c : Checkout} {p p' : Pool δ}

/-- Nobody has the connection any longer, and nothing says that it is closed. -/
def Leaked (p : Pool δ) (n : ConnectionId) : Prop :=
  n ∉ p.state.connections ∧ ¬p.line.CloseAsked n ∧ ¬p.line.SaidClosed n

instance (p : Pool δ) (n : ConnectionId) : Decidable (Leaked p n) :=
  inferInstanceAs (Decidable (_ ∉ _ ∧ ¬_ ∈ _ ∧ ¬_ ∈ _))

theorem leaked_iff {n : ConnectionId} : Leaked p n ↔ ¬Accounted p n := by
  rw [Leaked, Accounted, not_or, not_or]

/-! ## After a shutdown -/

/-- A pool that refuses all callers has no connection. -/
def Emptied (s : State) : Prop := s.closed = true → s.connections = []

theorem Visits.emptied {a : Attempt} {o : Outcome} (visit : Visits D now a p o p')
    (h : Emptied p.state) : Emptied p'.state := by
  have same := visit.sameTerms.closed
  cases visit with
  | refused closed => exact h
  | waits closed | unreachable closed | rejected closed | granted closed =>
    intro hc
    exact absurd (closed.symm.trans (same.symm.trans hc)) Bool.false_ne_true

theorem Returns.emptied (back : Returns D now c p p') (hp : Custody p) (h : Emptied p.state) :
    Emptied p'.state := by
  -- no checkout is valid in a pool that has none
  have invalid : p.state.closed = true → p.state.isValid c = false := fun hc => by
    have none : p.state.active = [] := by simpa using (List.append_eq_nil_iff.mp (h hc)).2
    refine decide_eq_false fun hm => ?_
    rw [hp.valid, none] at hm
    cases hm
  cases back with
  | stale hv =>
    rw [hp.checkIn_of_invalid hv]
    exact h
  | bad valid | kept valid | closed valid =>
    intro hc
    exact absurd ((invalid hc).symm.trans valid) Bool.false_ne_true

theorem Move.emptied {held : Checkout → Prop} (move : Move D held p p') (hp : Custody p)
    (h : Emptied p.state) : Emptied p'.state := by
  cases move with
  | visit now a => exact (examine_visits D now a p).emptied h
  | @giveBack now c hc => exact (release_returns D now c p).emptied hp h
  | overhaul source settings closed => exact fun _ => rfl
  | stays | recount | call | setTolerance => exact h

namespace Service

variable [DecidableEq κ]

theorem Orderly.emptied_run {s : Service κ δ} {handles : List Checkout} (h : Orderly s handles)
    (he : Emptied s.pool.state) (D : Driver δ) (rs : List (Request κ)) :
    Emptied (s.run D rs).pool.state :=
  h.run_keeps (fun _ _ _ move hp _ => move.emptied hp) he rs

/-! ## What is abandoned -/

/-- The connections that are abandoned while a request is served. -/
def strays (D : Driver δ) (s : Service κ δ) : Request κ → List ConnectionId
  | .release caller => ((s.held.get? caller).map fun c => unchecked D c s.pool).getD []
  | r => unready (s.serve D r).1 s.pool (s.serve D r).2.pool

/-- The connections that are abandoned in a run of requests. -/
def abandoned (D : Driver δ) : Service κ δ → List (Request κ) → List ConnectionId
  | _, [] => []
  | s, r :: rs => s.strays D r ++ abandoned D (s.serve D r).2 rs

theorem proceed_accounts (D : Driver δ) (caller : κ) (a : Attempt) {s : Service κ δ}
    (h : Custody s.pool) :
    Accounts (unready (proceed D caller a s).1 s.pool (proceed D caller a s).2.pool) s.pool
      (proceed D caller a s).2.pool := by
  rw [proceed_reply, proceed_pool]
  exact (examine_visits D s.now a s.pool).accounts h

theorem serve_accounts {s : Service κ δ} {handles : List Checkout} (h : Orderly s handles)
    (D : Driver δ) (r : Request κ) :
    Accounts (s.strays D r) s.pool (s.serve D r).2.pool := by
  cases r with
  | acquire caller credentials =>
    show Accounts (unready _ _ _) _ _
    simp only [serve, acquire]
    split
    · exact .of_books rfl rfl
    · exact proceed_accounts D caller _ h.custody
  | resume caller =>
    show Accounts (unready _ _ _) _ _
    simp only [serve, resume]
    split
    · exact proceed_accounts D caller _ h.custody
    · exact .of_books rfl rfl
    · split <;> exact .of_books rfl rfl
  | expire caller =>
    show Accounts (unready _ _ _) _ _
    rcases serve_expire D s caller with same | same <;> rw [same] <;> exact .of_books rfl rfl
  | release caller =>
    simp only [strays, serve, release, show s.tick.held.get? caller = s.held.get? caller from rfl]
    cases held : s.held.get? caller with
    | none => exact .of_books rfl rfl
    | some c =>
      have known := h.known c (h.held caller c held)
      exact (release_returns D s.tick.now c s.pool).accounts h.custody known
  | drop caller =>
    show Accounts (unready _ _ _) _ _
    simp only [serve, drop]
    split <;> exact .of_books rfl rfl
  | cancel caller =>
    show Accounts (unready _ _ _) _ _
    simp only [serve, cancel]
    split <;> exact .of_books rfl rfl
  | use caller op =>
    show Accounts (unready _ _ _) _ _
    simp only [serve, use]
    split
    · exact .of_books rfl rfl
    · rename_i c hc
      have asked : Accounts [] s.pool
          { s.pool with line := (s.pool.line.ask D (.on c.connection op)).2 } :=
        .of_served (Line.ask_served D c.connection op s.pool.line) (fun n hn => .inl hn)
          fun n hn => hn
      split
      · -- the answer of the driver is no error of the pool's own
        dsimp only
        split
        · exact asked
        · split <;> exact asked
      · exact .of_books rfl rfl
  | closeAll =>
    exact accounts_overhaul D s.pool s.pool.state.source s.pool.state.settings s.pool.state.closed
  | shutdown => exact accounts_overhaul D s.pool s.pool.state.source s.pool.state.settings true
  | reconfigure change =>
    exact accounts_overhaul D s.pool (change s.pool.state.source s.pool.state.settings).1
      (change s.pool.state.source s.pool.state.settings).2 s.pool.state.closed
  | setTolerance n => exact .of_books rfl rfl
  | elapse d => exact .of_books rfl rfl

theorem run_accounts {s : Service κ δ} {handles : List Checkout} (h : Orderly s handles)
    (D : Driver δ) (rs : List (Request κ)) :
    Accounts (s.abandoned D rs) s.pool (s.run D rs).pool := by
  induction rs generalizing s handles with
  | nil => exact .of_books rfl rfl
  | cons r rs ih => exact (serve_accounts h D r).trans (ih (h.serve D r))

/-- After any run of requests the leaked connections are those that were abandoned and never
closed; the driver has failed to set the mode of each abandoned connection or to say whether
it is closed; and once the pool is shut down all others are closed. -/
theorem run_leaked (D : Driver δ) (source : Source.DataSource) (settings : Settings)
    (driver : δ) (rs : List (Request κ)) :
    let start : Service κ δ := start source settings driver
    let s := start.run D rs
    let lost := start.abandoned D rs
    (∀ n, 0 < n → n ≤ s.pool.line.openings.length →
      (Leaked s.pool n ↔
        n ∈ lost ∧ ¬s.pool.line.CloseAsked n ∧ ¬s.pool.line.SaidClosed n)) ∧
    (∀ n ∈ lost, 0 < n ∧ n ≤ s.pool.line.openings.length ∧ s.pool.line.Failed n) ∧
    (s.pool.state.closed = true → ∀ n, 0 < n → n ≤ s.pool.line.openings.length →
      n ∉ lost → s.pool.line.CloseAsked n ∨ s.pool.line.SaidClosed n) := by
  intro start s lost
  have orderly : Orderly start [] := start_orderly source settings driver
  have all : Accounts lost start.pool s.pool := run_accounts orderly D rs
  have numbered : s.pool.line.opened = s.pool.line.openings.length := all.grows.numbered rfl
  have kept : ∀ n, 0 < n → n ≤ s.pool.line.openings.length → n ∉ lost → Accounted s.pool n := by
    intro n pos le hn
    exact (all.kept n (.inr ⟨pos, numbered ▸ le⟩)).resolve_right hn
  have emptied : Emptied s.pool.state := orderly.emptied_run (fun hc => by cases hc) D rs
  refine ⟨fun n pos le => ⟨fun leaked => ?_, ?_⟩, fun n hn => ?_, fun closed n pos le hn => ?_⟩
  · refine ⟨?_, leaked.2⟩
    by_contra hn
    exact leaked_iff.mp leaked (kept n pos le hn)
  · rintro ⟨hn, open'⟩
    exact ⟨(all.gone n hn).2.1, open'⟩
  · obtain ⟨⟨pos, le⟩, _, failed⟩ := all.gone n hn
    exact ⟨pos, numbered ▸ le, failed⟩
  · refine (kept n pos le hn).resolve_left fun hm => ?_
    rw [emptied closed] at hm
    cases hm

/-- A connection that cannot be put into its mode leaks, and so does one that cannot say on
its return whether it is closed; a shutdown does not find them. -/
theorem shutdown_leaves_leaked :
    let leaked (source : Source.DataSource) (n : Nat) (rs : List (Request Nat)) : Prop :=
      let s := (start source {} 0).run (Driver.refusing [n]) rs
      s.pool.state.closed = true ∧ s.pool.line.openings.length = 1 ∧ Leaked s.pool 1
    leaked { url := "db", autoCommit := some false } 1 [.acquire 0 none, .shutdown] ∧
      leaked { url := "db" } 3 [.acquire 0 none, .release 0, .shutdown] := by
  intro leaked
  exact ⟨⟨rfl, rfl, by decide⟩, ⟨rfl, rfl, by decide⟩⟩

end Service
end DataTier.Pool
