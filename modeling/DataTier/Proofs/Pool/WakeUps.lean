import DataTier.Proofs.Pool.Waiting

/-! Whether a caller waits although there is room. Whoever is woken and ends without a
connection, as it fails or gives up, has used up the notice in vain, and nobody is woken in
its place (`forfeits`). As long as that does not happen all those who wait do so because the
pool is full. -/

namespace DataTier.Pool.Service

variable {κ δ : Type} [DecidableEq κ] {D : Driver δ} {s : Service κ δ} {lost : Nat}

/-- The places that those who are asleep lose by a request: a caller on its way ends without
a connection, or one that has just come takes a checkout from its holder in vain. -/
def forfeits (D : Driver δ) (s : Service κ δ) : Request κ → Nat
  | .resume caller => if (s.serve D (.resume caller)).1.inVain then 1 else 0
  | .acquire caller credentials =>
    let (reply, s') := s.serve D (.acquire caller credentials)
    if reply.inVain then s.pool.state.active.length - s'.pool.state.active.length else 0
  | .cancel caller => if s.retrying.has caller then 1 else 0
  | _ => 0

theorem serve_attended {handles : List Checkout} (ho : Orderly s handles) (h : Attended s lost)
    (D : Driver δ) (r : Request κ) : Attended (s.serve D r).2 (lost + s.forfeits D r) := by
  have ticked : Attended s.tick lost := h.of_queue rfl rfl rfl rfl rfl
  cases r with
  | acquire caller credentials =>
    unfold forfeits
    simp only [serve, acquire]
    split
    · exact ticked
    · rename_i free
      have fresh : caller ∉ s.tick.pending := fun hm =>
        free (by rw [isPending_iff.mpr hm, Bool.or_true])
      exact (proceed_proceeds D _ ticked.toLined fresh).newcomer ticked
  | release caller =>
    simp only [serve, release, forfeits]
    split
    · exact ticked
    · rename_i c held
      exact ticked.giveBack (release_returns D s.tick.now c s.pool) ho.custody
        (ho.known c (ho.held caller c held)) rfl rfl
  | drop caller =>
    simp only [serve, drop, forfeits]
    split
    · exact ticked.of_queue rfl rfl rfl rfl rfl
    · exact ticked
  | cancel caller =>
    simp only [serve, cancel, forfeits]
    split
    · exact ticked.leave caller rfl rfl rfl
    · exact ticked.mono (Nat.le_add_right _ _)
  | use caller op =>
    simp only [serve, use, forfeits]
    split
    · exact ticked
    · split
      · exact ticked.of_queue rfl rfl rfl rfl rfl
      · exact ticked
  | closeAll | shutdown | reconfigure => exact ticked.toLined.notifyAll rfl rfl
  | setTolerance n => exact ticked.of_queue rfl rfl rfl rfl rfl
  | resume caller =>
    simp only [forfeits, serve, resume]
    split
    · rename_i a key
      let s₁ : Service κ δ := { s.tick with retrying := s.tick.retrying.erase caller }
      have same : s₁.queue = s.tick.queue := rfl
      obtain ⟨lined, fresh, room⟩ := ticked.comeOn key same rfl rfl
      exact (proceed_proceeds D a lined fresh).onTheWay room
    · exact ticked
    · rename_i w noKey waits
      have away : caller ∉ s.tick.retrying.keys := fun hm => by
        rw [Table.mem_keys_iff, Table.has, noKey] at hm
        cases hm
      split
      · exact ticked.setOff waits away rfl rfl rfl rfl rfl
      · exact ticked
  | expire caller =>
    rcases serve_expire D s caller with same | same <;> rw [same]
    · exact ticked
    · exact ticked.expire caller
  | elapse d => exact h.of_queue rfl rfl rfl rfl rfl

theorem Lined.serve {handles : List Checkout} (h : Lined s) (ho : Orderly s handles) (D : Driver δ)
    (r : Request κ) : Lined (s.serve D r).2 :=
  (serve_attended ho ⟨h, fun _ => Nat.le_add_left _ _⟩ D r).toLined

/-! ## Runs -/

instance (q : Queue κ) : Decidable q.Asleep := inferInstanceAs (Decidable (∃ _ ∈ _, _ = none))

/-- The places that were lost in a run of requests since there was nobody asleep. -/
def forfeited (D : Driver δ) : Service κ δ → Nat → List (Request κ) → Nat
  | _, lost, [] => lost
  | s, lost, r :: rs =>
    let s' := (s.serve D r).2
    forfeited D s' (if s'.queue.Asleep then lost + s.forfeits D r else 0) rs

theorem run_attended {handles : List Checkout} (ho : Orderly s handles) (h : Attended s lost)
    (D : Driver δ) (rs : List (Request κ)) :
    Attended (s.run D rs) (s.forfeited D lost rs) := by
  induction rs generalizing s lost handles with
  | nil => exact h
  | cons r rs ih =>
    refine ih (ho.serve D r) ?_
    have step := serve_attended ho h D r
    split
    · exact step
    · rename_i awake
      exact ⟨step.toLined, fun asleep => absurd asleep awake⟩

omit [DecidableEq κ] in
theorem start_attended (source : Source.DataSource) (settings : Settings) (driver : δ) :
    Attended (start source settings driver : Service κ δ) 0 := by
  have awake : ¬(start source settings driver : Service κ δ).queue.Asleep := by
    rintro ⟨w, hw, _⟩
    cases hw
  exact ⟨⟨List.nodup_nil, fun _ => awake, fun _ => awake⟩, fun asleep => absurd asleep awake⟩

/-- Whoever has been told to go on has done so. -/
def Quiet (s : Service κ δ) : Prop := s.retrying = [] ∧ ∀ w ∈ s.queue.waiters, w.notice = none

omit [DecidableEq κ] in
theorem quiet_of_isSettled (h : s.isSettled = true) : s.Quiet := by
  obtain ⟨none, still⟩ := s.isSettled_iff.mp h
  refine ⟨none, fun w hw => ?_⟩
  have hr := still w hw
  rw [Waiter.isReady, Bool.or_eq_false_iff] at hr
  simpa using hr.1

omit [DecidableEq κ] in
theorem Attended.room_of_quiet (h : Attended s lost) (quiet : s.Quiet)
    (waits : s.queue.waiters ≠ []) :
    s.pool.state.settings.maxActive ≤ s.pool.state.active.length + lost := by
  obtain ⟨none, still⟩ := quiet
  obtain ⟨w, hw⟩ := List.exists_mem_of_ne_nil _ waits
  have room := h.room ⟨w, hw, still w hw⟩
  have owed : s.queue.owed = 0 := by
    refine List.countP_eq_zero.mpr fun v hv => ?_
    rw [still v hv]
    decide
  rw [taken, owed, none] at room
  exact room

theorem proceed_inVain {caller : κ} {a : Attempt} (hb : Bounded s.pool.state)
    (hv : (proceed D caller a s).1.inVain = true) :
    (proceed D caller a s).2.pool.state.active.length <
      (proceed D caller a s).2.pool.state.settings.maxActive := by
  have visit := examine_visits D s.now a s.pool
  rw [proceed_reply] at hv
  rw [proceed_pool]
  generalize (examine D s.now a s.pool).1 = o at hv visit
  cases o with
  | failed e =>
    refine visit.room_of_failed hb fun he => ?_
    rw [he] at hv
    cases hv
  | granted | waits | retries => cases hv

/-- Whoever fails over a connection leaves room. -/
theorem serve_inVain {r : Request κ} (hb : Bounded s.pool.state)
    (hv : (s.serve D r).1.inVain = true) :
    (s.serve D r).2.pool.state.active.length <
      (s.serve D r).2.pool.state.settings.maxActive := by
  cases r with
  | acquire caller credentials =>
    simp only [serve, acquire] at hv ⊢
    split at hv
    · cases hv
    · rename_i free
      rw [if_neg free]
      exact proceed_inVain hb hv
  | resume caller =>
    simp only [serve, resume] at hv ⊢
    split at hv
    · exact proceed_inVain hb hv
    · cases hv
    · split at hv <;> cases hv
  | expire caller =>
    rcases serve_expire D s caller with same | same <;> rw [same] at hv <;> cases hv
  | release caller =>
    simp only [serve, release] at hv
    split at hv <;> cases hv
  | drop caller =>
    simp only [serve, drop] at hv
    split at hv <;> cases hv
  | cancel caller =>
    simp only [serve, cancel] at hv
    split at hv <;> cases hv
  | use caller op =>
    simp only [serve, use] at hv
    split at hv
    · cases hv
    · split at hv
      · dsimp only at hv
        split at hv
        · cases hv
        · split at hv <;> cases hv
      · cases hv
  | closeAll | shutdown | reconfigure | setTolerance | elapse => cases hv

/-- After any run of requests, if somebody waits although whoever was told to go on has done
so, the pool is full but for the places that were lost; if none was lost no connection is
idle and as many are handed out as may be. Whoever fails over a connection leaves room. -/
theorem run_waiting (D : Driver δ) (source : Source.DataSource) (settings : Settings)
    (driver : δ) (rs : List (Request κ)) :
    let start : Service κ δ := start source settings driver
    let s := start.run D rs
    let lost := start.forfeited D 0 rs
    (s.Quiet → s.queue.waiters ≠ [] →
      s.pool.state.settings.maxActive ≤ s.pool.state.active.length + lost ∧
      (lost = 0 → s.pool.state.idle = [] ∧
        s.pool.state.settings.maxActive ≤ s.pool.state.active.length)) ∧
    (∀ r, (s.serve D r).1.inVain = true →
      (s.serve D r).2.pool.state.active.length <
        (s.serve D r).2.pool.state.settings.maxActive) := by
  intro start s lost
  have orderly : Orderly start [] := start_orderly source settings driver
  have bounded : Bounded s.pool.state := orderly.bounded_run ⟨Nat.zero_le _, Nat.zero_le _⟩ D rs
  have attended : Attended s lost := run_attended orderly (start_attended ..) D rs
  refine ⟨fun quiet waits => ?_, fun r hv => ?_⟩
  · have room := attended.room_of_quiet quiet waits
    refine ⟨room, fun none => ?_⟩
    rw [none, Nat.add_zero] at room
    have total := bounded.total
    exact ⟨List.length_eq_zero_iff.mp (by omega), room⟩
  · exact serve_inVain bounded hv

/-- Without a failure a caller waits for the only connection, which is handed out. -/
theorem run_waiting_full :
    let s := (start { url := "db" } { maxActive := 1 } 0 : Service Nat Nat).run
      (Driver.refusing []) [.acquire 0 none, .acquire 1 none]
    s.queue.waiters ≠ [] ∧ s.pool.state.idle = [] ∧ 1 ≤ s.pool.state.active.length := by
  intro s
  have quiet : s.Quiet := quiet_of_isSettled rfl
  have waits : s.queue.waiters ≠ [] := List.cons_ne_nil _ _
  have full := run_waiting (Driver.refusing []) { url := "db" } { maxActive := 1 } 0
    [.acquire 0 none, .acquire (1 : Nat) none]
  exact ⟨waits, (full.1 quiet waits).2 rfl⟩

/-- The first caller to be woken cannot reach the source, and the second one sleeps on beside
a pool that has nothing to do. -/
theorem waiting_beside_room :
    let s := (start { url := "db" } { maxActive := 1, maxIdle := 0, timeToWait := .zero } 0 :
      Service Nat Nat).run (Driver.refusing [6])
        [.acquire 0 none, .acquire 1 none, .acquire 2 none, .release 0, .resume 1, .resume 1]
    s.isSettled = true ∧ s.queue.waiters.map (·.caller) = [2] ∧
      s.pool.state.active = [] ∧ s.pool.state.settings.maxActive = 1 := by
  exact ⟨rfl, rfl, rfl, rfl⟩

end DataTier.Pool.Service
