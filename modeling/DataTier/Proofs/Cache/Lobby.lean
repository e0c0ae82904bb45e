import DataTier.Cache.Memory
import DataTier.Proofs.Cache.Waiters

/-! Clients asleep at gates. Who finds its gate shut goes to sleep there until it is called, its
time is up, or it stirs for no reason; who opens a gate calls afterwards all that sleep there. Any
step of others may come between two of these, and what comes of it is what comes of clients that
look at their gates all the time (`exists_run_iff`). No call is missed (`Tended`): whoever sleeps
does so at a gate that is shut, or whose sleepers are about to be called. -/

namespace DataTier.Cache.Blocking

variable {ι σ : Type} {d : Store σ} {i j : ι} {k : Key} {gate : Nat}

def Phase.isWaitingAt (gate : Nat) : Phase → Bool
  | waiting other => other == gate
  | _ => false

namespace Crowd

def isAt (w : Crowd ι σ) (i : ι) (gate : Nat) : Bool :=
  (w.clients i).activity.visit?.any (·.phase.isWaitingAt gate)

/-- The gate that the client is about to open, with its key. -/
def opens? (w : Crowd ι σ) (i : ι) : Option (Key × Nat) :=
  (w.clients i).activity.visit?.bind fun v =>
    match v.phase with
    | .opening gate _ => some (v.key, gate)
    | _ => none

end Crowd

structure Lobby (ι σ : Type) where
  crowd : Crowd ι σ
  asleep : ι → Bool := fun _ => false
  /-- The gate that a client has opened and whose sleepers it has yet to call, with its key. -/
  calling : ι → Option (Key × Nat) := fun _ => none

inductive Lobby.Move (ι σ : Type) where
  | act (m : Blocking.Move ι σ)
  /-- A sleeper wakes up that nobody has called. -/
  | stir (i : ι)

namespace Lobby

def start (below : σ) (timeout : Option Time.Duration) : Lobby ι σ :=
  { crowd := .start below timeout }

variable [DecidableEq ι]

/-- The client is awake and makes the next step of its call. -/
def goOn (d : Store σ) (s : Lobby ι σ) (i : ι) (now : Time.Instant) : Lobby ι σ where
  crowd := s.crowd.move d (.step i now)
  asleep := Function.update s.asleep i false
  calling := Function.update s.calling i (s.crowd.opens? i)

def call (s : Lobby ι σ) (i : ι) (gate : Nat) : Lobby ι σ :=
  { s with
    asleep := fun j => s.asleep j && !s.crowd.isAt j gate
    calling := Function.update s.calling i none }

def step (d : Store σ) (s : Lobby ι σ) (i : ι) (now : Time.Instant) : Lobby ι σ :=
  match s.calling i with
  | some (_, gate) => s.call i gate
  | none =>
    match (s.crowd.clients i).activity.visit? with
    | none => s
    | some v =>
      match v.phase with
      | .waiting gate =>
        if s.asleep i then
          if v.hasExpired now then s.goOn d i now else s
        else if s.crowd.shared.gates.isShut gate then
          { s with asleep := Function.update s.asleep i true }
        else s.goOn d i now
      | _ => s.goOn d i now

/-- A call is not over before its client has called all that sleep. -/
def move (d : Store σ) (s : Lobby ι σ) : Move ι σ → Lobby ι σ
  | .act (.step i now) => s.step d i now
  | .act (.collect i) =>
    match s.calling i with
    | none => { s with crowd := s.crowd.move d (.collect i) }
    | some _ => s
  | .act m => { s with crowd := s.crowd.move d m }
  | .stir i => { s with asleep := Function.update s.asleep i false }

def run (d : Store σ) (s : Lobby ι σ) (ms : List (Move ι σ)) : Lobby ι σ := ms.foldl (move d) s

/-! ## The same crowds -/

section

variable {s : Lobby ι σ} {v : Visit} {now : Time.Instant}

/-- Who is awake and finds its gate open, or has none, goes on. -/
theorem step_eq_goOn (d : Store σ) (now : Time.Instant) (quiet : s.calling i = none)
    (busy : (s.crowd.clients i).activity.visit? = some v)
    (awake : ∀ gate, v.phase = .waiting gate →
      s.asleep i = false ∧ s.crowd.shared.gates.isShut gate = false) :
    s.step d i now = s.goOn d i now := by
  unfold step
  simp only [quiet, busy]
  split
  · rename_i gate phase
    obtain ⟨up, opened⟩ := awake gate phase
    simp [up, opened]
  · rfl

/-- Who is asleep wakes up when its time is up. -/
theorem step_of_expired (d : Store σ) (quiet : s.calling i = none)
    (busy : (s.crowd.clients i).activity.visit? = some v) (phase : v.phase = .waiting gate)
    (asleep : s.asleep i = true) (expired : v.hasExpired now = true) :
    s.step d i now = s.goOn d i now := by
  unfold step
  simp only [quiet, busy, phase, asleep, expired, if_true]

theorem run_append (d : Store σ) (s : Lobby ι σ) (ms ns : List (Move ι σ)) :
    s.run d (ms ++ ns) = (s.run d ms).run d ns := List.foldl_append

theorem step_crowd (d : Store σ) (s : Lobby ι σ) (i : ι) (now : Time.Instant) :
    (s.step d i now).crowd = s.crowd ∨ (s.step d i now).crowd = s.crowd.move d (.step i now) := by
  unfold step
  split
  · exact .inl rfl
  · split
    · exact .inl rfl
    · split
      · split
        · split
          · exact .inr rfl
          · exact .inl rfl
        · split
          · exact .inl rfl
          · exact .inr rfl
      · exact .inr rfl

theorem move_crowd (d : Store σ) (s : Lobby ι σ) (m : Move ι σ) :
    (s.move d m).crowd = s.crowd ∨ ∃ n, (s.move d m).crowd = s.crowd.move d n := by
  cases m with
  | stir => exact .inl rfl
  | act n =>
    cases n with
    | step i now => exact (step_crowd d s i now).imp_right fun moved => ⟨_, moved⟩
    | collect i =>
      unfold move
      dsimp only
      split
      · exact .inr ⟨.collect i, rfl⟩
      · exact .inl rfl
    | read i k now => exact .inr ⟨.read i k now, rfl⟩
    | settle i k e => exact .inr ⟨.settle i k e, rfl⟩
    | below f => exact .inr ⟨.below f, rfl⟩
    | setTimeout timeout => exact .inr ⟨.setTimeout timeout, rfl⟩

/-- Whom a client has to call, it may have called before anything else happens. -/
theorem exists_quiet (d : Store σ) (s : Lobby ι σ) (i : ι) :
    ∃ ms, (s.run d ms).crowd = s.crowd ∧ (s.run d ms).calling i = none := by
  cases calls : s.calling i with
  | none => exact ⟨[], rfl, calls⟩
  | some p =>
    have after : s.run d [.act (.step i .start)] = s.call i p.2 := by
      change s.step d i .start = _
      unfold step
      rw [calls]
    refine ⟨[.act (.step i .start)], ?_⟩
    rw [after]
    exact ⟨rfl, Function.update_self ..⟩

/-- Who is asleep may stir, and who falls asleep though its time is up wakes up at once. -/
theorem exists_step (d : Store σ) (now : Time.Instant) (quiet : s.calling i = none) :
    ∃ ms, (s.run d ms).crowd = s.crowd.move d (.step i now) := by
  cases busy : (s.crowd.clients i).activity.visit? with
  | none => exact ⟨[], by simp only [Crowd.move, busy]; rfl⟩
  | some v =>
    by_cases held : ∃ gate, v.phase = .waiting gate ∧ s.crowd.shared.gates.isShut gate = true
    · obtain ⟨gate, phase, shut⟩ := held
      cases expired : v.hasExpired now with
      | false =>
        have stays : v.step d now s.crowd.shared = none := by
          simp [Visit.step, phase, shut, expired]
        exact ⟨[], by simp only [Crowd.move, busy, stays]; rfl⟩
      | true =>
        cases asleep : s.asleep i with
        | true =>
          exact ⟨[.act (.step i now)],
            congrArg crowd (step_of_expired d quiet busy phase asleep expired)⟩
        | false =>
          have sleeps : s.step d i now = { s with asleep := Function.update s.asleep i true } := by
            unfold step
            simp only [quiet, busy, phase, asleep, shut, Bool.false_eq_true, if_false, if_true]
          have wakes : (s.step d i now).step d i now = (s.step d i now).goOn d i now := by
            rw [sleeps]
            exact step_of_expired d quiet busy phase (Function.update_self ..) expired
          refine ⟨[.act (.step i now), .act (.step i now)], (congrArg crowd wakes).trans ?_⟩
          rw [sleeps]
          rfl
    · refine ⟨[.stir i, .act (.step i now)], ?_⟩
      have goes : (s.move d (.stir i)).step d i now = (s.move d (.stir i)).goOn d i now :=
        step_eq_goOn d now quiet busy fun gate phase => ⟨Function.update_self ..,
          Bool.eq_false_iff.mpr fun shut => held ⟨gate, phase, shut⟩⟩
      exact congrArg crowd goes

theorem exists_moves (d : Store σ) (s : Lobby ι σ) (n : Blocking.Move ι σ) :
    ∃ ms, (s.run d ms).crowd = s.crowd.move d n := by
  cases n with
  | step i now =>
    obtain ⟨ms, same, quiet⟩ := exists_quiet d s i
    obtain ⟨ns, moved⟩ := exists_step d now quiet
    exact ⟨ms ++ ns, by rw [run_append, moved, same]⟩
  | collect i =>
    obtain ⟨ms, same, quiet⟩ := exists_quiet d s i
    refine ⟨ms ++ [.act (.collect i)], ?_⟩
    have collects : (s.run d ms).move d (.act (.collect i)) =
        { s.run d ms with crowd := (s.run d ms).crowd.move d (.collect i) } := by
      unfold move
      dsimp only
      rw [quiet]
    rw [run_append, ← same]
    exact congrArg crowd collects
  | read i k now => exact ⟨[.act (.read i k now)], rfl⟩
  | settle i k e => exact ⟨[.act (.settle i k e)], rfl⟩
  | below f => exact ⟨[.act (.below f)], rfl⟩
  | setTimeout timeout => exact ⟨[.act (.setTimeout timeout)], rfl⟩

/-- Clients that sleep bring about just what clients do that look at their gates all the time. -/
theorem exists_run_iff (d : Store σ) (s : Lobby ι σ) (w : Crowd ι σ) :
    (∃ ms, (s.run d ms).crowd = w) ↔ ∃ ns, s.crowd.run d ns = w := by
  constructor
  · rintro ⟨ms, rfl⟩
    induction ms generalizing s with
    | nil => exact ⟨[], rfl⟩
    | cons m ms ih =>
      obtain ⟨ns, runs⟩ := ih (s.move d m)
      rcases move_crowd d s m with same | ⟨n, moved⟩
      · exact ⟨ns, by rw [← same]; exact runs⟩
      · exact ⟨n :: ns, by rw [moved] at runs; exact runs⟩
  · rintro ⟨ns, rfl⟩
    induction ns generalizing s with
    | nil => exact ⟨[], rfl⟩
    | cons n ns ih =>
      obtain ⟨ms, moved⟩ := exists_moves d s n
      obtain ⟨later, runs⟩ := ih (s.run d ms)
      exact ⟨ms ++ later, by rw [run_append, runs, moved]; rfl⟩

end

end Lobby

/-! ## What others leave alone -/

namespace Crowd

variable {w : Crowd ι σ} {v : Visit} {now : Time.Instant}

theorem waitsAt_iff : w.WaitsAt i k gate ↔
    (w.clients i).activity.visit?.map Visit.key = some k ∧ w.isAt i gate = true := by
  constructor
  · rintro ⟨v, busy, rfl, phase⟩
    simp [isAt, busy, phase, Phase.isWaitingAt]
  · rintro ⟨named, here⟩
    obtain ⟨v, busy, key⟩ := Option.map_eq_some_iff.mp named
    refine ⟨v, busy, key, ?_⟩
    rw [isAt, busy, Option.any_some] at here
    cases phase : v.phase with
    | waiting other => simpa [phase, Phase.isWaitingAt] using here
    | entering | reading | writing | leaving | opening | finished =>
      simp [phase, Phase.isWaitingAt] at here

theorem opens?_eq_some_iff : w.opens? i = some (k, gate) ↔
    ∃ v a, (w.clients i).activity.visit? = some v ∧ v.key = k ∧ v.phase = .opening gate a := by
  rw [opens?, Option.bind_eq_some_iff]
  refine exists_congr fun v => ?_
  constructor
  · rintro ⟨busy, opens⟩
    split at opens
    · rename_i other a phase
      cases opens
      exact ⟨a, busy, rfl, phase⟩
    · cases opens
  · rintro ⟨a, busy, rfl, phase⟩
    exact ⟨busy, by rw [phase]⟩

variable [DecidableEq ι]

/-- A client that is busy changes by its own steps, and when it takes its answer. -/
theorem clients_move_of_busy (busy : (w.clients i).activity.visit? = some v) {m : Move ι σ}
    (step : ∀ now, m ≠ .step i now) (collect : m ≠ .collect i) :
    (w.move d m).clients i = w.clients i := by
  have begins {j : ι} (idle : (w.clients j).activity = .idle) : i ≠ j := fun e => by
    rw [e, idle] at busy
    cases busy
  unfold move
  cases m with
  | read j | settle j =>
    dsimp only
    split
    · rename_i idle
      exact Function.update_of_ne (begins idle) ..
    · rfl
  | step j now =>
    have other : i ≠ j := fun e => step now (by rw [e])
    dsimp only
    split
    · rfl
    · split
      · rfl
      · exact clients_advance_of_ne other
  | collect j =>
    have other : i ≠ j := fun e => collect (by rw [e])
    dsimp only
    split
    · rfl
    · exact Function.update_of_ne other ..
  | below | setTimeout => rfl

theorem move_step {v' : Visit} {s' : Blocking σ} (busy : (w.clients i).activity.visit? = some v)
    (step : v.step d now w.shared = some (v', s')) :
    w.move d (.step i now) = w.advance d i v v' s' := by
  simp only [move, busy, step]

theorem visit_of_opens? (opens : w.opens? i = some (k, gate)) (d : Store σ) (now : Time.Instant) :
    ∃ v a, ((w.move d (.step i now)).clients i).activity.visit? = some v ∧
      v.phase = .finished a := by
  obtain ⟨v, a, busy, -, phase⟩ := opens?_eq_some_iff.mp opens
  have step : v.step d now w.shared = some ({ v with phase := .finished a },
      { w.shared with gates := w.shared.gates.release gate }) := by
    simp only [Visit.step, phase]
  rw [move_step busy step]
  exact ⟨_, a, visit_advance busy, rfl⟩

theorem WaitsAt.move (h : w.WaitsAt i k gate) {m : Move ι σ} (step : ∀ now, m ≠ .step i now) :
    (w.move d m).WaitsAt i k gate := by
  obtain ⟨v, busy, key, phase⟩ := h
  rcases still_move d w m with ⟨j, now, rfl⟩ | still
  · refine ⟨v, ?_, key, phase⟩
    rw [clients_move_of_busy busy step (by simp)]
    exact busy
  · exact still.waitsAt_iff.mpr ⟨v, busy, key, phase⟩

theorem shut_move (shut : w.shared.gates.isShut gate = true) (m : Move ι σ) :
    (w.move d m).shared.gates.isShut gate = true ∨
      ∃ i now k, m = .step i now ∧ w.opens? i = some (k, gate) := by
  rcases still_move d w m with ⟨i, now, rfl⟩ | still
  · unfold Crowd.move
    dsimp only
    split
    · exact .inl shut
    · rename_i v busy
      split
      · exact .inl shut
      · rename_i v' s' step
        rcases (Visit.step_cases step).shut shut with still | ⟨a, phase⟩
        · exact .inl still
        · exact .inr ⟨i, now, v.key, rfl, opens?_eq_some_iff.mpr ⟨v, a, busy, rfl, phase⟩⟩
  · exact .inl ((still.isShut_eq gate).trans shut)

end Crowd

/-! ## No call is missed -/

namespace Lobby

variable {s : Lobby ι σ} {id : String} {now : Time.Instant} {v : Visit}

structure Tended (s : Lobby ι σ) (id : String) : Prop where
  orderly : s.crowd.Orderly id
  heard : s.crowd.Heard
  calls : ∀ i p, s.calling i = some p →
    ∃ v a, (s.crowd.clients i).activity.visit? = some v ∧ v.phase = .finished a
  sleeps : ∀ i, s.asleep i = true → ∃ k gate, s.crowd.WaitsAt i k gate ∧
    (s.crowd.shared.gates.isShut gate = true ∨ ∃ j, s.calling j = some (k, gate))

/-- Who has sleepers to call is at the end of its call. -/
theorem Tended.calling_of_busy (h : s.Tended id)
    (busy : (s.crowd.clients i).activity.visit? = some v) (on : ∀ a, v.phase ≠ .finished a) :
    s.calling i = none := by
  cases calling : s.calling i with
  | none => rfl
  | some p =>
    obtain ⟨u, a, busy', finished⟩ := h.calls i p calling
    rw [busy] at busy'
    cases busy'
    exact absurd finished (on a)

variable [DecidableEq ι]

theorem asleep_of_update {asleep : ι → Bool} (h : Function.update asleep i false j = true) :
    j ≠ i ∧ asleep j = true := by
  have other : j ≠ i := fun e => by
    rw [e, Function.update_self] at h
    cases h
  rw [Function.update_of_ne other] at h
  exact ⟨other, h⟩

/-- A move of the crowd that is no step. -/
theorem Tended.acts (h : s.Tended d.id) {m : Blocking.Move ι σ} (step : ∀ i now, m ≠ .step i now)
    (collect : ∀ i, m = .collect i → s.calling i = none) :
    Tended { s with crowd := s.crowd.move d m } d.id where
  orderly := h.orderly.move m
  heard := h.heard.move h.orderly m
  calls i p hp := by
    obtain ⟨v, a, busy, finished⟩ := h.calls i p hp
    have stays : m ≠ .collect i := fun e => by
      rw [collect i e] at hp
      cases hp
    refine ⟨v, a, ?_, finished⟩
    dsimp only
    rw [Crowd.clients_move_of_busy busy (step i) stays]
    exact busy
  sleeps i hi := by
    obtain ⟨k, gate, waits, why⟩ := h.sleeps i hi
    refine ⟨k, gate, waits.move (step i), why.imp_left fun shut => ?_⟩
    refine (Crowd.shut_move shut m).resolve_right ?_
    rintro ⟨j, now, l, e, -⟩
    exact step j now e

/-- Who opens a gate has the sleepers there to call. -/
theorem Tended.goOn (h : s.Tended d.id) (quiet : s.calling i = none) :
    (s.goOn d i now).Tended d.id where
  orderly := h.orderly.move (.step i now)
  heard := h.heard.move h.orderly (.step i now)
  calls j p hp := by
    dsimp only [Lobby.goOn] at hp ⊢
    by_cases e : j = i
    · rw [e, Function.update_self] at hp
      rw [e]
      exact Crowd.visit_of_opens? hp d now
    · rw [Function.update_of_ne e] at hp
      obtain ⟨v, a, busy, finished⟩ := h.calls j p hp
      refine ⟨v, a, ?_, finished⟩
      rw [Crowd.clients_move_of_busy busy (fun _ same => e (by cases same; rfl)) (by simp)]
      exact busy
  sleeps j hj := by
    dsimp only [Lobby.goOn] at hj ⊢
    obtain ⟨other, asleep⟩ := asleep_of_update hj
    obtain ⟨k, gate, waits, why⟩ := h.sleeps j asleep
    refine ⟨k, gate, waits.move fun _ same => other (by cases same; rfl), ?_⟩
    rcases why with shut | ⟨l, calling⟩
    · rcases Crowd.shut_move shut (.step i now) with still | ⟨_, _, l, same, opens⟩
      · exact .inl still
      · cases same
        -- the gate that is opened is of the key that the sleeper waits for
        obtain ⟨u, a, busy, rfl, phase⟩ := Crowd.opens?_eq_some_iff.mp opens
        obtain ⟨x, waiting, rfl, at_gate⟩ := waits
        have closed := h.heard.known i u busy
        rw [phase] at closed
        have closed' := h.heard.known j x waiting
        rw [at_gate] at closed'
        refine .inr ⟨i, ?_⟩
        rw [Function.update_self, opens, h.heard.one_key _ _ gate closed closed'.1]
    · refine .inr ⟨l, ?_⟩
      have another : l ≠ i := fun e => by
        rw [e, quiet] at calling
        cases calling
      rw [Function.update_of_ne another]
      exact calling

theorem Tended.call {l : Key} (h : s.Tended id) (calling : s.calling i = some (l, gate)) :
    (s.call i gate).Tended id where
  orderly := h.orderly
  heard := h.heard
  calls j p hp := by
    dsimp only [Lobby.call] at hp ⊢
    by_cases e : j = i
    · rw [e, Function.update_self] at hp
      cases hp
    · rw [Function.update_of_ne e] at hp
      exact h.calls j p hp
  sleeps j hj := by
    dsimp only [Lobby.call] at hj ⊢
    obtain ⟨asleep, away⟩ := Bool.and_eq_true_iff.mp hj
    obtain ⟨k, other, waits, why⟩ := h.sleeps j asleep
    refine ⟨k, other, waits, why.imp_right fun ⟨m, calls⟩ => ⟨m, ?_⟩⟩
    -- whoever else calls does not do so at the gate of the one that has just called
    have another : m ≠ i := fun e => by
      rw [e, calling] at calls
      cases calls
      simp [(Crowd.waitsAt_iff.mp waits).2] at away
    rw [Function.update_of_ne another]
    exact calls

theorem Tended.sleep (h : s.Tended id) (waits : s.crowd.WaitsAt i k gate)
    (shut : s.crowd.shared.gates.isShut gate = true) :
    Tended { s with asleep := Function.update s.asleep i true } id where
  orderly := h.orderly
  heard := h.heard
  calls := h.calls
  sleeps j hj := by
    by_cases e : j = i
    · exact ⟨k, gate, e ▸ waits, .inl shut⟩
    · dsimp only at hj
      rw [Function.update_of_ne e] at hj
      exact h.sleeps j hj

theorem Tended.stir (h : s.Tended id) (i : ι) :
    Tended { s with asleep := Function.update s.asleep i false } id where
  orderly := h.orderly
  heard := h.heard
  calls := h.calls
  sleeps j hj := h.sleeps j (asleep_of_update hj).2

theorem Tended.step (h : s.Tended d.id) (i : ι) (now : Time.Instant) :
    (s.step d i now).Tended d.id := by
  unfold Lobby.step
  split
  · rename_i l gate calling
    exact h.call calling
  · rename_i quiet
    split
    · exact h
    · rename_i v busy
      split
      · rename_i gate phase
        split
        · split
          · exact h.goOn quiet
          · exact h
        · split
          · rename_i shut
            exact h.sleep ⟨v, busy, rfl, phase⟩ shut
          · exact h.goOn quiet
      · exact h.goOn quiet

theorem Tended.move (h : s.Tended d.id) (m : Move ι σ) : (s.move d m).Tended d.id := by
  cases m with
  | stir i => exact h.stir i
  | act m =>
    cases m with
    | step i now => exact h.step i now
    | collect i =>
      unfold Lobby.move
      dsimp only
      split
      · rename_i quiet
        exact h.acts (fun _ _ => by simp) fun j e => by
          cases e
          exact quiet
      · exact h
    | read | settle | below | setTimeout =>
      exact h.acts (fun _ _ => by simp) fun _ e => by cases e

theorem Tended.run (h : s.Tended d.id) (ms : List (Move ι σ)) : (s.run d ms).Tended d.id := by
  induction ms generalizing s with
  | nil => exact h
  | cons m ms ih => exact ih (h.move m)

omit [DecidableEq ι] in
theorem start_tended (below : σ) (timeout : Option Time.Duration) (id : String) :
    (start below timeout : Lobby ι σ).Tended id where
  orderly := Crowd.start_orderly below timeout id
  heard := Crowd.start_heard below timeout
  calls _ _ hp := by cases hp
  sleeps _ hi := by cases hi

/-! ## Who can go on -/

/-- Somebody has the key's gate out of the table and is about to open it, or has opened it and is
about to call those who sleep there. -/
def Releasing (s : Lobby ι σ) (k : Key) : Prop :=
  ∃ gate, s.crowd.Opening k gate ∨ ∃ i, s.calling i = some (k, gate)

omit [DecidableEq ι] in
/-- Whoever waits for a key without a gate that nobody releases is awake, at an open gate. -/
theorem Tended.awake (h : s.Tended id) (free : s.crowd.shared.gates.table.get? v.key = none)
    (quiet : ¬s.Releasing v.key) (busy : (s.crowd.clients i).activity.visit? = some v)
    (phase : v.phase = .waiting gate) :
    s.asleep i = false ∧ s.crowd.shared.gates.isShut gate = false := by
  have known := h.heard.known i v busy
  rw [phase] at known
  have opened : s.crowd.shared.gates.isShut gate = false := by
    rcases known.2 with look | opened | opening
    · rw [free] at look
      cases look
    · exact opened
    · exact absurd ⟨gate, .inl opening⟩ quiet
  refine ⟨Bool.eq_false_iff.mpr fun asleep => ?_, opened⟩
  obtain ⟨k, other, ⟨u, busy', rfl, phase'⟩, why⟩ := h.sleeps i asleep
  rw [busy] at busy'
  cases busy'
  rw [phase] at phase'
  cases phase'
  rcases why with shut | calling
  · rw [opened] at shut
    cases shut
  · exact quiet ⟨gate, .inr calling⟩

/-- Who waits for a key without a gate that nobody releases is back before the gates with its next
step, and past them with the one after that. -/
theorem Tended.goes_on (h : s.Tended d.id) (free : s.crowd.shared.gates.table.get? v.key = none)
    (quiet : ¬s.Releasing v.key) (busy : (s.crowd.clients i).activity.visit? = some v)
    (phase : v.phase = .waiting gate) (now : Time.Instant) :
    ((s.step d i now).crowd.clients i).activity.visit? = some { v with phase := .entering } ∧
      (((s.step d i now).step d i now).crowd.clients i).activity.visit? =
        some { v with phase := .reading } := by
  obtain ⟨up, opened⟩ := h.awake free quiet busy phase
  have silent : s.calling i = none := h.calling_of_busy busy fun a e => by
    rw [phase] at e
    cases e
  have first : s.step d i now = s.goOn d i now := by
    refine step_eq_goOn d now silent busy fun other at_other => ?_
    rw [phase] at at_other
    cases at_other
    exact ⟨up, opened⟩
  have wakes : v.step d now s.crowd.shared = some ({ v with phase := .entering }, s.crowd.shared) := by
    simp [Visit.step, phase, opened]
  have crowd : (s.goOn d i now).crowd = _ := Crowd.move_step busy wakes
  have back : ((s.goOn d i now).crowd.clients i).activity.visit? =
      some { v with phase := .entering } := by
    rw [crowd]
    exact Crowd.visit_advance busy
  have second : (s.goOn d i now).step d i now = (s.goOn d i now).goOn d i now :=
    step_eq_goOn d now ((h.goOn silent).calling_of_busy back fun _ e => by cases e) back
      fun _ e => by cases e
  have enters : Visit.step d now { v with phase := .entering } (s.goOn d i now).crowd.shared =
      some ({ v with phase := .reading }, { s.crowd.shared with
        gates := s.crowd.shared.gates.close v.key }) := by
    rw [crowd]
    simp only [Visit.step, Crowd.advance, free]
  rw [first, second]
  refine ⟨back, ?_⟩
  have past : ((s.goOn d i now).goOn d i now).crowd = _ := Crowd.move_step back enters
  rw [past]
  exact Crowd.visit_advance back

/-- At any moment of any run, whoever waits has its gate in the table, or open, or out of the table
in the hands of somebody who is about to open it; whoever sleeps does so at a gate that is shut, or
that somebody has opened who is about to call; so with no gate for a key, and nobody releasing one,
all who wait for the key go on, and past the gates. -/
theorem no_wakeUp_is_lost (d : Store σ) (below : σ) (timeout : Option Time.Duration)
    (ms : List (Move ι σ)) :
    let s : Lobby ι σ := (start below timeout).run d ms
    (∀ i k gate, s.crowd.WaitsAt i k gate →
      s.crowd.shared.gates.table.get? k = some gate ∨
        s.crowd.shared.gates.isShut gate = false ∨ s.crowd.Opening k gate) ∧
      (∀ i, s.asleep i = true → ∃ k gate, s.crowd.WaitsAt i k gate ∧
        (s.crowd.shared.gates.isShut gate = true ∨ ∃ j, s.calling j = some (k, gate))) ∧
      ∀ k, s.crowd.shared.gates.table.get? k = none → ¬s.Releasing k →
        ∀ i gate now, s.crowd.WaitsAt i k gate → ∃ v : Visit, v.key = k ∧
          ((s.step d i now).crowd.clients i).activity.visit? =
            some { v with phase := .entering } ∧
          (((s.step d i now).step d i now).crowd.clients i).activity.visit? =
            some { v with phase := .reading } := by
  intro s
  have h : s.Tended d.id := (start_tended below timeout d.id).run ms
  refine ⟨fun i k gate waits => ?_, h.sleeps, fun k free quiet i gate now waits => ?_⟩
  · obtain ⟨v, busy, rfl, phase⟩ := waits
    have known := h.heard.known i v busy
    rw [phase] at known
    exact known.2
  · obtain ⟨v, busy, rfl, phase⟩ := waits
    exact ⟨v, rfl, h.goes_on free quiet busy phase now⟩

/-- The first client's gate is out of the table while the second sleeps at it, and the key has a
new gate, of the third client, before the first one opens its own. -/
def overtaking : List (Move (Fin 3) Memory) :=
  let k : Key := ⟨"k"⟩
  let read (i : Fin 3) : Move (Fin 3) Memory := .act (.read i k .start)
  let step (i : Fin 3) : Move (Fin 3) Memory := .act (.step i .start)
  [read 0, step 0, step 0, .act (.collect 0), read 1, step 1, step 1,
    .act (.settle 0 k (some .knownAbsent)), step 0, step 0,
    read 2, step 2, step 2, step 0, step 0, step 2, step 2, step 2]

def overtaken : Lobby (Fin 3) Memory := (start {} none).run (Memory.store "users" none) overtaking

theorem no_wakeUp_is_lost_overtaken :
    overtaken.crowd.shared.gates.table.get? ⟨"k"⟩ = none ∧ ¬overtaken.Releasing ⟨"k"⟩ ∧
      overtaken.crowd.WaitsAt 1 ⟨"k"⟩ 0 ∧ ∃ v : Visit, v.key = ⟨"k"⟩ ∧
        ((overtaken.step (Memory.store "users" none) 1 .start).crowd.clients 1).activity.visit? =
          some { v with phase := .entering } := by
  have free : overtaken.crowd.shared.gates.table.get? ⟨"k"⟩ = none := by decide +kernel
  have opens : ∀ i, overtaken.crowd.opens? i = none := by decide +kernel
  have calls : ∀ i, overtaken.calling i = none := by decide +kernel
  have key : (overtaken.crowd.clients 1).activity.visit?.map Visit.key = some ⟨"k"⟩ := by
    decide +kernel
  have sleeps : overtaken.crowd.isAt 1 0 = true := by decide +kernel
  have quiet : ¬overtaken.Releasing ⟨"k"⟩ := by
    rintro ⟨gate, opening | ⟨i, calling⟩⟩
    · obtain ⟨i, opening⟩ := opening
      have opening := Crowd.opens?_eq_some_iff.mpr opening
      rw [opens i] at opening
      cases opening
    · rw [calls i] at calling
      cases calling
  have waits : overtaken.crowd.WaitsAt 1 ⟨"k"⟩ 0 := Crowd.waitsAt_iff.mpr ⟨key, sleeps⟩
  obtain ⟨v, same, back, -⟩ :=
    (no_wakeUp_is_lost (Memory.store "users" none) {} none overtaking).2.2 ⟨"k"⟩ free quiet 1 0
      .start waits
  exact ⟨free, quiet, waits, v, same, back⟩

end Lobby
end DataTier.Cache.Blocking
