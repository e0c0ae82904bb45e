import DataTier.Proofs.Cache.Order

/-! Who waits at which gate. A client keeps the number of the gate that it waits at, also when the
gate is taken out of the table meanwhile and the key has another one; but as long as the client
waits, its gate is in the table, or it is open, or it is out of the table and about to be opened
(`Watched`). A gate belongs to one key all the time (`Heard.one_key`). -/

namespace DataTier.Cache.Blocking

variable {ι σ : Type} {d : Store σ} {i j : ι} {k l : Key} {gate : Nat}

/-- The call has a gate in mind. -/
def Phase.atGate : Phase → Bool
  | waiting _ | opening .. => true
  | _ => false

/-! ## What a step does to a gate -/

namespace Visit.Step

variable {now : Time.Instant} {v v' : Visit} {s s' : Blocking σ} {a : Answer (Option Entry)}

/-- A gate leaves the table only for somebody to open it. -/
theorem look (h : Step d now v s v' s') (locked : s.gates.table.get? k = some gate) :
    s'.gates.table.get? k = some gate ∨ v'.key = k ∧ ∃ a, v'.phase = .opening gate a := by
  cases h with
  | enters phase free =>
    refine .inl ?_
    have other : ¬v.key = k := fun e => by
      rw [e, locked] at free
      cases free
    rw [Gates.close, Table.get?_set, if_neg other]
    exact locked
  | takesOut phase mine =>
    by_cases e : v.key = k
    · rw [e, locked] at mine
      cases mine
      exact .inr ⟨e, _, rfl⟩
    · refine .inl ?_
      rw [Gates.takeOut, Table.get?_erase, if_neg e]
      exact locked
  | meets | wakes | expires | reads | writes | strays | opens => exact .inl locked

theorem opened (h : Step d now v s v' s') (now_open : s.gates.isShut gate = false)
    (old : gate < s.gates.next) : s'.gates.isShut gate = false := by
  cases h with
  | enters => simpa [Gates.isShut_close, now_open] using Nat.ne_of_lt old
  | opens => simp [Gates.isShut_release, now_open]
  | meets | wakes | expires | reads | writes | takesOut | strays => exact now_open

theorem release (h : Step d now v s v' s') (phase : v.phase = .opening gate a) :
    s'.gates = s.gates.release gate := by
  cases h with
  | opens phase' =>
    rw [phase] at phase'
    cases phase'
    rfl
  | enters phase' | meets phase' | wakes phase' | expires phase' | reads phase' | writes phase'
  | takesOut phase' | strays phase' =>
    rw [phase] at phase'
    cases phase'

/-- A shut gate is opened by the one whose turn it is to open it. -/
theorem shut (h : Step d now v s v' s') (now_shut : s.gates.isShut gate = true) :
    s'.gates.isShut gate = true ∨ ∃ a, v.phase = .opening gate a := by
  cases h with
  | enters => exact .inl (by simp [Gates.isShut_close, now_shut])
  | @opens other a phase =>
    by_cases e : gate = other
    · exact .inr ⟨a, e ▸ phase⟩
    · exact .inl (by simp [Gates.isShut_release, now_shut, e])
  | meets | wakes | expires | reads | writes | takesOut | strays => exact .inl now_shut

end Visit.Step

/-! ## Who has a gate in mind -/

namespace Crowd

variable {w w' : Crowd ι σ} {v v' : Visit} {s' : Blocking σ} {now : Time.Instant}

def WaitsAt (w : Crowd ι σ) (i : ι) (k : Key) (gate : Nat) : Prop :=
  ∃ v, (w.clients i).activity.visit? = some v ∧ v.key = k ∧ v.phase = .waiting gate

/-- Somebody has taken the gate out of the table and has yet to open it. -/
def Opening (w : Crowd ι σ) (k : Key) (gate : Nat) : Prop :=
  ∃ i v a, (w.clients i).activity.visit? = some v ∧ v.key = k ∧ v.phase = .opening gate a

/-- Whoever waits at the gate does not wait for nothing. -/
def Watched (w : Crowd ι σ) (k : Key) (gate : Nat) : Prop :=
  w.shared.gates.table.get? k = some gate ∨ w.shared.gates.isShut gate = false ∨ w.Opening k gate

/-- The gate was closed for the key. -/
def ClosedFor (w : Crowd ι σ) (k : Key) (gate : Nat) : Prop := ∃ i, .closed i k gate ∈ w.log

/-- What is known of a gate that a call has in mind. -/
def GateKnown (w : Crowd ι σ) (k : Key) : Phase → Prop
  | .waiting gate => w.ClosedFor k gate ∧ w.Watched k gate
  | .opening gate _ => w.ClosedFor k gate
  | _ => True

structure Heard (w : Crowd ι σ) : Prop where
  one_key : ∀ k l gate, w.ClosedFor k gate → w.ClosedFor l gate → k = l
  known : ∀ i v, (w.clients i).activity.visit? = some v → w.GateKnown v.key v.phase

theorem gateKnown_of_not_atGate {p : Phase} (h : p.atGate = false) : w.GateKnown k p := by
  cases p with
  | waiting | opening => cases h
  | entering | reading | writing | leaving | finished => trivial

/-! ## Moves other than steps -/

/-- Nothing happens at the gates, and whoever has one in mind stays where it is. -/
structure Still (w w' : Crowd ι σ) : Prop where
  gates : w'.shared.gates.table = w.shared.gates.table ∧ w'.shared.gates.shut = w.shared.gates.shut
  closed : ∀ k gate, w'.ClosedFor k gate ↔ w.ClosedFor k gate
  visits : ∀ i v, v.phase.atGate = true →
    ((w'.clients i).activity.visit? = some v ↔ (w.clients i).activity.visit? = some v)

namespace Still

theorem refl (w : Crowd ι σ) : Still w w := ⟨⟨rfl, rfl⟩, fun _ _ => Iff.rfl, fun _ _ _ => Iff.rfl⟩

theorem waitsAt_iff (h : Still w w') : w'.WaitsAt i k gate ↔ w.WaitsAt i k gate := by
  refine exists_congr fun v => and_congr_left fun ⟨_, phase⟩ => h.visits i v ?_
  rw [phase]
  rfl

theorem opening_iff (h : Still w w') : w'.Opening k gate ↔ w.Opening k gate := by
  refine exists_congr fun i => exists_congr fun v => exists_congr fun a => ?_
  refine and_congr_left fun ⟨_, phase⟩ => h.visits i v ?_
  rw [phase]
  rfl

theorem isShut_eq (h : Still w w') (gate : Nat) :
    w'.shared.gates.isShut gate = w.shared.gates.isShut gate := by
  rw [Gates.isShut, Gates.isShut, h.gates.2]

theorem watched_iff (h : Still w w') : w'.Watched k gate ↔ w.Watched k gate := by
  rw [Watched, Watched, h.gates.1, h.isShut_eq, h.opening_iff]

theorem heard (h : Still w w') (before : w.Heard) : w'.Heard where
  one_key k l gate hk hl :=
    before.one_key k l gate ((h.closed k gate).mp hk) ((h.closed l gate).mp hl)
  known i v hv := by
    cases at_gate : v.phase.atGate with
    | false => exact gateKnown_of_not_atGate at_gate
    | true =>
      have known := before.known i v ((h.visits i v at_gate).mp hv)
      cases phase : v.phase with
      | waiting gate =>
        rw [phase] at known
        exact ⟨(h.closed _ gate).mpr known.1, h.watched_iff.mpr known.2⟩
      | opening gate a =>
        rw [phase] at known
        exact (h.closed _ gate).mpr known
      | entering | reading | writing | leaving | finished => trivial

variable [DecidableEq ι]

/-- Only one client changes, and neither before nor afterwards has it a gate in mind. -/
theorem of_update {c : Client} (shared : w'.shared = w.shared)
    (closed : ∀ j k gate, .closed j k gate ∈ w'.log ↔ .closed j k gate ∈ w.log)
    (clients : w'.clients = Function.update w.clients i c)
    (before : ∀ v, (w.clients i).activity.visit? = some v → v.phase.atGate = false)
    (after : ∀ v, c.activity.visit? = some v → v.phase.atGate = false) : Still w w' where
  gates := by rw [shared]; exact ⟨rfl, rfl⟩
  closed k gate := exists_congr fun j => closed j k gate
  visits j v at_gate := by
    rw [clients]
    by_cases e : j = i
    · rw [e, Function.update_self]
      have not_before := fun hv => Bool.false_ne_true ((before v hv).symm.trans at_gate)
      have not_after := fun hv => Bool.false_ne_true ((after v hv).symm.trans at_gate)
      exact ⟨fun hv => (not_after hv).elim, fun hv => (not_before hv).elim⟩
    · rw [Function.update_of_ne e]

end Still

variable [DecidableEq ι]

theorem still_read (d : Store σ) (w : Crowd ι σ) (i : ι) (k : Key) (now : Time.Instant) :
    Still w (w.move d (.read i k now)) := by
  unfold move
  dsimp only
  split
  · rename_i idle
    refine .of_update rfl (fun _ _ _ => Iff.rfl) rfl (fun v hv => ?_) (fun v hv => ?_)
    · rw [idle] at hv
      cases hv
    · cases hv
      unfold Visit.read
      split
      · rfl
      · split <;> rfl
  · exact .refl w

theorem still_settle (d : Store σ) (w : Crowd ι σ) (i : ι) (k : Key) (e : Option Entry) :
    Still w (w.move d (.settle i k e)) := by
  unfold move
  dsimp only
  split
  · rename_i idle
    refine .of_update rfl (fun _ _ _ => Iff.rfl) rfl (fun v hv => ?_) (fun v hv => ?_)
    · rw [idle] at hv
      cases hv
    · cases hv
      cases e <;> rfl
  · exact .refl w

omit [DecidableEq ι] in
theorem finished_of_collect {c c' : Client} {a : Answer (Option Entry)}
    (h : c.collect = some (c', k, a)) :
    c'.activity = .idle ∧ ∃ v, c.activity.visit? = some v ∧ v.phase = .finished a := by
  unfold Client.collect at h
  split at h
  · cases h
  all_goals
    rename_i v busy
    obtain ⟨b, answer, same⟩ := Option.map_eq_some_iff.mp h
    cases same
    exact ⟨rfl, v, by rw [busy]; rfl, answer?_eq_some answer⟩

theorem still_collect (d : Store σ) (w : Crowd ι σ) (i : ι) :
    Still w (w.move d (.collect i)) := by
  unfold move
  dsimp only
  split
  · exact .refl w
  · rename_i c k a hc
    obtain ⟨idle, u, busy, finished⟩ := finished_of_collect hc
    refine .of_update rfl (fun _ _ _ => by simp) rfl (fun v hv => ?_) (fun v hv => ?_)
    · rw [busy] at hv
      cases hv
      rw [finished]
      rfl
    · rw [idle] at hv
      cases hv

/-- All that changes something at the gates is a step. -/
theorem still_move (d : Store σ) (w : Crowd ι σ) (m : Move ι σ) :
    (∃ i now, m = .step i now) ∨ Still w (w.move d m) := by
  cases m with
  | read i k now => exact .inr (still_read d w i k now)
  | settle i k e => exact .inr (still_settle d w i k e)
  | step i now => exact .inl ⟨i, now, rfl⟩
  | collect i => exact .inr (still_collect d w i)
  | below f => exact .inr ⟨⟨rfl, rfl⟩, fun _ _ => Iff.rfl, fun _ _ _ => Iff.rfl⟩
  | setTimeout timeout => exact .inr ⟨⟨rfl, rfl⟩, fun _ _ => Iff.rfl, fun _ _ _ => Iff.rfl⟩

/-! ## Steps -/

theorem visit_advance (hv : (w.clients i).activity.visit? = some v) :
    ((w.advance d i v v' s').clients i).activity.visit? = some v' := by
  have mine : (w.advance d i v v' s').clients i =
      { w.clients i with activity := (w.clients i).activity.proceed v' } :=
    Function.update_self ..
  rw [mine]
  rcases visit?_cases hv with act | act <;> rw [act] <;> rfl

theorem clients_advance_of_ne (h : j ≠ i) : (w.advance d i v v' s').clients j = w.clients j :=
  Function.update_of_ne h ..

theorem ClosedFor.advance (h : w.ClosedFor k gate) :
    (w.advance d i v v' s').ClosedFor k gate := by
  obtain ⟨j, closed⟩ := h
  exact ⟨j, List.mem_append_right _ closed⟩

omit [DecidableEq ι] in
theorem closed_of_mem_deeds (h : .closed j k gate ∈ v.deeds d i w.shared) :
    k = v.key ∧ gate = w.shared.gates.next := by
  obtain ⟨phase, free⟩ := closed_mem_deeds h
  simp only [Visit.deeds, phase, free, List.mem_singleton] at h
  cases h
  exact ⟨rfl, rfl⟩

/-- A gate is of the key that it has always been of, unless it is new. -/
theorem ClosedFor.of_advance (h : (w.advance d i v v' s').ClosedFor k gate) :
    w.ClosedFor k gate ∨ k = v.key ∧ gate = w.shared.gates.next := by
  obtain ⟨j, closed⟩ := h
  rcases List.mem_append.mp closed with new | old
  · exact .inr (closed_of_mem_deeds new)
  · exact .inl ⟨j, old⟩

omit [DecidableEq ι] in
theorem ClosedFor.lt_next (h : w.ClosedFor k gate) (hg : Registered w.shared.gates w.log) :
    gate < w.shared.gates.next := by
  obtain ⟨j, closed⟩ := h
  exact hg.fresh j k gate closed

/-- Who is about to open a gate is still about to, unless it is the one that makes the step. -/
theorem Opening.advance (h : w.Opening k gate) (hv : (w.clients i).activity.visit? = some v) :
    (w.advance d i v v' s').Opening k gate ∨ v.key = k ∧ ∃ a, v.phase = .opening gate a := by
  obtain ⟨j, u, a, hu, key, phase⟩ := h
  by_cases e : j = i
  · rw [e, hv] at hu
    cases hu
    exact .inr ⟨key, a, phase⟩
  · refine .inl ⟨j, u, a, ?_, key, phase⟩
    rw [clients_advance_of_ne e]
    exact hu

theorem Watched.advance (h : w.Watched k gate) (hg : Registered w.shared.gates w.log)
    (closed : w.ClosedFor k gate) (hv : (w.clients i).activity.visit? = some v)
    (step : Visit.Step d now v w.shared v' s') : (w.advance d i v v' s').Watched k gate := by
  rcases h with look | opened | opening
  · rcases step.look look with still | ⟨key, a, phase⟩
    · exact .inl still
    · exact .inr (.inr ⟨i, v', a, visit_advance hv, key, phase⟩)
  · exact .inr (.inl (step.opened opened (closed.lt_next hg)))
  · rcases opening.advance hv with still | ⟨-, a, phase⟩
    · exact .inr (.inr still)
    · refine .inr (.inl ?_)
      rw [Crowd.advance, step.release phase, Gates.isShut_release]
      simp

/-- What the step leaves its own call with. -/
theorem gateKnown_advance (hg : Registered w.shared.gates w.log)
    (step : Visit.Step d now v w.shared v' s') :
    (w.advance d i v v' s').GateKnown v'.key v'.phase := by
  cases step with
  | meets phase locked => exact ⟨ClosedFor.advance (hg.owned _ _ locked), .inl locked⟩
  | takesOut phase locked => exact ClosedFor.advance (hg.owned _ _ locked)
  | reads phase =>
    refine gateKnown_of_not_atGate ?_
    dsimp only
    rw [afterRead_eq]
    split <;> rfl
  | enters | wakes | expires | writes | strays | opens => trivial

theorem Heard.advance (h : w.Heard) (hg : Registered w.shared.gates w.log)
    (hv : (w.clients i).activity.visit? = some v) (step : Visit.Step d now v w.shared v' s') :
    (w.advance d i v v' s').Heard where
  one_key k l gate hk hl := by
    rcases hk.of_advance with hk | ⟨hk, new⟩ <;> rcases hl.of_advance with hl | ⟨hl, new'⟩
    · exact h.one_key k l gate hk hl
    · exact absurd new' (Nat.ne_of_lt (hk.lt_next hg))
    · exact absurd new (Nat.ne_of_lt (hl.lt_next hg))
    · exact hk.trans hl.symm
  known j u hu := by
    by_cases e : j = i
    · rw [e, visit_advance hv] at hu
      cases hu
      exact gateKnown_advance hg step
    · rw [clients_advance_of_ne e] at hu
      have known := h.known j u hu
      cases phase : u.phase with
      | waiting gate =>
        rw [phase] at known
        exact ⟨known.1.advance, known.2.advance hg known.1 hv step⟩
      | opening gate a =>
        rw [phase] at known
        exact ClosedFor.advance known
      | entering | reading | writing | leaving | finished => trivial

/-! ## From the start on -/

theorem Heard.move (h : w.Heard) (ho : w.Orderly d.id) (m : Move ι σ) : (w.move d m).Heard := by
  rcases still_move d w m with ⟨i, now, rfl⟩ | still
  · unfold Crowd.move
    dsimp only
    split
    · exact h
    · rename_i v hv
      split
      · exact h
      · rename_i v' s' step
        exact h.advance ho.gates hv (Visit.step_cases step)
  · exact still.heard h

omit [DecidableEq ι] in
theorem start_heard (below : σ) (timeout : Option Time.Duration) :
    (start below timeout : Crowd ι σ).Heard where
  one_key _ _ _ hk _ := by
    obtain ⟨i, closed⟩ := hk
    cases closed
  known _ _ hv := by cases hv

end Crowd
end DataTier.Cache.Blocking
