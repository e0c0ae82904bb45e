import DataTier.Cache.Shape

/-! What a step of a visit does to the visit and to what callers share, said once for everything
that is shown of callers: at the gates (`Step`), and at a chain without gates (`Served`). -/

namespace DataTier.Cache.Blocking.Visit

variable {σ : Type}

inductive Step (d : Store σ) (now : Time.Instant) (v : Visit) (s : Blocking σ) :
    Visit → Blocking σ → Prop
  | enters (phase : v.phase = .entering) (free : s.gates.table.get? v.key = none) :
    Step d now v s { v with phase := .reading } { s with gates := s.gates.close v.key }
  | meets {gate : Nat} (phase : v.phase = .entering)
      (locked : s.gates.table.get? v.key = some gate) :
    Step d now v s { v with phase := .waiting gate } s
  | wakes {gate : Nat} (phase : v.phase = .waiting gate) (opened : s.gates.isShut gate = false) :
    Step d now v s { v with phase := .entering } s
  | expires {gate : Nat} (phase : v.phase = .waiting gate) (shut : s.gates.isShut gate = true)
      (expired : v.hasExpired now = true) :
    Step d now v s (v.expire d.id) s
  | reads (phase : v.phase = .reading) :
    Step d now v s { v with phase := afterRead (d.get v.key s.below).1 }
      { s with below := (d.get v.key s.below).2 }
  | writes {e : Entry} (phase : v.phase = .writing e) :
    Step d now v s { v with phase := .leaving ((d.put v.key e s.below).1.map fun _ => none) }
      { s with below := (d.put v.key e s.below).2 }
  | takesOut {gate : Nat} {a : Answer (Option Entry)} (phase : v.phase = .leaving a)
      (locked : s.gates.table.get? v.key = some gate) :
    Step d now v s { v with phase := .opening gate a } { s with gates := s.gates.takeOut v.key }
  /-- There is no gate to take out. -/
  | strays {a : Answer (Option Entry)} (phase : v.phase = .leaving a)
      (free : s.gates.table.get? v.key = none) :
    Step d now v s { v with phase := .finished (.error (.invalidRelease v.key d.id)) } s
  | opens {gate : Nat} {a : Answer (Option Entry)} (phase : v.phase = .opening gate a) :
    Step d now v s { v with phase := .finished a } { s with gates := s.gates.release gate }

variable {d : Store σ} {now : Time.Instant} {v v' : Visit} {s s' : Blocking σ}

theorem step_cases (h : v.step d now s = some (v', s')) : Step d now v s v' s' := by
  unfold step at h
  split at h
  · rename_i phase
    split at h <;> rename_i look <;> cases h
    · exact .enters phase look
    · exact .meets phase look
  · rename_i gate phase
    split at h
    · rename_i opened
      cases h
      exact .wakes phase (by simpa using opened)
    · rename_i shut
      split at h
      · rename_i expired
        cases h
        exact .expires phase (by simpa using shut) expired
      · cases h
  · rename_i phase
    cases h
    exact .reads phase
  · rename_i e phase
    cases h
    exact .writes phase
  · rename_i a phase
    split at h <;> rename_i look <;> cases h
    · exact .strays phase look
    · exact .takesOut phase look
  · rename_i gate a phase
    cases h
    exact .opens phase
  · cases h

theorem Step.key (h : Step d now v s v' s') : v'.key = v.key := by
  cases h <;> rfl

/-- What every step keeps is kept by as many as are taken. -/
theorem steps_invariant (now : Time.Instant) {I : Visit → Blocking σ → Prop}
    (keeps : ∀ {v s v' s'}, Step d now v s v' s' → I v s → I v' s') (n : Nat) (h : I v s) :
    I (v.steps d now n s).1 (v.steps d now n s).2 := by
  induction n generalizing v s with
  | zero => exact h
  | succ n ih =>
    rw [steps]
    split
    · exact h
    · rename_i step
      exact ih (keeps (step_cases step) h)

/-! ## Without gates -/

/-- What the caller came for is done at once. -/
inductive Served (d : Store σ) (v : Visit) (s : σ) : Visit → σ → Prop
  | reads (phase : v.phase = .entering ∨ v.phase = .reading ∨ ∃ gate, v.phase = .waiting gate) :
    Served d v s { v with phase := .finished (d.get v.key s).1 } (d.get v.key s).2
  | writes {e : Entry} (phase : v.phase = .writing e) :
    Served d v s { v with phase := .finished ((d.put v.key e s).1.map fun _ => none) }
      (d.put v.key e s).2
  | removes (phase : (∃ a, v.phase = .leaving a) ∨ ∃ gate a, v.phase = .opening gate a) :
    Served d v s { v with phase := .finished (d.remove v.key s).1 } (d.remove v.key s).2

theorem Served.key {d : Store σ} {v v' : Visit} {s s' : σ} (h : Served d v s v' s') :
    v'.key = v.key := by
  cases h <;> rfl

end Blocking.Visit

theorem Blocking.answer?_eq_some {v : Blocking.Visit} {a : Answer (Option Entry)}
    (h : v.answer? = some a) : v.phase = .finished a := by
  unfold Blocking.Visit.answer? at h
  split at h
  · rename_i phase
    cases h
    exact phase
  · cases h

namespace Shape

open Blocking (Visit)

def isGated : Shape → Bool
  | blocking .. => true
  | _ => false

/-- Who comes to a chain without gates is served, if the visit is not over. -/
theorem step_cases {s : Shape} (ungated : s.isGated = false) (now : Time.Instant) (v : Visit)
    (st : s.State) : (s.step now v st = none ∧ ∃ a, v.phase = .finished a) ∨
      ∃ v' st', s.step now v st = some (v', st') ∧ v.Served (s.store now) st v' st' := by
  cases s with
  | blocking => cases ungated
  | memory | probe | soft =>
    unfold step
    dsimp only
    cases phase : v.phase with
    | entering => exact .inr ⟨_, _, rfl, .reads (.inl phase)⟩
    | waiting gate => exact .inr ⟨_, _, rfl, .reads (.inr (.inr ⟨gate, phase⟩))⟩
    | reading => exact .inr ⟨_, _, rfl, .reads (.inr (.inl phase))⟩
    | writing e => exact .inr ⟨_, _, rfl, .writes phase⟩
    | leaving a => exact .inr ⟨_, _, rfl, .removes (.inl ⟨a, phase⟩)⟩
    | opening gate a => exact .inr ⟨_, _, rfl, .removes (.inr ⟨gate, a, phase⟩)⟩
    | finished a => exact .inl ⟨rfl, a, rfl⟩

theorem served_of_step {s : Shape} (ungated : s.isGated = false) {now : Time.Instant}
    {v v' : Visit} {st st' : s.State} (h : s.step now v st = some (v', st')) :
    v.Served (s.store now) st v' st' := by
  rcases step_cases ungated now v st with ⟨stuck, _⟩ | ⟨u, x, moved, served⟩
  · rw [stuck] at h
    cases h
  · rw [moved] at h
    cases h
    exact served

theorem step_key {s : Shape} {now : Time.Instant} {v v' : Visit} {st st' : s.State}
    (h : s.step now v st = some (v', st')) : v'.key = v.key := by
  cases s with
  | blocking => exact (Visit.step_cases h).key
  | memory | probe | soft => exact (served_of_step rfl h).key

end Shape
end DataTier.Cache
