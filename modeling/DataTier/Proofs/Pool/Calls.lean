import DataTier.Proofs.Pool.Asking
import DataTier.Proofs.Pool.WakeUps
import DataTier.Proofs.Table
import Mathlib.Data.Finset.Card

/-! Which calls for a connection have waited. A request lets one caller try a candidate at most
(`visitor?`), and all others stay as they are. So whatever a caller has been told since it came,
its attempt knows whether it has waited (`Tracks`), and the pool counts each call once. -/

namespace DataTier.Pool

variable {κ δ : Type} {D : Driver δ} {now : Time.Instant} {a a' : Attempt} {p p' : Pool δ}

/-! ## Visits -/

theorem Offers.hadToWait_eq {credentials : Source.Credentials} {o : Candidate}
    (offer : Offers D now credentials p o p') :
    p'.state.counters.hadToWait = p.state.counters.hadToWait := by
  cases offer <;> rfl

/-- A wait is counted if it is the first one. -/
theorem Visits.waits_hadToWait (visit : Visits D now a p (.waits a') p') :
    a'.hasWaited = true ∧ p'.state.counters.hadToWait =
      p.state.counters.hadToWait + if a.hasWaited then 0 else 1 := by
  obtain ⟨p₁, offer, rfl, rfl⟩ := visit.of_waits
  refine ⟨rfl, ?_⟩
  rw [← offer.hadToWait_eq]
  unfold wait
  split <;> rfl

theorem Visits.hadToWait_eq {o : Outcome} (visit : Visits D now a p o p')
    (h : ∀ a', o ≠ .waits a') : p'.state.counters.hadToWait = p.state.counters.hadToWait := by
  cases visit with
  | refused closed => rfl
  | waits closed offer => exact absurd rfl (h _)
  | unreachable closed offer | rejected closed offer bad | granted closed offer good =>
    exact offer.hadToWait_eq

theorem Returns.hadToWait_eq {c : Checkout} (back : Returns D now c p p') :
    p'.state.counters.hadToWait = p.state.counters.hadToWait := by
  cases back <;> rfl

/-! ## The calls of a run -/

/-- The calls for a connection in a run, by their numbers, in the order in which they came. -/
structure Calls (κ : Type) where
  count : Nat := 0
  /-- The last call of each caller. -/
  latest : Table κ Nat := []
  /-- The calls that were told to wait. -/
  waited : Finset Nat := ∅

namespace Calls

variable [DecidableEq κ] {k : Calls κ} {caller : κ} {n : Nat}

def enter (caller : κ) (k : Calls κ) : Calls κ :=
  { k with count := k.count + 1, latest := k.latest.set caller k.count }

/-- The last call of the caller is answered. -/
def answer (caller : κ) (reply : Reply) (k : Calls κ) : Calls κ :=
  match reply, k.latest.get? caller with
  | .waiting, some n => { k with waited := insert n k.waited }
  | _, _ => k

/-- A new call is one that is not refused; a caller that goes on does so with its last one. -/
def record (r : Request κ) (reply : Reply) (k : Calls κ) : Calls κ :=
  match r, reply with
  | .acquire _ _, .refused => k
  | .acquire caller _, reply => (k.enter caller).answer caller reply
  | .resume caller, reply => k.answer caller reply
  | _, _ => k

/-- Every number is that of one call. -/
structure Sound (k : Calls κ) : Prop where
  numbered : ∀ caller n, k.latest.get? caller = some n → n < k.count
  distinct : ∀ caller other n, k.latest.get? caller = some n → k.latest.get? other = some n →
    caller = other
  waited : ∀ n ∈ k.waited, n < k.count

theorem answer_waiting (h : k.latest.get? caller = some n) :
    k.answer caller .waiting = { k with waited := insert n k.waited } := by
  simp only [answer, h]

theorem answer_of_ne {reply : Reply} (h : reply ≠ .waiting) : k.answer caller reply = k := by
  cases reply with
  | waiting => exact absurd rfl h
  | _ => rfl

theorem Sound.wait (h : k.Sound) (hn : n < k.count) :
    Sound { k with waited := insert n k.waited } where
  numbered := h.numbered
  distinct := h.distinct
  waited m hm := by
    rcases Finset.mem_insert.mp hm with rfl | hm
    · exact hn
    · exact h.waited m hm

theorem Sound.enter (h : k.Sound) (caller : κ) : (k.enter caller).Sound where
  numbered other n hn := by
    rw [Calls.enter, Table.get?_set] at hn
    split at hn
    · exact Option.some.inj hn ▸ Nat.lt_succ_self _
    · exact Nat.lt_succ_of_lt (h.numbered other n hn)
  distinct one other n h₁ h₂ := by
    rw [Calls.enter, Table.get?_set] at h₁ h₂
    split at h₁ <;> split at h₂
    · rename_i e e'
      exact e.symm.trans e'
    · exact absurd (h.numbered other n h₂) (Option.some.inj h₁ ▸ Nat.lt_irrefl _)
    · exact absurd (h.numbered one n h₁) (Option.some.inj h₂ ▸ Nat.lt_irrefl _)
    · exact h.distinct one other n h₁ h₂
  waited n hn := Nat.lt_succ_of_lt (h.waited n hn)

end Calls

namespace Service

variable [DecidableEq κ] {s s' : Service κ δ} {caller : κ} {r : Request κ}

/-- Who tries a candidate with a request, and for which attempt. -/
def visitor? (s : Service κ δ) : Request κ → Option (κ × Attempt)
  | .acquire caller credentials =>
    if s.held.has caller || s.isPending caller then none
    else some (caller, { credentials := credentials.getD s.pool.state.source.credentials
                         startedAt := s.tick.now })
  | .resume caller => (s.retrying.get? caller).map (caller, ·)
  | _ => none

/-- The service while a caller tries a candidate. -/
def letIn (s : Service κ δ) (caller : κ) : Service κ δ :=
  { s.tick with retrying := s.retrying.erase caller }

theorem serve_of_visitor (h : s.visitor? r = some (caller, a)) :
    s.serve D r = proceed D caller a (s.letIn caller) := by
  cases r with
  | acquire k credentials =>
    simp only [visitor?] at h
    split at h
    · cases h
    · rename_i free
      obtain ⟨rfl, rfl⟩ := Prod.mk.inj (Option.some.inj h)
      have away : k ∉ s.retrying.keys := by
        rw [Table.mem_keys_iff]
        simp only [isPending, Bool.or_eq_true, not_or] at free
        exact free.2.2
      have same : s.letIn k = s.tick := by
        rw [letIn, Table.erase_of_not_mem away]
        rfl
      rw [same]
      exact if_neg free
  | resume k =>
    obtain ⟨b, hb, same⟩ := Option.map_eq_some_iff.mp h
    obtain ⟨rfl, rfl⟩ := Prod.mk.inj same
    have here : s.tick.retrying.get? k = some b := hb
    simp only [serve, resume, here]
    rfl
  | _ => cases h

/-- The caller is without a connection and goes on with that attempt. -/
def Lingers (s : Service κ δ) (caller : κ) (a : Attempt) : Prop :=
  (caller, a) ∈ s.queue.attempts ∨ s.retrying.get? caller = some a

omit [DecidableEq κ] in
theorem mem_callers_of_attempts {q : Queue κ} (h : (caller, a) ∈ q.attempts) :
    caller ∈ q.callers := by
  obtain ⟨w, hw, same⟩ := List.mem_map.mp h
  obtain ⟨rfl, -⟩ := Prod.mk.inj same
  exact List.mem_map_of_mem hw

theorem Lined.not_mem_callers_of_visitor (h : Lined s) (hv : s.visitor? r = some (caller, a)) :
    caller ∉ s.queue.callers := by
  intro queued
  cases r with
  | acquire k credentials =>
    simp only [visitor?] at hv
    split at hv
    · cases hv
    · rename_i free
      obtain ⟨rfl, -⟩ := Prod.mk.inj (Option.some.inj hv)
      have pending : s.isPending k = true := isPending_iff.mpr (List.mem_append_right _ queued)
      exact free (by rw [pending, Bool.or_true])
  | resume k =>
    obtain ⟨b, hb, same⟩ := Option.map_eq_some_iff.mp hv
    obtain ⟨rfl, -⟩ := Prod.mk.inj same
    have retrying := Table.mem_keys_iff_get?.mpr ⟨b, hb⟩
    exact (List.nodup_append.mp h.once).2.2 _ retrying _ queued rfl
  | _ => cases hv

/-- While a caller tries a candidate all others are where they were. -/
theorem Lined.lingers_of_letIn {b : Attempt} {other : κ} (h : Lined s)
    (hv : s.visitor? r = some (caller, a)) (hl : (s.letIn caller).Lingers other b) :
    s.Lingers other b ∧ other ≠ caller := by
  rcases hl with waits | retries
  · refine ⟨.inl waits, ?_⟩
    rintro rfl
    exact h.not_mem_callers_of_visitor hv (mem_callers_of_attempts waits)
  · rw [letIn, Table.get?_erase] at retries
    split at retries
    · cases retries
    · rename_i ne
      exact ⟨.inr retries, Ne.symm ne⟩

theorem Lingers.of_queue (h : s'.Lingers caller a)
    (hq : ∀ e ∈ s'.queue.attempts, e ∈ s.queue.attempts) (hr : s'.retrying = s.retrying) :
    s.Lingers caller a :=
  h.imp (hq _) fun here => hr ▸ here

/-- A request with which nobody tries a candidate is no call and tells nobody to wait. -/
structure Idles (s : Service κ δ) (r : Request κ) (reply : Reply) (s' : Service κ δ) : Prop where
  hadToWait : s'.pool.state.counters.hadToWait = s.pool.state.counters.hadToWait
  lingers : ∀ caller a, s'.Lingers caller a → s.Lingers caller a
  record : ∀ k : Calls κ, k.record r reply = k

theorem resume_idles (h : s.visitor? (.resume caller) = none) (D : Driver δ) :
    Idles s (.resume caller) (s.serve D (.resume caller)).1 (s.serve D (.resume caller)).2 := by
  have away : s.tick.retrying.get? caller = none := Option.map_eq_none_iff.mp h
  simp only [serve, resume, away]
  split
  · rename_i ha
    cases ha
  · exact ⟨rfl, fun _ _ hl => hl, fun _ => rfl⟩
  · rename_i w hw
    split
    · refine ⟨rfl, fun other b hl => ?_, fun _ => rfl⟩
      rcases hl with waits | retries
      · exact .inl (Queue.mem_attempts_of_goOn waits)
      · rw [Table.get?_set] at retries
        split at retries
        · rename_i same
          subst same
          obtain rfl := Option.some.inj retries
          exact .inl (Queue.mem_attempts_of_waiter? hw)
        · exact .inr retries
    · exact ⟨rfl, fun _ _ hl => hl, fun _ => rfl⟩

theorem acquire_refused {credentials : Option Source.Credentials}
    (h : s.visitor? (.acquire caller credentials) = none) (D : Driver δ) :
    s.serve D (.acquire caller credentials) = (.refused, s.tick) := by
  simp only [visitor?] at h
  split at h
  · rename_i busy
    exact if_pos busy
  · cases h

theorem serve_idles (h : s.visitor? r = none) (D : Driver δ) :
    Idles s r (s.serve D r).1 (s.serve D r).2 := by
  cases r with
  | resume c => exact resume_idles h D
  | acquire c credentials =>
    rw [acquire_refused h]
    exact ⟨rfl, fun _ _ hl => hl, fun _ => rfl⟩
  | release c =>
    simp only [serve, release]
    split
    · exact ⟨rfl, fun _ _ hl => hl, fun _ => rfl⟩
    · refine ⟨(release_returns D _ _ _).hadToWait_eq, fun _ _ hl => ?_, fun _ => rfl⟩
      refine hl.of_queue ?_ rfl
      exact fun e he => Queue.attempts_notifyOne s.queue ▸ he
  | drop c =>
    simp only [serve, drop]
    split <;> exact ⟨rfl, fun _ _ hl => hl, fun _ => rfl⟩
  | cancel c =>
    simp only [serve, cancel]
    split
    · refine ⟨rfl, fun other b hl => ?_, fun _ => rfl⟩
      rcases hl with waits | retries
      · exact .inl (Queue.mem_attempts_of_leave waits)
      · rw [Table.get?_erase] at retries
        split at retries
        · cases retries
        · exact .inr retries
    · exact ⟨rfl, fun _ _ hl => hl, fun _ => rfl⟩
  | use c op =>
    simp only [serve, use]
    split
    · exact ⟨rfl, fun _ _ hl => hl, fun _ => rfl⟩
    · split <;> exact ⟨rfl, fun _ _ hl => hl, fun _ => rfl⟩
  | expire c =>
    rcases serve_expire D s c with same | same <;> rw [same]
    · exact ⟨rfl, fun _ _ hl => hl, fun _ => rfl⟩
    · refine ⟨rfl, fun _ _ hl => hl.of_queue ?_ rfl, fun _ => rfl⟩
      exact fun e he => Queue.attempts_expire c s.queue ▸ he
  | closeAll | shutdown | reconfigure =>
    refine ⟨?_, fun _ _ hl => hl.of_queue ?_ rfl, fun _ => rfl⟩
    · simp only [serve, overhaul, closeAll, shutdown, reconfigure, State.foldl_invalidate]
      rfl
    · exact fun e he => Queue.attempts_notifyAll s.queue ▸ he
  | setTolerance | elapse => exact ⟨rfl, fun _ _ hl => hl, fun _ => rfl⟩

/-! ## Tracks -/

/-- Every caller without a connection has a call on record and knows whether that has waited;
the pool has counted the calls that have. -/
structure Tracks (k : Calls κ) (s : Service κ δ) : Prop where
  sound : k.Sound
  lingers : ∀ caller a, s.Lingers caller a →
    ∃ n, k.latest.get? caller = some n ∧ (a.hasWaited = true ↔ n ∈ k.waited)
  hadToWait : s.pool.state.counters.hadToWait = k.waited.card

theorem Tracks.of_lingers {k : Calls κ} (h : Tracks k s)
    (hc : s'.pool.state.counters.hadToWait = s.pool.state.counters.hadToWait)
    (hl : ∀ caller a, s'.Lingers caller a → s.Lingers caller a) : Tracks k s' :=
  ⟨h.sound, fun caller a ha => h.lingers caller a (hl caller a ha), hc.trans h.hadToWait⟩

/-- That the call of one caller has waited is of no matter to another. -/
theorem Tracks.lingers_wait {k : Calls κ} {n : Nat} (h : Tracks k s)
    (hn : k.latest.get? caller = some n) {other : κ} {b : Attempt} (hl : s.Lingers other b)
    (ne : other ≠ caller) :
    ∃ m, k.latest.get? other = some m ∧ (b.hasWaited = true ↔ m ∈ insert n k.waited) := by
  obtain ⟨m, hm, iff⟩ := h.lingers other b hl
  have apart : m ≠ n := by
    rintro rfl
    exact ne (h.sound.distinct other caller m hm hn)
  refine ⟨m, hm, ?_⟩
  rw [Finset.mem_insert, or_iff_right apart]
  exact iff

theorem Tracks.proceed {k : Calls κ} {n : Nat} (h : Tracks k s) (alone : ∀ b, ¬s.Lingers caller b)
    (hn : k.latest.get? caller = some n) (ha : a.hasWaited = true ↔ n ∈ k.waited) (D : Driver δ) :
    Tracks (k.answer caller (proceed D caller a s).1) (proceed D caller a s).2 := by
  have visit := examine_visits D s.now a s.pool
  have others {other : κ} {b : Attempt} (hl : s.Lingers other b) : other ≠ caller := by
    rintro rfl
    exact alone b hl
  unfold Service.proceed
  split <;> rename_i hv <;> rw [hv] at visit
  · rw [Calls.answer_of_ne (by simp)]
    exact h.of_lingers (visit.hadToWait_eq (by simp)) fun _ _ hl => hl
  · rw [Calls.answer_of_ne (by simp)]
    exact h.of_lingers (visit.hadToWait_eq (by simp)) fun _ _ hl => hl
  · rename_i a' pool
    obtain ⟨waited, counted⟩ := visit.waits_hadToWait
    rw [Calls.answer_waiting hn]
    refine ⟨h.sound.wait (h.sound.numbered caller n hn), fun other b hl => ?_, ?_⟩
    · rcases hl with waits | retries
      · rw [Queue.attempts_join, List.mem_append, List.mem_singleton] at waits
        rcases waits with waits | new
        · exact h.lingers_wait hn (.inl waits) (others (.inl waits))
        · obtain ⟨rfl, rfl⟩ := Prod.mk.inj new
          exact ⟨n, hn, fun _ => Finset.mem_insert_self n _, fun _ => waited⟩
      · exact h.lingers_wait hn (.inr retries) (others (.inr retries))
    · rw [counted, h.hadToWait]
      by_cases before : a.hasWaited = true
      · rw [if_pos before, Finset.insert_eq_of_mem (ha.mp before), Nat.add_zero]
      · rw [if_neg before, Finset.card_insert_of_notMem (mt ha.mpr before)]
  · rename_i a' pool
    rw [Calls.answer_of_ne (by simp)]
    refine ⟨h.sound, fun other b hl => ?_, (visit.hadToWait_eq (by simp)).trans h.hadToWait⟩
    rcases hl with waits | retries
    · exact h.lingers other b (.inl waits)
    · rw [Table.get?_set] at retries
      split at retries
      · rename_i same
        subst same
        obtain rfl := Option.some.inj retries
        exact ⟨n, hn, by rw [visit.of_retries, ← ha]⟩
      · exact h.lingers other b (.inr retries)

/-- A call that has just come has not waited. -/
theorem Tracks.enter {k : Calls κ} (h : Tracks k s) (alone : ∀ b, ¬s.Lingers caller b) :
    Tracks (k.enter caller) s := by
  refine ⟨h.sound.enter caller, fun other b hl => ?_, h.hadToWait⟩
  have ne : caller ≠ other := by
    rintro rfl
    exact alone b hl
  obtain ⟨n, hn, iff⟩ := h.lingers other b hl
  refine ⟨n, ?_, iff⟩
  rw [Calls.enter, Table.get?_set, if_neg ne, hn]

/-- A caller that tries a candidate does so for its last call, which is a new one if it has just
come. -/
theorem Tracks.letIn {k : Calls κ} (h : Tracks k s) (lined : Lined s)
    (hv : s.visitor? r = some (caller, a)) :
    ∃ (k' : Calls κ) (n : Nat), Tracks k' (s.letIn caller) ∧
      (∀ b, ¬(s.letIn caller).Lingers caller b) ∧ k'.latest.get? caller = some n ∧
      (a.hasWaited = true ↔ n ∈ k'.waited) ∧
      ∀ reply, reply ≠ .refused → k.record r reply = k'.answer caller reply := by
  have alone : ∀ b, ¬(s.letIn caller).Lingers caller b :=
    fun b hl => (lined.lingers_of_letIn hv hl).2 rfl
  have rest : Tracks k (s.letIn caller) :=
    h.of_lingers rfl fun other b hl => (lined.lingers_of_letIn hv hl).1
  cases r with
  | acquire c credentials =>
    simp only [visitor?] at hv
    split at hv
    · cases hv
    · obtain ⟨rfl, rfl⟩ := Prod.mk.inj (Option.some.inj hv)
      refine ⟨k.enter c, k.count, rest.enter alone, alone, Table.get?_set_self .., ?_, ?_⟩
      · have fresh : k.count ∉ k.waited := fun hm => Nat.lt_irrefl _ (h.sound.waited _ hm)
        exact ⟨fun waited => (by cases waited), fun hm => absurd hm fresh⟩
      · intro reply ne
        cases reply with
        | refused => exact absurd rfl ne
        | _ => rfl
  | resume c =>
    obtain ⟨b, hb, same⟩ := Option.map_eq_some_iff.mp hv
    obtain ⟨rfl, rfl⟩ := Prod.mk.inj same
    obtain ⟨n, hn, iff⟩ := h.lingers c b (.inr hb)
    exact ⟨k, n, rest, alone, hn, iff, fun _ _ => rfl⟩
  | _ => cases hv

theorem Tracks.serve {k : Calls κ} (h : Tracks k s) (lined : Lined s) (D : Driver δ)
    (r : Request κ) : Tracks (k.record r (s.serve D r).1) (s.serve D r).2 := by
  cases hv : s.visitor? r with
  | none =>
    have idles := serve_idles hv D
    rw [idles.record]
    exact h.of_lingers idles.hadToWait idles.lingers
  | some visitor =>
    obtain ⟨k', n, tracks, alone, hn, iff, record⟩ := h.letIn lined hv
    rw [serve_of_visitor hv, record _ ?_]
    · exact tracks.proceed alone hn iff D
    · rw [proceed_reply]
      cases (examine D _ _ _).1 <;> simp [Outcome.reply]

/-- The calls on record after a run of requests. -/
def calls (D : Driver δ) : Service κ δ → List (Request κ) → Calls κ → Calls κ
  | _, [], k => k
  | s, r :: rs, k => calls D (s.serve D r).2 rs (k.record r (s.serve D r).1)

theorem Tracks.run {k : Calls κ} {handles : List Checkout} (h : Tracks k s) (lined : Lined s)
    (ho : Orderly s handles) (D : Driver δ) (rs : List (Request κ)) :
    Tracks (s.calls D rs k) (s.run D rs) := by
  induction rs generalizing s k handles with
  | nil => exact h
  | cons r rs ih => exact ih (h.serve lined D r) (lined.serve ho D r) (ho.serve D r)

theorem start_tracks (source : Source.DataSource) (settings : Settings) (driver : δ) :
    Tracks {} (start source settings driver : Service κ δ) where
  sound := ⟨fun _ _ hn => (by cases hn), fun _ _ _ hn => (by cases hn), fun _ hn => (by cases hn)⟩
  lingers caller a hl := by rcases hl with hl | hl <;> cases hl
  hadToWait := rfl

end Service
end DataTier.Pool
