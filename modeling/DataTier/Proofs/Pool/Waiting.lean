import DataTier.Proofs.Pool.Bounds
import DataTier.Proofs.Pool.Queue

/-! Callers that wait, and the room there is. Whoever is asleep in the queue is outweighed: the
active checkouts, the callers that have been told to go on and those on their way are at least
`maxActive` in number (`Attended`), but for the places that are lost to callers that go on in
vain. -/

namespace DataTier.Pool

variable {κ δ : Type} {D : Driver δ} {now : Time.Instant} {c : Checkout} {p p' : Pool δ}

/-! ## Room -/

/-- Only a candidate that was taken from its holder leaves a place. -/
theorem Offers.active_length {credentials : Source.Credentials} {o : Candidate}
    (offer : Offers D now credentials p o p') :
    p'.state.active.length = p.state.active.length ∨
      p'.state.active.length + 1 = p.state.active.length ∧
        p.state.settings.maxActive ≤ p.state.active.length := by
  cases offer with
  | @overdue oldest rest idle full active due =>
    refine .inr ⟨?_, full⟩
    rw [active, List.length_cons]
    rfl
  | idle | fresh | unreachable | none => exact .inl rfl

/-- What a visit leaves of the room, by its outcome. -/
def Outcome.Room (s s' : State) : Outcome → Prop
  | .granted _ =>
    s'.active.length = s.active.length + 1 ∨ s.settings.maxActive ≤ s'.active.length
  | .waits _ => s.closed = false ∧ s.settings.maxActive ≤ s'.active.length
  | .retries _ =>
    s'.active.length = s.active.length ∨ s.settings.maxActive ≤ s'.active.length + 1
  | .failed .shutDown => s.closed = true
  | .failed (.connect _) | .failed (.badConnections _) =>
    s'.active.length = s.active.length ∨
      s'.active.length + 1 = s.active.length ∧ s.settings.maxActive ≤ s.active.length
  | .failed _ => False

theorem Visits.room {a : Attempt} {o : Outcome} (visit : Visits D now a p o p') :
    o.Room p.state p'.state := by
  cases visit with
  | refused closed => exact closed
  | @waits closed p₁ offer =>
    obtain ⟨f, hf⟩ := wait_eq a p₁
    rw [hf]
    cases offer with
    | none idle full due => exact ⟨closed, full⟩
  | unreachable closed offer => exact offer.active_length
  | @rejected closed d p₁ line offer bad =>
    have left := offer.active_length
    unfold reject
    dsimp only
    split
    · exact left
    · rcases left with left | ⟨left, full⟩
      · exact .inl left
      · exact .inr (left ▸ full)
  | @granted closed d p₁ line offer good =>
    have more : (accept D now a d { p₁ with line }).2.state.active.length =
        p₁.state.active.length + 1 := List.length_append
    rcases offer.active_length with left | ⟨left, full⟩
    · exact .inl (by rw [more, left])
    · exact .inr (by rw [more, left]; exact full)

/-- A visit that fails over a connection ends with room. -/
theorem Visits.room_of_failed {a : Attempt} {e : Error} (visit : Visits D now a p (.failed e) p')
    (h : Bounded p.state) (he : e ≠ .shutDown) :
    p'.state.active.length < p'.state.settings.maxActive := by
  generalize ho : Outcome.failed e = o at visit
  cases visit with
  | refused closed => exact absurd (Outcome.failed.inj ho) he
  | waits closed offer => cases ho
  | unreachable closed offer =>
    cases offer with
    | unreachable idle room connect => exact room
  | rejected closed offer bad =>
    have room := offer.room h
    exact Nat.lt_of_le_of_lt (Nat.le_add_left _ _) room
  | granted closed offer good => cases ho

/-- A checkout that comes back leaves one place at most. -/
theorem Returns.active_length (hp : Custody p) (hk : Known p c) (back : Returns D now c p p') :
    p.state.active.length ≤ p'.state.active.length + 1 := by
  have left : p.state.active.length ≤ (p.state.checkIn c).active.length + 1 := by
    by_cases valid : p.state.isValid c = true
    · have perm := hp.active_perm ((hp.isValid_iff hk).mp valid)
      exact Nat.le_of_eq perm.length_eq
    · rw [hp.checkIn_of_invalid (by simpa using valid)]
      exact Nat.le_succ _
  cases back with
  | stale | bad | kept | closed => exact left

/-- A caller got no connection although the pool is not closed. -/
def Reply.inVain : Reply → Bool
  | .failed (.connect _) | .failed (.badConnections _) => true
  | _ => false

namespace Service

variable {s s' : Service κ δ} {caller : κ} {lost : Nat}

/-! ## Those that are waiting -/

/-- The callers without a connection: those on the way, then those in the queue. -/
def pending (s : Service κ δ) : List κ := s.retrying.keys ++ s.queue.callers

/-- The checkouts, and the callers that may be on the way to one. -/
def taken (s : Service κ δ) : Nat :=
  s.pool.state.active.length + s.queue.owed + s.retrying.length

theorem isPending_iff [DecidableEq κ] : s.isPending caller = true ↔ caller ∈ s.pending := by
  have waits : (s.queue.waiter? caller).isSome = true ↔ caller ∈ s.queue.callers := by
    simp [Queue.waiter?, Queue.callers, List.find?_isSome]
  rw [isPending, Bool.or_eq_true, waits, ← Table.mem_keys_iff, pending, List.mem_append, or_comm]

/-- Nobody is pending twice, and nobody sleeps through a notice that is kept or in a pool that
is closed. -/
structure Lined (s : Service κ δ) : Prop where
  once : s.pending.Nodup
  kept : s.queue.kept = true → ¬s.queue.Asleep
  closed : s.pool.state.closed = true → ¬s.queue.Asleep

/-- Whoever is asleep is outweighed, but for `lost` places. -/
structure Attended (s : Service κ δ) (lost : Nat) : Prop extends Lined s where
  room : s.queue.Asleep → s.pool.state.settings.maxActive ≤ s.taken + lost

theorem Lined.of_queue (h : Lined s) (hq : s'.queue = s.queue) (hr : s'.retrying = s.retrying)
    (hc : s'.pool.state.closed = s.pool.state.closed) : Lined s' := by
  refine ⟨?_, ?_, ?_⟩
  · rw [pending, hq, hr]
    exact h.once
  · rw [hq]
    exact h.kept
  · rw [hq, hc]
    exact h.closed

theorem Attended.of_queue (h : Attended s lost) (hq : s'.queue = s.queue)
    (hr : s'.retrying = s.retrying) (hc : s'.pool.state.closed = s.pool.state.closed)
    (hm : s'.pool.state.settings.maxActive = s.pool.state.settings.maxActive)
    (ha : s'.pool.state.active = s.pool.state.active) : Attended s' lost := by
  refine ⟨h.toLined.of_queue hq hr hc, fun asleep => ?_⟩
  rw [hq] at asleep
  have room := h.room asleep
  simp only [taken, hq, hr, hm, ha] at room ⊢
  exact room

theorem Attended.mono {more : Nat} (h : Attended s lost) (hl : lost ≤ more) : Attended s more :=
  ⟨h.toLined, fun asleep => Nat.le_trans (h.room asleep) (Nat.add_le_add_left hl _)⟩

/-- A checkout that comes back leaves one place at most, and wakes one caller. -/
theorem Attended.giveBack {D : Driver δ} {c : Checkout} (h : Attended s lost)
    (back : Returns D s.now c s.pool s'.pool) (hp : Custody s.pool) (hk : Known s.pool c)
    (hq : s'.queue = s.queue.notifyOne) (hr : s'.retrying = s.retrying) : Attended s' lost := by
  have same := back.sameTerms
  have left := back.active_length hp hk
  refine ⟨⟨?_, ?_, ?_⟩, fun asleep => ?_⟩
  · rw [pending, hq, hr, Queue.callers_notifyOne]
    exact h.once
  · rw [hq]
    exact Queue.not_asleep_of_kept_notifyOne h.kept
  · intro closed asleep
    rw [hq] at asleep
    exact h.closed (same.closed.symm.trans closed) (Queue.asleep_of_notifyOne asleep).1
  · rw [hq] at asleep
    obtain ⟨before, more⟩ := Queue.asleep_of_notifyOne asleep
    have room := h.room before
    simp only [taken, hq, hr, same.settings, more] at room ⊢
    omega

/-- Everybody has been told to go on. -/
theorem Lined.notifyAll (h : Lined s) (hq : s'.queue = s.queue.notifyAll)
    (hr : s'.retrying = s.retrying) : Attended s' lost := by
  have awake : ¬s'.queue.Asleep := hq ▸ Queue.not_asleep_notifyAll s.queue
  refine ⟨⟨?_, fun _ => awake, fun _ => awake⟩, fun asleep => absurd asleep awake⟩
  rw [pending, hq, hr, Queue.callers, Queue.callers_notifyAll]
  exact h.once

/-! ## One candidate for a caller -/

/-- What becomes of the queue and of the room when a caller gets a reply. -/
structure Proceeds (s : Service κ δ) (reply : Reply) (s' : Service κ δ) : Prop where
  lined : Lined s'
  settings : s'.pool.state.settings = s.pool.state.settings
  placed : reply.inVain = false → s'.queue.Asleep →
    s.queue.Asleep ∧ s'.taken = s.taken + 1 ∨ s.pool.state.settings.maxActive ≤ s'.taken
  vain : reply.inVain = true → s'.queue = s.queue ∧ s'.retrying = s.retrying ∧
    (s'.pool.state.active.length = s.pool.state.active.length ∨
      s'.pool.state.active.length + 1 = s.pool.state.active.length ∧
        s.pool.state.settings.maxActive ≤ s.pool.state.active.length)

/-- Unless it is in vain a reply places the caller, who was missing from the count. -/
theorem Proceeds.placed_room {reply : Reply} (step : Proceeds s reply s')
    (hv : reply.inVain = false)
    (h : s.queue.Asleep → s.pool.state.settings.maxActive ≤ s.taken + 1 + lost)
    (asleep : s'.queue.Asleep) : s'.pool.state.settings.maxActive ≤ s'.taken + lost := by
  rw [step.settings]
  rcases step.placed hv asleep with ⟨before, more⟩ | full
  · have room := h before
    omega
  · exact Nat.le_trans full (Nat.le_add_right _ _)

theorem Proceeds.newcomer {reply : Reply} (step : Proceeds s reply s') (h : Attended s lost) :
    Attended s' (lost + if reply.inVain then
      s.pool.state.active.length - s'.pool.state.active.length else 0) := by
  refine ⟨step.lined, fun asleep => ?_⟩
  cases hv : reply.inVain with
  | false =>
    have room : s.queue.Asleep → s.pool.state.settings.maxActive ≤ s.taken + 1 + lost :=
      fun before => by have := h.room before; omega
    exact step.placed_room hv room asleep
  | true =>
    obtain ⟨hq, hr, left⟩ := step.vain hv
    rw [hq] at asleep
    have room := h.room asleep
    simp only [taken, hq, hr, step.settings, if_true] at room ⊢
    omega

/-- A caller that was on its way counts for one place. -/
theorem Proceeds.onTheWay {reply : Reply} (step : Proceeds s reply s')
    (h : s.queue.Asleep → s.pool.state.settings.maxActive ≤ s.taken + 1 + lost) :
    Attended s' (lost + if reply.inVain then 1 else 0) := by
  refine ⟨step.lined, fun asleep => ?_⟩
  cases hv : reply.inVain with
  | false => exact step.placed_room hv h asleep
  | true =>
    obtain ⟨hq, hr, left⟩ := step.vain hv
    rw [hq] at asleep
    have room := h asleep
    simp only [taken, hq, hr, step.settings, if_true] at room ⊢
    omega

/-- A newcomer joins a queue only while the pool is open. -/
theorem Lined.join {w : Waiter κ} (h : Lined s) (fresh : w.caller ∉ s.pending)
    (hq : s'.queue = s.queue.join w) (hr : s'.retrying = s.retrying)
    (opened : s'.pool.state.closed = false) : Lined s' := by
  refine ⟨?_, fun kept => ?_, fun closed => ?_⟩
  · rw [pending, hq, hr, Queue.callers_join, ← List.append_assoc]
    exact h.once.append (List.nodup_singleton _) (by simpa using fresh)
  · rw [hq, Queue.kept_join] at kept
    cases kept
  · rw [opened] at closed
    cases closed

variable [DecidableEq κ]

theorem pending_perm_of_set {a : Attempt} (newKey : caller ∉ s.retrying.keys)
    (hr : s'.retrying = s.retrying.set caller a) :
    s'.pending.Perm (caller :: (s.retrying.keys ++ s'.queue.callers)) := by
  rw [pending, hr, Table.keys_set, if_neg newKey, List.append_assoc]
  exact List.perm_middle

theorem proceed_proceeds (D : Driver δ) (a : Attempt) (h : Lined s) (fresh : caller ∉ s.pending) :
    Proceeds s (proceed D caller a s).1 (proceed D caller a s).2 := by
  have visit := examine_visits D s.now a s.pool
  obtain ⟨newKey, newCaller⟩ := not_or.mp (List.mem_append.not.mp fresh)
  cases hv : examine D s.now a s.pool with
  | mk o pool =>
    rw [hv] at visit
    have same := visit.sameTerms
    have room := visit.room
    dsimp only at same room
    unfold proceed
    rw [hv]
    cases o with
    | granted c =>
      refine ⟨h.of_queue rfl rfl same.closed, same.settings, fun _ asleep => ?_,
        fun hv => by cases hv⟩
      rcases room with room | room
      · left
        refine ⟨asleep, ?_⟩
        simp only [taken, room]
        omega
      · right
        simp only [taken]
        omega
    | failed e =>
      refine ⟨h.of_queue rfl rfl same.closed, same.settings, fun hv asleep => ?_, fun hv => ?_⟩
      · cases e with
        | shutDown => exact absurd asleep (h.closed room)
        | connect | badConnections => cases hv
        | invalidConnection | driver => cases room
      · cases e with
        | connect | badConnections => exact ⟨rfl, rfl, room⟩
        | shutDown | invalidConnection | driver => cases hv
    | waits a' =>
      obtain ⟨opened, full⟩ := room
      refine ⟨h.join fresh rfl rfl (same.closed.trans opened), same.settings, fun _ _ => .inr ?_,
        fun hv => by cases hv⟩
      simp only [taken]
      omega
    | retries a' =>
      have more := Table.length_set_of_not_mem newKey a'
      refine ⟨⟨?_, h.kept, same.closed ▸ h.closed⟩, same.settings, fun _ asleep => ?_,
        fun hv => by cases hv⟩
      · rw [(pending_perm_of_set newKey rfl).nodup_iff]
        exact List.nodup_cons.mpr ⟨fresh, h.once⟩
      · rcases room with room | room
        · left
          refine ⟨asleep, ?_⟩
          simp only [taken, more, room]
          omega
        · right
          simp only [taken, more]
          omega

/-! ## Giving up and going on -/

theorem Attended.leave (h : Attended s lost) (caller : κ) (hp : s'.pool = s.pool)
    (hq : s'.queue = s.queue.leave caller) (hr : s'.retrying = s.retrying.erase caller) :
    Attended s' (lost + if s.retrying.has caller then 1 else 0) := by
  have callers : s.queue.callers.Nodup := (List.nodup_append.mp h.once).2.1
  have keys : s.retrying.keys.Nodup := (List.nodup_append.mp h.once).1
  have stays : s'.queue.Asleep → s.queue.Asleep ∧ s.queue.owed ≤ s'.queue.owed := by
    rw [hq]
    exact Queue.asleep_of_leave callers
  refine ⟨⟨?_, ?_, ?_⟩, fun asleep => ?_⟩
  · rw [pending, hq, hr, Queue.callers_leave, Table.keys_erase, ← List.filter_append]
    exact h.once.filter _
  · rw [hq]
    exact Queue.not_asleep_of_kept_leave h.kept
  · intro closed asleep
    rw [hp] at closed
    exact h.closed closed (stays asleep).1
  · obtain ⟨before, kept⟩ := stays asleep
    have room := h.room before
    by_cases hm : caller ∈ s.retrying.keys
    · have fewer := Table.length_erase_of_mem keys hm
      rw [if_pos ((Table.mem_keys_iff _ _).mp hm)]
      simp only [taken, hp, hr] at room ⊢
      omega
    · have same := Table.erase_of_not_mem hm
      rw [if_neg fun e => hm ((Table.mem_keys_iff _ _).mpr e)]
      simp only [taken, hp, hr, same] at room ⊢
      omega

/-- A caller that goes on no longer counts for the place that it is on the way to. -/
theorem Attended.comeOn {a : Attempt} (h : Attended s lost)
    (ha : s.retrying.get? caller = some a) (hq : s'.queue = s.queue)
    (hr : s'.retrying = s.retrying.erase caller) (hp : s'.pool = s.pool) :
    Lined s' ∧ caller ∉ s'.pending ∧
      (s'.queue.Asleep → s'.pool.state.settings.maxActive ≤ s'.taken + 1 + lost) := by
  obtain ⟨keys, callers, apart⟩ := List.nodup_append.mp h.once
  have key : caller ∈ s.retrying.keys := by
    rw [Table.mem_keys_iff, Table.has, ha]
    rfl
  have fewer := Table.length_erase_of_mem keys key
  have pending' : s'.pending = s.retrying.keys.filter (· ≠ caller) ++ s.queue.callers := by
    rw [pending, hq, hr, Table.keys_erase]
  refine ⟨⟨?_, ?_, ?_⟩, ?_, fun asleep => ?_⟩
  · rw [pending']
    exact h.once.sublist (List.filter_sublist.append (List.Sublist.refl _))
  · rw [hq]
    exact h.kept
  · rw [hq, hp]
    exact h.closed
  · rw [pending', List.mem_append, not_or]
    refine ⟨fun hm => ?_, fun hm => apart caller key caller hm rfl⟩
    simpa using (List.mem_filter.mp hm).2
  · rw [hq] at asleep
    have room := h.room asleep
    simp only [taken, hp, hq, hr] at room ⊢
    omega

/-- A caller that has waited is on its way. -/
theorem Attended.setOff {w : Waiter κ} {a : Attempt} (h : Attended s lost)
    (hw : s.queue.waiter? caller = some w) (hn : caller ∉ s.retrying.keys)
    (hc : s'.pool.state.closed = s.pool.state.closed)
    (hs : s'.pool.state.settings = s.pool.state.settings)
    (ha : s'.pool.state.active = s.pool.state.active)
    (hq : s'.queue = s.queue.goOn caller) (hr : s'.retrying = s.retrying.set caller a) :
    Attended s' lost := by
  have callers : s.queue.callers.Nodup := (List.nodup_append.mp h.once).2.1
  obtain ⟨name, perm⟩ := Queue.remove_perm callers hw
  have more := Table.length_set_of_not_mem hn a
  refine ⟨⟨?_, ?_, ?_⟩, fun asleep => ?_⟩
  · have left := (perm.map (·.caller)).append_left s.retrying.keys
    rw [List.map_cons, name] at left
    rw [(pending_perm_of_set hn hr).nodup_iff, hq, Queue.callers_goOn]
    exact (left.trans List.perm_middle).nodup_iff.mp h.once
  · rw [hq]
    exact Queue.not_asleep_of_kept_goOn h.kept
  · rw [hq, hc]
    exact fun closed asleep => h.closed closed (Queue.asleep_of_goOn callers hw asleep).1
  · rw [hq] at asleep
    obtain ⟨before, kept⟩ := Queue.asleep_of_goOn callers hw asleep
    have room := h.room before
    simp only [taken, hq, hr, hs, ha, more] at room ⊢
    omega

/-- Finding its time to be up a caller changes nothing for the others. -/
theorem Attended.expire (h : Attended s lost) (caller : κ) :
    Attended { s with queue := s.queue.expire caller } lost := by
  refine ⟨⟨?_, ?_, ?_⟩, fun asleep => ?_⟩
  · rw [pending, Queue.callers_expire]
    exact h.once
  · exact fun kept asleep => h.kept kept (Queue.asleep_expire_iff.mp asleep)
  · exact fun closed asleep => h.closed closed (Queue.asleep_expire_iff.mp asleep)
  · rw [taken, Queue.owed_expire]
    exact h.room (Queue.asleep_expire_iff.mp asleep)

end Service
end DataTier.Pool
