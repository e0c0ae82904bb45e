import DataTier.Proofs.Pool.Origin
import DataTier.Proofs.Pool.Queue

/-! On whose behalf the callers of a pool ask. A caller names its credentials when it comes, or
leaves the choice to the source; through all waiting and retrying it asks under these
(`Remembers`), and the handle that it is given in the end was meant for them. -/

namespace DataTier.Pool

variable {κ δ : Type} {D : Driver δ}

namespace Queue

variable {q : Queue κ}

/-- Who waits, and with what. -/
def attempts (q : Queue κ) : List (κ × Attempt) := q.waiters.map fun w => (w.caller, w.attempt)

theorem attempts_notify (n : Notice) (w : Waiter κ) :
    ((w.notify n).caller, (w.notify n).attempt) = (w.caller, w.attempt) := by
  unfold Waiter.notify
  split <;> rfl

theorem attempts_notifyFirst {ws ws' : List (Waiter κ)} (h : notifyFirst ws = some ws') :
    ws'.map (fun w => (w.caller, w.attempt)) = ws.map fun w => (w.caller, w.attempt) := by
  induction ws generalizing ws' with
  | nil => cases h
  | cons v vs ih =>
    simp only [notifyFirst] at h
    split at h
    · obtain ⟨vs', hvs, rfl⟩ := Option.map_eq_some_iff.mp h
      rw [List.map_cons, List.map_cons, ih hvs]
    · cases h
      rw [List.map_cons, List.map_cons, attempts_notify]

theorem attempts_notifyOne (q : Queue κ) : q.notifyOne.attempts = q.attempts := by
  unfold notifyOne
  split
  · rename_i ws h
    exact attempts_notifyFirst h
  · rfl

theorem attempts_notifyAll (q : Queue κ) : q.notifyAll.attempts = q.attempts := by
  simp only [attempts, notifyAll, List.map_map]
  refine List.map_congr_left fun w _ => ?_
  exact attempts_notify .forAll w

theorem attempts_join (w : Waiter κ) (q : Queue κ) :
    (q.join w).attempts = q.attempts ++ [(w.caller, w.attempt)] := by
  unfold join
  split
  · simp only [attempts, List.map_append, List.map_singleton, attempts_notify]
  · simp only [attempts, List.map_append, List.map_singleton]

variable [DecidableEq κ] {caller : κ}

theorem mem_attempts_of_remove {e : κ × Attempt} (h : e ∈ (q.remove caller).attempts) :
    e ∈ q.attempts := by
  obtain ⟨w, hw, rfl⟩ := List.mem_map.mp h
  exact List.mem_map_of_mem (List.mem_of_mem_filter hw)

theorem mem_attempts_of_leave {e : κ × Attempt} (h : e ∈ (q.leave caller).attempts) :
    e ∈ q.attempts := by
  unfold leave at h
  dsimp only at h
  split at h
  · rw [attempts_notifyOne] at h
    exact mem_attempts_of_remove h
  · exact mem_attempts_of_remove h

theorem mem_attempts_of_goOn {e : κ × Attempt} (h : e ∈ (q.goOn caller).attempts) :
    e ∈ q.attempts := by
  unfold goOn at h
  split at h
  · exact mem_attempts_of_leave h
  · exact mem_attempts_of_remove h

theorem attempts_expire (caller : κ) (q : Queue κ) : (q.expire caller).attempts = q.attempts :=
  map_expire _ (fun _ => rfl) caller q

theorem mem_attempts_of_waiter? {w : Waiter κ} (h : q.waiter? caller = some w) :
    (caller, w.attempt) ∈ q.attempts := by
  have found : w.caller = caller := by simpa using List.find?_some h
  rw [← found]
  exact List.mem_map_of_mem (List.mem_of_find?_eq_some h)

end Queue

namespace Service

variable [DecidableEq κ] {s s' : Service κ δ} {t : Table κ Source.Credentials} {caller : κ}
  {c : Checkout} {a : Attempt} {r : Request κ}

/-! ## What is asked for -/

/-- Who comes with a request, and under which credentials it asks for a connection. -/
def newcomer? (s : Service κ δ) : Request κ → Option (κ × Source.Credentials)
  | .acquire caller credentials =>
    if s.held.has caller || s.isPending caller then none
    else some (caller, credentials.getD s.pool.state.source.credentials)
  | _ => none

def enter (s : Service κ δ) (r : Request κ) (t : Table κ Source.Credentials) :
    Table κ Source.Credentials :=
  match s.newcomer? r with
  | some (caller, credentials) => t.set caller credentials
  | none => t

/-- Under which credentials each caller has asked last, after a run of requests. -/
def asked (D : Driver δ) : Service κ δ → List (Request κ) → Table κ Source.Credentials →
    Table κ Source.Credentials
  | _, [], t => t
  | s, r :: rs, t => asked D (s.serve D r).2 rs (s.enter r t)

theorem asked_snoc (D : Driver δ) (s : Service κ δ) (rs : List (Request κ)) (r : Request κ)
    (t : Table κ Source.Credentials) :
    s.asked D (rs ++ [r]) t = (s.run D rs).enter r (s.asked D rs t) := by
  induction rs generalizing s t with
  | nil => rfl
  | cons r' rs ih => exact ih ..

/-! ## It is kept -/

/-- Whoever is without a connection asks under the credentials in the table. -/
structure Remembers (t : Table κ Source.Credentials) (s : Service κ δ) : Prop where
  waiting : ∀ e ∈ s.queue.attempts, t.get? e.1 = some e.2.credentials
  retrying : ∀ caller a, s.retrying.get? caller = some a → t.get? caller = some a.credentials

theorem Remembers.of_queue (h : Remembers t s) (hq : ∀ e ∈ s'.queue.attempts, e ∈ s.queue.attempts)
    (hr : s'.retrying = s.retrying) : Remembers t s' where
  waiting e he := h.waiting e (hq e he)
  retrying k a ha := h.retrying k a (hr ▸ ha)

theorem Remembers.erase (h : Remembers t s) (hq : s'.queue = s.queue)
    (hr : s'.retrying = s.retrying.erase caller) : Remembers t s' where
  waiting e he := h.waiting e (hq ▸ he)
  retrying k a ha := by
    rw [hr, Table.get?_erase] at ha
    split at ha
    · cases ha
    · exact h.retrying k a ha

theorem Remembers.retry (h : Remembers t s) (ht : t.get? caller = some a.credentials)
    (hq : ∀ e ∈ s'.queue.attempts, e ∈ s.queue.attempts)
    (hr : s'.retrying = s.retrying.set caller a) : Remembers t s' where
  waiting e he := h.waiting e (hq e he)
  retrying k b hb := by
    rw [hr, Table.get?_set] at hb
    split at hb
    · rename_i same
      rw [← same, ht, Option.some.inj hb]
    · exact h.retrying k b hb

/-- What a caller asks under is not changed by a candidate that it does not get. -/
theorem credentials_of_examine {now : Time.Instant} {p : Pool δ} {a' : Attempt}
    (h : (examine D now a p).1 = .waits a' ∨ (examine D now a p).1 = .retries a') :
    a'.credentials = a.credentials := by
  have visit := examine_visits D now a p
  rcases h with h | h <;> rw [h] at visit
  · obtain ⟨_, _, rfl, _⟩ := visit.of_waits
    rfl
  · rw [visit.of_retries]

/-- A grant, as the visit that led to it. -/
structure Grants (D : Driver δ) (s : Service κ δ) (caller : κ) (a : Attempt) (c : Checkout)
    (s' : Service κ δ) : Prop where
  visit : ∃ now, Visits D now a s.pool (.granted c) s'.pool
  held : s'.held.get? caller = some c

theorem proceed_grants (h : (proceed D caller a s).1.handle? = some c) :
    Grants D s caller a c (proceed D caller a s).2 := by
  have visit := examine_visits D s.now a s.pool
  unfold proceed at h ⊢
  split at h <;> rename_i hv <;> cases h
  rw [hv] at visit
  exact ⟨⟨s.now, visit⟩, Table.get?_set_self ..⟩

theorem Remembers.proceed (h : Remembers t s) (ht : t.get? caller = some a.credentials)
    (D : Driver δ) : Remembers t (proceed D caller a s).2 := by
  unfold Service.proceed
  split <;> rename_i hv
  · exact h.of_queue (fun _ he => he) rfl
  · exact h.of_queue (fun _ he => he) rfl
  · rename_i a' pool
    refine ⟨fun e he => ?_, h.retrying⟩
    rw [Queue.attempts_join] at he
    rcases List.mem_append.mp he with he | he
    · exact h.waiting e he
    · rw [List.mem_singleton.mp he]
      have same := credentials_of_examine (.inl (congrArg Prod.fst hv))
      exact ht.trans (congrArg some same.symm)
  · have same := credentials_of_examine (.inr (congrArg Prod.fst hv))
    exact h.retry (ht.trans (congrArg some same.symm)) (fun _ he => he) rfl

/-- Whoever comes is not waiting yet. -/
theorem Remembers.enter (h : Remembers t s) (r : Request κ) : Remembers (s.enter r t) s := by
  unfold Service.enter
  split
  · rename_i caller credentials hr
    have new : s.isPending caller = false := by
      cases r with
      | acquire k credentials =>
        simp only [newcomer?] at hr
        split at hr
        · cases hr
        · rename_i free
          obtain ⟨rfl, _⟩ := Prod.mk.inj (Option.some.inj hr)
          simp only [Bool.or_eq_true, not_or, Bool.not_eq_true] at free
          exact free.2
      | _ => cases hr
    have away : s.queue.waiter? caller = none ∧ s.retrying.get? caller = none := by
      simpa [isPending, Table.has] using new
    refine ⟨fun e he => ?_, fun k a ha => ?_⟩
    · obtain ⟨w, hw, rfl⟩ := List.mem_map.mp he
      have other : caller ≠ w.caller := fun same =>
        List.find?_eq_none.mp away.1 w hw (decide_eq_true same.symm)
      rw [Table.get?_set, if_neg other]
      exact h.waiting _ he
    · have other : caller ≠ k := by
        rintro rfl
        rw [away.2] at ha
        cases ha
      rw [Table.get?_set, if_neg other]
      exact h.retrying k a ha
  · exact h

/-- A handle is for the caller that has asked, under the credentials that it has named. -/
structure Serves (D : Driver δ) (t : Table κ Source.Credentials) (s : Service κ δ)
    (reply : Reply) (s' : Service κ δ) : Prop where
  remembers : Remembers t s'
  grants : ∀ c, reply.handle? = some c →
    ∃ caller a, t.get? caller = some a.credentials ∧ Grants D s caller a c s'

theorem Serves.of_none {reply : Reply} (h : Remembers t s') (hr : reply.handle? = none) :
    Serves D t s reply s' := by
  refine ⟨h, fun c hc => ?_⟩
  rw [hr] at hc
  cases hc

theorem Remembers.serves {s₁ : Service κ δ} (h : Remembers t s₁)
    (ht : t.get? caller = some a.credentials) (hp : s₁.pool = s.pool) :
    Serves D t s (Service.proceed D caller a s₁).1 (Service.proceed D caller a s₁).2 := by
  refine ⟨h.proceed ht D, fun c hc => ⟨caller, a, ht, ?_⟩⟩
  obtain ⟨⟨now, visit⟩, held⟩ := proceed_grants hc
  exact ⟨⟨now, hp ▸ visit⟩, held⟩

theorem Remembers.serve (h : Remembers t s) (D : Driver δ) (r : Request κ) :
    Serves D (s.enter r t) s (s.serve D r).1 (s.serve D r).2 := by
  have entered := h.enter r
  cases r with
  | acquire caller credentials =>
    simp only [Service.serve, Service.acquire]
    split
    · exact .of_none (entered.of_queue (fun _ he => he) rfl) rfl
    · rename_i free
      have here : (s.enter (.acquire caller credentials) t).get? caller =
          some (credentials.getD s.pool.state.source.credentials) := by
        have new : s.newcomer? (.acquire caller credentials) =
            some (caller, credentials.getD s.pool.state.source.credentials) := if_neg free
        rw [Service.enter, new]
        exact Table.get?_set_self ..
      have ticked : Remembers _ s.tick := entered.of_queue (fun _ he => he) rfl
      exact ticked.serves here rfl
  | release caller =>
    simp only [Service.serve, Service.release]
    split
    · exact .of_none (entered.of_queue (fun _ he => he) rfl) rfl
    · refine .of_none (entered.of_queue (fun e he => ?_) rfl) rfl
      exact Queue.attempts_notifyOne s.queue ▸ he
  | drop caller =>
    simp only [Service.serve, Service.drop]
    split <;> exact .of_none (entered.of_queue (fun _ he => he) rfl) rfl
  | cancel caller =>
    simp only [Service.serve, Service.cancel]
    split
    · have left : Remembers t { s with queue := s.queue.leave caller } :=
        h.of_queue (fun _ he => Queue.mem_attempts_of_leave he) rfl
      exact .of_none (left.erase rfl rfl) rfl
    · exact .of_none (entered.of_queue (fun _ he => he) rfl) rfl
  | use caller op =>
    simp only [Service.serve, Service.use]
    split
    · exact .of_none (entered.of_queue (fun _ he => he) rfl) rfl
    · split
      · refine .of_none (entered.of_queue (fun _ he => he) rfl) ?_
        dsimp only
        split
        · rfl
        · split <;> rfl
      · exact .of_none (entered.of_queue (fun _ he => he) rfl) rfl
  | resume caller =>
    simp only [Service.serve, Service.resume]
    split
    · rename_i a ha
      have here : t.get? caller = some a.credentials := h.retrying caller a ha
      have taken : Remembers t { s.tick with retrying := s.retrying.erase caller } :=
        h.erase rfl rfl
      exact taken.serves here rfl
    · exact .of_none (entered.of_queue (fun _ he => he) rfl) rfl
    · rename_i w hw
      split
      · have here := h.waiting _ (Queue.mem_attempts_of_waiter? hw)
        exact .of_none (h.retry here (fun _ he => Queue.mem_attempts_of_goOn he) rfl) rfl
      · exact .of_none (entered.of_queue (fun _ he => he) rfl) rfl
  | expire caller =>
    rcases serve_expire D s caller with same | same <;> rw [same]
    · exact .of_none (entered.of_queue (fun _ he => he) rfl) rfl
    · refine .of_none (entered.of_queue (fun e he => ?_) rfl) rfl
      exact Queue.attempts_expire caller s.queue ▸ he
  | closeAll | shutdown | reconfigure =>
    refine .of_none (entered.of_queue (fun e he => ?_) rfl) rfl
    exact Queue.attempts_notifyAll s.queue ▸ he
  | setTolerance | elapse => exact .of_none (entered.of_queue (fun _ he => he) rfl) rfl

theorem Remembers.run (h : Remembers t s) (D : Driver δ) (rs : List (Request κ)) :
    Remembers (s.asked D rs t) (s.run D rs) := by
  induction rs generalizing s t with
  | nil => exact h
  | cons r rs ih => exact ih (h.serve D r).remembers

omit [DecidableEq κ] in
theorem start_remembers [DecidableEq κ] (source : Source.DataSource) (settings : Settings)
    (driver : δ) : Remembers [] (start source settings driver : Service κ δ) where
  waiting e he := by cases he
  retrying k a ha := by cases ha

end Service
end DataTier.Pool
