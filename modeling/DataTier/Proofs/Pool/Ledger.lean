import DataTier.Proofs.Pool.Calls

/-! The books of a pool against what has happened to it. A run of requests has a history of
events: candidates that were rejected, handles that came back, and overhauls that closed all
connections. The counters are what the history adds up to (`Balanced`), with what is idle and
what is handed out now. -/

namespace DataTier.Pool

variable {κ δ : Type} {D : Driver δ} {now : Time.Instant} {c : Checkout} {p p' : Pool δ}

/-! ## Events -/

/-- What becomes of a handle that is given back: it is not valid, its connection fails the
check, or the connection is kept or closed. -/
inductive Fate where
  | stale
  | bad
  | kept
  | closed
  deriving DecidableEq, Repr

def fate (D : Driver δ) (now : Time.Instant) (c : Checkout) (p : Pool δ) : Fate :=
  if p.state.isValid c then
    if (validate D p.state.settings now c.detach p.line).1 then
      if p.state.canKeep c then .kept else .closed
    else .bad
  else .stale

inductive Event where
  /-- A caller came upon a bad candidate. -/
  | rejected
  | returned (f : Fate)
  /-- All connections were closed, so many idle ones and so many that were handed out. -/
  | overhauled (idle active : Nat)
  deriving DecidableEq, Repr

namespace Event

@[simp] def rejection : Event → Nat
  | .rejected => 1
  | _ => 0

/-- The handle was valid when it came back. -/
@[simp] def validReturn : Event → Nat
  | .returned .stale => 0
  | .returned _ => 1
  | _ => 0

/-- The handle was not valid, or its connection failed the check. -/
@[simp] def badReturn : Event → Nat
  | .returned .stale | .returned .bad => 1
  | _ => 0

/-- The handle was valid, but its connection failed the check or was not kept. -/
@[simp] def lostReturn : Event → Nat
  | .returned .bad | .returned .closed => 1
  | _ => 0

/-- The checkouts that ended because all connections were closed. -/
@[simp] def ended : Event → Nat
  | .overhauled _ active => active
  | _ => 0

/-- The connections that were closed together. -/
@[simp] def dropped : Event → Nat
  | .overhauled idle active => idle + active
  | _ => 0

/-- What the events of a history come to. -/
def tally (f : Event → Nat) (es : List Event) : Nat := (es.map f).sum

@[simp] theorem tally_append (f : Event → Nat) (es es' : List Event) :
    tally f (es ++ es') = tally f es + tally f es' := by
  rw [tally, List.map_append, List.sum_append, tally, tally]

@[simp] theorem tally_singleton (f : Event → Nat) (e : Event) : tally f [e] = f e :=
  Nat.add_zero _

end Event

/-! ## The balance -/

open Event in
/-- The books agree with the history while so many connections are in nobody's hands. -/
structure Balanced (es : List Event) (spare : Nat) (s : State) : Prop where
  requests : s.counters.requests = s.active.length + tally validReturn es +
    s.counters.claimedOverdue + tally ended es
  bad : s.counters.badConnections = tally rejection es + tally badReturn es
  ids : s.nextPhysicalId = 1 + s.idle.length + s.active.length + spare + tally rejection es +
    tally lostReturn es + tally dropped es

variable {es : List Event}

/-- A candidate is spare: it was idle or active, or it is new. -/
theorem Offers.balanced {credentials : Source.Credentials} {d : Detached}
    (offer : Offers D now credentials p (.ready d) p') (h : Balanced es 0 p.state) :
    Balanced es 1 p'.state := by
  obtain ⟨requests, bad, ids⟩ := h
  cases offer with
  | idle idle =>
    rw [idle, List.length_cons] at ids
    exact ⟨requests, bad, by dsimp only; omega⟩
  | fresh idle room connect => exact ⟨requests, bad, by dsimp only; omega⟩
  | @overdue oldest rest idle full active due =>
    rw [active, List.length_cons] at requests ids
    refine ⟨?_, bad, ?_⟩ <;> simp only [State.takeOver, State.count, State.invalidate] <;> omega

theorem accept_balanced (D : Driver δ) (now : Time.Instant) (a : Attempt) (d : Detached)
    (h : Balanced es 1 p.state) : Balanced es 0 (accept D now a d p).2.state := by
  obtain ⟨requests, bad, ids⟩ := h
  have more : (accept D now a d p).2.state.active.length = p.state.active.length + 1 :=
    List.length_append
  refine ⟨?_, bad, ?_⟩
  · rw [more]
    simp only [accept, State.count]
    omega
  · rw [more]
    simp only [accept, State.count]
    omega

theorem reject_balanced (D : Driver δ) (a : Attempt) (d : Detached) (h : Balanced es 1 p.state) :
    Balanced (es ++ [.rejected]) 0 (reject D a d p).2.state := by
  obtain ⟨requests, bad, ids⟩ := h
  constructor <;> simp [reject, State.countBad, State.count] <;> omega

/-- The reply to a caller that came upon a bad candidate. -/
def Reply.isRejection : Reply → Bool
  | .retrying | .failed (.badConnections _) => true
  | _ => false

/-- The event of a visit that was answered so. -/
def Reply.event? (reply : Reply) : Option Event :=
  if reply.isRejection then some .rejected else none

theorem Visits.balanced {a : Attempt} {o : Outcome} (visit : Visits D now a p o p')
    (h : Balanced es 0 p.state) : Balanced (es ++ o.reply.event?.toList) 0 p'.state := by
  cases visit with
  | refused closed =>
    rw [show (Outcome.failed .shutDown).reply.event?.toList = [] from rfl, List.append_nil]
    exact h
  | @waits closed p₁ offer =>
    rw [show (wait a p₁).1.reply.event?.toList = [] from rfl, List.append_nil]
    cases offer with
    | none =>
      unfold wait
      split
      · exact h
      · exact ⟨h.requests, h.bad, h.ids⟩
  | @unreachable closed reason p₁ offer =>
    rw [show (Outcome.failed (.connect reason)).reply.event?.toList = [] from rfl, List.append_nil]
    cases offer with
    | unreachable => exact h
  | @rejected closed d p₁ line offer bad =>
    have event : (reject D a d { p₁ with line }).1.reply.event?.toList = [.rejected] := by
      rcases reject_fst D a d { p₁ with line } with h | h <;> rw [h] <;> rfl
    rw [event]
    exact reject_balanced D a d (offer.balanced h)
  | @granted closed d p₁ line offer good =>
    rw [show (Outcome.granted _).reply.event?.toList = [] from rfl, List.append_nil]
    exact accept_balanced D now a d (offer.balanced h)

namespace State

@[simp] theorem checkIn_idle (c : Checkout) (s : State) : (s.checkIn c).idle = s.idle := rfl

@[simp] theorem checkIn_counters (c : Checkout) (s : State) :
    (s.checkIn c).counters = s.counters := rfl

@[simp] theorem checkIn_nextPhysicalId (c : Checkout) (s : State) :
    (s.checkIn c).nextPhysicalId = s.nextPhysicalId := rfl

end State

theorem Returns.balanced (back : Returns D now c p p') (hp : Custody p) (hk : Known p c)
    (h : Balanced es 0 p.state) : Balanced (es ++ [.returned (fate D now c p)]) 0 p'.state := by
  have left (valid : p.state.isValid c = true) :
      p.state.active.length = (p.state.checkIn c).active.length + 1 :=
    (hp.active_perm ((hp.isValid_iff hk).mp valid)).length_eq
  obtain ⟨requests, bad, ids⟩ := h
  cases back with
  | stale invalid =>
    have stale : fate D now c p = .stale := by simp [fate, invalid]
    rw [stale, hp.checkIn_of_invalid invalid]
    constructor <;> simp [State.countBad, State.count] <;> omega
  | bad valid failed =>
    have lost : fate D now c p = .bad := by simp [fate, valid, failed]
    rw [left valid] at requests ids
    rw [lost]
    constructor <;> simp [State.countBad, State.count] <;> omega
  | kept valid good keep =>
    have kept : fate D now c p = .kept := by simp [fate, valid, good, keep]
    rw [left valid] at requests ids
    rw [kept]
    constructor <;> simp [State.countReturn, State.count] <;> omega
  | closed valid good keep =>
    have closed : fate D now c p = .closed := by simp [fate, valid, good, keep]
    rw [left valid] at requests ids
    rw [closed]
    constructor <;> simp [State.countReturn, State.count] <;> omega

theorem overhaul_balanced (D : Driver δ) (h : Balanced es 0 p.state) (source : Source.DataSource)
    (settings : Settings) (closed : Bool) :
    Balanced (es ++ [.overhauled p.state.idle.length p.state.active.length]) 0
      (closeAll D { p with state := { p.state with source, settings, closed } }).state := by
  obtain ⟨requests, bad, ids⟩ := h
  constructor <;> simp [closeAll, State.foldl_invalidate] <;> omega

/-! ## Physical ids -/

namespace State

variable {s s' : State}

/-- The connections that the pool has, each under its physical id. -/
def holdings (s : State) : List (Nat × ConnectionId) :=
  s.idle.map (fun d => (d.physicalId, d.connection)) ++
    s.active.map (fun c => (c.physicalId, c.connection))

theorem mem_holdings_mono (idle : ∀ d ∈ s'.idle, d ∈ s.idle)
    (active : ∀ c ∈ s'.active, c ∈ s.active) {x : Nat × ConnectionId} (hx : x ∈ s'.holdings) :
    x ∈ s.holdings := by
  rcases List.mem_append.mp hx with hx | hx
  · obtain ⟨d, hd, rfl⟩ := List.mem_map.mp hx
    exact List.mem_append_left _ (List.mem_map.mpr ⟨d, idle d hd, rfl⟩)
  · obtain ⟨c, hc, rfl⟩ := List.mem_map.mp hx
    exact List.mem_append_right _ (List.mem_map.mpr ⟨c, active c hc, rfl⟩)

/-- From `s` to `s'` the connections keep their ids, and one at most receives the next one. -/
inductive Enrolls (s s' : State) : Prop
  | old (next : s'.nextPhysicalId = s.nextPhysicalId) (holdings : ∀ x ∈ s'.holdings, x ∈ s.holdings)
  | new (n : ConnectionId) (next : s'.nextPhysicalId = s.nextPhysicalId + 1)
      (holdings : ∀ x ∈ s'.holdings, x ∈ s.holdings ∨ x = (s.nextPhysicalId, n))

/-- Every id has been given out, to one connection. -/
structure Enrolled (s : State) : Prop where
  given : ∀ x ∈ s.holdings, x.1 < s.nextPhysicalId
  sole : ∀ x ∈ s.holdings, ∀ y ∈ s.holdings, x.1 = y.1 → x = y

theorem Enrolled.step (h : Enrolled s) (step : Enrolls s s') : Enrolled s' := by
  cases step with
  | old next holdings =>
    exact ⟨fun x hx => next ▸ h.given x (holdings x hx),
      fun x hx y hy => h.sole x (holdings x hx) y (holdings y hy)⟩
  | new n next holdings =>
    refine ⟨fun x hx => ?_, fun x hx y hy same => ?_⟩
    · rcases holdings x hx with old | rfl
      · exact next ▸ Nat.lt_succ_of_lt (h.given x old)
      · exact next ▸ Nat.lt_succ_self _
    · rcases holdings x hx with hx | rfl <;> rcases holdings y hy with hy | rfl
      · exact h.sole x hx y hy same
      · exact absurd same (Nat.ne_of_lt (h.given x hx))
      · exact absurd same.symm (Nat.ne_of_lt (h.given y hy))
      · rfl

end State

theorem Custody.nodup_physicalIds (h : Custody p) (he : p.state.Enrolled) :
    (p.state.idle.map (·.physicalId) ++ p.state.active.map (·.physicalId)).Nodup := by
  have connections : (p.state.holdings.map Prod.snd).Nodup := by
    have distinct := h.distinct
    simpa [State.holdings, State.connections, Function.comp_def] using distinct
  have ids : (p.state.holdings.map Prod.fst).Nodup := connections.of_map.map_on he.sole
  simpa [State.holdings, Function.comp_def] using ids

/-- The state `s` has what an offer leaves, and the candidate at most. -/
theorem Offers.enrolls {credentials : Source.Credentials} {d : Detached} {s : State}
    (offer : Offers D now credentials p (.ready d) p')
    (next : s.nextPhysicalId = p'.state.nextPhysicalId)
    (holdings : ∀ x ∈ s.holdings, x ∈ p'.state.holdings ∨ x = (d.physicalId, d.connection)) :
    p.state.Enrolls s := by
  have old : ∀ x ∈ p'.state.holdings, x ∈ p.state.holdings :=
    fun x => State.mem_holdings_mono offer.thins.1 offer.thins.2
  cases offer with
  | idle idle =>
    refine .old next fun x hx => (holdings x hx).elim (old x) ?_
    rintro rfl
    exact List.mem_append_left _ (List.mem_map.mpr ⟨d, idle ▸ List.mem_cons_self, rfl⟩)
  | fresh idle room connect =>
    exact .new _ next fun x hx => (holdings x hx).imp_left (old x)
  | @overdue oldest rest idle full active due =>
    refine .old next fun x hx => (holdings x hx).elim (old x) ?_
    rintro rfl
    exact List.mem_append_right _ (List.mem_map.mpr ⟨oldest, active ▸ List.mem_cons_self, rfl⟩)

theorem Visits.enrolls {a : Attempt} {o : Outcome} (visit : Visits D now a p o p') :
    p.state.Enrolls p'.state := by
  cases visit with
  | refused closed => exact .old rfl fun x hx => hx
  | @waits closed p₁ offer =>
    obtain ⟨f, hf⟩ := wait_eq a p₁
    rw [hf]
    cases offer with
    | none => exact .old rfl fun x hx => hx
  | unreachable closed offer =>
    cases offer with
    | unreachable => exact .old rfl fun x hx => hx
  | rejected closed offer bad => exact offer.enrolls rfl fun x hx => .inl hx
  | @granted closed d p₁ line offer good =>
    refine offer.enrolls rfl fun x hx => ?_
    rcases List.mem_append.mp hx with hx | hx
    · exact .inl (List.mem_append_left _ hx)
    · simp only [accept, State.count, List.map_append, List.mem_append] at hx
      rcases hx with hx | hx
      · exact .inl (List.mem_append_right _ hx)
      · exact .inr (List.mem_singleton.mp hx)

theorem Returns.enrolls (back : Returns D now c p p') (hp : Custody p) (hk : Known p c) :
    p.state.Enrolls p'.state := by
  have rest : ∀ d ∈ (p.state.checkIn c).active, d ∈ p.state.active :=
    fun d hd => ((State.mem_active_removeActive p.state c d).mp hd).1
  have left : ∀ x ∈ (p.state.checkIn c).holdings, x ∈ p.state.holdings := by
    refine fun x hx => State.mem_holdings_mono ?_ rest hx
    exact fun _ hd => hd
  cases back with
  | stale | bad | closed => exact .old rfl left
  | kept valid good keep =>
    refine .old rfl fun x hx => ?_
    rcases List.mem_append.mp hx with hx | hx
    · obtain ⟨d, hd, rfl⟩ := List.mem_map.mp hx
      rcases List.mem_append.mp hd with hd | hd
      · exact left _ (List.mem_append_left _ (List.mem_map.mpr ⟨d, hd, rfl⟩))
      · rw [List.mem_singleton.mp hd]
        have active := (hp.isValid_iff hk).mp valid
        exact List.mem_append_right _ (List.mem_map.mpr ⟨c, active, rfl⟩)
    · exact left x (List.mem_append_right _ hx)

theorem Move.enrolls {held : Checkout → Prop} (move : Move D held p p') (hp : Custody p)
    (hk : ∀ c, held c → Known p c) : p.state.Enrolls p'.state := by
  cases move with
  | visit now a => exact (examine_visits D now a p).enrolls
  | @giveBack now c hc => exact (release_returns D now c p).enrolls hp (hk c hc)
  | overhaul source settings closed =>
    refine .old ?_ fun x hx => by cases hx
    simp [closeAll, State.foldl_invalidate]
  | stays | recount | call | setTolerance => exact .old rfl fun x hx => hx

namespace Service

variable [DecidableEq κ] {s : Service κ δ} {handles : List Checkout}

/-- What a request adds to the history. -/
def event? (D : Driver δ) (s : Service κ δ) : Request κ → Option Event
  | .release caller => (s.held.get? caller).map fun c => .returned (fate D s.tick.now c s.pool)
  | .closeAll | .shutdown | .reconfigure _ =>
    some (.overhauled s.pool.state.idle.length s.pool.state.active.length)
  | r => (s.visitor? r).bind fun _ => (s.serve D r).1.event?

/-- The history of a run of requests. -/
def events (D : Driver δ) : Service κ δ → List (Request κ) → List Event
  | _, [] => []
  | s, r :: rs => (s.event? D r).toList ++ events D (s.serve D r).2 rs

theorem balanced_of_visitor {caller : κ} {a : Attempt} {r : Request κ}
    (hs : Balanced es 0 s.pool.state) (hv : s.visitor? r = some (caller, a)) (D : Driver δ) :
    Balanced (es ++ (s.event? D r).toList) 0 (s.serve D r).2.pool.state := by
  have event : s.event? D r = (s.serve D r).1.event? := by
    cases r with
    | acquire | resume => simp only [event?, hv, Option.bind_some]
    | _ => cases hv
  rw [event, serve_of_visitor hv, proceed_reply, proceed_pool]
  exact (examine_visits D _ a s.pool).balanced hs

theorem Orderly.balanced_serve (h : Orderly s handles) (hs : Balanced es 0 s.pool.state)
    (D : Driver δ) (r : Request κ) :
    Balanced (es ++ (s.event? D r).toList) 0 (s.serve D r).2.pool.state := by
  have uneventful (h : Balanced es 0 (s.serve D r).2.pool.state) (none : s.event? D r = none) :
      Balanced (es ++ (s.event? D r).toList) 0 (s.serve D r).2.pool.state := by
    rw [none, Option.toList_none, List.append_nil]
    exact h
  have overhauled := overhaul_balanced D hs
  cases r with
  | acquire caller credentials =>
    cases hv : s.visitor? (.acquire caller credentials) with
    | some visitor => exact balanced_of_visitor hs hv D
    | none =>
      refine uneventful ?_ (by simp only [event?, hv, Option.bind_none])
      rw [acquire_refused hv]
      exact hs
  | resume caller =>
    cases hv : s.visitor? (.resume caller) with
    | some visitor => exact balanced_of_visitor hs hv D
    | none =>
      refine uneventful ?_ (by simp only [event?, hv, Option.bind_none])
      have away : s.tick.retrying.get? caller = none := Option.map_eq_none_iff.mp hv
      simp only [Service.serve, Service.resume, away]
      split
      · cases ‹_›
      · exact hs
      · split
        · exact ⟨hs.requests, hs.bad, hs.ids⟩
        · exact hs
  | release caller =>
    have same : s.tick.held.get? caller = s.held.get? caller := rfl
    simp only [event?, Service.serve, Service.release, same]
    cases held : s.held.get? caller with
    | none =>
      rw [Option.map_none, Option.toList_none, List.append_nil]
      exact hs
    | some c =>
      have known := h.known c (h.held caller c held)
      exact (release_returns D s.tick.now c s.pool).balanced h.custody known hs
  | closeAll => exact overhauled s.pool.state.source s.pool.state.settings s.pool.state.closed
  | shutdown => exact overhauled s.pool.state.source s.pool.state.settings true
  | reconfigure change =>
    exact overhauled (change s.pool.state.source s.pool.state.settings).1
      (change s.pool.state.source s.pool.state.settings).2 s.pool.state.closed
  | setTolerance | elapse => exact uneventful ⟨hs.requests, hs.bad, hs.ids⟩ rfl
  | drop caller =>
    refine uneventful ?_ rfl
    simp only [Service.serve, Service.drop]
    split <;> exact hs
  | cancel caller =>
    refine uneventful ?_ rfl
    simp only [Service.serve, Service.cancel]
    split <;> exact hs
  | expire caller =>
    refine uneventful ?_ rfl
    rcases serve_expire D s caller with same | same <;> rw [same] <;> exact hs
  | use caller op =>
    refine uneventful ?_ rfl
    simp only [Service.serve, Service.use]
    split
    · exact hs
    · split <;> exact hs

theorem Orderly.balanced_run (h : Orderly s handles) (hs : Balanced es 0 s.pool.state)
    (D : Driver δ) (rs : List (Request κ)) :
    Balanced (es ++ s.events D rs) 0 (s.run D rs).pool.state := by
  induction rs generalizing s handles es with
  | nil =>
    rw [show s.events D [] = [] from rfl, List.append_nil]
    exact hs
  | cons r rs ih =>
    rw [events, ← List.append_assoc]
    exact ih (h.serve D r) (h.balanced_serve hs D r)

theorem Orderly.enrolled_run (h : Orderly s handles) (hs : s.pool.state.Enrolled) (D : Driver δ)
    (rs : List (Request κ)) : (s.run D rs).pool.state.Enrolled :=
  h.run_keeps (P := fun p => p.state.Enrolled)
    (fun _ _ _ move hp hk h => h.step (move.enrolls hp hk)) hs rs

open Event in
/-- After any run of requests the counters are what has happened. Every checkout that was granted
is active, or has ended in one of three ways; whatever is counted as bad was a candidate or came
back; each call that has waited is counted once, however often it has; and of the physical ids that
were given out each is that of an idle or active connection of its own, or of one that is gone. -/
theorem ledger_balances (D : Driver δ) (source : Source.DataSource) (settings : Settings)
    (driver : δ) (rs : List (Request κ)) :
    let start : Service κ δ := start source settings driver
    let s := (start.run D rs).pool.state
    let es := start.events D rs
    s.counters.requests = s.active.length + tally validReturn es + s.counters.claimedOverdue +
      tally ended es ∧
    s.counters.badConnections = tally rejection es + tally badReturn es ∧
    s.counters.hadToWait = (start.calls D rs {}).waited.card ∧
    s.nextPhysicalId = 1 + s.idle.length + s.active.length + tally rejection es +
      tally lostReturn es + tally dropped es ∧
    (s.idle.map (·.physicalId) ++ s.active.map (·.physicalId)).Nodup := by
  intro start s es
  have orderly : Orderly start [] := start_orderly source settings driver
  have balanced : Balanced ([] ++ es) 0 s := orderly.balanced_run ⟨rfl, rfl, rfl⟩ D rs
  have lined : Lined start := (start_attended source settings driver).toLined
  have tracks : Tracks (start.calls D rs {}) (start.run D rs) :=
    (start_tracks source settings driver).run lined orderly D rs
  have enrolled : s.Enrolled := by
    refine orderly.enrolled_run ⟨fun x hx => ?_, fun x hx => ?_⟩ D rs <;> cases hx
  exact ⟨balanced.requests, balanced.bad, tracks.hadToWait, balanced.ids,
    (orderly.run D rs).custody.nodup_physicalIds enrolled⟩

/-- A handle that comes back after all connections were closed is counted apart from them. -/
example : (start { url := "db" } {} 0 : Service Nat Nat).events (Driver.refusing [])
    [.acquire 0 none, .closeAll, .release 0] = [.overhauled 0 1, .returned .stale] := rfl

/-- The call of the second caller waits twice. -/
example : ((start { url := "db" } { maxActive := 1, timeToWait := ⟨1⟩ } 0 : Service Nat Nat).calls
    (Driver.refusing []) [.acquire 0 none, .acquire 1 none, .elapse ⟨9⟩, .resume 1, .resume 1]
    {}).waited = {1} := rfl

end Service
end DataTier.Pool
