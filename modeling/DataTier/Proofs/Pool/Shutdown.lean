import DataTier.Proofs.Pool.WakeUps
import DataTier.Proofs.Table

/-! The end of a pool. Once it is shut down it has no connection and no valid handle
(`Defunct`), and nothing that is asked of it later reaches a driver. A newcomer fails at once;
whoever was without a connection at that time fails on its second turn at the latest, whatever
the others do meanwhile (`turnsLeft`). -/

namespace DataTier.Pool

variable {κ δ : Type} {D : Driver δ} {now : Time.Instant} {a : Attempt} {c : Checkout}
  {p p' : Pool δ}

/-- The pool has been shut down, and nobody has anything of it. -/
structure Defunct (s : State) : Prop where
  closed : s.closed = true
  idle : s.idle = []
  active : s.active = []
  valid : s.valid = []

theorem Defunct.isValid {s : State} (h : Defunct s) (c : Checkout) : s.isValid c = false := by
  rw [State.isValid, h.valid]
  rfl

theorem examine_of_closed (h : p.state.closed = true) :
    examine D now a p = (.failed .shutDown, p) := if_pos h

theorem Returns.defunct (back : Returns D now c p p') (h : Defunct p.state) :
    Defunct p'.state ∧ p'.line = p.line := by
  cases back with
  | stale invalid =>
    refine ⟨⟨h.closed, h.idle, ?_, ?_⟩, rfl⟩
    · simp [State.checkIn, State.countBad, State.count, State.invalidate, State.removeActive,
        h.active]
    · simp [State.checkIn, State.countBad, State.count, State.invalidate, State.removeActive,
        h.valid]
  | bad valid | kept valid | closed valid =>
    rw [h.isValid c] at valid
    cases valid

/-- There is nothing left to close. -/
theorem Defunct.closeAll (h : Defunct p.state) (D : Driver δ) :
    Defunct (closeAll D p).state ∧ (closeAll D p).line = p.line := by
  simp only [Pool.closeAll, h.active, h.idle, List.foldl_nil, and_true]
  exact ⟨h.closed, rfl, rfl, h.valid⟩

theorem Custody.defunct_shutdown (h : Custody p) (D : Driver δ) :
    Defunct (shutdown D p).state := by
  have changed : Custody { p with state := { p.state with closed := true } } :=
    ⟨h.distinct, h.opened, h.tickets, h.issued, h.valid⟩
  refine ⟨?_, rfl, rfl, List.eq_nil_iff_forall_not_mem.mpr fun t ht => ?_⟩
  · simp [shutdown, Pool.closeAll, State.foldl_invalidate]
  · exact List.not_mem_nil (((changed.closeAll D).valid t).mp ht)

/-- The caller goes on. -/
def Request.isTurnOf [DecidableEq κ] (caller : κ) : Request κ → Bool
  | .resume k => k = caller
  | _ => false

namespace Service

variable [DecidableEq κ] {s s' : Service κ δ} {caller other : κ} {r : Request κ}
  {handles : List Checkout}

theorem proceed_of_closed (h : s.pool.state.closed = true) :
    proceed D caller a s = (.failed .shutDown, s) := by
  unfold proceed
  rw [examine_of_closed h]

/-! ## The pool -/

theorem serve_defunct (h : Defunct s.pool.state) (D : Driver δ) (r : Request κ) :
    Defunct (s.serve D r).2.pool.state ∧ (s.serve D r).2.pool.line = s.pool.line := by
  cases r with
  | acquire caller credentials =>
    simp only [serve, acquire]
    split
    · exact ⟨h, rfl⟩
    · rw [proceed_of_closed (s := s.tick) h.closed]
      exact ⟨h, rfl⟩
  | release caller =>
    simp only [serve, release]
    split
    · exact ⟨h, rfl⟩
    · exact (release_returns D _ _ s.pool).defunct h
  | drop caller =>
    simp only [serve, drop]
    split <;> exact ⟨h, rfl⟩
  | cancel caller =>
    simp only [serve, cancel]
    split <;> exact ⟨h, rfl⟩
  | use caller op =>
    simp only [serve, use]
    split
    · exact ⟨h, rfl⟩
    · rename_i c hc
      have invalid : s.tick.pool.state.isValid c = false := h.isValid c
      simp only [invalid, Bool.false_eq_true, if_false]
      exact ⟨h, rfl⟩
  | resume caller =>
    simp only [serve, resume]
    split
    · rename_i a ha
      rw [proceed_of_closed
        (s := { s.tick with retrying := s.tick.retrying.erase caller }) h.closed]
      exact ⟨h, rfl⟩
    · exact ⟨h, rfl⟩
    · split
      · exact ⟨⟨h.closed, h.idle, h.active, h.valid⟩, rfl⟩
      · exact ⟨h, rfl⟩
  | closeAll => exact h.closeAll D
  | shutdown =>
    let p : Pool δ := { s.pool with state := { s.pool.state with closed := true } }
    have again : Defunct p.state := ⟨rfl, h.idle, h.active, h.valid⟩
    exact again.closeAll D
  | reconfigure change =>
    let p : Pool δ := { s.pool with state := { s.pool.state with
      source := (change s.pool.state.source s.pool.state.settings).1
      settings := (change s.pool.state.source s.pool.state.settings).2 } }
    have changed : Defunct p.state := ⟨h.closed, h.idle, h.active, h.valid⟩
    exact changed.closeAll D
  | setTolerance n => exact ⟨⟨h.closed, h.idle, h.active, h.valid⟩, rfl⟩
  | expire caller =>
    rcases serve_expire D s caller with same | same <;> rw [same] <;> exact ⟨h, rfl⟩
  | elapse d => exact ⟨h, rfl⟩

theorem run_defunct (h : Defunct s.pool.state) (D : Driver δ) (rs : List (Request κ)) :
    Defunct (s.run D rs).pool.state ∧ (s.run D rs).pool.line = s.pool.line := by
  induction rs generalizing s with
  | nil => exact ⟨h, rfl⟩
  | cons r rs ih =>
    obtain ⟨step, line⟩ := serve_defunct h D r
    obtain ⟨rest, same⟩ := ih step
    exact ⟨rest, same.trans line⟩

theorem handles_append (D : Driver δ) (s : Service κ δ) (rs ts : List (Request κ)) :
    s.handles D (rs ++ ts) = s.handles D rs ++ (s.run D rs).handles D ts := by
  induction rs generalizing s with
  | nil => rfl
  | cons r rs ih =>
    rw [List.cons_append, handles_cons, handles_cons, ih, List.append_assoc]
    rfl

theorem handles_of_defunct (h : Defunct s.pool.state) (D : Driver δ) (rs : List (Request κ)) :
    s.handles D rs = [] := by
  induction rs generalizing s with
  | nil => rfl
  | cons r rs ih =>
    obtain ⟨step, _⟩ := serve_defunct h D r
    have none : (s.serve D r).1.handle? = none := by
      refine Option.eq_none_iff_forall_ne_some.mpr fun c hc => ?_
      obtain ⟨_, active, _⟩ := (serve_hands D s r).fresh c hc
      rw [step.active] at active
      cases active
    rw [handles_cons, none, ih step]
    rfl

/-! ## Callers without a connection -/

/-- How often a caller has to go on before it fails, in a pool that is shut down. -/
def turnsLeft (caller : κ) (s : Service κ δ) : Nat :=
  if caller ∈ s.retrying.keys then 1 else if caller ∈ s.queue.callers then 2 else 0

theorem turnsLeft_pos : 0 < s.turnsLeft caller ↔ s.isPending caller = true := by
  rw [isPending_iff, pending, List.mem_append, turnsLeft]
  split
  · simp [*]
  · split <;> simp [*]

theorem turnsLeft_le : s.turnsLeft caller ≤ 2 := by
  unfold turnsLeft
  split
  · exact Nat.le_succ 1
  · split
    · exact Nat.le_refl 2
    · exact Nat.zero_le 2

theorem turnsLeft_congr (hr : caller ∈ s'.retrying.keys ↔ caller ∈ s.retrying.keys)
    (hq : caller ∈ s'.queue.callers ↔ caller ∈ s.queue.callers) :
    s'.turnsLeft caller = s.turnsLeft caller := by
  simp only [turnsLeft, hr, hq]

/-- One request changes nobody's turns but those of the caller that goes on, who has one fewer
and fails with the last of them. -/
structure Advances (s : Service κ δ) (r : Request κ) (caller : κ) (reply : Reply)
    (s' : Service κ δ) : Prop where
  waits : r.isTurnOf caller = false → s'.turnsLeft caller = s.turnsLeft caller
  goesOn : r.isTurnOf caller = true → s'.turnsLeft caller = s.turnsLeft caller - 1
  fails : r.isTurnOf caller = true → s.turnsLeft caller = 1 → reply = .failed .shutDown

theorem Advances.of_same {reply : Reply} (hn : r.isTurnOf caller = false)
    (hr : caller ∈ s'.retrying.keys ↔ caller ∈ s.retrying.keys)
    (hq : caller ∈ s'.queue.callers ↔ caller ∈ s.queue.callers) :
    Advances s r caller reply s' := by
  refine ⟨fun _ => turnsLeft_congr hr hq, fun turn => ?_, fun turn => ?_⟩ <;>
  · rw [hn] at turn
    cases turn

/-- Whoever goes on fails if it is on its way, and is on its way if it has waited. -/
theorem resume_advances (h : Lined s) (closed : s.pool.state.closed = true) (D : Driver δ)
    (caller : κ) :
    Advances s (.resume caller) caller (s.serve D (.resume caller)).1
      (s.serve D (.resume caller)).2 := by
  have turn : (Request.resume caller).isTurnOf caller = true := decide_eq_true rfl
  suffices goal : (s.serve D (.resume caller)).2.turnsLeft caller = s.turnsLeft caller - 1 ∧
      (s.turnsLeft caller = 1 → (s.serve D (.resume caller)).1 = .failed .shutDown) from
    ⟨fun other => absurd (other.symm.trans turn) Bool.false_ne_true, fun _ => goal.1,
      fun _ => goal.2⟩
  cases way : s.retrying.get? caller with
  | some a =>
    have key : caller ∈ s.retrying.keys := Table.mem_keys_iff_get?.mpr ⟨a, way⟩
    have out : caller ∉ s.queue.callers :=
      fun hm => (List.nodup_append.mp h.once).2.2 caller key caller hm rfl
    have failed : s.serve D (.resume caller) =
        (.failed .shutDown, { s.tick with retrying := s.retrying.erase caller }) := by
      simp only [serve, resume, show s.tick.retrying.get? caller = some a from way]
      exact proceed_of_closed (s := { s.tick with retrying := s.retrying.erase caller }) closed
    rw [failed]
    refine ⟨?_, fun _ => rfl⟩
    simp [turnsLeft, Table.keys_erase, key, out, tick]
  | none =>
    have off : caller ∉ s.retrying.keys := Table.get?_eq_none_iff.mp way
    cases waits : s.queue.waiter? caller with
    | none =>
      have out : caller ∉ s.queue.callers := by
        simpa [Queue.waiter?, Queue.callers] using waits
      simp [serve, resume, tick, way, waits, turnsLeft, off, out]
    | some w =>
      have found := List.mem_of_find?_eq_some waits
      have name : w.caller = caller := by simpa using List.find?_some waits
      have waiting : caller ∈ s.queue.callers := List.mem_map.mpr ⟨w, found, name⟩
      -- everybody has been told to go on
      have ready : w.isReady s.tick.now = true := by
        have told : w.notice ≠ none := fun none => h.closed closed ⟨w, found, none⟩
        rw [Waiter.isReady, Option.isSome_iff_ne_none.mpr told, Bool.true_or]
      have on : caller ∈ (s.retrying.set caller w.attempt).keys :=
        (Table.mem_keys_set ..).mpr (.inl rfl)
      have left : s.turnsLeft caller = 2 := by rw [turnsLeft, if_neg off, if_pos waiting]
      have moved : (s.serve D (.resume caller)).2.retrying =
          s.retrying.set caller w.attempt := by
        simp only [serve, resume, show s.tick.retrying.get? caller = none from way,
          show s.tick.queue.waiter? caller = some w from waits, ready, if_true]
        rfl
      rw [left]
      refine ⟨?_, fun one => absurd one (by decide)⟩
      rw [turnsLeft, moved, if_pos on]

theorem serve_advances (h : Lined s) (closed : s.pool.state.closed = true) (D : Driver δ)
    (hr : r ≠ .cancel caller) : Advances s r caller (s.serve D r).1 (s.serve D r).2 := by
  cases r with
  | acquire k credentials =>
    refine .of_same rfl ?_ ?_ <;>
    · simp only [serve, acquire]
      split
      · rfl
      · rw [proceed_of_closed (s := s.tick) closed]
        rfl
  | release k =>
    refine .of_same rfl ?_ ?_ <;>
    · simp only [serve, release]
      split
      · rfl
      · simp only [Queue.callers_notifyOne]
        rfl
  | drop k =>
    refine .of_same rfl ?_ ?_ <;>
    · simp only [serve, drop]
      split <;> rfl
  | cancel k =>
    have other : caller ≠ k := fun same => hr (same ▸ rfl)
    refine .of_same rfl ?_ ?_ <;>
    · simp only [serve, cancel]
      split
      · simp [Table.keys_erase, Queue.callers_leave, other, tick]
      · rfl
  | use k op =>
    refine .of_same rfl ?_ ?_ <;>
    · simp only [serve, use]
      split
      · rfl
      · split <;> rfl
  | resume k =>
    by_cases same : k = caller
    · subst same
      exact resume_advances h closed D k
    · have other : caller ≠ k := Ne.symm same
      refine .of_same (decide_eq_false same) ?_ ?_ <;>
      · simp only [serve, resume]
        split
        · rename_i a ha
          rw [proceed_of_closed (s := { s.tick with retrying := s.tick.retrying.erase k }) closed]
          simp [Table.keys_erase, other, tick]
        · rfl
        · split
          · simp [Table.mem_keys_set, Queue.callers_goOn, Queue.callers_remove, other, tick]
          · rfl
  | expire k =>
    rcases serve_expire D s k with same | same <;> rw [same]
    · exact .of_same rfl Iff.rfl Iff.rfl
    · exact .of_same rfl Iff.rfl (by rw [Queue.callers_expire]; rfl)
  | closeAll | shutdown | reconfigure =>
    refine .of_same rfl Iff.rfl ?_
    simp only [serve, overhaul, Queue.callers, Queue.callers_notifyAll]
    rfl
  | setTolerance | elapse => exact .of_same rfl Iff.rfl Iff.rfl

/-- The replies that a caller gets when it goes on, in a run of requests. -/
def answers (D : Driver δ) (caller : κ) : Service κ δ → List (Request κ) → List Reply
  | _, [] => []
  | s, r :: rs =>
    if r.isTurnOf caller then (s.serve D r).1 :: answers D caller (s.serve D r).2 rs
    else answers D caller (s.serve D r).2 rs

/-- Whoever does not give up fails on the last of its turns, and is without a connection until
then. -/
theorem run_turns (h : Lined s) (ho : Orderly s handles) (defunct : Defunct s.pool.state)
    (D : Driver δ) (rs : List (Request κ)) (stays : .cancel caller ∉ rs) :
    (s.run D rs).turnsLeft caller = s.turnsLeft caller - (s.answers D caller rs).length ∧
      (0 < s.turnsLeft caller → s.turnsLeft caller ≤ (s.answers D caller rs).length →
        .failed .shutDown ∈ s.answers D caller rs) := by
  induction rs generalizing s handles with
  | nil => exact ⟨rfl, fun pos le => absurd pos (Nat.not_lt.mpr le)⟩
  | cons r rs ih =>
    obtain ⟨this, later⟩ := not_or.mp (List.mem_cons.not.mp stays)
    have step := serve_advances h defunct.closed D (r := r) (Ne.symm this)
    obtain ⟨left, fails⟩ :=
      ih (h.serve ho D r) (ho.serve D r) (serve_defunct defunct D r).1 later
    have run : s.run D (r :: rs) = (s.serve D r).2.run D rs := rfl
    rw [run, left, answers]
    cases turn : r.isTurnOf caller with
    | true =>
      rw [step.goesOn turn] at fails ⊢
      rw [if_pos rfl, List.length_cons]
      refine ⟨by omega, fun pos le => ?_⟩
      by_cases last : s.turnsLeft caller = 1
      · rw [step.fails turn last]
        exact List.mem_cons_self
      · exact List.mem_cons_of_mem _ (fails (by omega) (by omega))
    | false =>
      rw [step.waits turn] at fails ⊢
      rw [if_neg Bool.false_ne_true]
      exact ⟨rfl, fails⟩

/-- From a shutdown on, whatever is asked of the pool, it has no connection, no call reaches the
driver, and every handle that was ever handed out is invalid, of which there will be no more.
Whoever asks for a connection fails at once; whoever was without one at the shutdown, and does
not give up, fails on its second turn at the latest. -/
theorem shutdown_final (D : Driver δ) (source : Source.DataSource) (settings : Settings)
    (driver : δ) (rs later : List (Request κ)) :
    let start : Service κ δ := start source settings driver
    let down := start.run D (rs ++ [.shutdown])
    let s := down.run D later
    s.pool.state.idle = [] ∧ s.pool.state.active = [] ∧ s.pool.line = down.pool.line ∧
    start.handles D (rs ++ .shutdown :: later) = start.handles D rs ∧
    (∀ c ∈ start.handles D rs, s.pool.state.isValid c = false) ∧
    (∀ caller credentials, s.held.has caller = false → s.isPending caller = false →
      s.serve D (.acquire caller credentials) = (.failed .shutDown, s.tick)) ∧
    (∀ caller, down.isPending caller = true → .cancel caller ∉ later →
      .failed .shutDown ∈ down.answers D caller later ∨
        s.isPending caller = true ∧ (down.answers D caller later).length < 2) := by
  intro start down s
  have orderly := (start_orderly source settings driver : Orderly start []).run D rs
  have ended : down = ((start.run D rs).serve D .shutdown).2 := run_append D start rs [.shutdown]
  have defunct : Defunct down.pool.state := by
    rw [ended]
    exact orderly.custody.defunct_shutdown D
  have ordered : Orderly down _ := (start_orderly source settings driver).run D (rs ++ [.shutdown])
  have lined : Lined down :=
    (run_attended (start_orderly source settings driver) (start_attended ..) D _).toLined
  obtain ⟨still, line⟩ := run_defunct defunct D later
  refine ⟨still.idle, still.active, line, ?_, fun c _ => still.isValid c, ?_, ?_⟩
  · have last : ((start.run D rs).serve D .shutdown).1.handle? = none := rfl
    rw [List.append_cons, handles_append, handles_of_defunct defunct D later, handles_append,
      handles_cons, last]
    simp [handles, replies]
  · intro caller credentials free idle
    have open' : ¬(s.tick.held.has caller || s.tick.isPending caller) = true := by
      simp [show s.tick.held = s.held from rfl,
        show s.tick.isPending caller = s.isPending caller from rfl, free, idle]
    simp only [serve, acquire, open']
    exact proceed_of_closed (s := s.tick) still.closed
  · intro caller pending stays
    obtain ⟨left, fails⟩ := run_turns lined ordered defunct D later stays
    have pos := turnsLeft_pos.mpr pending
    by_cases enough : down.turnsLeft caller ≤ (down.answers D caller later).length
    · exact .inl (fails pos enough)
    · have le : down.turnsLeft caller ≤ 2 := turnsLeft_le
      have more : 0 < (down.run D later).turnsLeft caller :=
        left ▸ Nat.sub_pos_of_lt (Nat.lt_of_not_le enough)
      exact .inr ⟨turnsLeft_pos.mp more, by omega⟩

/-- Whoever waits for the only connection at the shutdown fails on its second turn. -/
theorem shutdown_final_waiting :
    let D := Driver.refusing []
    let down := (start { url := "db" } { maxActive := 1 } 0 : Service Nat Nat).run D
      [.acquire 0 none, .acquire 1 none, .shutdown]
    down.isPending 1 = true ∧ .failed .shutDown ∈ down.answers D 1 [.resume 1, .resume 1] := by
  intro D down
  have pending : down.isPending 1 = true := rfl
  have stays : Request.cancel 1 ∉ [Request.resume 1, .resume 1] := by simp
  have both : (down.answers D 1 [.resume 1, .resume 1]).length = 2 := rfl
  have final := shutdown_final D { url := "db" } { maxActive := 1 } 0
    [.acquire 0 none, .acquire 1 none] [.resume 1, .resume 1]
  refine ⟨pending, (final.2.2.2.2.2.2 1 pending stays).resolve_right fun waits => ?_⟩
  have few : (down.answers D 1 [.resume 1, .resume 1]).length < 2 := waits.2
  omega

end Service
end DataTier.Pool
