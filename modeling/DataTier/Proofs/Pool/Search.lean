import DataTier.Proofs.Pool.Calls
import DataTier.Proofs.Pool.Candidates

/-! What one call for a connection comes to while nobody else uses the pool. Its caller tries one
candidate after another (`Seeking`), until a visit ends the call in one of few ways (`Found`). -/

namespace DataTier.Pool

variable {κ δ : Type} {D : Driver δ} {p : Pool δ} {credentials : Source.Credentials}

/-! ## Calls -/

/-- What the caller was told if its connection could not be brought about. -/
def Reply.unreachable? : Reply → Option String
  | .failed (.connect reason) => some reason
  | _ => none

namespace Service

variable [DecidableEq κ] {s s' : Service κ δ} {caller : κ} {r : Request κ} {a : Attempt}

/-- The connection that a request tries, and whether it passes the check. -/
def trial? (D : Driver δ) (s : Service κ δ) (r : Request κ) : Option (Detached × Bool) :=
  (s.visitor? r).bind fun visitor =>
    match candidate D s.tick.now visitor.2.credentials s.pool with
    | (.ready d, p) => some (d, (validate D p.state.settings s.tick.now d p.line).1)
    | _ => none

/-- How far a call has come: what it tried, what the caller was told last, and the service then. -/
structure Search (κ δ : Type) where
  tried : List (Detached × Bool)
  reply : Reply
  after : Service κ δ

/-- A call by a caller that goes on after each pause for as long as it is to try again, while
nobody else asks for anything. -/
def seek (D : Driver δ) (caller : κ) (s : Service κ δ) (r : Request κ) :
    List Time.Duration → Search κ δ
  | [] => ⟨(s.trial? D r).toList, (s.serve D r).1, (s.serve D r).2⟩
  | pause :: pauses =>
    match (s.serve D r).1 with
    | .retrying =>
      let rest := seek D caller ((s.serve D r).2.serve D (.elapse pause)).2 (.resume caller) pauses
      { rest with tried := (s.trial? D r).toList ++ rest.tried }
    | reply => ⟨(s.trial? D r).toList, reply, (s.serve D r).2⟩

/-- A caller puts up with as many bad candidates as may be idle, and with the tolerance. -/
def patience (s : Service κ δ) : Nat :=
  s.pool.state.settings.maxIdle + s.pool.state.settings.badConnectionTolerance

/-- What a call comes to that was made at `s`, with those candidates that were bad and perhaps
one that was good, and what it leaves. -/
structure Found (s : Service κ δ) (caller : κ) (credentials : Source.Credentials)
    (bad : List Detached) (good : Option Detached) (turns : Nat) (reply : Reply)
    (s' : Service κ δ) : Prop where
  /-- Those at hand come first, then fresh ones, numbered in their order. -/
  order : ∃ fresh, bad ++ good.toList =
      (s.pool.state.atHand s.tick.now).take (bad ++ good.toList).length ++ fresh ∧
    fresh.map (·.connection) = List.range' (s.pool.line.opened + 1)
      ((bad ++ good.toList).length - (s.pool.state.atHand s.tick.now).length)
  /-- The fresh ones were opened for the caller, and one more perhaps that had a setback then. -/
  openings : ∃ m, s'.pool.line.openings = s.pool.line.openings ++ List.replicate
      ((bad ++ good.toList).length - (s.pool.state.atHand s.tick.now).length + m)
      (s.pool.state.source, credentials) ∧
    (m = 0 ∨ m = 1 ∧ reply.unreachable?.isSome = true)
  idle : s'.pool.state.idle = s.pool.state.idle.drop (bad ++ good.toList).length
  /-- What could be taken over was, and the good one is the youngest checkout. -/
  active : s'.pool.state.active =
    s.pool.state.active.drop (s.pool.state.claimable s.tick.now).length ++ reply.handle?.toList
  handle : reply.handle? = good.map fun d => .of d s.pool.state.nextTicket s'.now
    (s.pool.state.source.fingerprintFor credentials)
  held : s'.held = reply.handle?.elim s.held (s.held.set caller)
  closed : ∀ d ∈ bad, Line.ClosedSince d.connection s.pool.line s'.pool.line ∧
    d.connection ∉ s'.pool.state.connections
  counted : s'.pool.state.counters.badConnections =
    s.pool.state.counters.badConnections + bad.length
  unreachable : s'.pool.line.setbacks = reply.unreachable?.toList ++ s.pool.line.setbacks
  exhausted : ∀ n, reply = .failed (.badConnections n) ↔
    n = s.patience + 1 ∧ bad.length = n
  few : (bad ++ good.toList).length ≤ s.patience + 1
  ended : reply.handle?.isSome = true ∨ reply.unreachable?.isSome = true ∨
    (∃ n, reply = .failed (.badConnections n)) ∨ reply = .retrying ∧ bad.length = turns

theorem Found.settled {bad : List Detached} {good : Option Detached} {turns : Nat} {reply : Reply}
    (h : Found s caller credentials bad good turns reply s') (hr : reply ≠ .retrying) {n : Nat} :
    Found s caller credentials bad good n reply s' :=
  { h with ended := h.ended.imp_right (.imp_right (.imp_right fun again => absurd again.1 hr)) }

theorem seek_of_retrying {pause : Time.Duration} {pauses : List Time.Duration}
    (h : (s.serve D r).1 = .retrying) :
    s.seek D caller r (pause :: pauses) =
      let rest := ((s.serve D r).2.serve D (.elapse pause)).2.seek D caller (.resume caller) pauses
      { rest with tried := (s.trial? D r).toList ++ rest.tried } := by
  simp only [seek, h]

theorem seek_of_settled {pauses : List Time.Duration} (h : (s.serve D r).1 ≠ .retrying) :
    s.seek D caller r pauses = ⟨(s.trial? D r).toList, (s.serve D r).1, (s.serve D r).2⟩ := by
  cases pauses with
  | nil => rfl
  | cons pause pauses =>
    rw [seek]
    split
    · rename_i again
      exact absurd again h
    · rfl

/-- The caller is about to try its next candidate after those that were bad. -/
structure Seeking (s : Service κ δ) (caller : κ) (credentials : Source.Credentials)
    (bad : List Detached) (s' : Service κ δ) (r : Request κ) (a : Attempt) : Prop where
  accepting : s.pool.state.closed = false
  visitor : s'.visitor? r = some (caller, a)
  asks : a.credentials = credentials
  count : a.rejected = bad.length
  fits : s.patience < Nat.pow 2 64
  few : bad.length ≤ s.patience
  first : bad = [] → s'.tick.now = s.tick.now
  held : s'.held = s.held
  discarded : Discarded s.tick.now credentials s.pool bad s'.pool

/-- Without a checkout a call leaves what has been discarded. -/
theorem found_of_discarded {bad : List Detached} {turns : Nat} {reply : Reply}
    (h : Discarded s.tick.now credentials s.pool bad p) (state : s'.pool.state = p.state)
    (suffix : p.line.log <:+ s'.pool.line.log)
    (openings : ∃ m, s'.pool.line.openings =
        p.line.openings ++ List.replicate m (s.pool.state.source, credentials) ∧
      (m = 0 ∨ m = 1 ∧ reply.unreachable?.isSome = true))
    (setbacks : s'.pool.line.setbacks = reply.unreachable?.toList ++ p.line.setbacks)
    (tried : (s.pool.state.claimable s.tick.now).length ≤ bad.length)
    (held : s'.held = s.held) (none : reply.handle? = none)
    (exhausted : ∀ n, reply = .failed (.badConnections n) ↔
      n = s.patience + 1 ∧ bad.length = n)
    (few : bad.length ≤ s.patience + 1)
    (ended : reply.unreachable?.isSome = true ∨ (∃ n, reply = .failed (.badConnections n)) ∨
      reply = .retrying ∧ bad.length = turns) :
    Found s caller credentials bad .none turns reply s' where
  order := by
    rw [Option.toList_none, List.append_nil]
    exact h.order
  openings := by
    obtain ⟨m, openings, more⟩ := openings
    refine ⟨m, ?_, more⟩
    rw [openings, h.line.openings, List.append_assoc, List.replicate_append_replicate,
      Option.toList_none, List.append_nil]
  idle := by
    rw [state, h.idle, Option.toList_none, List.append_nil]
  active := by
    rw [state, h.active, none, Option.toList_none, List.append_nil, Nat.min_eq_right tried]
  handle := none
  held := by rw [held, none, Option.elim_none]
  closed d hd := ⟨(h.closed d hd).later suffix, state ▸ (h.apart d hd).1⟩
  counted := state ▸ h.counted
  unreachable := by rw [setbacks, h.line.setbacks]
  exhausted := exhausted
  few := by
    rw [Option.toList_none, List.append_nil]
    exact few
  ended := .inr ended

theorem trial?_of_ready {d : Detached} (hv : s.visitor? r = some (caller, a))
    (offer : Offers D s.tick.now a.credentials s.pool (.ready d) p) :
    s.trial? D r = some (d, (validate D p.state.settings s.tick.now d p.line).1) := by
  simp only [trial?, hv, Option.bind_some, offer.candidate_eq]

theorem trial?_of_unreachable {reason : String} (hv : s.visitor? r = some (caller, a))
    (offer : Offers D s.tick.now a.credentials s.pool (.unreachable reason) p) :
    s.trial? D r = none := by
  simp only [trial?, hv, Option.bind_some, offer.candidate_eq]

theorem serve_of_granted {c : Checkout} (hv : s.visitor? r = some (caller, a))
    (h : examine D s.tick.now a s.pool = (.granted c, p)) :
    s.serve D r =
      (.handle c, { s.letIn caller with pool := p, held := s.held.set caller c }) := by
  rw [serve_of_visitor hv, proceed,
    show examine D (s.letIn caller).now a (s.letIn caller).pool = _ from h]
  rfl

theorem serve_of_failed {e : Error} (hv : s.visitor? r = some (caller, a))
    (h : examine D s.tick.now a s.pool = (.failed e, p)) :
    s.serve D r = (.failed e, { s.letIn caller with pool := p }) := by
  rw [serve_of_visitor hv, proceed,
    show examine D (s.letIn caller).now a (s.letIn caller).pool = _ from h]

theorem serve_of_retries {a' : Attempt} (hv : s.visitor? r = some (caller, a))
    (h : examine D s.tick.now a s.pool = (.retries a', p)) :
    s.serve D r = (.retrying, { s.letIn caller with
      pool := p, retrying := (s.letIn caller).retrying.set caller a' }) := by
  rw [serve_of_visitor hv, proceed,
    show examine D (s.letIn caller).now a (s.letIn caller).pool = _ from h]

namespace Seeking

variable {bad : List Detached} {s₁ : Service κ δ} {pool : Pool δ} {line : Line δ} {reason : String}
  {d : Detached}

theorem unreachable (h : Seeking s caller credentials bad s₁ r a)
    (offer : Offers D s₁.tick.now a.credentials s₁.pool (.unreachable reason) p)
    (he : examine D s₁.tick.now a s₁.pool = (.failed (.connect reason), p)) (turns : Nat) :
    Found s caller credentials bad .none turns (s₁.serve D r).1 (s₁.serve D r).2 := by
  rw [serve_of_failed h.visitor he]
  cases offer with
  | @unreachable _ line none room connect =>
    obtain ⟨setbacks, suffix, m, le, openings⟩ := Line.connect_setback connect
    have tried := Nat.le_trans (Nat.le_add_left _ _) (h.discarded.out none room)
    refine found_of_discarded h.discarded rfl suffix ⟨m, ?_, ?_⟩ setbacks tried h.held rfl ?_
      (Nat.le_succ_of_le h.few) (.inl rfl)
    · exact h.discarded.source ▸ h.asks ▸ openings
    · exact (Nat.le_one_iff_eq_zero_or_eq_one.mp le).imp id fun one => ⟨one, rfl⟩
    · intro n
      constructor
      · intro same
        cases same
      · rintro ⟨limit, length⟩
        have := h.few
        omega

/-- After a bad candidate the call goes on, or has failed if that was one too many. -/
theorem rejected (h : Seeking s caller credentials bad s₁ r a)
    (offer : Offers D s₁.tick.now a.credentials s₁.pool (.ready d) p)
    (check : validate D p.state.settings s₁.tick.now d p.line = (false, line))
    (he : examine D s₁.tick.now a s₁.pool = reject D a d { p with line }) :
    Found s caller credentials (bad ++ [d]) .none (bad.length + 1) (s₁.serve D r).1
      (s₁.serve D r).2 ∧
    ((s₁.serve D r).1 = .retrying → ∀ pause, ∃ a', Seeking s caller credentials (bad ++ [d])
      ((s₁.serve D r).2.serve D (.elapse pause)).2 (.resume caller) a') := by
  have discarded : Discarded s.tick.now credentials s.pool (bad ++ [d])
      (reject D a d { p with line }).2 :=
    h.discarded.reject h.first (h.asks ▸ offer) check
  have length : (bad ++ [d]).length = bad.length + 1 := by simp
  have limit : p.state.settings.badConnectionLimit = s.patience := by
    rw [offer.sameTerms.settings, h.discarded.terms.settings]
    exact Settings.badConnectionLimit_eq h.fits
  have tried : (s.pool.state.claimable s.tick.now).length ≤ (bad ++ [d]).length :=
    Nat.le_trans (State.length_claimable_le _ _) (by omega)
  have few := h.few
  have outcome : (reject D a d { p with line }).1 =
      if bad.length + 1 > s.patience
      then .failed (.badConnections (bad.length + 1))
      else .retries { a with rejected := bad.length + 1 } := by
    rw [← h.count, ← limit]
    rfl
  by_cases enough : bad.length + 1 > s.patience
  · rw [if_pos enough] at outcome
    rw [serve_of_failed h.visitor (he.trans (Prod.ext outcome rfl))]
    refine ⟨found_of_discarded discarded rfl List.suffix_rfl ⟨0, by simp, .inl rfl⟩ rfl tried
      h.held rfl (fun n => ?_) (by omega) (.inr (.inl ⟨_, rfl⟩)), fun same => by cases same⟩
    simp only [Reply.failed.injEq, Error.badConnections.injEq, length]
    omega
  · rw [if_neg enough] at outcome
    rw [serve_of_retries h.visitor (he.trans (Prod.ext outcome rfl))]
    refine ⟨found_of_discarded discarded rfl List.suffix_rfl ⟨0, by simp, .inl rfl⟩ rfl tried
      h.held rfl (fun n => ?_) (by omega) (.inr (.inr ⟨rfl, length⟩)), fun _ pause =>
      ⟨{ a with rejected := bad.length + 1 }, ?_⟩⟩
    · simp only [reduceCtorEq, length, false_iff]
      omega
    · exact {
        accepting := h.accepting
        visitor := congrArg (Option.map (caller, ·)) (Table.get?_set_self ..)
        asks := h.asks
        count := length.symm
        fits := h.fits
        few := by omega
        first := fun none => absurd none (List.append_ne_nil_of_right_ne_nil _ (List.cons_ne_nil _ _))
        held := h.held
        discarded := discarded }

theorem granted (h : Seeking s caller credentials bad s₁ r a)
    (offer : Offers D s₁.tick.now a.credentials s₁.pool (.ready d) p)
    (check : validate D p.state.settings s₁.tick.now d p.line = (true, line))
    (he : examine D s₁.tick.now a s₁.pool =
      (.granted (accept D s₁.tick.now a d { p with line }).1,
        (accept D s₁.tick.now a d { p with line }).2)) (turns : Nat) :
    Found s caller credentials bad (some d) turns (s₁.serve D r).1 (s₁.serve D r).2 := by
  have examined : Examined s.tick.now credentials s.pool (bad ++ [d]) p :=
    h.discarded.offer h.first (h.asks ▸ offer)
  have checked := examined.served (validate_supplied check · credentials) (validate_served check)
  have ended := checked.served (fun source => (Line.rollbackIfNeeded_asks D d.connection
    line).supplied_of_ends source credentials) (Line.rollbackIfNeeded_served D d.connection line)
  have length : (bad ++ [d]).length = bad.length + 1 := by simp
  have claimed : min (bad ++ [d]).length (s.pool.state.claimable s.tick.now).length =
      (s.pool.state.claimable s.tick.now).length :=
    Nat.min_eq_right (Nat.le_trans (State.length_claimable_le _ _) (by omega))
  have checkout : (accept D s₁.tick.now a d { p with line }).1 =
      .of d s.pool.state.nextTicket s₁.tick.now
        (s.pool.state.source.fingerprintFor credentials) := by
    simp only [accept, examined.nextTicket, examined.source, h.asks]
  rw [serve_of_granted h.visitor he]
  refine {
    order := examined.order
    openings := ⟨0, ended.line.openings, .inl rfl⟩
    idle := examined.idle
    active := ?_
    handle := congrArg some checkout
    held := by rw [h.held]; rfl
    closed := fun e he => ⟨?_, ?_⟩
    counted := ?_
    unreachable := ended.line.setbacks
    exhausted := fun n => ?_
    few := ?_
    ended := .inl rfl }
  · have active := examined.active
    rw [claimed] at active
    exact congrArg (· ++ [_]) active
  · exact (h.discarded.closed e he).later
      (offer.grows.suffix.trans ((validate_served check).suffix.trans
        (Line.rollbackIfNeeded_served D d.connection line).suffix))
  · have out := (examined.apart e (List.mem_append_left _ he)).1
    rw [accept_connections, List.mem_append, List.mem_singleton, not_or]
    exact ⟨out, h.discarded.ne_offered offer he⟩
  · exact (offer.badConnections_eq).trans h.discarded.counted
  · simp only [reduceCtorEq, false_iff]
    have := h.few
    omega
  · rw [Option.toList_some, length]
    exact Nat.succ_le_succ h.few

/-- A visit has the caller wait, or comes upon a bad candidate, or ends the call. -/
theorem visit (h : Seeking s caller credentials bad s₁ r a) (D : Driver δ) :
    (s₁.serve D r).1 = .waiting ∨
    (∃ d, s₁.trial? D r = some (d, false) ∧
      Found s caller credentials (bad ++ [d]) .none (bad.length + 1) (s₁.serve D r).1
        (s₁.serve D r).2 ∧
      ((s₁.serve D r).1 = .retrying → ∀ pause, ∃ a', Seeking s caller credentials (bad ++ [d])
        ((s₁.serve D r).2.serve D (.elapse pause)).2 (.resume caller) a')) ∨
    ∃ good : Option Detached, (s₁.trial? D r).toList = good.toList.map (·, true) ∧
      (s₁.serve D r).1 ≠ .retrying ∧ ∀ turns,
        Found s caller credentials bad good turns (s₁.serve D r).1 (s₁.serve D r).2 := by
  have visit := examine_visits D s₁.tick.now a s₁.pool
  generalize he : examine D s₁.tick.now a s₁.pool = e at visit
  obtain ⟨o, p⟩ := e
  cases visit with
  | refused closed => exact absurd (h.accepting.symm.trans (h.discarded.terms.closed ▸ closed)) (by simp)
  | waits closed offer =>
    refine .inl ?_
    rw [serve_of_visitor h.visitor, proceed_reply]
    exact congrArg (fun e => e.1.reply) he
  | @unreachable closed reason p offer =>
    refine .inr (.inr ⟨none, ?_, ?_, h.unreachable offer he⟩)
    · rw [trial?_of_unreachable h.visitor offer]
      rfl
    · rw [serve_of_failed h.visitor he]
      exact Reply.noConfusion
  | @rejected closed d p line offer bad =>
    refine .inr (.inl ⟨d, ?_, h.rejected offer bad he⟩)
    rw [trial?_of_ready h.visitor offer, bad]
  | @granted closed d p line offer good =>
    refine .inr (.inr ⟨some d, ?_, ?_, h.granted offer good he⟩)
    · rw [trial?_of_ready h.visitor offer, good]
      rfl
    · rw [serve_of_granted h.visitor he]
      exact Reply.noConfusion

theorem found (h : Seeking s caller credentials bad s₁ r a) (D : Driver δ)
    (pauses : List Time.Duration) (moves : (s₁.seek D caller r pauses).reply ≠ .waiting) :
    ∃ (more : List Detached) (good : Option Detached),
      (s₁.seek D caller r pauses).tried = more.map (·, false) ++ good.toList.map (·, true) ∧
      Found s caller credentials (bad ++ more) good (bad.length + pauses.length + 1)
        (s₁.seek D caller r pauses).reply (s₁.seek D caller r pauses).after := by
  induction pauses generalizing s₁ r a bad with
  | nil =>
    rcases h.visit D with waits | ⟨d, tried, found, -⟩ | ⟨good, tried, -, found⟩
    · exact absurd waits moves
    · exact ⟨[d], none, by rw [seek, tried]; rfl, found⟩
    · refine ⟨[], good, tried, ?_⟩
      rw [List.append_nil]
      exact found _
  | cons pause pauses ih =>
    by_cases again : (s₁.serve D r).1 = .retrying
    · rw [seek_of_retrying again] at moves ⊢
      rcases h.visit D with waits | ⟨d, tried, -, goes⟩ | ⟨good, -, settled, -⟩
      · exact absurd (waits.symm.trans again) Reply.noConfusion
      · obtain ⟨a', next⟩ := goes again pause
        obtain ⟨more, good, rest, found⟩ := ih next moves
        refine ⟨d :: more, good, ?_, ?_⟩
        · rw [tried]
          exact congrArg ((d, false) :: ·) rest
        · rw [List.append_assoc, List.length_append, List.length_singleton] at found
          rw [List.length_cons, ← Nat.add_assoc, Nat.add_right_comm bad.length]
          exact found
      · exact absurd again settled
    · rw [seek_of_settled again] at moves ⊢
      rcases h.visit D with waits | ⟨d, tried, found, -⟩ | ⟨good, tried, -, found⟩
      · exact absurd waits moves
      · exact ⟨[d], none, by rw [tried]; rfl, found.settled again⟩
      · refine ⟨[], good, tried, ?_⟩
        rw [List.append_nil]
        exact found _

end Seeking

/-- One call for a connection at a pool that is not shut down, by a caller without one that does
not wait and meets nobody else, however long it takes between two candidates. It tries the
connections at hand and then fresh ones, and takes the first good one; the bad ones before
it are closed and counted. It gives up after one more than `maxIdle` and the tolerance come to,
which can be added up in sixty-four bits, or with the first setback. -/
theorem acquire_alone (D : Driver δ) (source : Source.DataSource) (settings : Settings)
    (driver : δ) (rs : List (Request κ)) (caller : κ) (credentials : Option Source.Credentials)
    (pauses : List Time.Duration) :
    let s : Service κ δ := (start source settings driver).run D rs
    let search := s.seek D caller (.acquire caller credentials) pauses
    s.patience < Nat.pow 2 64 →
    s.pool.state.closed = false → s.held.has caller = false → s.isPending caller = false →
    search.reply ≠ .waiting →
    ∃ (bad : List Detached) (good : Option Detached),
      search.tried = bad.map (·, false) ++ good.toList.map (·, true) ∧
      Found s caller (credentials.getD s.pool.state.source.credentials) bad good
        (pauses.length + 1) search.reply search.after := by
  intro s search fits accepting free idle moves
  have orderly := (start_orderly source settings driver).run (κ := κ) D rs
  have bounded : Bounded s.pool.state := (start_orderly source settings driver).bounded_run
    ⟨Nat.zero_le _, Nat.zero_le _⟩ D rs
  have seeking : Seeking s caller (credentials.getD s.pool.state.source.credentials) [] s
      (.acquire caller credentials)
      { credentials := credentials.getD s.pool.state.source.credentials
        startedAt := s.tick.now } := {
    accepting := accepting
    visitor := by rw [visitor?, free, idle]; rfl
    asks := rfl
    count := rfl
    fits := fits
    few := Nat.zero_le _
    first := fun _ => rfl
    held := rfl
    discarded := {
      toExamined := .start s.tick.now _ orderly.custody bounded
      counted := rfl
      closed := fun d hd => by cases hd } }
  obtain ⟨bad, good, tried, found⟩ := seeking.found D pauses moves
  rw [List.length_nil, Nat.zero_add] at found
  exact ⟨bad, good, tried, found⟩

/-- The second caller takes over the only connection, which fails its check, and is content with
a fresh one. -/
theorem acquire_alone_overdue :
    let D := Driver.refusing [4]
    let s := (start { url := "db" } { maxActive := 1, maxCheckoutTime := .zero } 0 :
      Service Nat Nat).run D [.acquire 0 none]
    let search := s.seek D 1 (.acquire 1 none) [.zero]
    search.tried.map (fun t => (t.1.connection, t.2)) = [(1, false), (2, true)] ∧
    ∃ (bad : List Detached) (good : Option Detached),
      search.tried = bad.map (·, false) ++ good.toList.map (·, true) ∧
      Found s 1 {} bad good 2 search.reply search.after := by
  intro D s search
  have fits : s.patience < Nat.pow 2 64 := by decide
  have accepting : s.pool.state.closed = false := rfl
  have free : s.held.has 1 = false := rfl
  have idle : s.isPending 1 = false := rfl
  have moves : search.reply ≠ .waiting := Reply.noConfusion
  exact ⟨rfl, acquire_alone D { url := "db" } { maxActive := 1, maxCheckoutTime := .zero } 0
    [.acquire 0 none] 1 none [.zero] fits accepting free idle moves⟩

end Service
end DataTier.Pool
