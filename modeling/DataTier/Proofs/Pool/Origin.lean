import DataTier.Proofs.Pool.Accounting

/-! Where the connections of a pool come from. Whatever a request does, the pool has its
connections from those it had and from a source (`Flow`), and a reconfiguration leaves none
behind. So each of them was opened for the data source that the pool has now, and its first
call after that has put it into the mode of that source. -/

namespace DataTier.Pool

variable {κ δ : Type} {D : Driver δ} {now : Time.Instant} {c : Checkout} {p p' : Pool δ}

/-! ## Openings in the log -/

namespace Line

variable {source source' : Source.DataSource} {credentials credentials' : Source.Credentials}
  {n : ConnectionId} {l l' : Line δ}

/-- The connection was opened for the source under the credentials, and the first call after
its opening has put it into the mode of the source. -/
def OpenedFor (source : Source.DataSource) (credentials : Source.Credentials) (n : ConnectionId)
    (l : Line δ) : Prop :=
  ∃ later a earlier, l.log = later ++ (.open source credentials, .ok a) :: earlier ∧
    (earlier.filterMap opening?).length + 1 = n ∧
    ∀ enabled, source.autoCommit = some enabled →
      ∃ b, later.getLast? = some (.on n (.setAutoCommit enabled), .ok b)

theorem OpenedFor.mono (h : OpenedFor source credentials n l) (hl : l.log <:+ l'.log) :
    OpenedFor source credentials n l' := by
  obtain ⟨later, a, earlier, log, place, mode⟩ := h
  obtain ⟨more, hl⟩ := hl
  refine ⟨more ++ later, a, earlier, by rw [← hl, log, List.append_assoc], place, ?_⟩
  intro enabled he
  obtain ⟨b, last⟩ := mode enabled he
  exact ⟨b, by rw [List.getLast?_append, last, Option.some_or]⟩

theorem OpenedFor.opening (h : OpenedFor source credentials n l) :
    l.openings[n - 1]? = some (source, credentials) := by
  obtain ⟨later, a, earlier, log, place, _⟩ := h
  have first : n - 1 = (earlier.reverse.filterMap opening?).length := by
    rw [List.filterMap_reverse, List.length_reverse, ← place, Nat.add_sub_cancel]
  simp [openings, log, first, opening?]

/-- A connection is opened once. -/
theorem OpenedFor.unique (h : OpenedFor source credentials n l)
    (h' : OpenedFor source' credentials' n l) : source = source' ∧ credentials = credentials' := by
  have same := h.opening.symm.trans h'.opening
  exact Prod.mk.inj (Option.some.inj same)

theorem connect_openedFor (hn : Numbered l) (h : l.connect D source credentials = (.ok n, l')) :
    OpenedFor source credentials n l' := by
  have place : (l.log.filterMap opening?).length = l.opened := by
    rw [hn, openings, List.filterMap_reverse, List.length_reverse]
  have asked := ask_log D (.open source credentials) l
  unfold connect at h
  split at h
  · cases h
  · rename_i a line hopen
    obtain ⟨number, _, _⟩ := ask_open_ok hopen
    rw [hopen] at asked
    split at h
    · rename_i hmode
      obtain ⟨hc, rfl⟩ := Prod.mk.inj h
      refine ⟨[], a, l.log, asked, ?_, ?_⟩
      · rw [place, ← number]
        exact Except.ok.inj hc
      · intro enabled he
        rw [hmode] at he
        cases he
    · rename_i mode hmode
      have set := ask_log D (.on line.opened (.setAutoCommit mode)) line
      dsimp only at h
      generalize line.ask D (.on line.opened (.setAutoCommit mode)) = r at h set
      obtain ⟨_ | b, line'⟩ := r
      · cases h
      · cases h
        refine ⟨[(.on line.opened (.setAutoCommit mode), .ok b)], a, l.log, ?_, ?_, ?_⟩
        · rw [set, asked]
          rfl
        · rw [place, number]
        · intro enabled he
          obtain rfl := Option.some.inj (hmode.symm.trans he)
          exact ⟨b, rfl⟩

end Line

/-! ## Where a connection comes from -/

/-- Where the connection of a checkout comes from that has just been handed out to somebody
who asked under the credentials. -/
inductive Supply (p : Pool δ) (credentials : Source.Credentials) (p' : Pool δ) (c : Checkout) : Prop
  | idle {d : Detached} (idle : d ∈ p.state.idle) (same : d.connection = c.connection)
  | overdue {o : Checkout} (active : o ∈ p.state.active) (same : o.connection = c.connection)
  | fresh (new : p.line.opened < c.connection)
      (opened : p'.line.OpenedFor p.state.source credentials c.connection)

theorem Offers.source_eq {credentials : Source.Credentials} {o : Candidate}
    (offer : Offers D now credentials p o p') : p'.state.source = p.state.source ∧
      p'.state.expected = p.state.expected := by
  cases offer <;> exact ⟨rfl, rfl⟩

theorem Offers.thins {credentials : Source.Credentials} {o : Candidate}
    (offer : Offers D now credentials p o p') : (∀ d ∈ p'.state.idle, d ∈ p.state.idle) ∧
      ∀ c ∈ p'.state.active, c ∈ p.state.active := by
  cases offer with
  | idle idle => exact ⟨fun d hd => idle ▸ List.mem_cons_of_mem _ hd, fun _ hc => hc⟩
  | overdue idle full active due =>
    exact ⟨fun _ hd => hd, fun c hc => active ▸ List.mem_cons_of_mem _ hc⟩
  | fresh | unreachable | none => exact ⟨fun _ hd => hd, fun _ hc => hc⟩

/-- A grant is for the credentials of the one who asked, and its connection is an idle one, that
of an overdue checkout, or a fresh one. -/
theorem Visits.supply {a : Attempt} (visit : Visits D now a p (.granted c) p')
    (hn : p.line.Numbered) :
    c.fingerprint = p.state.source.fingerprintFor a.credentials ∧ Supply p a.credentials p' c := by
  obtain ⟨d, p₁, line, offer, good, rfl, rfl⟩ := visit.of_granted
  refine ⟨congrArg (·.fingerprintFor a.credentials) offer.source_eq.1, ?_⟩
  have served := (validate_served good).trans (Line.rollbackIfNeeded_served D d.connection line)
  cases offer with
  | idle idle => exact .idle (idle ▸ List.mem_cons_self) rfl
  | @overdue oldest rest idle full active due =>
    have held : oldest ∈ p.state.active := active ▸ List.mem_cons_self
    exact .overdue held rfl
  | fresh idle room connect =>
    refine .fresh ?_ ((Line.connect_openedFor hn connect).mono served.suffix)
    exact (Line.connect_ok connect).1 ▸ Nat.lt_succ_self _

/-! ## What a request leaves of the connections -/

/-- From `p` to `p'` the terms stay, and every connection comes from `p` or has been supplied. -/
structure Flow (p p' : Pool δ) : Prop where
  source : p'.state.source = p.state.source
  expected : p'.state.expected = p.state.expected
  grows : p.line.Grows p'.line
  idle : ∀ d ∈ p'.state.idle, d ∈ p.state.idle ∨
    ∃ c ∈ p.state.active, d = c.detach ∧ c.fingerprint = p.state.expected
  active : ∀ c ∈ p'.state.active, c ∈ p.state.active ∨
    ∃ credentials, c.fingerprint = p.state.source.fingerprintFor credentials ∧
      Supply p credentials p' c

theorem Flow.of_thin {S : ConnectionId → Prop} (source : p'.state.source = p.state.source)
    (expected : p'.state.expected = p.state.expected) (served : Line.Served S p.line p'.line)
    (idle : ∀ d ∈ p'.state.idle, d ∈ p.state.idle)
    (active : ∀ c ∈ p'.state.active, c ∈ p.state.active) : Flow p p' where
  source := source
  expected := expected
  grows := served.grows
  idle d hd := .inl (idle d hd)
  active c hc := .inl (active c hc)

theorem Flow.refl (p : Pool δ) : Flow p p :=
  .of_thin rfl rfl (.refl (fun _ => True) _) (fun _ hd => hd) fun _ hc => hc

theorem Offers.flow {credentials : Source.Credentials} {o : Candidate}
    (offer : Offers D now credentials p o p') : Flow p p' where
  source := offer.source_eq.1
  expected := offer.source_eq.2
  grows := offer.grows
  idle d hd := .inl (offer.thins.1 d hd)
  active c hc := .inl (offer.thins.2 c hc)

/-- Work on the line after a candidate was offered brings no connection. -/
theorem Flow.served {S : ConnectionId → Prop} {p₁ : Pool δ} (h : Flow p p₁)
    (old : ∀ c ∈ p₁.state.active, c ∈ p.state.active) (served : Line.Served S p₁.line p'.line)
    (source : p'.state.source = p₁.state.source)
    (expected : p'.state.expected = p₁.state.expected) (idle : p'.state.idle = p₁.state.idle)
    (active : p'.state.active = p₁.state.active) : Flow p p' where
  source := source.trans h.source
  expected := expected.trans h.expected
  grows := h.grows.trans served.grows
  idle d hd := h.idle d (idle ▸ hd)
  active c hc := .inl (old c (active ▸ hc))

theorem Visits.flow {a : Attempt} {o : Outcome} (visit : Visits D now a p o p')
    (hn : p.line.Numbered) : Flow p p' := by
  have supplied := fun c (h : o = .granted c) => (h ▸ visit).supply hn
  cases visit with
  | refused closed => exact .refl p
  | @waits closed p₁ offer =>
    obtain ⟨f, hf⟩ := wait_eq a p₁
    rw [hf]
    exact offer.flow.served offer.thins.2 (.refl (fun _ => True) _) rfl rfl rfl rfl
  | unreachable closed offer => exact offer.flow
  | @rejected closed d p₁ line offer bad =>
    have served := (validate_served bad).trans (Line.close_served D d.connection line)
    exact offer.flow.served offer.thins.2 served rfl rfl rfl rfl
  | @granted closed d p₁ line offer good =>
    have served := (validate_served good).trans
      (Line.rollbackIfNeeded_served D d.connection line)
    refine ⟨offer.source_eq.1, offer.source_eq.2, offer.grows.trans served.grows,
      fun e he => .inl (offer.thins.1 e he), fun e he => ?_⟩
    rcases List.mem_append.mp he with he | he
    · exact .inl (offer.thins.2 e he)
    · rw [List.mem_singleton.mp he]
      exact .inr ⟨a.credentials, supplied _ rfl⟩

theorem Returns.flow (back : Returns D now c p p') (hp : Custody p) (hk : Known p c) :
    Flow p p' := by
  have rest : ∀ d ∈ (p.state.checkIn c).active, d ∈ p.state.active :=
    fun d hd => ((State.mem_active_removeActive p.state c d).mp hd).1
  cases back with
  | stale invalid => exact .of_thin rfl rfl (.refl (fun _ => True) _) (fun _ hd => hd) rest
  | bad valid bad => exact .of_thin rfl rfl (validate_served bad) (fun _ hd => hd) rest
  | @closed valid line good keep =>
    have served := (validate_served good).trans (Line.retire_served D c.connection line)
    exact .of_thin rfl rfl served (fun _ hd => hd) rest
  | @kept valid line good keep =>
    have served := (validate_served good).trans
      (Line.rollbackIfNeeded_served D c.connection line)
    refine ⟨rfl, rfl, served.grows, fun d hd => ?_, fun d hd => .inl (rest d hd)⟩
    rcases List.mem_append.mp hd with hd | hd
    · exact .inl hd
    · have same : c.fingerprint = p.state.expected :=
        eq_of_beq (Bool.and_eq_true_iff.mp keep).2
      exact .inr ⟨c, (hp.isValid_iff hk).mp valid, List.mem_singleton.mp hd, same⟩

/-- A pool without connections, which expects the identity of its source. -/
structure Renewed (p p' : Pool δ) : Prop where
  expected : p'.state.expected = p'.state.source.fingerprint
  grows : p.line.Grows p'.line
  idle : p'.state.idle = []
  active : p'.state.active = []

theorem Move.flow {held : Checkout → Prop} (move : Move D held p p') (hp : Custody p)
    (hk : ∀ c, held c → Known p c) (hn : p.line.Numbered) : Flow p p' ∨ Renewed p p' := by
  cases move with
  | stays => exact .inl (.refl p)
  | visit now a => exact .inl ((examine_visits D now a p).flow hn)
  | @giveBack now c hc => exact .inl ((release_returns D now c p).flow hp (hk c hc))
  | recount | setTolerance =>
    exact .inl (.of_thin rfl rfl (.refl (fun _ => True) _) (fun _ hd => hd) fun _ hc => hc)
  | @call op c hc valid =>
    exact .inl (.of_thin rfl rfl (Line.ask_served D c.connection op p.line) (fun _ hd => hd)
      fun _ hc => hc)
  | overhaul source settings closed =>
    refine .inr ⟨?_, (closeAll_served D _).grows, rfl, rfl⟩
    simp [closeAll, State.foldl_invalidate]

/-! ## The present source -/

/-- The pool expects the identity of its source and has connections of no other. -/
structure Current (p : Pool δ) : Prop where
  numbered : p.line.Numbered
  expected : p.state.expected = p.state.source.fingerprint
  origin : ∀ n ∈ p.state.connections,
    ∃ credentials, p.line.OpenedFor p.state.source credentials n

theorem Current.flow (h : Current p) (flow : Flow p p') : Current p' where
  numbered := flow.grows.numbered h.numbered
  expected := by rw [flow.expected, flow.source, h.expected]
  origin n hn := by
    have kept : n ∈ p.state.connections →
        ∃ credentials, p'.line.OpenedFor p'.state.source credentials n := by
      intro hn
      obtain ⟨credentials, opened⟩ := h.origin n hn
      exact ⟨credentials, flow.source ▸ opened.mono flow.grows.suffix⟩
    have ofIdle : ∀ d ∈ p.state.idle, d.connection ∈ p.state.connections :=
      fun d hd => List.mem_append_left _ (List.mem_map_of_mem hd)
    have ofActive : ∀ c ∈ p.state.active, c.connection ∈ p.state.connections :=
      fun c hc => List.mem_append_right _ (List.mem_map_of_mem hc)
    rcases List.mem_append.mp hn with hn | hn
    · obtain ⟨d, hd, rfl⟩ := List.mem_map.mp hn
      rcases flow.idle d hd with hd | ⟨c, hc, rfl, _⟩
      · exact kept (ofIdle d hd)
      · exact kept (ofActive c hc)
    · obtain ⟨c, hc, rfl⟩ := List.mem_map.mp hn
      rcases flow.active c hc with hc | ⟨credentials, _, supply⟩
      · exact kept (ofActive c hc)
      · cases supply with
        | idle hd same => exact kept (same ▸ ofIdle _ hd)
        | overdue ho same => exact kept (same ▸ ofActive _ ho)
        | fresh new opened => exact ⟨credentials, flow.source ▸ opened⟩

theorem Current.renew (h : Current p) (renewed : Renewed p p') : Current p' where
  numbered := renewed.grows.numbered h.numbered
  expected := renewed.expected
  origin n hn := by
    rw [State.connections, renewed.idle, renewed.active] at hn
    cases hn

theorem Move.current {held : Checkout → Prop} (move : Move D held p p') (hp : Custody p)
    (hk : ∀ c, held c → Known p c) (h : Current p) : Current p' := by
  rcases move.flow hp hk h.numbered with flow | renewed
  · exact h.flow flow
  · exact h.renew renewed

namespace Service

variable [DecidableEq κ]

omit [DecidableEq κ] in
theorem start_current (source : Source.DataSource) (settings : Settings) (driver : δ) :
    Current (start source settings driver : Service κ δ).pool where
  numbered := rfl
  expected := rfl
  origin n hn := by cases hn

theorem Orderly.current_run {s : Service κ δ} {handles : List Checkout} (h : Orderly s handles)
    (hs : Current s.pool) (D : Driver δ) (rs : List (Request κ)) : Current (s.run D rs).pool :=
  h.run_keeps (fun _ _ _ move hp hk => move.current hp hk) hs rs

/-- A request that leaves a connection has not renewed the pool. -/
theorem Orderly.flow_of_mem {s : Service κ δ} {handles : List Checkout} (h : Orderly s handles)
    (hs : Current s.pool) {D : Driver δ} {r : Request κ} {n : ConnectionId}
    (hn : n ∈ (s.serve D r).2.pool.state.connections) : Flow s.pool (s.serve D r).2.pool := by
  refine ((serve_move D s r).flow h.custody h.known_of_holds hs.numbered).resolve_right ?_
  intro renewed
  rw [State.connections, renewed.idle, renewed.active] at hn
  cases hn

/-- What is handed out was opened for the source that the pool has at that time. -/
theorem Orderly.handed {s : Service κ δ} {handles : List Checkout} (h : Orderly s handles)
    (hs : Current s.pool) (D : Driver δ) {r : Request κ}
    (hr : (s.serve D r).1.handle? = some c) : ∃ credentials,
      (s.serve D r).2.pool.line.OpenedFor s.pool.state.source credentials c.connection := by
  obtain ⟨_, active, _⟩ := (serve_hands D s r).fresh c hr
  have among : c.connection ∈ (s.serve D r).2.pool.state.connections :=
    List.mem_append_right _ (List.mem_map_of_mem active)
  have flow := h.flow_of_mem hs among
  rw [← flow.source]
  exact (hs.flow flow).origin _ among

/-- After any run of requests the pool expects the identity of its present source, and each of
its connections was opened for that source and put into its mode by the first call after that;
so was every connection that is handed out by the time somebody has it. -/
theorem run_current (D : Driver δ) (source : Source.DataSource) (settings : Settings)
    (driver : δ) (rs : List (Request κ)) :
    let s : Service κ δ := (start source settings driver).run D rs
    s.pool.state.expected = s.pool.state.source.fingerprint ∧
    (∀ d ∈ s.pool.state.idle, ∃ credentials,
      s.pool.line.OpenedFor s.pool.state.source credentials d.connection) ∧
    (∀ c ∈ s.pool.state.active, ∃ credentials,
      s.pool.line.OpenedFor s.pool.state.source credentials c.connection) ∧
    (∀ r c, (s.serve D r).1.handle? = some c → ∃ credentials,
      (s.serve D r).2.pool.line.OpenedFor s.pool.state.source credentials c.connection) := by
  intro s
  have orderly := (start_orderly source settings driver).run (κ := κ) D rs
  have current : Current s.pool :=
    (start_orderly source settings driver).current_run (start_current ..) D rs
  refine ⟨current.expected, fun d hd => ?_, fun c hc => ?_, fun r c hr => ?_⟩
  · exact current.origin _ (List.mem_append_left _ (List.mem_map_of_mem hd))
  · exact current.origin _ (List.mem_append_right _ (List.mem_map_of_mem hc))
  · exact orderly.handed current D hr

end Service
end DataTier.Pool
