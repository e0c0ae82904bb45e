import DataTier.Proofs.Pool.Asking
import DataTier.Proofs.Pool.Exclusive

/-! Under which identity the pool has its connections. A checkout bears the identity that it was
asked for under, an idle connection the one that the pool expects. A connection that goes from
one to the next may change its identity (`renames`), though it stays what it was opened as; one
that has not taken on the identity it bears was opened under it. -/

namespace DataTier.Pool

variable {κ δ : Type} {D : Driver δ} {n : ConnectionId} {f g : Source.Fingerprint}
  {c : Checkout} {p p' : Pool δ} {marks : List (ConnectionId × Source.Fingerprint)}

/-! ## Borne identities -/

namespace State

variable {s s' : State}

/-- The identity under which the pool has a connection. -/
inductive Bears (s : State) : ConnectionId → Source.Fingerprint → Prop
  | idle {d : Detached} (hd : d ∈ s.idle) : Bears s d.connection s.expected
  | active {c : Checkout} (hc : c ∈ s.active) : Bears s c.connection c.fingerprint

def identity? (s : State) (n : ConnectionId) : Option Source.Fingerprint :=
  if n ∈ s.idle.map (·.connection) then some s.expected
  else (s.active.find? (·.connection = n)).map (·.fingerprint)

/-- The connections that bear another identity than before, each with the new one. -/
def renamed (s s' : State) : List (ConnectionId × Source.Fingerprint) :=
  s.connections.filterMap fun n =>
    match s.identity? n, s'.identity? n with
    | some f, some g => if f = g then none else some (n, g)
    | _, _ => none

theorem Bears.mem_connections (h : s.Bears n f) : n ∈ s.connections := by
  cases h with
  | idle hd => exact List.mem_append_left _ (List.mem_map_of_mem hd)
  | active hc => exact List.mem_append_right _ (List.mem_map_of_mem hc)

theorem exists_bears (h : n ∈ s.connections) : ∃ f, s.Bears n f := by
  rcases List.mem_append.mp h with h | h
  · obtain ⟨d, hd, rfl⟩ := List.mem_map.mp h
    exact ⟨_, .idle hd⟩
  · obtain ⟨c, hc, rfl⟩ := List.mem_map.mp h
    exact ⟨_, .active hc⟩

theorem bears_of_identity? (h : s.identity? n = some f) : s.Bears n f := by
  unfold identity? at h
  split at h
  · rename_i hn
    obtain ⟨d, hd, rfl⟩ := List.mem_map.mp hn
    cases h
    exact .idle hd
  · obtain ⟨c, found, rfl⟩ := Option.map_eq_some_iff.mp h
    obtain rfl : c.connection = n := by simpa using List.find?_some found
    exact .active (List.mem_of_find?_eq_some found)

theorem mem_renamed : (n, g) ∈ renamed s s' ↔
    ∃ f, s.identity? n = some f ∧ s'.identity? n = some g ∧ f ≠ g := by
  constructor
  · intro h
    obtain ⟨m, _, hm⟩ := List.mem_filterMap.mp h
    split at hm
    · rename_i f' g' hf hg
      split at hm
      · cases hm
      · rename_i ne
        cases hm
        exact ⟨f', hf, hg, ne⟩
    · cases hm
  · rintro ⟨f, hf, hg, ne⟩
    refine List.mem_filterMap.mpr ⟨n, (bears_of_identity? hf).mem_connections, ?_⟩
    simp only [hf, hg, if_neg ne]

end State

theorem Custody.identity?_eq (h : Custody p) (hb : p.state.Bears n f) :
    p.state.identity? n = some f := by
  unfold State.identity?
  cases hb with
  | idle hd => exact if_pos (List.mem_map_of_mem hd)
  | @active c hc =>
    have apart := (List.nodup_append.mp h.distinct).2.2
    have out : c.connection ∉ p.state.idle.map (·.connection) :=
      fun hn => apart _ hn _ (List.mem_map_of_mem hc) rfl
    rw [if_neg out]
    cases found : p.state.active.find? (·.connection = c.connection) with
    | none => exact absurd (decide_eq_true rfl) (List.find?_eq_none.mp found c hc)
    | some o =>
      have ho := List.mem_of_find?_eq_some found
      have same : o.connection = c.connection := by simpa using List.find?_some found
      exact congrArg (some ·.fingerprint)
        (List.inj_on_of_nodup_map (List.nodup_append.mp h.distinct).2.1 ho hc same)

/-- A connection bears the identity that it has borne, or one that it was asked for under. -/
theorem Flow.bears (flow : Flow p p') (hb : p'.state.Bears n f) : p.state.Bears n f ∨
    ∃ credentials, f = p.state.source.fingerprintFor credentials ∧ (n ∈ p.state.connections ∨
      p.line.opened < n ∧ p'.line.OpenedFor p.state.source credentials n) := by
  cases hb with
  | idle hd =>
    rw [flow.expected]
    rcases flow.idle _ hd with hd | ⟨c, hc, rfl, stamp⟩
    · exact .inl (.idle hd)
    · exact .inl (stamp ▸ .active hc)
  | active hc =>
    rcases flow.active _ hc with hc | ⟨credentials, asked, supply⟩
    · exact .inl (.active hc)
    · refine .inr ⟨credentials, asked, ?_⟩
      cases supply with
      | idle hd same => exact .inl (same ▸ (State.Bears.idle hd).mem_connections)
      | overdue ho same => exact .inl (same ▸ (State.Bears.active ho).mem_connections)
      | fresh new opened => exact .inr ⟨new, opened⟩

/-! ## Traced connections -/

/-- Each connection was opened under the identity that it bears or has taken it on. -/
structure Traced (marks : List (ConnectionId × Source.Fingerprint)) (p : Pool δ) : Prop where
  origin : ∀ n f, p.state.Bears n f → ∃ origin, p.line.OpenedFor p.state.source origin n ∧
    (p.state.source.fingerprintFor origin = f ∨ (n, f) ∈ marks)

theorem Traced.flow (h : Traced marks p) (flow : Flow p p') (hp : Custody p) (hp' : Custody p') :
    Traced (marks ++ p.state.renamed p'.state) p' := by
  refine ⟨fun n f hb => ?_⟩
  rw [flow.source]
  rcases flow.bears hb with borne | ⟨credentials, rfl, had | ⟨new, opened⟩⟩
  · obtain ⟨origin, opened, same | mark⟩ := h.origin n f borne
    · exact ⟨origin, opened.mono flow.grows.suffix, .inl same⟩
    · exact ⟨origin, opened.mono flow.grows.suffix, .inr (List.mem_append_left _ mark)⟩
  · obtain ⟨g, borne⟩ := State.exists_bears had
    obtain ⟨origin, opened, traced⟩ := h.origin n g borne
    refine ⟨origin, opened.mono flow.grows.suffix, ?_⟩
    by_cases same : g = p.state.source.fingerprintFor credentials
    · rw [← same]
      exact traced.imp_right fun mark => List.mem_append_left _ mark
    · have mark := State.mem_renamed.mpr ⟨g, hp.identity?_eq borne, hp'.identity?_eq hb, same⟩
      exact .inr (List.mem_append_right _ mark)
  · exact ⟨credentials, opened, .inl rfl⟩

namespace Service

variable [DecidableEq κ]

/-- The connections that change their identity in a run of requests, each with the new one. -/
def renames (D : Driver δ) : Service κ δ → List (Request κ) →
    List (ConnectionId × Source.Fingerprint)
  | _, [] => []
  | s, r :: rs => s.pool.state.renamed (s.serve D r).2.pool.state ++ renames D (s.serve D r).2 rs

theorem renames_snoc (D : Driver δ) (s : Service κ δ) (rs : List (Request κ)) (r : Request κ) :
    s.renames D (rs ++ [r]) = s.renames D rs ++
      (s.run D rs).pool.state.renamed ((s.run D rs).serve D r).2.pool.state := by
  induction rs generalizing s with
  | nil => exact List.append_nil _
  | cons r' rs ih =>
    show s.pool.state.renamed _ ++ renames D _ (rs ++ [r]) = _ ++ renames D _ rs ++ _
    rw [ih, List.append_assoc]
    rfl

omit [DecidableEq κ] in
theorem start_traced (source : Source.DataSource) (settings : Settings) (driver : δ) :
    Traced [] (start source settings driver : Service κ δ).pool :=
  ⟨fun _ _ hb => by cases hb.mem_connections⟩

variable {s : Service κ δ} {handles : List Checkout}

theorem Orderly.traced_serve (h : Orderly s handles) (hs : Current s.pool)
    (ht : Traced marks s.pool) (D : Driver δ) (r : Request κ) :
    Traced (marks ++ s.pool.state.renamed (s.serve D r).2.pool.state) (s.serve D r).2.pool where
  origin n f hb :=
    (ht.flow (h.flow_of_mem hs hb.mem_connections) h.custody (h.serve D r).custody).origin n f hb

theorem Orderly.traced_run (h : Orderly s handles) (hs : Current s.pool)
    (ht : Traced marks s.pool) (D : Driver δ) (rs : List (Request κ)) :
    Traced (marks ++ s.renames D rs) (s.run D rs).pool := by
  induction rs generalizing s handles marks with
  | nil => exact (List.append_nil marks).symm ▸ ht
  | cons r rs ih =>
    have current := (serve_move D s r).current h.custody h.known_of_holds hs
    rw [renames, ← List.append_assoc]
    exact ih (h.serve D r) current (h.traced_serve hs ht D r)

/-! ## Idle connections -/

/-- After any run of requests an idle connection was opened for the present source under its
configured identity, or has taken this identity on when somebody claimed it from a holder that
had asked for it under another. -/
theorem run_idle (D : Driver δ) (source : Source.DataSource) (settings : Settings) (driver : δ)
    (rs : List (Request κ)) :
    let start : Service κ δ := start source settings driver
    let s := start.run D rs
    let configured := s.pool.state.source.fingerprint
    ∀ d ∈ s.pool.state.idle, ∃ origin,
      s.pool.line.OpenedFor s.pool.state.source origin d.connection ∧
      (s.pool.state.source.fingerprintFor origin = configured ∨
        (d.connection, configured) ∈ start.renames D rs) := by
  intro start s configured d hd
  have orderly : Orderly start [] := start_orderly source settings driver
  have current : Current start.pool := start_current source settings driver
  have traced := orderly.traced_run current (start_traced source settings driver) D rs
  have expected : s.pool.state.expected = configured := (orderly.current_run current D rs).expected
  exact traced.origin d.connection configured (expected ▸ .idle hd)

/-- A good connection that comes back under the expected identity is kept while there is room,
whatever it was opened under. -/
theorem release_keeps (D : Driver δ) (now : Time.Instant) {line : Line δ}
    (valid : p.state.isValid c = true)
    (room : p.state.idle.length < p.state.settings.maxIdle)
    (same : c.fingerprint = p.state.expected)
    (good : validate D p.state.settings now c.detach p.line = (true, line)) :
    c.detach ∈ (Pool.release D now c p).state.idle ∧
      (Pool.release D now c p).state.source = p.state.source ∧
      (Pool.release D now c p).line.openings = p.line.openings := by
  have back := release_returns D now c p
  generalize Pool.release D now c p = p' at back
  cases back with
  | stale invalid => cases valid.symm.trans invalid
  | bad _ bad => cases good.symm.trans bad
  | closed _ _ keep =>
    have kept : p.state.canKeep c = true := by simp [State.canKeep, room, same]
    cases kept.symm.trans keep
  | @kept _ line good keep =>
    have served := (validate_served good).trans
      (Line.rollbackIfNeeded_served D c.connection line)
    exact ⟨List.mem_append_right _ List.mem_cons_self, rfl, served.openings_eq⟩

/-- The first caller asks under credentials other than those of the source. The second claims its
connection under those of the source, and when it gives it back the pool keeps it. -/
theorem idle_of_other_credentials :
    let app : Source.Credentials := .named "app" "secret"
    let report : Source.Credentials := .named "report" "ro"
    let source : Source.DataSource := { url := "db", credentials := app }
    let s := (start source { maxActive := 1, maxCheckoutTime := .zero } 0 : Service Nat Nat).run
      (Driver.refusing []) [.acquire 0 (some report), .acquire 1 none, .release 1]
    s.pool.state.source = source ∧ (∃ d ∈ s.pool.state.idle, d.connection = 1) ∧
      s.pool.line.openings = [(source, report)] ∧ report ≠ source.credentials := by
  intro app report source s
  have other : report ≠ app := by decide
  -- the fingerprints are not to be computed
  clear_value app report
  let before := (start source { maxActive := 1, maxCheckoutTime := .zero } 0 : Service Nat Nat).run
    (Driver.refusing []) [.acquire 0 (some report), .acquire 1 none]
  have claimed : ∃ c, before.held.get? 1 = some c ∧ before.pool.state.isValid c = true ∧
      c.fingerprint = before.pool.state.expected ∧ c.connection = 1 ∧
      before.pool.line.openings = [(source, report)] := ⟨_, rfl, rfl, rfl, rfl, rfl⟩
  obtain ⟨c, held, valid, same, first, openings⟩ := claimed
  obtain ⟨idle, owner, line⟩ :=
    release_keeps (Driver.refusing []) before.tick.now valid (Nat.succ_pos 4) same rfl
  have pool : s.pool = Pool.release (Driver.refusing []) before.tick.now c before.pool :=
    (release_of_held held).2
  rw [pool]
  exact ⟨owner, ⟨_, idle, first⟩, line.trans openings, other⟩

/-! ## Handles -/

/-- A handle is granted to somebody who has asked under the credentials whose identity it bears,
and these are the ones that a new connection was opened under. -/
theorem Orderly.granted {t : Table κ Source.Credentials} (h : Orderly s handles)
    (hs : Current s.pool) (ht : Remembers t s) (D : Driver δ) {r : Request κ}
    (hr : (s.serve D r).1.handle? = some c) : ∃ caller credentials,
      (s.enter r t).get? caller = some credentials ∧
      (s.serve D r).2.held.get? caller = some c ∧
      c.fingerprint = s.pool.state.source.fingerprintFor credentials ∧
      (s.pool.line.opened < c.connection →
        (s.serve D r).2.pool.line.OpenedFor s.pool.state.source credentials c.connection) := by
  obtain ⟨caller, a, asked, grants⟩ := (ht.serve D r).grants c hr
  obtain ⟨now, visit⟩ := grants.visit
  obtain ⟨stamp, supply⟩ := visit.supply hs.numbered
  refine ⟨caller, a.credentials, asked, grants.held, stamp, fun new => ?_⟩
  have old : c.connection ∉ s.pool.state.connections :=
    fun hn => absurd new (Nat.not_lt.mpr (h.custody.opened _ hn).2)
  cases supply with
  | idle hd same => exact absurd (same ▸ (State.Bears.idle hd).mem_connections) old
  | overdue ho same => exact absurd (same ▸ (State.Bears.active ho).mem_connections) old
  | fresh _ opened => exact opened

/-- The first time that a connection changes its identity it takes on one that it was not opened
under. -/
theorem Orderly.renamed_of_unmarked (h : Orderly s handles) (hs : Current s.pool)
    (ht : Traced marks s.pool) (D : Driver δ) {r : Request κ} {origin : Source.Credentials}
    (unmarked : ∀ f, (n, f) ∉ marks)
    (opened : (s.serve D r).2.pool.line.OpenedFor s.pool.state.source origin n)
    (mark : (n, g) ∈ s.pool.state.renamed (s.serve D r).2.pool.state) :
    s.pool.state.source.fingerprintFor origin ≠ g := by
  obtain ⟨f, before, after, change⟩ := State.mem_renamed.mp mark
  obtain ⟨origin', opened', traced⟩ := ht.origin n f (State.bears_of_identity? before)
  have flow := h.flow_of_mem hs (State.bears_of_identity? after).mem_connections
  obtain ⟨-, rfl⟩ := opened.unique (opened'.mono flow.grows.suffix)
  rw [traced.resolve_right (unmarked f)]
  exact change

/-- After any run of requests a handle is granted to a caller that has asked for it under the
credentials whose identity it bears; its connection was opened for the present source, under
those credentials if it is a new one, and under credentials of that identity or the connection
has taken the identity on. It has done so with the very first change of its identity. -/
theorem run_identity (D : Driver δ) (source : Source.DataSource) (settings : Settings)
    (driver : δ) (rs : List (Request κ)) (r : Request κ) :
    let start : Service κ δ := start source settings driver
    let s := start.run D rs
    let s' := (s.serve D r).2
    ∀ c, (s.serve D r).1.handle? = some c → ∃ caller credentials origin,
      (start.asked D (rs ++ [r]) []).get? caller = some credentials ∧
      s'.held.get? caller = some c ∧
      c.fingerprint = s.pool.state.source.fingerprintFor credentials ∧
      s'.pool.line.OpenedFor s.pool.state.source origin c.connection ∧
      (s.pool.line.openings.length < c.connection → origin = credentials) ∧
      (s.pool.state.source.fingerprintFor origin = c.fingerprint ∨
        (c.connection, c.fingerprint) ∈ start.renames D (rs ++ [r])) ∧
      ((∀ f, (c.connection, f) ∉ start.renames D rs) →
        (s.pool.state.source.fingerprintFor origin = c.fingerprint ↔
          (c.connection, c.fingerprint) ∉ start.renames D (rs ++ [r]))) := by
  intro start s s' c hr
  have orderly : Orderly s _ := (start_orderly source settings driver).run D rs
  have current : Current s.pool :=
    (start_orderly source settings driver).current_run (start_current ..) D rs
  have remembers : Remembers (start.asked D rs []) s := (start_remembers ..).run D rs
  have traced : Traced (start.renames D rs) s.pool :=
    (start_orderly source settings driver).traced_run (start_current ..) (start_traced ..) D rs
  obtain ⟨caller, credentials, asked, held, stamp, fresh⟩ := orderly.granted current remembers D hr
  obtain ⟨_, active, _⟩ := (serve_hands D s r).fresh c hr
  have borne : s'.pool.state.Bears c.connection c.fingerprint := .active active
  obtain ⟨origin, opened, same⟩ := (orderly.traced_serve current traced D r).origin _ _ borne
  rw [(orderly.flow_of_mem current borne.mem_connections).source] at opened same
  rw [asked_snoc, renames_snoc]
  refine ⟨caller, credentials, origin, asked, held, stamp, opened, fun new => ?_, same,
    fun unmarked => ⟨fun eq mark => ?_, same.resolve_right⟩⟩
  · rw [← current.numbered] at new
    exact (opened.unique (fresh new)).2
  · have mark := (List.mem_append.mp mark).resolve_left (unmarked _)
    exact orderly.renamed_of_unmarked current traced D unmarked opened mark eq

/-- Whoever claims a connection gets it under the credentials that it asks for, and not under those
that the connection was opened under. -/
theorem granted_of_other_credentials :
    let D := Driver.refusing []
    let app : Source.Credentials := .named "app" "secret"
    let report : Source.Credentials := .named "report" "ro"
    let source : Source.DataSource := { url := "db", credentials := app }
    let s := (start source { maxActive := 1, maxCheckoutTime := .zero } 0 : Service Nat Nat).run D
      [.acquire 0 none]
    let (reply, s') := s.serve D (.acquire 1 (some report))
    ∃ c, reply.handle? = some c ∧ c.fingerprint = source.fingerprintFor report ∧
      c.connection = 1 ∧ s'.pool.line.openings = [(source, app)] ∧ report ≠ app := by
  intro D app report source s
  exact ⟨_, rfl, rfl, rfl, rfl, by decide⟩

end Service
end DataTier.Pool
