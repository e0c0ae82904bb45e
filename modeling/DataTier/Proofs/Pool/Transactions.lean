import DataTier.Proofs.Pool.Asking
import DataTier.Proofs.Pool.Exclusive

/-! Whose transaction is open. With a driver that knows of transactions what it should
(`Transactions`), nobody gets a connection in the middle of another's transaction: a pool is
`Clean` if no idle connection has an open one and no active one unless its holder has executed
a statement, and every request keeps it so. The pool's own probes begin transactions too, but
only on connections that nobody has. -/

namespace DataTier.Pool

variable {κ δ : Type} {D : Driver δ}

/-- What a driver makes of transactions. A connection is in auto-commit mode or not, and it can
tell; outside the mode a statement begins a transaction and nothing else does; a rollback ends
it, and so does the way back into the mode. -/
structure Transactions (D : Driver δ) where
  autoCommit : ConnectionId → δ → Bool
  inTransaction : ConnectionId → δ → Bool
  tells (n : ConnectionId) (d : δ) : (D.answer (.on n .autoCommit) d).1 = .ok (autoCommit n d)
  ends (n : ConnectionId) (d : δ) : inTransaction n (D.answer (.on n .rollback) d).2 = false
  begins (call : Call) (n : ConnectionId) (d : δ) :
    inTransaction n (D.answer call d).2 = true → inTransaction n d = true ∨
      autoCommit n d = false ∧ ∃ statement, call = .on n (.execute statement)
  switches (call : Call) (n : ConnectionId) (d : δ) :
    autoCommit n (D.answer call d).2 = true →
      autoCommit n d = true ∨ inTransaction n (D.answer call d).2 = false

/-! ## On the line -/

namespace Transactions

variable {T : Transactions D} {S S' : ConnectionId → Prop} {n : ConnectionId} {l l' l'' : Line δ}

/-- The connection has no open transaction. -/
def Free (T : Transactions D) (n : ConnectionId) (l : Line δ) : Prop :=
  T.inTransaction n l.driver = false

/-- No connection in auto-commit mode has an open transaction. -/
def Regular (T : Transactions D) (l : Line δ) : Prop :=
  ∀ n, T.autoCommit n l.driver = true → T.Free n l

/-- Between `l` and `l'` transactions have begun on connections in `S` only. -/
structure Keeps (T : Transactions D) (S : ConnectionId → Prop) (l l' : Line δ) : Prop where
  regular : T.Regular l → T.Regular l'
  free : ∀ n, ¬S n → T.Free n l → T.Free n l'

namespace Keeps

theorem refl (T : Transactions D) (S : ConnectionId → Prop) (l : Line δ) : T.Keeps S l l :=
  ⟨id, fun _ _ h => h⟩

theorem trans (h : T.Keeps S l l') (h' : T.Keeps S l' l'') : T.Keeps S l l'' :=
  ⟨fun hl => h'.regular (h.regular hl), fun n hn hf => h'.free n hn (h.free n hn hf)⟩

theorem mono (h : T.Keeps S l l') (hs : ∀ n, S n → S' n) : T.Keeps S' l l' :=
  ⟨h.regular, fun n hn => h.free n fun hm => hn (hs n hm)⟩

end Keeps

theorem ask_keeps (T : Transactions D) (call : Call) (l : Line δ) :
    T.Keeps (fun n => ∃ statement, call = .on n (.execute statement)) l (l.ask D call).2 where
  regular hl n mode := by
    rcases T.switches call n l.driver mode with before | free
    · refine Bool.eq_false_iff.mpr fun busy => ?_
      -- a transaction that is open in the mode now was open in the mode before
      rcases T.begins call n l.driver busy with old | ⟨manual, _⟩
      · rw [show T.inTransaction n l.driver = false from hl n before] at old
        cases old
      · rw [before] at manual
        cases manual
    · exact free
  free n hn hf := by
    refine Bool.eq_false_iff.mpr fun busy => ?_
    rcases T.begins call n l.driver busy with old | ⟨_, statement⟩
    · rw [show T.inTransaction n l.driver = false from hf] at old
      cases old
    · exact hn statement

theorem Keeps.of_asks {P : Call → Prop} (T : Transactions D) (h : Line.Asks D P l l')
    (statements : ∀ n statement, P (.on n (.execute statement)) → S n) : T.Keeps S l l' := by
  induction h with
  | refl => exact .refl T S l
  | @ask l' before call hc ih =>
    refine ih.trans ((T.ask_keeps call l').mono ?_)
    rintro n ⟨statement, rfl⟩
    exact statements n statement hc

theorem close_keeps (T : Transactions D) (n : ConnectionId) (l : Line δ) :
    T.Keeps S l (l.close D n) :=
  .of_asks T (Line.close_asks D n l) fun _ _ h => nomatch h

theorem rollbackIfNeeded_keeps (T : Transactions D) (n : ConnectionId) (l : Line δ) :
    T.Keeps S l (l.rollbackIfNeeded D n).2 :=
  .of_asks T (Line.rollbackIfNeeded_asks D n l) fun _ _ h => nomatch h

theorem retire_keeps (T : Transactions D) (n : ConnectionId) (l : Line δ) :
    T.Keeps S l (l.retire D n) :=
  .of_asks T (Line.retire_asks D n l) fun _ _ h => nomatch h

theorem retireAll_keeps {α : Type} (T : Transactions D) (f : α → ConnectionId) (xs : List α)
    (l : Line δ) : T.Keeps S l (xs.foldl (fun l x => l.retire D (f x)) l) :=
  .of_asks T (Line.retireAll_asks D f xs l) fun _ _ ⟨_, _, h⟩ => nomatch h

theorem connect_keeps (T : Transactions D) (source : Source.DataSource)
    (credentials : Source.Credentials) (l : Line δ) :
    T.Keeps S l (l.connect D source credentials).2 :=
  .of_asks T (Line.connect_asks D source credentials l) fun _ _ h => nomatch h

/-- A probe may leave a transaction on the connection that it is for. -/
theorem validate_keeps (T : Transactions D) (settings : Settings) (now : Time.Instant)
    (d : Detached) (l : Line δ) :
    T.Keeps (· = d.connection) l (validate D settings now d l).2 := by
  refine .of_asks T (validate_asks D settings now d l) fun n statement check => ?_
  cases check with
  | probe => rfl
  | ends h => cases h

/-- In auto-commit mode there is no transaction to end; outside it there is one no longer. -/
theorem rollbackIfNeeded_free (regular : T.Regular l) :
    T.Free n (l.rollbackIfNeeded D n).2 := by
  have asked := T.ask_keeps (.on n .autoCommit) l
  have told : (l.ask D (.on n .autoCommit)).1 = .ok (T.autoCommit n l.driver) := T.tells n l.driver
  unfold Line.rollbackIfNeeded
  split <;> rename_i h <;> rw [h] at asked told
  · cases told
  · have mode : T.autoCommit n l.driver = true := (Except.ok.inj told).symm
    exact asked.free n (by simp) (regular n mode)
  · exact T.ends n _

end Transactions

/-! ## In the pool -/

variable {T : Transactions D} {now : Time.Instant} {c : Checkout} {p p' : Pool δ}
  {ran : List Nat}

/-- A connection with an open transaction is in the hands of somebody who has executed a
statement under one of the tickets. -/
structure Clean (T : Transactions D) (ran : List Nat) (p : Pool δ) : Prop where
  regular : T.Regular p.line
  idle : ∀ d ∈ p.state.idle, T.Free d.connection p.line
  active : ∀ c ∈ p.state.active, c.ticket ∈ ran ∨ T.Free c.connection p.line

theorem Clean.more (h : Clean T ran p) (more : List Nat) : Clean T (ran ++ more) p :=
  ⟨h.regular, h.idle, fun c hc => (h.active c hc).imp_left (List.mem_append_left _)⟩

/-- Transactions that begin on connections out of the books do not matter, and neither does a
connection that leaves them. -/
theorem Clean.thin {S : ConnectionId → Prop} (h : Clean T ran p)
    (keeps : T.Keeps S p.line p'.line) (apart : ∀ n ∈ p'.state.connections, ¬S n)
    (idle : ∀ d ∈ p'.state.idle, d ∈ p.state.idle)
    (active : ∀ c ∈ p'.state.active, c ∈ p.state.active) : Clean T ran p' where
  regular := keeps.regular h.regular
  idle d hd :=
    keeps.free _ (apart _ (List.mem_append_left _ (List.mem_map_of_mem hd))) (h.idle d (idle d hd))
  active c hc := (h.active c (active c hc)).imp_right
    (keeps.free _ (apart _ (List.mem_append_right _ (List.mem_map_of_mem hc))))

/-- What begins no transaction leaves the pool clean. -/
theorem Clean.calm (h : Clean T ran p) (keeps : T.Keeps (fun _ => False) p.line p'.line)
    (idle : ∀ d ∈ p'.state.idle, d ∈ p.state.idle)
    (active : ∀ c ∈ p'.state.active, c ∈ p.state.active) : Clean T ran p' :=
  h.thin keeps (fun _ _ => id) idle active

theorem Offers.transactions_keeps {credentials : Source.Credentials} {o : Candidate}
    (offer : Offers D now credentials p o p') : T.Keeps (fun _ => False) p.line p'.line := by
  cases offer with
  | idle | none => exact .refl T _ _
  | fresh idle room connect | unreachable idle room connect =>
    have keeps := T.connect_keeps (S := fun _ => False) p.state.source credentials p.line
    rw [connect] at keeps
    exact keeps
  | overdue => exact T.rollbackIfNeeded_keeps _ p.line

theorem Offers.clean {credentials : Source.Credentials} {o : Candidate}
    (offer : Offers D now credentials p o p') (h : Clean T ran p) : Clean T ran p' :=
  h.calm offer.transactions_keeps offer.thins.1 offer.thins.2

/-- The connection of a new checkout has no open transaction, whatever was done on it before. -/
theorem Visits.granted_free {a : Attempt} (visit : Visits D now a p (.granted c) p')
    (regular : T.Regular p.line) : T.Free c.connection p'.line := by
  obtain ⟨d, p₁, line, offer, good, rfl, rfl⟩ := visit.of_granted
  have checked := T.validate_keeps p₁.state.settings now d p₁.line
  rw [good] at checked
  exact T.rollbackIfNeeded_free (checked.regular (offer.transactions_keeps.regular regular))

/-- The candidate is out of the books while it is checked. -/
theorem Offers.clean_checked {credentials : Source.Credentials} {d : Detached} {good : Bool}
    {line : Line δ} (offer : Offers D now credentials p (.ready d) p') (hp : Custody p)
    (check : validate D p'.state.settings now d p'.line = (good, line)) (h : Clean T ran p) :
    Clean T ran { p' with line } := by
  have checked := T.validate_keeps p'.state.settings now d p'.line
  rw [check] at checked
  refine (offer.clean h).thin checked (fun n hn same => ?_) (fun _ hd => hd) fun _ hc => hc
  exact (offer.spare hp).apart (same ▸ hn)

theorem Visits.clean {a : Attempt} {o : Outcome} (visit : Visits D now a p o p') (hp : Custody p)
    (h : Clean T ran p) : Clean T ran p' := by
  have granted := fun c (e : o = .granted c) => (e ▸ visit).granted_free h.regular
  cases visit with
  | refused closed => exact h
  | @waits closed p₁ offer =>
    obtain ⟨f, hf⟩ := wait_eq a p₁
    rw [hf]
    exact (offer.clean h).calm (.refl T _ _) (fun _ hd => hd) fun _ hc => hc
  | unreachable closed offer => exact offer.clean h
  | @rejected closed d p₁ line offer bad =>
    exact (offer.clean_checked hp bad h).calm (T.close_keeps d.connection line) (fun _ hd => hd)
      fun _ hc => hc
  | @granted closed d p₁ line offer good =>
    have rest : Clean T ran { p₁ with line := (line.rollbackIfNeeded D d.connection).2 } :=
      (offer.clean_checked hp good h).calm (T.rollbackIfNeeded_keeps d.connection line)
        (fun _ hd => hd) fun _ hc => hc
    refine ⟨rest.regular, rest.idle, fun e he => ?_⟩
    rcases List.mem_append.mp he with he | he
    · exact rest.active e he
    · exact .inr (List.mem_singleton.mp he ▸ granted _ rfl)

/-- A checkout that ends has left the books when it is checked. -/
theorem Clean.checkIn (h : Clean T ran p) (hp : Custody p) (hc : c ∈ p.state.active) {good : Bool}
    {line : Line δ} (check : validate D p.state.settings now c.detach p.line = (good, line)) :
    Clean T ran { line, state := p.state.checkIn c } := by
  have checked := T.validate_keeps p.state.settings now c.detach p.line
  rw [check] at checked
  refine h.thin checked (fun n hn same => ?_) (fun _ hd => hd) fun d hd => ?_
  · rw [same] at hn
    exact (hp.spare_checkIn hc).apart hn
  · exact ((State.mem_active_removeActive p.state c d).mp hd).1

theorem Returns.clean (back : Returns D now c p p') (hp : Custody p) (hk : Known p c)
    (h : Clean T ran p) : Clean T ran p' := by
  have active : p.state.isValid c = true → c ∈ p.state.active := (hp.isValid_iff hk).mp
  cases back with
  | stale invalid =>
    exact h.calm (.refl T _ _) (fun _ hd => hd) fun d hd =>
      ((State.mem_active_removeActive p.state c d).mp hd).1
  | bad valid bad =>
    exact (h.checkIn hp (active valid) bad).calm (.refl T _ _) (fun _ hd => hd) fun _ hd => hd
  | @closed valid line good keep =>
    exact (h.checkIn hp (active valid) good).calm (T.retire_keeps c.connection line)
      (fun _ hd => hd) fun _ hd => hd
  | @kept valid line good keep =>
    have checked := h.checkIn hp (active valid) good
    have ended := T.rollbackIfNeeded_keeps (S := fun _ => False) c.connection line
    refine ⟨ended.regular checked.regular, fun d hd => ?_, fun d hd => ?_⟩
    · rcases List.mem_append.mp hd with hd | hd
      · exact ended.free _ id (checked.idle d hd)
      · rw [List.mem_singleton.mp hd]
        exact T.rollbackIfNeeded_free checked.regular
    · exact (checked.active d hd).imp_right (ended.free _ id)

theorem Clean.closeAll (h : Clean T ran p) : Clean T ran (closeAll D p) where
  regular := by
    have active := T.retireAll_keeps (S := fun _ => False) Checkout.connection p.state.active p.line
    exact (active.trans (T.retireAll_keeps Detached.connection p.state.idle _)).regular h.regular
  idle d hd := by cases hd
  active c hc := by cases hc

/-- A holder's call bears on its own connection alone. -/
theorem Clean.call (h : Clean T ran p) (hp : Custody p) (hc : c ∈ p.state.active) (op : Operation)
    {more : List Nat} (named : ∀ statement, op = .execute statement → c.ticket ∈ more) :
    Clean T (ran ++ more) { p with line := (p.line.ask D (.on c.connection op)).2 } := by
  have keeps := T.ask_keeps (.on c.connection op) p.line
  refine ⟨keeps.regular h.regular, fun d hd => keeps.free _ ?_ (h.idle d hd), fun e he => ?_⟩
  · rintro ⟨_, call⟩
    have apart := (List.nodup_append.mp hp.distinct).2.2
    exact apart _ (List.mem_map_of_mem hd) _ (List.mem_map_of_mem hc) (Call.on.inj call).1.symm
  · by_cases run : ∃ statement, Call.on c.connection op = .on e.connection (.execute statement)
    · obtain ⟨statement, call⟩ := run
      obtain ⟨same, hop⟩ := Call.on.inj call
      rw [← hp.eq_of_connection hc he same]
      exact .inl (List.mem_append_right _ (named statement hop))
    · exact (h.active e he).imp (List.mem_append_left _) (keeps.free _ run)

namespace Service

variable [DecidableEq κ] {s : Service κ δ} {handles : List Checkout}

/-- The ticket of the handle through which a request executes a statement. -/
def executor? (s : Service κ δ) : Request κ → Option Nat
  | .use caller (.execute _) => (s.held.get? caller).map (·.ticket)
  | _ => none

/-- The tickets of the handles through which a run of requests executes statements. -/
def executors (D : Driver δ) : Service κ δ → List (Request κ) → List Nat
  | _, [] => []
  | s, r :: rs => (s.executor? r).toList ++ executors D (s.serve D r).2 rs

theorem Orderly.clean_use (h : Orderly s handles) (hs : Clean T ran s.pool) (caller : κ)
    (op : Operation) : Clean T (ran ++ (s.executor? (.use caller op)).toList)
      (s.serve D (.use caller op)).2.pool := by
  simp only [Service.serve, Service.use]
  split
  · exact hs.more _
  · rename_i c held
    split
    · rename_i valid
      have known := h.known c (h.held caller c held)
      refine hs.call h.custody ((h.custody.isValid_iff known).mp valid) op ?_
      rintro statement rfl
      simp [executor?, show s.held.get? caller = some c from held]
    · exact hs.more _

theorem Orderly.clean_serve (h : Orderly s handles) (hs : Clean T ran s.pool) (r : Request κ) :
    Clean T (ran ++ (s.executor? r).toList) (s.serve D r).2.pool := by
  have visited (caller : κ) (a : Attempt) {s₁ : Service κ δ} (hp : s₁.pool = s.pool) :
      Clean T ran (proceed D caller a s₁).2.pool := by
    rw [proceed_pool, hp]
    exact (examine_visits D s₁.now a s.pool).clean h.custody hs
  have counted (f : Counters → Counters) :
      Clean T ran { s.pool with state := s.pool.state.count f } :=
    hs.calm (.refl T _ _) (fun _ hd => hd) fun _ hc => hc
  have changed (source : Source.DataSource) (settings : Settings) (closed : Bool) :
      Clean T ran { s.pool with state := { s.pool.state with source, settings, closed } } :=
    hs.calm (.refl T _ _) (fun _ hd => hd) fun _ hc => hc
  cases r with
  | use caller op => exact h.clean_use hs caller op
  | acquire caller credentials =>
    simp only [Service.serve, Service.acquire]
    split
    · exact hs.more _
    · refine .more (visited caller _ ?_) _
      rfl
  | resume caller =>
    simp only [Service.serve, Service.resume]
    split
    · refine .more (visited caller _ ?_) _
      rfl
    · exact hs.more _
    · split
      · exact (counted _).more _
      · exact hs.more _
  | release caller =>
    simp only [Service.serve, Service.release]
    split
    · exact hs.more _
    · rename_i c held
      have known := h.known c (h.held caller c held)
      exact ((release_returns D _ c s.pool).clean h.custody known hs).more _
  | drop caller =>
    simp only [Service.serve, Service.drop]
    split <;> exact hs.more _
  | cancel caller =>
    simp only [Service.serve, Service.cancel]
    split <;> exact hs.more _
  | expire caller =>
    rcases serve_expire D s caller with same | same <;> rw [same] <;> exact hs.more _
  | closeAll => exact hs.closeAll.more _
  | shutdown => exact (changed _ _ true).closeAll.more _
  | reconfigure change => exact (changed _ _ s.pool.state.closed).closeAll.more _
  | setTolerance n => exact (changed s.pool.state.source _ s.pool.state.closed).more _
  | elapse d => exact hs.more _

theorem Orderly.clean_run (h : Orderly s handles) (hs : Clean T ran s.pool)
    (rs : List (Request κ)) : Clean T (ran ++ s.executors D rs) (s.run D rs).pool := by
  induction rs generalizing s handles ran with
  | nil => exact hs.more _
  | cons r rs ih =>
    rw [executors, ← List.append_assoc]
    exact ih (h.serve D r) (h.clean_serve hs r)

omit [DecidableEq κ] in
theorem start_clean (T : Transactions D) (source : Source.DataSource) (settings : Settings)
    {driver : δ} (fresh : ∀ n, T.inTransaction n driver = false) :
    Clean T [] (start source settings driver : Service κ δ).pool :=
  ⟨fun n _ => fresh n, fun d hd => (by cases hd), fun c hc => (by cases hc)⟩

/-- After any run of requests a handle is granted on a connection without an open transaction.
From then on there is one only if a statement has been executed through that very handle, and
on an idle connection there is none. -/
theorem run_transactions (D : Driver δ) (T : Transactions D) (source : Source.DataSource)
    (settings : Settings) (driver : δ) (fresh : ∀ n, T.inTransaction n driver = false)
    (rs : List (Request κ)) :
    let start : Service κ δ := start source settings driver
    let s := start.run D rs
    (∀ r c, (s.serve D r).1.handle? = some c →
      T.inTransaction c.connection (s.serve D r).2.pool.line.driver = false) ∧
    (∀ c ∈ s.pool.state.active, T.inTransaction c.connection s.pool.line.driver = true →
      c.ticket ∈ start.executors D rs) ∧
    (∀ d ∈ s.pool.state.idle, T.inTransaction d.connection s.pool.line.driver = false) := by
  intro start s
  have clean : Clean T ([] ++ start.executors D rs) s.pool :=
    (start_orderly source settings driver).clean_run (start_clean T source settings fresh) rs
  refine ⟨fun r c hr => ?_, fun c hc busy => ?_, clean.idle⟩
  · have remembers := (start_remembers source settings driver).run (κ := κ) D rs
    obtain ⟨_, _, _, grants⟩ := (remembers.serve D r).grants c hr
    obtain ⟨_, visit⟩ := grants.visit
    exact visit.granted_free clean.regular
  · refine (clean.active c hc).resolve_right fun free => ?_
    rw [show T.inTransaction c.connection s.pool.line.driver = false from free] at busy
    cases busy

end Service

/-- The mode of a connection, and whether a transaction is open on it. -/
structure Session where
  autoCommit : Bool := true
  inTransaction : Bool := false

def Session.after : Operation → Session → Session
  | .setAutoCommit enabled, s => ⟨enabled, s.inTransaction && !enabled⟩
  | .rollback, s => { s with inTransaction := false }
  | .execute _, s => { s with inTransaction := s.inTransaction || !s.autoCommit }
  | _, s => s

/-- A driver that grants every call and has a session for each connection. -/
def Driver.sessions : Driver (ConnectionId → Session) where
  answer
    | .open .., d => (.ok true, d)
    | .on n op, d =>
      (.ok (op = .autoCommit && (d n).autoCommit), Function.update d n ((d n).after op))

theorem Session.after_inTransaction {s : Session} {op : Operation}
    (h : (s.after op).inTransaction = true) : s.inTransaction = true ∨
      s.autoCommit = false ∧ ∃ statement, op = .execute statement := by
  cases op <;> simp_all [Session.after]

theorem Session.after_autoCommit {s : Session} {op : Operation}
    (h : (s.after op).autoCommit = true) :
    s.autoCommit = true ∨ (s.after op).inTransaction = false := by
  cases op <;> simp_all [Session.after]

def Driver.sessionTransactions : Transactions Driver.sessions where
  autoCommit n d := (d n).autoCommit
  inTransaction n d := (d n).inTransaction
  tells n d := by simp [Driver.sessions]
  ends n d := by simp [Driver.sessions, Session.after]
  begins call n d busy := by
    cases call with
    | «open» source credentials => exact .inl busy
    | on m op =>
      simp only [Driver.sessions, Function.update_apply] at busy
      split at busy
      · rename_i same
        subst same
        refine (Session.after_inTransaction busy).imp_right fun ⟨mode, statement, hop⟩ => ?_
        exact ⟨mode, statement, hop ▸ rfl⟩
      · exact .inl busy
  switches call n d mode := by
    cases call with
    | «open» source credentials => exact .inl mode
    | on m op =>
      simp only [Driver.sessions, Function.update_apply] at mode ⊢
      split at mode
      · rename_i same
        subst same
        simpa using Session.after_autoCommit mode
      · exact .inl mode

/-- The second caller takes the connection over in the middle of the first one's transaction,
which is ended before it gets it, though a probe is run on it in between. -/
theorem Service.run_transactions_overdue :
    let D := Driver.sessions
    let T := Driver.sessionTransactions
    let s := (start { url := "db", autoCommit := some false }
      { maxActive := 1, maxCheckoutTime := .zero, pingEnabled := true } (fun _ => {}) :
        Service Nat (ConnectionId → Session)).run D [.acquire 0 none, .use 0 (.execute "insert")]
    (∀ n, T.inTransaction n (fun _ => {}) = false) ∧
    T.inTransaction 1 s.pool.line.driver = true ∧
    ∃ c, (s.serve D (.acquire 1 none)).1.handle? = some c ∧ c.connection = 1 ∧
      T.inTransaction c.connection (s.serve D (.acquire 1 none)).2.pool.line.driver = false := by
  intro D T s
  have fresh : ∀ n, T.inTransaction n (fun _ => {}) = false := fun _ => rfl
  have all := run_transactions (κ := Nat) D T { url := "db", autoCommit := some false }
    { maxActive := 1, maxCheckoutTime := .zero, pingEnabled := true } (fun _ => {}) fresh
    [.acquire 0 none, .use 0 (.execute "insert")]
  have busy : T.inTransaction 1 s.pool.line.driver = true := rfl
  obtain ⟨c, granted, same⟩ : ∃ c, (s.serve D (.acquire 1 none)).1.handle? = some c ∧
      c.connection = 1 := ⟨_, rfl, rfl⟩
  refine ⟨fresh, busy, c, granted, same, ?_⟩
  simpa only [s] using all.1 (.acquire 1 none) c granted

end DataTier.Pool
