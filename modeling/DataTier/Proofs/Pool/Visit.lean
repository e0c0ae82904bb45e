import DataTier.Pool.Return
import DataTier.Proofs.Pool.Line

/-! What a visit to the pool can come to. `Offers` lists the candidates a caller may be
offered, `Visits` the outcomes of a visit and `Returns` the ways in which a connection comes
back, each with all that the functions do there. Nothing below needs to open the
functions again. -/

namespace DataTier.Pool

variable {δ : Type} {D : Driver δ} {now : Time.Instant} {p p' : Pool δ}

/-! ## The check -/

/-- The calls that a check is made of. -/
inductive Checks (query : String) (n : ConnectionId) : Call → Prop
  | isClosed : Checks query n (.on n .isClosed)
  | probe : Checks query n (.on n (.execute query))
  | ends {call : Call} (h : Line.Ends n call) : Checks query n call

theorem validate_asks (D : Driver δ) (settings : Settings) (now : Time.Instant) (d : Detached)
    (l : Line δ) : Line.Asks D (Checks settings.pingQuery d.connection) l
      (validate D settings now d l).2 := by
  have asked : Line.Asks D (Checks settings.pingQuery d.connection) l
      (l.ask D (.on d.connection .isClosed)).2 := .ask .refl .isClosed
  have close (l : Line δ) : Line.Asks D (Checks settings.pingQuery d.connection) l
      (l.close D d.connection) := (Line.close_asks D d.connection l).mono fun _ => .ends
  unfold validate
  split <;> rename_i hclosed <;> rw [hclosed] at asked
  · split
    · exact asked
    · have probed := asked.ask (.probe : Checks settings.pingQuery d.connection _)
      split <;> rename_i hexecute <;> rw [hexecute] at probed
      · exact probed.trans (close _)
      · have ended := probed.trans ((Line.rollbackIfNeeded_asks D d.connection _).mono fun _ => .ends)
        split <;> rename_i hrollback <;> rw [hrollback] at ended
        · exact ended
        · exact ended.trans (close _)
  · exact asked

theorem validate_served {settings : Settings} {d : Detached} {l l' : Line δ} {good : Bool}
    (h : validate D settings now d l = (good, l')) : Line.Served (· = d.connection) l l' := by
  have asks := validate_asks D settings now d l
  rw [h] at asks
  refine asks.served fun call check => ?_
  cases check with
  | isClosed | probe => exact ⟨d.connection, _, rfl, rfl⟩
  | ends h =>
    obtain ⟨op, rfl⟩ := h.on
    exact ⟨d.connection, op, rfl, rfl⟩

/-- A good connection has said that it is open. -/
theorem validate_true {settings : Settings} {d : Detached} {l l' : Line δ}
    (h : validate D settings now d l = (true, l')) :
    (l.ask D (.on d.connection .isClosed)).1 = .ok false := by
  unfold validate at h
  split at h
  · rename_i hask
    rw [hask]
  · cases h

/-- A bad connection could not say whether it is closed, or has said that it is, or was
closed then. -/
theorem validate_false {settings : Settings} {d : Detached} {l l' : Line δ}
    (h : validate D settings now d l = (false, l')) :
    (∃ reason, (l.ask D (.on d.connection .isClosed)).1 = .error reason ∧
      (Call.on d.connection .isClosed, .error reason) ∈ l'.log) ∨
    (∃ b, (l.ask D (.on d.connection .isClosed)).1 = .ok b) ∧
      (l'.CloseAsked d.connection ∨ l'.SaidClosed d.connection) := by
  unfold validate at h
  split at h
  · rename_i hask
    refine .inr ⟨⟨false, by rw [hask]⟩, .inl ?_⟩
    split at h
    · cases h
    · split at h
      · cases h
        exact Line.closeAsked_close D d.connection _
      · split at h
        · cases h
        · cases h
          exact Line.closeAsked_close D d.connection _
  · rename_i a line hnot hask
    cases h
    have hlog := Line.ask_log D (.on d.connection .isClosed) l
    rw [hask] at hlog ⊢
    have last : (Call.on d.connection .isClosed, a) ∈ l'.log := by
      rw [hlog]
      exact List.mem_cons_self
    match a with
    | .error reason => exact .inl ⟨reason, rfl, last⟩
    | .ok false => exact absurd rfl hnot
    | .ok true => exact .inr ⟨⟨true, rfl⟩, .inr last⟩

/-! ## Candidates -/

namespace State

/-- The numbers of the connections that the pool has. -/
def connections (s : State) : List ConnectionId :=
  s.idle.map (·.connection) ++ s.active.map (·.connection)

/-- The books once the oldest checkout is taken from its holder. -/
def takeOver (now : Time.Instant) (oldest : Checkout) (rest : List Checkout) (s : State) : State :=
  let age := (oldest.age now).nanoseconds
  (({ s with active := rest }).invalidate oldest).count fun c =>
    { c with
      claimedOverdue := c.claimedOverdue + 1
      overdueCheckoutTime := ⟨c.overdueCheckoutTime.nanoseconds + age⟩
      checkoutTime := ⟨c.checkoutTime.nanoseconds + age⟩ }

def isOverdue (now : Time.Instant) (s : State) (c : Checkout) : Prop :=
  s.settings.maxCheckoutTime.nanoseconds ≤ (c.age now).nanoseconds

end State

/-- Only the first of the active checkouts is looked at. -/
theorem claimOverdue_cases (D : Driver δ) (now : Time.Instant) (p : Pool δ) :
    claimOverdue D now p = (.none, p) ∧ (∀ c ∈ p.state.active.head?, ¬p.state.isOverdue now c) ∨
      ∃ oldest rest, p.state.active = oldest :: rest ∧ p.state.isOverdue now oldest ∧
        claimOverdue D now p = (.ready oldest.detach,
          { state := p.state.takeOver now oldest rest
            line := (p.line.rollbackIfNeeded D oldest.connection).2 }) := by
  unfold claimOverdue
  split
  · rename_i none
    exact .inl ⟨rfl, by simp [none]⟩
  · rename_i oldest rest active
    dsimp only
    split
    · rename_i young
      refine .inl ⟨rfl, ?_⟩
      simpa [active, State.isOverdue] using young
    · rename_i due
      exact .inr ⟨oldest, rest, active, Nat.le_of_not_lt due, rfl⟩

/-- The candidates, each with the pool that is left. -/
inductive Offers (D : Driver δ) (now : Time.Instant) (credentials : Source.Credentials)
    (p : Pool δ) : Candidate → Pool δ → Prop
  | idle {d : Detached} {rest : List Detached} (idle : p.state.idle = d :: rest) :
      Offers D now credentials p (.ready d) { p with state := { p.state with idle := rest } }
  | fresh {c : ConnectionId} {line : Line δ} (idle : p.state.idle = [])
      (room : p.state.active.length < p.state.settings.maxActive)
      (connect : p.line.connect D p.state.source credentials = (.ok c, line)) :
      Offers D now credentials p (.ready ⟨p.state.nextPhysicalId, c, now, now⟩)
        { line, state := { p.state with nextPhysicalId := p.state.nextPhysicalId + 1 } }
  | unreachable {reason : String} {line : Line δ} (idle : p.state.idle = [])
      (room : p.state.active.length < p.state.settings.maxActive)
      (connect : p.line.connect D p.state.source credentials = (.error reason, line)) :
      Offers D now credentials p (.unreachable reason) { p with line }
  | overdue {oldest : Checkout} {rest : List Checkout} (idle : p.state.idle = [])
      (full : p.state.settings.maxActive ≤ p.state.active.length)
      (active : p.state.active = oldest :: rest) (due : p.state.isOverdue now oldest) :
      Offers D now credentials p (.ready oldest.detach)
        { state := p.state.takeOver now oldest rest
          line := (p.line.rollbackIfNeeded D oldest.connection).2 }
  | none (idle : p.state.idle = []) (full : p.state.settings.maxActive ≤ p.state.active.length)
      (due : ∀ c ∈ p.state.active.head?, ¬p.state.isOverdue now c) :
      Offers D now credentials p .none p

theorem candidate_offers (D : Driver δ) (now : Time.Instant) (credentials : Source.Credentials)
    (p : Pool δ) :
    Offers D now credentials p (candidate D now credentials p).1
      (candidate D now credentials p).2 := by
  unfold candidate
  split
  · rename_i d rest hidle
    exact .idle hidle
  · rename_i hidle
    split
    · rename_i hroom
      have hroom : p.state.active.length < p.state.settings.maxActive := of_decide_eq_true hroom
      unfold openConnection
      split <;> rename_i hconnect
      · exact .unreachable hidle hroom hconnect
      · exact .fresh hidle hroom hconnect
    · rename_i hroom
      have hfull : p.state.settings.maxActive ≤ p.state.active.length := by
        simpa [State.hasRoom] using hroom
      rcases claimOverdue_cases D now p with ⟨claim, young⟩ | ⟨oldest, rest, active, due, claim⟩
      · rw [claim]
        exact .none hidle hfull young
      · rw [claim]
        exact .overdue hidle hfull active due

/-- The terms of a pool, which neither visits nor returns change. -/
structure State.SameTerms (s s' : State) : Prop where
  settings : s'.settings = s.settings
  closed : s'.closed = s.closed

theorem Offers.sameTerms {credentials : Source.Credentials} {o : Candidate}
    (offer : Offers D now credentials p o p') : p.state.SameTerms p'.state := by
  cases offer <;> exact ⟨rfl, rfl⟩

/-! ## Visits -/

/-- The outcomes of a visit, each with the pool after it. -/
inductive Visits (D : Driver δ) (now : Time.Instant) (a : Attempt) (p : Pool δ) :
    Outcome → Pool δ → Prop
  | refused (closed : p.state.closed = true) : Visits D now a p (.failed .shutDown) p
  | waits (closed : p.state.closed = false) {p' : Pool δ}
      (offer : Offers D now a.credentials p .none p') :
      Visits D now a p (wait a p').1 (wait a p').2
  | unreachable (closed : p.state.closed = false) {reason : String} {p' : Pool δ}
      (offer : Offers D now a.credentials p (.unreachable reason) p') :
      Visits D now a p (.failed (.connect reason)) p'
  | rejected (closed : p.state.closed = false) {d : Detached} {p' : Pool δ} {line : Line δ}
      (offer : Offers D now a.credentials p (.ready d) p')
      (bad : validate D p'.state.settings now d p'.line = (false, line)) :
      Visits D now a p (reject D a d { p' with line }).1 (reject D a d { p' with line }).2
  | granted (closed : p.state.closed = false) {d : Detached} {p' : Pool δ} {line : Line δ}
      (offer : Offers D now a.credentials p (.ready d) p')
      (good : validate D p'.state.settings now d p'.line = (true, line)) :
      Visits D now a p (.granted (accept D now a d { p' with line }).1)
        (accept D now a d { p' with line }).2

theorem examine_visits (D : Driver δ) (now : Time.Instant) (a : Attempt) (p : Pool δ) :
    Visits D now a p (examine D now a p).1 (examine D now a p).2 := by
  have offer := candidate_offers D now a.credentials p
  unfold examine
  split
  · rename_i hclosed
    exact .refused hclosed
  · rename_i hclosed
    have hclosed : p.state.closed = false := by simpa using hclosed
    split <;> rename_i hcandidate <;> rw [hcandidate] at offer
    · exact .waits hclosed offer
    · exact .unreachable hclosed offer
    · split <;> rename_i hvalidate
      · exact .rejected hclosed offer hvalidate
      · exact .granted hclosed offer hvalidate

/-- After a bad candidate a caller goes on or has failed. -/
theorem reject_fst (D : Driver δ) (a : Attempt) (d : Detached) (p : Pool δ) :
    (reject D a d p).1 = .retries { a with rejected := a.rejected + 1 } ∨
      (reject D a d p).1 = .failed (.badConnections (a.rejected + 1)) := by
  unfold reject
  dsimp only
  split
  · exact .inr rfl
  · exact .inl rfl

theorem Visits.of_granted {a : Attempt} {c : Checkout} (visit : Visits D now a p (.granted c) p') :
    ∃ (d : Detached) (p₁ : Pool δ) (line : Line δ), Offers D now a.credentials p (.ready d) p₁ ∧
      validate D p₁.state.settings now d p₁.line = (true, line) ∧
      c = (accept D now a d { p₁ with line }).1 ∧ p' = (accept D now a d { p₁ with line }).2 := by
  generalize ho : Outcome.granted c = o at visit
  cases visit with
  | refused | unreachable | waits => cases ho
  | @rejected closed d p₁ line offer bad =>
    rcases reject_fst D a d { p₁ with line } with h | h <;> rw [h] at ho <;> cases ho
  | @granted closed d p₁ line offer good =>
    cases ho
    exact ⟨d, p₁, line, offer, good, rfl, rfl⟩

theorem Visits.of_waits {a a' : Attempt} (visit : Visits D now a p (.waits a') p') :
    ∃ p₁ : Pool δ, Offers D now a.credentials p .none p₁ ∧
      a' = { a with hasWaited := true } ∧ p' = (wait a p₁).2 := by
  generalize ho : Outcome.waits a' = o at visit
  cases visit with
  | refused | unreachable | granted => cases ho
  | @rejected closed d p₁ line offer bad =>
    rcases reject_fst D a d { p₁ with line } with h | h <;> rw [h] at ho <;> cases ho
  | @waits closed p₁ offer =>
    cases ho
    exact ⟨p₁, offer, rfl, rfl⟩

theorem Visits.of_retries {a a' : Attempt} (visit : Visits D now a p (.retries a') p') :
    a' = { a with rejected := a.rejected + 1 } := by
  generalize ho : Outcome.retries a' = o at visit
  cases visit with
  | refused | unreachable | granted | waits => cases ho
  | @rejected closed d p₁ line offer bad =>
    rcases reject_fst D a d { p₁ with line } with h | h <;> rw [h] at ho <;> cases ho
    rfl

/-- Whoever has to wait changes nothing but the counters. -/
theorem wait_eq (a : Attempt) (p : Pool δ) :
    ∃ f, (wait a p).2 = { p with state := p.state.count f } := by
  unfold wait
  split
  · exact ⟨id, rfl⟩
  · exact ⟨_, rfl⟩

theorem Visits.sameTerms {a : Attempt} {o : Outcome} (visit : Visits D now a p o p') :
    p.state.SameTerms p'.state := by
  cases visit with
  | refused closed => exact ⟨rfl, rfl⟩
  | @waits closed p₁ offer =>
    obtain ⟨f, hf⟩ := wait_eq a p₁
    rw [hf]
    exact ⟨offer.sameTerms.settings, offer.sameTerms.closed⟩
  | unreachable closed offer | rejected closed offer | granted closed offer =>
    exact ⟨offer.sameTerms.settings, offer.sameTerms.closed⟩

/-! ## Returns -/

namespace State

/-- The books once a checkout has left the active ones. -/
def checkIn (c : Checkout) (s : State) : State := (s.removeActive c).invalidate c

/-- The time of a checkout that its holder ended is counted. -/
def countReturn (now : Time.Instant) (c : Checkout) : State → State :=
  count fun k => { k with checkoutTime := ⟨k.checkoutTime.nanoseconds + (c.age now).nanoseconds⟩ }

/-- No checkout of the list is valid any longer. -/
theorem foldl_invalidate (cs : List Checkout) (s : State) :
    cs.foldl (fun s c => s.invalidate c) s =
      { s with valid := s.valid.filter fun t => t ∉ cs.map (·.ticket) } := by
  induction cs generalizing s with
  | nil =>
    have all : (s.valid.filter fun t => t ∉ ([] : List Checkout).map (·.ticket)) = s.valid :=
      List.filter_eq_self.mpr (by simp)
    rw [List.foldl_nil, all]
  | cons c cs ih =>
    rw [List.foldl_cons, ih]
    simp only [invalidate, List.filter_filter, List.map_cons, List.mem_cons, not_or,
      Bool.decide_and, Bool.and_comm]

end State

/-- What becomes of a connection that is given back, and of the pool. -/
inductive Returns (D : Driver δ) (now : Time.Instant) (c : Checkout) (p : Pool δ) : Pool δ → Prop
  | stale (invalid : p.state.isValid c = false) :
      Returns D now c p { p with state := (p.state.checkIn c).countBad }
  | bad (valid : p.state.isValid c = true) {line : Line δ}
      (bad : validate D p.state.settings now c.detach p.line = (false, line)) :
      Returns D now c p { line, state := (p.state.checkIn c).countBad }
  | kept (valid : p.state.isValid c = true) {line : Line δ}
      (good : validate D p.state.settings now c.detach p.line = (true, line))
      (keep : p.state.canKeep c = true) :
      Returns D now c p
        { line := (line.rollbackIfNeeded D c.connection).2
          state := { p.state.checkIn c with
            idle := p.state.idle ++ [c.detach] }.countReturn now c }
  | closed (valid : p.state.isValid c = true) {line : Line δ}
      (good : validate D p.state.settings now c.detach p.line = (true, line))
      (keep : p.state.canKeep c = false) :
      Returns D now c p
        { line := line.retire D c.connection, state := (p.state.checkIn c).countReturn now c }

theorem release_returns (D : Driver δ) (now : Time.Instant) (c : Checkout) (p : Pool δ) :
    Returns D now c p (release D now c p) := by
  have hvalid : (p.state.removeActive c).isValid c = p.state.isValid c := rfl
  have hsettings : (p.state.removeActive c).settings = p.state.settings := rfl
  have hkeep : (p.state.removeActive c).canKeep c = p.state.canKeep c := rfl
  cases valid : p.state.isValid c with
  | false =>
    simp only [release, hvalid, valid, Bool.false_eq_true, if_false]
    exact .stale valid
  | true =>
    simp only [release, hvalid, valid, if_true, hsettings]
    cases check : validate D p.state.settings now c.detach p.line with
    | mk good line =>
      cases good with
      | false =>
        simp only [Bool.false_eq_true, if_false]
        exact .bad valid check
      | true =>
        simp only [if_true, settleReturn, hkeep]
        cases keep : p.state.canKeep c with
        | false =>
          rw [if_neg Bool.false_ne_true]
          exact .closed valid check keep
        | true =>
          rw [if_pos rfl]
          exact .kept valid check keep

theorem Returns.sameTerms {c : Checkout} (back : Returns D now c p p') :
    p.state.SameTerms p'.state := by
  cases back <;> exact ⟨rfl, rfl⟩

end DataTier.Pool
