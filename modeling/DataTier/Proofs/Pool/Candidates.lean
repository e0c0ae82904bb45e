import DataTier.Proofs.Pool.Bounds
import DataTier.Proofs.Pool.Origin

/-! The candidates of one caller, one after another, while nobody else uses the pool. The
connections at hand come first in their order (`State.atHand`), then fresh ones. Those that were
tried have left the books (`Examined`); those that were bad are closed and counted (`Discarded`). -/

namespace DataTier.Pool

variable {δ : Type} {D : Driver δ} {now now' : Time.Instant} {d : Detached} {p p' p₁ : Pool δ}
  {source : Source.DataSource} {credentials : Source.Credentials} {ds : List Detached}

/-! ## The line -/

namespace Line

variable {P : Call → Prop} {c n : ConnectionId} {m k : Nat} {l l' l'' : Line δ} {reason : String}

/-- Why a connection could not be brought about. -/
def setback? : Call × Answer → Option String
  | (.open _ _, .error reason) => some reason
  | (.on _ (.setAutoCommit _), .error reason) => some reason
  | _ => none

/-- The latest first. -/
def setbacks (l : Line δ) : List String := l.log.filterMap setback?

/-- From `l` to `l'` somebody has asked for the connection to be closed. -/
def ClosedSince (c : ConnectionId) (l l' : Line δ) : Prop :=
  ∃ calls, l'.log = calls ++ l.log ∧ Call.on c .close ∈ calls.map Prod.fst

theorem closedSince_close (D : Driver δ) (c : ConnectionId) (l : Line δ) :
    ClosedSince c l (l.close D c) := ⟨[_], rfl, List.mem_singleton_self _⟩

theorem ClosedSince.earlier (h : ClosedSince c l' l'') (hl : l.log <:+ l'.log) :
    ClosedSince c l l'' := by
  obtain ⟨calls, log, close⟩ := h
  obtain ⟨before, log'⟩ := hl
  refine ⟨calls ++ before, by rw [log, ← log', List.append_assoc], ?_⟩
  rw [List.map_append]
  exact List.mem_append_left _ close

theorem ClosedSince.later (h : ClosedSince c l l') (hl : l'.log <:+ l''.log) :
    ClosedSince c l l'' := by
  obtain ⟨calls, log, close⟩ := h
  obtain ⟨after, log'⟩ := hl
  refine ⟨after ++ calls, by rw [← log', log, List.append_assoc], ?_⟩
  rw [List.map_append]
  exact List.mem_append_right _ close

/-- From `l` to `l'` so many connections were brought about, and none in vain. -/
structure Supplied (source : Source.DataSource) (credentials : Source.Credentials) (m : Nat)
    (l l' : Line δ) : Prop where
  opened : l'.opened = l.opened + m
  openings : l'.openings = l.openings ++ List.replicate m (source, credentials)
  setbacks : l'.setbacks = l.setbacks
  suffix : l.log <:+ l'.log

theorem Supplied.refl (source : Source.DataSource) (credentials : Source.Credentials)
    (l : Line δ) : Supplied source credentials 0 l l :=
  ⟨rfl, (List.append_nil _).symm, rfl, List.suffix_rfl⟩

theorem Supplied.trans (h : Supplied source credentials m l l')
    (h' : Supplied source credentials k l' l'') : Supplied source credentials (m + k) l l'' := by
  refine ⟨?_, ?_, h'.setbacks.trans h.setbacks, h.suffix.trans h'.suffix⟩
  · rw [h'.opened, h.opened, Nat.add_assoc]
  · rw [h'.openings, h.openings, List.append_assoc, List.replicate_append_replicate]

theorem setback?_of_not_opens {call : Call} (h : ¬Opens call) (a : Answer) :
    setback? (call, a) = none := by
  cases call with
  | «open» source credentials => exact absurd (.open source credentials) h
  | on n op =>
    cases op with
    | setAutoCommit enabled => exact absurd (.mode n enabled) h
    | _ => rfl

theorem Asks.setbacks_eq (h : Asks D P l l') (hp : ∀ call, P call → ¬Opens call) :
    l'.setbacks = l.setbacks := by
  induction h with
  | refl => rfl
  | ask before hc ih =>
    rw [setbacks, ask_log, List.filterMap_cons_none (setback?_of_not_opens (hp _ hc) _)]
    exact ih

theorem Ends.not_opens {call : Call} (h : Ends c call) : ¬Opens call := by
  rintro (_ | _) <;> cases h

/-- Work on connections that are there brings none about. -/
theorem Asks.supplied {S : ConnectionId → Prop} (h : Asks D P l l')
    (hp : ∀ call, P call → ¬Opens call) (served : Served S l l')
    (source : Source.DataSource) (credentials : Source.Credentials) :
    Supplied source credentials 0 l l' :=
  ⟨served.opened, by rw [served.openings_eq, List.replicate_zero, List.append_nil],
    h.setbacks_eq hp, served.suffix⟩

theorem Asks.supplied_of_ends (h : Asks D (Ends c) l l') (source : Source.DataSource)
    (credentials : Source.Credentials) : Supplied source credentials 0 l l' :=
  h.supplied (fun _ => Ends.not_opens) h.served_of_ends source credentials

theorem connect_supplied (h : l.connect D source credentials = (.ok n, l')) :
    Supplied source credentials 1 l l' := by
  obtain ⟨-, new⟩ := connect_ok h
  refine ⟨new.opened, new.openings, ?_, new.suffix⟩
  have asked := ask_log D (.open source credentials) l
  unfold connect at h
  split at h
  · cases h
  · rename_i a line hopen
    rw [hopen] at asked
    have opened : line.setbacks = l.setbacks := by
      rw [setbacks, asked]
      rfl
    split at h
    · obtain ⟨-, rfl⟩ := Prod.mk.inj h
      exact opened
    · rename_i enabled hmode
      have set := ask_log D (.on line.opened (.setAutoCommit enabled)) line
      dsimp only at h
      generalize line.ask D (.on line.opened (.setAutoCommit enabled)) = r at h set
      obtain ⟨_ | b, line'⟩ := r
      · cases h
      · cases h
        rw [← opened, setbacks, set]
        rfl

/-- A setback is the last call there is. A connection may have been opened before it. -/
theorem connect_setback (h : l.connect D source credentials = (.error reason, l')) :
    l'.setbacks = reason :: l.setbacks ∧ l.log <:+ l'.log ∧
      ∃ m ≤ 1, l'.openings = l.openings ++ List.replicate m (source, credentials) := by
  have asked := ask_log D (.open source credentials) l
  unfold connect at h
  split at h
  · rename_i hopen
    cases h
    rw [hopen] at asked
    dsimp only at asked
    refine ⟨?_, asked ▸ List.suffix_cons _ _, 0, Nat.zero_le _, ?_⟩
    · rw [setbacks, asked]
      rfl
    · simp [openings, asked, opening?]
  · rename_i a line hopen
    obtain ⟨-, openings, suffix⟩ := ask_open_ok hopen
    rw [hopen] at asked
    split at h
    · cases h
    · rename_i enabled hmode
      have served := ask_served D line.opened (.setAutoCommit enabled) line
      have set := ask_log D (.on line.opened (.setAutoCommit enabled)) line
      dsimp only at h
      generalize line.ask D (.on line.opened (.setAutoCommit enabled)) = r at h served set
      obtain ⟨_ | b, line'⟩ := r
      · cases h
        refine ⟨?_, suffix.trans served.suffix, 1, Nat.le_refl _, ?_⟩
        · rw [setbacks, set, asked]
          rfl
        · exact served.openings_eq.trans openings
      · cases h

end Line

theorem Checks.not_opens {query : String} {n : ConnectionId} {call : Call}
    (h : Checks query n call) : ¬Line.Opens call := by
  rintro (_ | _)
  · cases h with
    | ends h => exact h.not_opens (.open _ _)
  · cases h with
    | ends h => exact h.not_opens (.mode _ _)

theorem validate_supplied {settings : Settings} {l l' : Line δ} {good : Bool}
    (h : validate D settings now d l = (good, l')) (source : Source.DataSource)
    (credentials : Source.Credentials) : Line.Supplied source credentials 0 l l' := by
  have asks := validate_asks D settings now d l
  rw [h] at asks
  exact asks.supplied (fun _ => Checks.not_opens) (validate_served h) source credentials

/-! ## Connections at hand -/

namespace State

instance (now : Time.Instant) (s : State) (c : Checkout) : Decidable (s.isOverdue now c) :=
  inferInstanceAs (Decidable (_ ≤ _))

/-- The checkout that a caller may take from its holder: if nothing is idle and there is no
room, the oldest one once it is overdue. -/
def claimable (now : Time.Instant) (s : State) : List Checkout :=
  if s.idle = [] ∧ s.hasRoom = false then
    s.active.head?.toList.filter fun c => s.isOverdue now c
  else []

/-- The connections that a caller tries before it asks for a fresh one. -/
def atHand (now : Time.Instant) (s : State) : List Detached :=
  s.idle ++ (s.claimable now).map (·.detach)

theorem length_claimable_le (now : Time.Instant) (s : State) : (s.claimable now).length ≤ 1 := by
  unfold claimable
  split
  · exact Nat.le_trans (List.length_filter_le _ _) Option.length_toList_le
  · exact Nat.zero_le _

theorem claimable_of_idle {s : State} (h : s.idle ≠ []) : s.claimable now = [] :=
  if_neg fun none => h none.1

theorem claimable_of_room {s : State} (h : s.active.length < s.settings.maxActive) :
    s.claimable now = [] :=
  if_neg fun full => absurd (full.2.symm.trans (decide_eq_true h)) (by decide)

theorem claimable_of_due {s : State} {oldest : Checkout} {rest : List Checkout} (idle : s.idle = [])
    (full : s.settings.maxActive ≤ s.active.length) (active : s.active = oldest :: rest)
    (due : s.isOverdue now oldest) : s.claimable now = [oldest] := by
  have noRoom : s.hasRoom = false := by simpa [hasRoom] using full
  simp [claimable, idle, noRoom, active, due]

end State

/-! ## Candidates one after another -/

/-- The pool `p'` is `p` after the candidates `ds`, of which the first was tried at `now`; they
were at hand, or they are fresh, and are all in nobody's hands. -/
structure Examined (now : Time.Instant) (credentials : Source.Credentials) (p : Pool δ)
    (ds : List Detached) (p' : Pool δ) : Prop where
  terms : p.state.SameTerms p'.state
  source : p'.state.source = p.state.source
  nextTicket : p'.state.nextTicket = p.state.nextTicket
  custody : Custody p'
  bounded : Bounded p'.state
  room : ds ≠ [] → p'.state.active.length < p'.state.settings.maxActive
  order : ∃ fresh, ds = (p.state.atHand now).take ds.length ++ fresh ∧
    fresh.map (·.connection) =
      List.range' (p.line.opened + 1) (ds.length - (p.state.atHand now).length)
  idle : p'.state.idle = p.state.idle.drop ds.length
  active : p'.state.active = p.state.active.drop (min ds.length (p.state.claimable now).length)
  apart : ∀ d ∈ ds, d.connection ∉ p'.state.connections ∧ d.connection ≤ p'.line.opened
  line : p.line.Supplied p.state.source credentials (ds.length - (p.state.atHand now).length) p'.line

namespace Examined

theorem start (now : Time.Instant) (credentials : Source.Credentials) (custody : Custody p)
    (bounded : Bounded p.state) : Examined now credentials p [] p where
  terms := ⟨rfl, rfl⟩
  source := rfl
  nextTicket := rfl
  custody := custody
  bounded := bounded
  room h := absurd rfl h
  order := ⟨[], by simp⟩
  idle := rfl
  active := by rw [List.length_nil, Nat.zero_min, List.drop_zero]
  apart d hd := by cases hd
  line := by
    rw [List.length_nil, Nat.zero_sub]
    exact .refl _ _ _

/-- Work on the line leaves the books as they are. -/
theorem served {S : ConnectionId → Prop} {line : Line δ} (h : Examined now credentials p ds p')
    (hl : ∀ source, Line.Supplied source credentials 0 p'.line line)
    (hs : Line.Served S p'.line line) : Examined now credentials p ds { p' with line } :=
  { h with
    custody := h.custody.onLine (Nat.le_of_eq hs.opened.symm)
    apart := fun d hd =>
      ⟨(h.apart d hd).1, Nat.le_trans (h.apart d hd).2 (Nat.le_of_eq hs.opened.symm)⟩
    line := h.line.trans (hl _) }

theorem recount (h : Examined now credentials p ds p') (f : Counters → Counters) :
    Examined now credentials p ds { p' with state := p'.state.count f } :=
  { h with
    terms := ⟨h.terms.settings, h.terms.closed⟩
    custody := h.custody.recount f
    bounded := ⟨h.bounded.idle, h.bounded.total⟩ }

/-- Where the next candidate comes from: it is the next one at hand, or fresh. -/
inductive Next (now : Time.Instant) (credentials : Source.Credentials) (p : Pool δ)
    (n : Nat) (d : Detached) (l l' : Line δ) : Prop
  | atHand (here : (p.state.atHand now)[n]? = some d)
      (line : l.Supplied p.state.source credentials 0 l')
  | fresh (gone : (p.state.atHand now).length ≤ n) (new : d.connection = l.opened + 1)
      (line : l.Supplied p.state.source credentials 1 l')

/-- Once there is a place for a fresh connection nothing is at hand any longer. -/
theorem out (h : Examined now credentials p ds p') (none : p'.state.idle = [])
    (room : p'.state.active.length < p'.state.settings.maxActive) :
    p.state.idle.length + (p.state.claimable now).length ≤ ds.length := by
  by_cases there : p.state.idle = []
  · rw [there, List.length_nil, Nat.zero_add]
    by_cases tried : ds = []
    · have active := h.active
      rw [tried, List.length_nil, Nat.zero_min, List.drop_zero] at active
      rw [active, h.terms.settings] at room
      rw [State.claimable_of_room room]
      exact Nat.zero_le _
    · exact Nat.le_trans (State.length_claimable_le now p.state) (List.length_pos_iff.mpr tried)
  · rw [State.claimable_of_idle there]
    exact List.drop_eq_nil_iff.mp (h.idle.symm.trans none)

theorem next_idle {rest : List Detached} (h : Examined now credentials p ds p')
    (front : p'.state.idle = d :: rest) :
    (p.state.atHand now)[ds.length]? = some d ∧ rest = p.state.idle.drop (ds.length + 1) ∧
      p'.state.active =
        p.state.active.drop (min (ds.length + 1) (p.state.claimable now).length) := by
  have idle := front.symm.trans h.idle
  have active := h.active
  have there : p.state.idle ≠ [] := by
    intro none
    rw [none, List.drop_nil] at idle
    cases idle
  rw [State.claimable_of_idle there, List.length_nil, Nat.min_zero] at active ⊢
  refine ⟨?_, ?_, active⟩
  · have head : p.state.idle[ds.length]? = some d := by
      rw [← List.head?_drop, ← idle, List.head?_cons]
    have lt := (List.getElem?_eq_some_iff.mp head).1
    rw [State.atHand, List.getElem?_append_left lt, head]
  · rw [← List.tail_drop, ← idle, List.tail_cons]

theorem next_fresh (h : Examined now credentials p ds p') (none : p'.state.idle = [])
    (room : p'.state.active.length < p'.state.settings.maxActive) :
    (p.state.atHand now).length ≤ ds.length ∧ p.state.idle.drop (ds.length + 1) = [] ∧
      p'.state.active =
        p.state.active.drop (min (ds.length + 1) (p.state.claimable now).length) := by
  have gone := h.out none room
  refine ⟨?_, List.drop_eq_nil_iff.mpr (by omega), ?_⟩
  · rw [State.atHand, List.length_append, List.length_map]
    exact gone
  · rw [show min (ds.length + 1) (p.state.claimable now).length =
      min ds.length (p.state.claimable now).length by omega]
    exact h.active

/-- Only the first candidate may be taken over: after it there is room. -/
theorem next_overdue {oldest : Checkout} {rest : List Checkout}
    (h : Examined now credentials p ds p') (first : ds = [] → now' = now)
    (none : p'.state.idle = []) (full : p'.state.settings.maxActive ≤ p'.state.active.length)
    (held : p'.state.active = oldest :: rest) (due : p'.state.isOverdue now' oldest) :
    (p.state.atHand now)[ds.length]? = some oldest.detach ∧
      p.state.idle.drop (ds.length + 1) = [] ∧
      rest = p.state.active.drop (min (ds.length + 1) (p.state.claimable now).length) := by
  have start : ds = [] := by
    by_contra tried
    exact absurd (h.room tried) (Nat.not_lt.mpr full)
  subst start
  obtain rfl := first rfl
  have idle : p.state.idle = [] := h.idle.symm.trans none
  have active : p.state.active = oldest :: rest := by
    have before := h.active
    rw [List.length_nil, Nat.zero_min, List.drop_zero] at before
    exact before.symm.trans held
  rw [held, h.terms.settings, ← active] at full
  rw [State.isOverdue, h.terms.settings] at due
  have one : p.state.claimable now' = [oldest] := State.claimable_of_due idle full active due
  rw [State.atHand, idle, one, active]
  exact ⟨rfl, rfl, rfl⟩

theorem next (h : Examined now credentials p ds p') (first : ds = [] → now' = now)
    (offer : Offers D now' credentials p' (.ready d) p₁) :
    Next now credentials p ds.length d p'.line p₁.line ∧
      p₁.state.idle = p.state.idle.drop (ds.length + 1) ∧
      p₁.state.active =
        p.state.active.drop (min (ds.length + 1) (p.state.claimable now).length) := by
  generalize hp₁ : p₁ = q at offer
  cases offer with
  | idle front =>
    subst hp₁
    obtain ⟨here, idle, active⟩ := h.next_idle front
    exact ⟨.atHand here (.refl _ _ _), idle, active⟩
  | fresh none room connect =>
    subst hp₁
    obtain ⟨gone, idle, active⟩ := h.next_fresh none room
    refine ⟨.fresh gone (Line.connect_ok connect).1 ?_, none.trans idle.symm, active⟩
    exact h.source ▸ Line.connect_supplied connect
  | overdue none full held due =>
    subst hp₁
    obtain ⟨here, idle, active⟩ := h.next_overdue first none full held due
    refine ⟨.atHand here ?_, none.trans idle.symm, active⟩
    exact (Line.rollbackIfNeeded_asks D _ _).supplied_of_ends _ _

/-- The next candidate comes after those before it. -/
theorem Next.placed {l l' : Line δ} (next : Next now credentials p ds.length d l l')
    (order : ∃ fresh, ds = (p.state.atHand now).take ds.length ++ fresh ∧
      fresh.map (·.connection) =
        List.range' (p.line.opened + 1) (ds.length - (p.state.atHand now).length))
    (line : p.line.Supplied p.state.source credentials
      (ds.length - (p.state.atHand now).length) l) :
    (∃ fresh, ds ++ [d] = (p.state.atHand now).take (ds.length + 1) ++ fresh ∧
      fresh.map (·.connection) =
        List.range' (p.line.opened + 1) (ds.length + 1 - (p.state.atHand now).length)) ∧
      p.line.Supplied p.state.source credentials
        (ds.length + 1 - (p.state.atHand now).length) l' := by
  obtain ⟨fresh, order, numbers⟩ := order
  cases next with
  | atHand here last =>
    have lt := (List.getElem?_eq_some_iff.mp here).1
    have none : ds.length - (p.state.atHand now).length = 0 := by omega
    have still : ds.length + 1 - (p.state.atHand now).length = 0 := by omega
    have supplied := line.trans last
    rw [none] at numbers supplied
    obtain rfl : fresh = [] := List.map_eq_nil_iff.mp numbers
    rw [still]
    refine ⟨⟨[], ?_, rfl⟩, supplied⟩
    rw [List.append_nil] at order ⊢
    rw [List.take_add_one, here, ← order]
    rfl
  | fresh gone new last =>
    have one : ds.length + 1 - (p.state.atHand now).length =
      ds.length - (p.state.atHand now).length + 1 := by omega
    rw [one]
    refine ⟨⟨fresh ++ [d], ?_, ?_⟩, line.trans last⟩
    · rw [List.take_of_length_le gone] at order
      rw [List.take_of_length_le (Nat.le_succ_of_le gone), ← List.append_assoc, ← order]
    · rw [List.map_append, List.map_singleton, numbers, List.range'_concat, new, line.opened,
        Nat.one_mul, Nat.add_right_comm]

theorem offer (h : Examined now credentials p ds p') (first : ds = [] → now' = now)
    (offer : Offers D now' credentials p' (.ready d) p₁) :
    Examined now credentials p (ds ++ [d]) p₁ := by
  obtain ⟨next, idle, active⟩ := h.next first offer
  have spare := offer.spare h.custody
  have more : (ds ++ [d]).length = ds.length + 1 := by simp
  have grows : p'.line.opened ≤ p₁.line.opened := offer.grows.opened
  have fewer : ∀ n ∈ p₁.state.connections, n ∈ p'.state.connections := by
    rcases offer.connections with ⟨same, -⟩ | ⟨same, -⟩ <;> rw [same]
    · exact fun n hn => List.mem_cons_of_mem _ hn
    · exact fun n hn => hn
  have apart : ∀ e ∈ ds ++ [d], e.connection ∉ p₁.state.connections ∧
      e.connection ≤ p₁.line.opened := by
    intro e he
    rcases List.mem_append.mp he with he | he
    · exact ⟨fun back => (h.apart e he).1 (fewer _ back), Nat.le_trans (h.apart e he).2 grows⟩
    · rw [List.mem_singleton.mp he]
      exact ⟨spare.apart, spare.opened.2⟩
  exact {
    terms := ⟨offer.sameTerms.settings.trans h.terms.settings,
      offer.sameTerms.closed.trans h.terms.closed⟩
    source := offer.source_eq.1.trans h.source
    nextTicket := offer.nextTicket_eq.trans h.nextTicket
    custody := offer.custody h.custody
    bounded := offer.bounded h.bounded
    room := fun _ => Nat.lt_of_le_of_lt (Nat.le_add_left _ _) (offer.room h.bounded)
    order := more ▸ (next.placed h.order h.line).1
    idle := more ▸ idle
    active := more ▸ active
    apart := apart
    line := more ▸ (next.placed h.order h.line).2 }

/-- No connection is offered again. -/
theorem ne_offered {other : Source.Credentials} (h : Examined now credentials p ds p')
    (offer : Offers D now' other p' (.ready d) p₁) {e : Detached} (he : e ∈ ds) :
    e.connection ≠ d.connection := by
  obtain ⟨apart, old⟩ := h.apart e he
  intro same
  rcases offer.connections with ⟨front, -⟩ | ⟨-, new, -⟩
  · rw [front, same] at apart
    exact apart List.mem_cons_self
  · rw [same, new] at old
    exact Nat.not_succ_le_self _ old

end Examined

theorem accept_connections (D : Driver δ) (now : Time.Instant) (a : Attempt) (d : Detached)
    (p : Pool δ) : (accept D now a d p).2.state.connections =
      p.state.connections ++ [d.connection] := by
  simp [accept, State.connections, State.count, Checkout.of]

/-- The candidates were bad: each was closed, and each was counted. -/
structure Discarded (now : Time.Instant) (credentials : Source.Credentials) (p : Pool δ)
    (ds : List Detached) (p' : Pool δ) : Prop extends Examined now credentials p ds p' where
  counted : p'.state.counters.badConnections = p.state.counters.badConnections + ds.length
  closed : ∀ d ∈ ds, Line.ClosedSince d.connection p.line p'.line

theorem Offers.candidate_eq {o : Candidate} (offer : Offers D now credentials p o p') :
    candidate D now credentials p = (o, p') := by
  cases offer with
  | idle idle => simp only [candidate, idle]
  | fresh idle room connect | unreachable idle room connect =>
    have room : p.state.hasRoom = true := decide_eq_true room
    simp only [candidate, idle, room, if_true, openConnection, connect]
  | overdue idle full active due =>
    have noRoom : p.state.hasRoom = false := decide_eq_false (Nat.not_lt.mpr full)
    simp only [candidate, idle, noRoom, Bool.false_eq_true, if_false, claimOverdue, active,
      if_neg (Nat.not_lt.mpr due), State.takeOver]
  | none idle full due =>
    have noRoom : p.state.hasRoom = false := decide_eq_false (Nat.not_lt.mpr full)
    simp only [candidate, idle, noRoom, Bool.false_eq_true, if_false, claimOverdue]
    split
    · rfl
    · rename_i oldest rest active
      have young := Nat.not_le.mp (due oldest (by simp [active]))
      simp only [if_pos young]

theorem Offers.badConnections_eq {o : Candidate} (offer : Offers D now credentials p o p') :
    p'.state.counters.badConnections = p.state.counters.badConnections := by
  cases offer <;> rfl

theorem Discarded.reject {a : Attempt} {line : Line δ} (h : Discarded now credentials p ds p')
    (first : ds = [] → now' = now) (offer : Offers D now' credentials p' (.ready d) p₁)
    (bad : validate D p₁.state.settings now' d p₁.line = (false, line)) :
    Discarded now credentials p (ds ++ [d]) (reject D a d { p₁ with line }).2 where
  toExamined := by
    have checked := (h.offer first offer).served (validate_supplied bad · credentials)
      (validate_served bad)
    have closed := checked.served (fun source => (Line.close_asks D d.connection line).supplied_of_ends
      source credentials) (Line.close_served D d.connection line)
    exact closed.recount _
  counted := by
    have before : p₁.state.counters.badConnections + 1 =
        p.state.counters.badConnections + (ds ++ [d]).length := by
      rw [offer.badConnections_eq, h.counted, List.length_append, List.length_singleton,
        Nat.add_assoc]
    exact before
  closed e he := by
    have checked := (validate_served bad).suffix
    have closing := (Line.close_served D d.connection line).suffix
    have earlier := offer.grows.suffix.trans checked
    rcases List.mem_append.mp he with he | he
    · exact (h.closed e he).later (earlier.trans closing)
    · rw [List.mem_singleton.mp he]
      exact (Line.closedSince_close D d.connection line).earlier (h.line.suffix.trans earlier)

end DataTier.Pool
