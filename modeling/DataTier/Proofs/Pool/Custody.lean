import DataTier.Proofs.Pool.Visit
import Mathlib.Data.List.Nodup

/-! Who has a connection. A pool is in order (`Custody`) if each of its connections occurs
once and each valid ticket is that of one active checkout; every operation keeps it so. A
checkout that was handed out is `Known`: whatever has its ticket among the active ones is the
checkout itself, so it is valid exactly as long as it is active. -/

namespace DataTier.Pool

variable {δ : Type} {D : Driver δ} {now : Time.Instant} {c d : Checkout} {p p' p'' : Pool δ}

structure Custody (p : Pool δ) : Prop where
  distinct : p.state.connections.Nodup
  opened : ∀ n ∈ p.state.connections, 0 < n ∧ n ≤ p.line.opened
  tickets : (p.state.active.map (·.ticket)).Nodup
  issued : ∀ c ∈ p.state.active, c.ticket < p.state.nextTicket
  valid : ∀ t, t ∈ p.state.valid ↔ t ∈ p.state.active.map (·.ticket)

/-- A checkout that the pool has handed out at some time. -/
structure Known (p : Pool δ) (c : Checkout) : Prop where
  issued : c.ticket < p.state.nextTicket
  sole : ∀ d ∈ p.state.active, d.ticket = c.ticket → d = c

/-- A connection in nobody's hands and out of the books. -/
structure Spare (p : Pool δ) (d : Detached) : Prop where
  custody : Custody p
  apart : d.connection ∉ p.state.connections
  opened : 0 < d.connection ∧ d.connection ≤ p.line.opened

/-- Tickets are handed out once: an active checkout of `p'` was active in `p` or is younger. -/
structure Later (p p' : Pool δ) : Prop where
  next : p.state.nextTicket ≤ p'.state.nextTicket
  active : ∀ d ∈ p'.state.active, d ∈ p.state.active ∨ p.state.nextTicket ≤ d.ticket

theorem Later.of_subset (hn : p'.state.nextTicket = p.state.nextTicket)
    (ha : ∀ d ∈ p'.state.active, d ∈ p.state.active) : Later p p' :=
  ⟨Nat.le_of_eq hn.symm, fun d hd => .inl (ha d hd)⟩

theorem Later.refl (p : Pool δ) : Later p p := .of_subset rfl fun _ hd => hd

theorem Later.trans (h : Later p p') (h' : Later p' p'') : Later p p'' := by
  refine ⟨Nat.le_trans h.next h'.next, fun d hd => ?_⟩
  rcases h'.active d hd with hd | hd
  · exact h.active d hd
  · exact .inr (Nat.le_trans h.next hd)

theorem Known.later (h : Known p c) (hl : Later p p') : Known p' c := by
  refine ⟨Nat.lt_of_lt_of_le h.issued hl.next, fun d hd ht => ?_⟩
  rcases hl.active d hd with hd | hd
  · exact h.sole d hd ht
  · have := h.issued
    omega

theorem Custody.known (h : Custody p) (hc : c ∈ p.state.active) : Known p c :=
  ⟨h.issued c hc, fun _ hd ht => List.inj_on_of_nodup_map h.tickets hd hc ht⟩

theorem Custody.isValid_iff (h : Custody p) (hk : Known p c) :
    p.state.isValid c = true ↔ c ∈ p.state.active := by
  rw [State.isValid, decide_eq_true_iff, h.valid, List.mem_map]
  constructor
  · rintro ⟨d, hd, ht⟩
    exact hk.sole d hd ht ▸ hd
  · intro hc
    exact ⟨c, hc, rfl⟩

/-- A checkout that has ended has ended for good. -/
theorem Known.ended (h : Known p c) (hl : Later p p') (hc : c ∉ p.state.active) :
    c ∉ p'.state.active := by
  intro hc'
  rcases hl.active c hc' with hm | hm
  · exact hc hm
  · have := h.issued
    omega

/-- The books do not depend on what the line has to say. -/
theorem Custody.onLine {line : Line δ} (h : Custody p) (hl : p.line.opened ≤ line.opened) :
    Custody { p with line } :=
  ⟨h.distinct, fun n hn => ⟨(h.opened n hn).1, Nat.le_trans (h.opened n hn).2 hl⟩, h.tickets,
    h.issued, h.valid⟩

theorem Spare.served {S : ConnectionId → Prop} {line : Line δ} {d : Detached} (h : Spare p d)
    (hs : Line.Served S p.line line) : Spare { p with line } d :=
  ⟨h.custody.onLine (Nat.le_of_eq hs.opened.symm), h.apart,
    h.opened.1, Nat.le_trans h.opened.2 (Nat.le_of_eq hs.opened.symm)⟩

theorem Custody.recount (h : Custody p) (f : Counters → Counters) :
    Custody { p with state := p.state.count f } :=
  ⟨h.distinct, h.opened, h.tickets, h.issued, h.valid⟩

/-- What is only taken out of the books leaves them in order. -/
theorem Custody.thin (h : Custody p) (hc : p'.state.connections.Sublist p.state.connections)
    (ho : p.line.opened ≤ p'.line.opened) (ha : p'.state.active.Sublist p.state.active)
    (hn : p.state.nextTicket ≤ p'.state.nextTicket)
    (hv : ∀ t, t ∈ p'.state.valid ↔ t ∈ p'.state.active.map (·.ticket)) : Custody p' where
  distinct := hc.nodup h.distinct
  opened n hn := ⟨(h.opened n (hc.subset hn)).1, Nat.le_trans (h.opened n (hc.subset hn)).2 ho⟩
  tickets := (ha.map _).nodup h.tickets
  issued c hc := Nat.lt_of_lt_of_le (h.issued c (ha.subset hc)) hn
  valid := hv

/-! ## A visit -/

/-- The valid tickets after the oldest checkout has lost its own. -/
theorem Custody.mem_valid_takeOver {oldest : Checkout} {rest : List Checkout} (h : Custody p)
    (active : p.state.active = oldest :: rest) (t : Nat) :
    t ∈ (p.state.takeOver now oldest rest).valid ↔ t ∈ rest.map (·.ticket) := by
  have hn : oldest.ticket ∉ rest.map (·.ticket) := by
    have := h.tickets
    rw [active, List.map_cons] at this
    exact (List.nodup_cons.mp this).1
  have hv := h.valid t
  rw [active, List.map_cons, List.mem_cons] at hv
  simp only [State.takeOver, State.count, State.invalidate, List.mem_filter, hv]
  constructor
  · rintro ⟨rfl | ht, hne⟩
    · simp at hne
    · exact ht
  · intro ht
    refine ⟨.inr ht, ?_⟩
    simpa using fun e : t = oldest.ticket => hn (e ▸ ht)

theorem Offers.later {credentials : Source.Credentials} {o : Candidate}
    (h : Offers D now credentials p o p') : Later p p' := by
  cases h with
  | overdue idle full active due =>
    exact .of_subset rfl fun d hd => active ▸ List.mem_cons_of_mem _ hd
  | idle | fresh | unreachable | none => exact .of_subset rfl fun _ hd => hd

/-- An offered connection has left the books, or has just been opened. -/
theorem Offers.connections {credentials : Source.Credentials} {d : Detached}
    (h : Offers D now credentials p (.ready d) p') :
    p.state.connections = d.connection :: p'.state.connections ∧ p'.line.opened = p.line.opened ∨
      p'.state.connections = p.state.connections ∧ d.connection = p.line.opened + 1 ∧
        p'.line.opened = p.line.opened + 1 := by
  cases h with
  | idle idle => exact .inl ⟨by simp [State.connections, idle], rfl⟩
  | fresh idle room connect =>
    obtain ⟨hc, ho⟩ := Line.connect_ok connect
    exact .inr ⟨rfl, hc, ho.opened⟩
  | overdue idle full active due =>
    refine .inl ⟨?_, (Line.rollbackIfNeeded_served D _ p.line).opened⟩
    simp [State.connections, idle, active, State.takeOver, State.count, State.invalidate,
      Checkout.detach]

theorem Offers.custody {credentials : Source.Credentials} {o : Candidate}
    (offer : Offers D now credentials p o p') (h : Custody p) : Custody p' := by
  cases offer with
  | idle idle =>
    refine h.thin ?_ (Nat.le_refl _) (List.Sublist.refl _) (Nat.le_refl _) h.valid
    rw [State.connections, State.connections, idle]
    exact List.sublist_cons_self _ _
  | fresh idle room connect =>
    refine h.thin (List.Sublist.refl _) ?_ (List.Sublist.refl _) (Nat.le_refl _) h.valid
    exact Nat.le_trans (Nat.le_succ _) (Nat.le_of_eq (Line.connect_ok connect).2.opened.symm)
  | unreachable idle room connect =>
    refine h.onLine ?_
    rcases Line.connect_error connect with ⟨ho, _⟩ | ⟨ho, _⟩
    · exact Nat.le_of_eq ho.symm
    · exact Nat.le_trans (Nat.le_succ _) (Nat.le_of_eq ho.opened.symm)
  | @overdue oldest rest idle full active due =>
    have hrest : rest.Sublist p.state.active := active ▸ List.sublist_cons_self oldest rest
    refine h.thin ?_ (Nat.le_of_eq (Line.rollbackIfNeeded_served D _ p.line).opened.symm) hrest
      (Nat.le_refl _) (h.mem_valid_takeOver active)
    exact (List.Sublist.refl _).append (hrest.map _)
  | none idle full due => exact h

theorem Offers.spare {credentials : Source.Credentials} {d : Detached}
    (offer : Offers D now credentials p (.ready d) p') (h : Custody p) : Spare p' d := by
  have hp := offer.custody h
  rcases offer.connections with ⟨hc, ho⟩ | ⟨hc, hd, ho⟩
  · have hn := h.distinct
    have hd := h.opened d.connection (by rw [hc]; exact List.mem_cons_self)
    rw [hc] at hn
    exact ⟨hp, (List.nodup_cons.mp hn).1, ho ▸ hd⟩
  · refine ⟨hp, fun hm => ?_, hd ▸ ⟨Nat.succ_pos _, Nat.le_of_eq ho.symm⟩⟩
    rw [hc, hd] at hm
    exact Nat.not_succ_le_self _ (h.opened _ hm).2

theorem accept_custody {a : Attempt} {d : Detached} (h : Spare p d) :
    Custody (accept D now a d p).2 := by
  have ho := (Line.rollbackIfNeeded_served D d.connection p.line).opened
  have hc : (accept D now a d p).2.state.connections = p.state.connections ++ [d.connection] := by
    simp [accept, State.connections, State.count, Checkout.of]
  have ht : (accept D now a d p).2.state.active.map (·.ticket) =
      p.state.active.map (·.ticket) ++ [p.state.nextTicket] := by
    simp [accept, State.count, Checkout.of]
  constructor
  · rw [hc]
    exact h.custody.distinct.append (List.nodup_singleton _) (by simpa using h.apart)
  · intro n hn
    rw [hc, List.mem_append, List.mem_singleton] at hn
    rcases hn with hn | rfl
    · exact ho ▸ h.custody.opened n hn
    · exact ho ▸ h.opened
  · rw [ht]
    refine h.custody.tickets.append (List.nodup_singleton _) ?_
    simp only [List.disjoint_singleton, List.mem_map, not_exists, not_and]
    intro c hc e
    exact absurd (h.custody.issued c hc) (by omega)
  · intro c hc
    rcases List.mem_append.mp hc with hc | hc
    · exact Nat.lt_succ_of_lt (h.custody.issued c hc)
    · rw [List.mem_singleton.mp hc]
      exact Nat.lt_succ_self _
  · intro t
    rw [ht, List.mem_append, List.mem_singleton, ← h.custody.valid t, or_comm]
    exact List.mem_cons

theorem accept_later (D : Driver δ) (now : Time.Instant) (a : Attempt) (d : Detached)
    (p : Pool δ) : Later p (accept D now a d p).2 := by
  refine ⟨Nat.le_succ _, fun e he => ?_⟩
  rcases List.mem_append.mp he with he | he
  · exact .inl he
  · rw [List.mem_singleton.mp he]
    exact .inr (Nat.le_refl _)

theorem Visits.custody {a : Attempt} {o : Outcome} (visit : Visits D now a p o p')
    (h : Custody p) : Custody p' := by
  cases visit with
  | refused closed => exact h
  | @waits closed p₁ offer =>
    obtain ⟨f, hf⟩ := wait_eq a p₁
    rw [hf]
    exact (offer.custody h).recount f
  | unreachable closed offer => exact offer.custody h
  | @rejected closed d p₁ line offer bad =>
    have served := validate_served bad
    have spare := ((offer.spare h).served served).served (Line.close_served D d.connection line)
    exact spare.custody.recount _
  | @granted closed d p₁ line offer good =>
    have served := validate_served good
    exact accept_custody ((offer.spare h).served served)

theorem Visits.later {a : Attempt} {o : Outcome} (visit : Visits D now a p o p') : Later p p' := by
  cases visit with
  | refused closed => exact Later.refl p
  | @waits closed p₁ offer =>
    obtain ⟨f, hf⟩ := wait_eq a p₁
    rw [hf]
    exact offer.later.trans (.of_subset rfl fun _ hd => hd)
  | unreachable closed offer => exact offer.later
  | rejected closed offer bad => exact offer.later.trans (.of_subset rfl fun _ hd => hd)
  | @granted closed d p₁ line offer good =>
    have recorded : Later p₁ { p₁ with line } := .of_subset rfl fun _ hd => hd
    exact (offer.later.trans recorded).trans (accept_later D now a d _)

theorem Offers.nextTicket_eq {credentials : Source.Credentials} {o : Candidate}
    (offer : Offers D now credentials p o p') : p'.state.nextTicket = p.state.nextTicket := by
  cases offer <;> rfl

/-- A new checkout is active under a ticket that nobody has had. -/
theorem Visits.fresh {a : Attempt} (visit : Visits D now a p (.granted c) p') :
    c.ticket = p.state.nextTicket ∧ c ∈ p'.state.active := by
  obtain ⟨d, p₁, line, offer, good, rfl, rfl⟩ := visit.of_granted
  exact ⟨offer.nextTicket_eq, List.mem_append_right _ (List.mem_singleton_self _)⟩

/-! ## The end of checkouts -/

/-- Giving back an invalid checkout changes nothing in the books. -/
theorem Custody.checkIn_of_invalid (h : Custody p) (hc : p.state.isValid c = false) :
    p.state.checkIn c = p.state := by
  have hv : c.ticket ∉ p.state.valid := of_decide_eq_false hc
  have ha : c.ticket ∉ p.state.active.map (·.ticket) := fun hm => hv ((h.valid _).mpr hm)
  have active : p.state.active.filter (·.ticket ≠ c.ticket) = p.state.active := by
    refine List.filter_eq_self.mpr fun d hd => ?_
    simpa using fun e : d.ticket = c.ticket => ha (List.mem_map.mpr ⟨d, hd, e⟩)
  have valid : p.state.valid.filter (· ≠ c.ticket) = p.state.valid := by
    refine List.filter_eq_self.mpr fun t ht => ?_
    simpa using fun e : t = c.ticket => hv (e ▸ ht)
  simp only [State.checkIn, State.removeActive, State.invalidate, active, valid]

/-- An active checkout that is given back leaves all others where they are. -/
theorem Custody.active_perm (h : Custody p) (hc : c ∈ p.state.active) :
    p.state.active.Perm (c :: (p.state.checkIn c).active) := by
  have nodup : p.state.active.Nodup := List.Nodup.of_map _ h.tickets
  have rest : (c :: (p.state.checkIn c).active).Nodup := by
    refine List.nodup_cons.mpr ⟨?_, nodup.filter _⟩
    simp [State.checkIn, State.removeActive, State.invalidate]
  refine (List.perm_ext_iff_of_nodup nodup rest).mpr fun d => ?_
  simp only [List.mem_cons, State.checkIn, State.invalidate, State.mem_active_removeActive]
  constructor
  · intro hd
    by_cases ht : d.ticket = c.ticket
    · exact .inl ((h.known hc).sole d hd ht)
    · exact .inr ⟨hd, ht⟩
  · rintro (rfl | ⟨hd, _⟩)
    · exact hc
    · exact hd

theorem Custody.connections_perm (h : Custody p) (hc : c ∈ p.state.active) :
    p.state.connections.Perm (c.connection :: (p.state.checkIn c).connections) :=
  (((h.active_perm hc).map _).append_left _).trans List.perm_middle

theorem Custody.checkIn (h : Custody p) (c : Checkout) :
    Custody { p with state := p.state.checkIn c } := by
  have ha : (p.state.checkIn c).active.Sublist p.state.active := List.filter_sublist
  refine h.thin ((List.Sublist.refl _).append (ha.map _)) (Nat.le_refl _) ha (Nat.le_refl _) ?_
  intro t
  have hv := h.valid t
  rw [List.mem_map] at hv
  simp only [State.checkIn, State.removeActive, State.invalidate, List.mem_filter, List.mem_map,
    decide_eq_true_eq, hv]
  constructor
  · rintro ⟨⟨d, hd, rfl⟩, hne⟩
    exact ⟨d, ⟨hd, hne⟩, rfl⟩
  · rintro ⟨d, ⟨hd, hne⟩, rfl⟩
    exact ⟨⟨d, hd, rfl⟩, hne⟩

theorem Custody.spare_checkIn (h : Custody p) (hc : c ∈ p.state.active) :
    Spare { p with state := p.state.checkIn c } c.detach := by
  have perm := h.connections_perm hc
  refine ⟨h.checkIn c, ?_, ?_⟩
  · exact (List.nodup_cons.mp (perm.nodup_iff.mp h.distinct)).1
  · exact h.opened _ (perm.mem_iff.mpr List.mem_cons_self)

/-- A spare connection may join the idle ones. -/
theorem Spare.keep {d : Detached} (h : Spare p d) :
    Custody { p with state := { p.state with idle := p.state.idle ++ [d] } } := by
  have perm : State.connections { p.state with idle := p.state.idle ++ [d] } |>.Perm
      (d.connection :: p.state.connections) := by
    simp only [State.connections, List.map_append, List.map_cons, List.map_nil, List.append_assoc,
      List.singleton_append]
    exact List.perm_middle
  refine ⟨?_, fun n hn => ?_, h.custody.tickets, h.custody.issued, h.custody.valid⟩
  · exact perm.nodup_iff.mpr (List.nodup_cons.mpr ⟨h.apart, h.custody.distinct⟩)
  · rcases List.mem_cons.mp (perm.mem_iff.mp hn) with rfl | hn
    · exact h.opened
    · exact h.custody.opened n hn

theorem Returns.custody (back : Returns D now c p p') (h : Custody p) (hk : Known p c) :
    Custody p' := by
  cases back with
  | stale invalid => exact (h.checkIn c).recount _
  | @bad valid line bad =>
    have served := validate_served bad
    exact ((h.checkIn c).onLine (Nat.le_of_eq served.opened.symm)).recount _
  | @kept valid line good keep =>
    have served := validate_served good
    have ended := served.trans (Line.rollbackIfNeeded_served D c.connection line)
    have spare := (h.spare_checkIn ((h.isValid_iff hk).mp valid)).served ended
    exact spare.keep.recount _
  | @closed valid line good keep =>
    have served := validate_served good
    have ended := served.trans (Line.retire_served D c.connection line)
    exact ((h.checkIn c).onLine (Nat.le_of_eq ended.opened.symm)).recount _

theorem Returns.later (back : Returns D now c p p') : Later p p' := by
  have rest : ∀ d ∈ (p.state.checkIn c).active, d ∈ p.state.active :=
    fun d hd => ((State.mem_active_removeActive p.state c d).mp hd).1
  cases back with
  | stale | bad | kept | closed => exact .of_subset rfl rest

theorem closeAll_line_opened (D : Driver δ) (p : Pool δ) :
    (closeAll D p).line.opened = p.line.opened :=
  (Line.retireAll_served D Detached.connection p.state.idle _).opened.trans
    (Line.retireAll_served D Checkout.connection p.state.active p.line).opened

/-- A pool that has closed all is in order if it had been so. -/
theorem Custody.closeAll (h : Custody p) (D : Driver δ) : Custody (closeAll D p) := by
  have hn : (Pool.closeAll D p).state.nextTicket = p.state.nextTicket := by
    simp [Pool.closeAll, State.foldl_invalidate]
  refine h.thin (List.nil_sublist _) (Nat.le_of_eq (closeAll_line_opened D p).symm)
    (List.nil_sublist _) (Nat.le_of_eq hn.symm) fun t => ?_
  simp only [Pool.closeAll, State.foldl_invalidate, List.mem_filter, h.valid, decide_eq_true_eq,
    and_not_self, List.map_nil, List.not_mem_nil]

theorem closeAll_later (D : Driver δ) (p : Pool δ) : Later p (closeAll D p) := by
  refine .of_subset ?_ fun d hd => absurd hd List.not_mem_nil
  simp [closeAll, State.foldl_invalidate]

end DataTier.Pool
