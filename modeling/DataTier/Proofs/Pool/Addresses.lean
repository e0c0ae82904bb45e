import DataTier.Proofs.Pool.Moves

/-! Which connections a pool addresses. Whatever it asks, it asks of connections that have been
opened (`Addresses`), in every move and so in every run of requests. -/

namespace DataTier.Pool

variable {κ δ : Type} {D : Driver δ} {now : Time.Instant} {c : Checkout} {p p' : Pool δ}
  {l l' l'' : Line δ} {n : Nat}

/-- The call opens a connection, or is on one of the first `n`. -/
def Call.Within (n : Nat) (call : Call) : Prop := ∀ c op, call = .on c op → 0 < c ∧ c ≤ n

theorem Call.Within.mono {call : Call} {m : Nat} (h : call.Within n) (le : n ≤ m) :
    call.Within m := fun c op same => ⟨(h c op same).1, Nat.le_trans (h c op same).2 le⟩

namespace Line

theorem Asks.mem_log {P : Call → Prop} (h : Asks D P l l') {e : Call × Answer} (he : e ∈ l'.log) :
    e ∈ l.log ∨ P e.1 := by
  induction h with
  | refl => exact .inl he
  | ask before hc ih =>
    rcases List.mem_cons.mp he with rfl | he
    · exact .inr hc
    · exact ih he

/-- From `l` to `l'` nothing is asked of a connection that has not been opened by then. -/
structure Addresses (D : Driver δ) (l l' : Line δ) : Prop where
  asks : Asks D (Call.Within l'.opened) l l'
  opened : l.opened ≤ l'.opened

namespace Addresses

theorem refl (l : Line δ) : Addresses D l l := ⟨.refl, Nat.le_refl _⟩

theorem trans (h : Addresses D l l') (h' : Addresses D l' l'') : Addresses D l l'' :=
  ⟨(h.asks.mono fun _ within => within.mono h'.opened).trans h'.asks,
    Nat.le_trans h.opened h'.opened⟩

/-- Calls that are all on one open connection. -/
theorem of_asks {P : Call → Prop} {c : ConnectionId} (h : Asks D P l l')
    (on : ∀ call, P call → ∃ op, call = .on c op) (opened : 0 < c ∧ c ≤ l.opened) :
    Addresses D l l' := by
  have served : Served (· = c) l l' := h.served fun call hp => by
    obtain ⟨op, rfl⟩ := on call hp
    exact ⟨c, op, rfl, rfl⟩
  refine ⟨h.mono fun call hp => ?_, Nat.le_of_eq served.opened.symm⟩
  obtain ⟨op, rfl⟩ := on call hp
  rintro _ _ ⟨⟩
  exact served.opened.symm ▸ opened

theorem of_ends {c : ConnectionId} (h : Asks D (Ends c) l l') (opened : 0 < c ∧ c ≤ l.opened) :
    Addresses D l l' := of_asks h (fun _ => Ends.on) opened

end Addresses

theorem connect_addresses (D : Driver δ) (source : Source.DataSource)
    (credentials : Source.Credentials) (l : Line δ) :
    Addresses D l (l.connect D source credentials).2 := by
  have opens (n : Nat) : (Call.open source credentials).Within n := fun _ _ same => nomatch same
  have first : Asks D (· = .open source credentials) l (l.ask D (.open source credentials)).2 :=
    .ask .refl rfl
  unfold connect
  split <;> rename_i h <;> rw [h] at first
  · exact ⟨first.mono fun _ same => same ▸ opens _, (ask_open_error h).2.opened⟩
  · have more := (ask_open_ok h).1
    split
    · exact ⟨first.mono fun _ same => same ▸ opens _, more ▸ Nat.le_succ _⟩
    · rename_i line _ enabled mode
      have opened : Addresses D l line :=
        ⟨first.mono fun _ same => same ▸ opens _, more ▸ Nat.le_succ _⟩
      have moded : Asks D (· = .on line.opened (.setAutoCommit enabled)) line
          (line.ask D (.on line.opened (.setAutoCommit enabled))).2 := .ask .refl rfl
      exact opened.trans (.of_asks moded (fun _ same => ⟨_, same⟩)
        ⟨more ▸ Nat.succ_pos _, Nat.le_refl _⟩)

theorem retireAll_addresses {α : Type} (f : α → ConnectionId) (xs : List α)
    (opened : ∀ x ∈ xs, 0 < f x ∧ f x ≤ l.opened) :
    Addresses D l (xs.foldl (fun l x => l.retire D (f x)) l) := by
  induction xs generalizing l with
  | nil => exact .refl l
  | cons x xs ih =>
    have first : Addresses D l (l.retire D (f x)) :=
      .of_ends (retire_asks D (f x) l) (opened x List.mem_cons_self)
    refine first.trans (ih fun y hy => ?_)
    obtain ⟨pos, le⟩ := opened y (List.mem_cons_of_mem _ hy)
    exact ⟨pos, Nat.le_trans le first.opened⟩

end Line

open Line (Addresses)

theorem validate_addresses {settings : Settings} {d : Detached} {good : Bool}
    (h : validate D settings now d l = (good, l'))
    (opened : 0 < d.connection ∧ d.connection ≤ l.opened) :
    Addresses D l l' := by
  have asks := validate_asks D settings now d l
  rw [h] at asks
  refine .of_asks asks (fun call check => ?_) opened
  cases check with
  | isClosed | probe => exact ⟨_, rfl⟩
  | ends h => exact h.on

theorem Offers.addresses {credentials : Source.Credentials} {o : Candidate}
    (offer : Offers D now credentials p o p') (h : Custody p) : Addresses D p.line p'.line := by
  cases offer with
  | idle | none => exact .refl _
  | fresh idle room connect | unreachable idle room connect =>
    have opens := Line.connect_addresses D p.state.source credentials p.line
    rw [connect] at opens
    exact opens
  | @overdue oldest rest idle full active due =>
    have held : oldest.connection ∈ p.state.connections :=
      List.mem_append_right _ (List.mem_map_of_mem (active ▸ List.mem_cons_self))
    exact .of_ends (Line.rollbackIfNeeded_asks D _ p.line) (h.opened _ held)

theorem Visits.addresses {a : Attempt} {o : Outcome} (visit : Visits D now a p o p')
    (h : Custody p) : Addresses D p.line p'.line := by
  cases visit with
  | refused closed => exact .refl _
  | @waits closed p₁ offer =>
    obtain ⟨f, hf⟩ := wait_eq a p₁
    rw [hf]
    exact offer.addresses h
  | unreachable closed offer => exact offer.addresses h
  | @rejected closed d p₁ line offer bad =>
    have spare := offer.spare h
    have checked := validate_addresses bad spare.opened
    refine ((offer.addresses h).trans checked).trans
      (.of_ends (Line.close_asks D d.connection line) ?_)
    exact (spare.served (validate_served bad)).opened
  | @granted closed d p₁ line offer good =>
    have spare := offer.spare h
    have checked := validate_addresses good spare.opened
    refine ((offer.addresses h).trans checked).trans
      (.of_ends (Line.rollbackIfNeeded_asks D d.connection line) ?_)
    exact (spare.served (validate_served good)).opened

theorem Returns.addresses (back : Returns D now c p p') (h : Custody p) (hk : Known p c) :
    Addresses D p.line p'.line := by
  have here (valid : p.state.isValid c = true) : 0 < c.connection ∧ c.connection ≤ p.line.opened :=
    h.opened _ (List.mem_append_right _ (List.mem_map_of_mem ((h.isValid_iff hk).mp valid)))
  cases back with
  | stale => exact .refl _
  | bad valid bad => exact validate_addresses bad (here valid)
  | @kept valid line good keep =>
    have checked := validate_addresses good (here valid)
    refine checked.trans (.of_ends (Line.rollbackIfNeeded_asks D c.connection line) ?_)
    exact ⟨(here valid).1, Nat.le_trans (here valid).2 checked.opened⟩
  | @closed valid line good keep =>
    have checked := validate_addresses good (here valid)
    refine checked.trans (.of_ends (Line.retire_asks D c.connection line) ?_)
    exact ⟨(here valid).1, Nat.le_trans (here valid).2 checked.opened⟩

theorem closeAll_addresses (h : Custody p) : Addresses D p.line (closeAll D p).line := by
  have active := Line.retireAll_addresses (D := D) Checkout.connection p.state.active
    fun c hc => h.opened _ (List.mem_append_right _ (List.mem_map_of_mem hc))
  refine active.trans (Line.retireAll_addresses Detached.connection p.state.idle fun d hd => ?_)
  obtain ⟨pos, le⟩ := h.opened _ (List.mem_append_left _ (List.mem_map_of_mem hd))
  exact ⟨pos, Nat.le_trans le active.opened⟩

theorem Move.addresses {held : Checkout → Prop} (move : Move D held p p') (h : Custody p)
    (hk : ∀ c, held c → Known p c) : Addresses D p.line p'.line := by
  cases move with
  | stays | recount | setTolerance => exact .refl _
  | visit now a => exact (examine_visits D now a p).addresses h
  | @giveBack now c hc => exact (release_returns D now c p).addresses h (hk c hc)
  | @call op c hc valid =>
    have active := (h.isValid_iff (hk c hc)).mp valid
    have asked : Line.Asks D (· = .on c.connection op) p.line
        (p.line.ask D (.on c.connection op)).2 := .ask .refl rfl
    exact .of_asks asked (fun _ same => ⟨op, same⟩)
      (h.opened _ (List.mem_append_right _ (List.mem_map_of_mem active)))
  | overhaul source settings closed =>
    have changed : Custody { p with state := { p.state with source, settings, closed } } :=
      ⟨h.distinct, h.opened, h.tickets, h.issued, h.valid⟩
    exact closeAll_addresses (p := { p with state := { p.state with source, settings, closed } })
      changed

/-- What no call on an open connection breaks is so of the line after every run of requests. -/
theorem Service.run_addresses [DecidableEq κ] {s : Service κ δ} {handles : List Checkout}
    (h : Orderly s handles) (D : Driver δ) (rs : List (Request κ)) :
    Addresses D s.pool.line (s.run D rs).pool.line := by
  induction rs generalizing s handles with
  | nil => exact .refl _
  | cons r rs ih =>
    exact ((serve_move D s r).addresses h.custody h.known_of_holds).trans (ih (h.serve D r))

end DataTier.Pool
