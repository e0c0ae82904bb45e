import DataTier.Proofs.Pool.Moves

/-! What becomes of every connection that was opened. The pool has it, or somebody asked for
it to be closed, or it has said itself that it is closed (`Accounted`), and the only others
are those that the pool lets go when a driver fails one of two calls: it cannot put a fresh
connection into its mode (`unready`), or cannot say of one that comes back whether it is
closed (`unchecked`). -/

namespace DataTier.Pool

variable {κ δ : Type} {D : Driver δ} {now : Time.Instant} {c : Checkout} {p p' p'' : Pool δ}
  {lost lost' : List ConnectionId}

def Accounted (p : Pool δ) (n : ConnectionId) : Prop :=
  n ∈ p.state.connections ∨ p.line.CloseAsked n ∨ p.line.SaidClosed n

theorem Accounted.of_closed {n : ConnectionId} (h : p.line.CloseAsked n ∨ p.line.SaidClosed n)
    (hl : p.line.log <:+ p'.line.log) : Accounted p' n := by
  rcases h with h | h
  · exact .inr (.inl (h.mono hl))
  · exact .inr (.inr (h.mono hl))

/-- The driver failed to set the mode of the connection or to say whether it is closed. -/
def Line.Failed (n : ConnectionId) (l : Line δ) : Prop :=
  ∃ reason, (∃ enabled, (Call.on n (.setAutoCommit enabled), .error reason) ∈ l.log) ∨
    (Call.on n .isClosed, .error reason) ∈ l.log

theorem Line.Failed.mono {n : ConnectionId} {l l' : Line δ} (h : l.Failed n)
    (hl : l.log <:+ l'.log) : l'.Failed n := by
  obtain ⟨reason, ⟨enabled, h⟩ | h⟩ := h
  · exact ⟨reason, .inl ⟨enabled, hl.subset h⟩⟩
  · exact ⟨reason, .inr (hl.subset h)⟩

/-- From `p` to `p'` no connection goes astray but those in `lost`: all others that `p` had,
or that were opened on the way, are accounted for. -/
structure Accounts (lost : List ConnectionId) (p p' : Pool δ) : Prop where
  grows : p.line.Grows p'.line
  kept : ∀ n, n ∈ p.state.connections ∨ p.line.opened < n ∧ n ≤ p'.line.opened →
    Accounted p' n ∨ n ∈ lost
  origin : ∀ n ∈ p'.state.connections, n ∈ p.state.connections ∨ p.line.opened < n
  gone : ∀ n ∈ lost, (0 < n ∧ n ≤ p'.line.opened) ∧ n ∉ p'.state.connections ∧ p'.line.Failed n

namespace Accounts

theorem trans (h : Accounts lost p p') (h' : Accounts lost' p' p'') :
    Accounts (lost ++ lost') p p'' where
  grows := h.grows.trans h'.grows
  kept n hn := by
    have first : Accounted p' n ∨ n ∈ lost ∨ p'.line.opened < n ∧ n ≤ p''.line.opened := by
      rcases hn with hn | ⟨hn, hn'⟩
      · exact (h.kept n (.inl hn)).imp_right .inl
      · rcases Nat.lt_or_ge p'.line.opened n with late | early
        · exact .inr (.inr ⟨late, hn'⟩)
        · exact (h.kept n (.inr ⟨hn, early⟩)).imp_right .inl
    rcases first with (has | gone) | astray | late
    · exact (h'.kept n (.inl has)).imp_right (List.mem_append_right _)
    · exact .inl (.of_closed gone h'.grows.suffix)
    · exact .inr (List.mem_append_left _ astray)
    · exact (h'.kept n (.inr late)).imp_right (List.mem_append_right _)
  origin n hn := by
    rcases h'.origin n hn with hn | hn
    · exact h.origin n hn
    · exact .inr (Nat.lt_of_le_of_lt h.grows.opened hn)
  gone n hn := by
    rcases List.mem_append.mp hn with hn | hn
    · obtain ⟨ho, hp, hf⟩ := h.gone n hn
      refine ⟨⟨ho.1, Nat.le_trans ho.2 h'.grows.opened⟩, fun hn => ?_, hf.mono h'.grows.suffix⟩
      rcases h'.origin n hn with hn | hn
      · exact hp hn
      · exact Nat.not_lt_of_le ho.2 hn
    · exact h'.gone n hn

/-- Work on open connections by which the pool gets no connection and loses none that is not
closed. -/
theorem of_served {S : ConnectionId → Prop} (hl : Line.Served S p.line p'.line)
    (hk : ∀ n ∈ p.state.connections, Accounted p' n)
    (ho : ∀ n ∈ p'.state.connections, n ∈ p.state.connections) : Accounts [] p p' where
  grows := hl.grows
  kept n hn := by
    rcases hn with hn | ⟨hn, hn'⟩
    · exact .inl (hk n hn)
    · rw [hl.opened] at hn'
      exact absurd hn' (Nat.not_le_of_lt hn)
  origin n hn := .inl (ho n hn)
  gone n hn := by cases hn

theorem of_books (hl : p'.line = p.line) (hs : p'.state.connections = p.state.connections) :
    Accounts [] p p' := by
  refine of_served (S := fun _ => True) (hl ▸ .refl _ _) (fun n hn => .inl (hs ▸ hn)) ?_
  exact fun n hn => hs ▸ hn

end Accounts

/-! ## A visit -/

/-- A connection that was opened on a visit that ended without one. -/
def unready (reply : Reply) (p p' : Pool δ) : List ConnectionId :=
  match reply with
  | .failed (.connect _) => if p.line.opened < p'.line.opened then [p'.line.opened] else []
  | _ => []

theorem mem_offered {credentials : Source.Credentials} {d : Detached}
    (offer : Offers D now credentials p (.ready d) p') (n : ConnectionId) :
    n = d.connection ∨ n ∈ p'.state.connections ↔
      n ∈ p.state.connections ∨ p.line.opened < n ∧ n ≤ p'.line.opened := by
  rcases offer.connections with ⟨hc, ho⟩ | ⟨hc, hd, ho⟩
  · rw [hc, ho, List.mem_cons]
    constructor
    · exact .inl
    · rintro (hn | ⟨hn, hn'⟩)
      · exact hn
      · exact absurd hn' (Nat.not_le_of_lt hn)
  · rw [hc, ho, hd]
    constructor
    · rintro (rfl | hn)
      · exact .inr ⟨Nat.lt_succ_self _, Nat.le_refl _⟩
      · exact .inl hn
    · rintro (hn | ⟨hn, hn'⟩)
      · exact .inr hn
      · exact .inl (Nat.le_antisymm hn' hn)

theorem Offers.grows {credentials : Source.Credentials} {o : Candidate}
    (offer : Offers D now credentials p o p') : p.line.Grows p'.line := by
  cases offer with
  | idle | none => exact (Line.Served.refl (fun _ => True) p.line).grows
  | fresh idle room connect => exact (Line.connect_ok connect).2.grows
  | unreachable idle room connect =>
    rcases Line.connect_error connect with ⟨_, hg⟩ | ⟨ho, _⟩
    · exact hg
    · exact ho.grows
  | overdue => exact (Line.rollbackIfNeeded_served D _ p.line).grows

/-- What was offered is accounted for in the end, and all else stays where it is. -/
theorem Offers.accounts {credentials : Source.Credentials} {d : Detached} {p₁ : Pool δ}
    {S : ConnectionId → Prop} (offer : Offers D now credentials p (.ready d) p₁)
    (hl : Line.Served S p₁.line p'.line) (hd : Accounted p' d.connection)
    (hk : ∀ n ∈ p₁.state.connections, n ∈ p'.state.connections)
    (ho : ∀ n ∈ p'.state.connections, n = d.connection ∨ n ∈ p₁.state.connections) :
    Accounts [] p p' where
  grows := offer.grows.trans hl.grows
  kept n hn := by
    rw [hl.opened] at hn
    rcases (mem_offered offer n).mpr hn with rfl | hn
    · exact .inl hd
    · exact .inl (.inl (hk n hn))
  origin n hn := ((mem_offered offer n).mp (ho n hn)).imp_right And.left
  gone n hn := by cases hn

theorem Offers.accounts_unreachable {credentials : Source.Credentials} {reason : String}
    (hp : Custody p) (offer : Offers D now credentials p (.unreachable reason) p') :
    Accounts (unready (.failed (.connect reason)) p p') p p' := by
  have grows := offer.grows
  cases offer with
  | @unreachable _ line idle room connect =>
    rcases Line.connect_error connect with ⟨hn, _⟩ | ⟨ho, enabled, _, hlog⟩
    · have none : unready (.failed (.connect reason)) p { p with line } = [] :=
        if_neg (by simp only [hn, Nat.lt_irrefl, not_false_eq_true])
      rw [none]
      refine ⟨grows, fun n hn' => ?_, fun n hn' => .inl hn', fun n hn' => by cases hn'⟩
      rcases hn' with hn' | ⟨hlt, hle⟩
      · exact .inl (.inl hn')
      · rw [hn] at hle
        exact absurd hle (Nat.not_le_of_lt hlt)
    · have one : unready (.failed (.connect reason)) p { p with line } = [line.opened] :=
        if_pos (by simp only [ho.opened, Nat.lt_succ_self])
      rw [one]
      refine ⟨grows, fun n hn => ?_, fun n hn => .inl hn, fun n hn => ?_⟩
      · rcases hn with hn | ⟨hlt, hle⟩
        · exact .inl (.inl hn)
        · rw [ho.opened] at hle
          exact .inr (List.mem_singleton.mpr ((Nat.le_antisymm hle hlt).trans ho.opened.symm))
      · rw [List.mem_singleton.mp hn]
        refine ⟨⟨ho.opened ▸ Nat.succ_pos _, Nat.le_refl _⟩, fun hm => ?_, reason,
          .inl ⟨enabled, hlog⟩⟩
        exact absurd (ho.opened ▸ (hp.opened _ hm).2) (Nat.not_succ_le_self _)

theorem Visits.accounts {a : Attempt} {o : Outcome} (hp : Custody p)
    (visit : Visits D now a p o p') : Accounts (unready o.reply p p') p p' := by
  cases visit with
  | refused closed => exact .of_books rfl rfl
  | @waits closed p₁ offer =>
    obtain ⟨f, hf⟩ := wait_eq a p₁
    rw [hf]
    cases offer with
    | none idle full due => exact .of_books rfl rfl
  | unreachable closed offer => exact offer.accounts_unreachable hp
  | @rejected closed d p₁ line offer bad =>
    have served := validate_served bad
    have none : unready (reject D a d { p₁ with line }).1.reply p
        (reject D a d { p₁ with line }).2 = [] := by
      simp only [reject]
      split <;> rfl
    rw [none]
    exact offer.accounts (served.trans (Line.close_served D d.connection line))
      (.inr (.inl (Line.closeAsked_close D d.connection line))) (fun n hn => hn) fun n hn => .inr hn
  | @granted closed d p₁ line offer good =>
    have served := validate_served good
    have has : (accept D now a d { p₁ with line }).2.state.connections =
        p₁.state.connections ++ [d.connection] := by
      simp [accept, State.connections, State.count, Checkout.of]
    refine offer.accounts (served.trans (Line.rollbackIfNeeded_served D d.connection line)) ?_ ?_ ?_
    · left
      rw [has]
      exact List.mem_append_right _ (List.mem_singleton_self _)
    · intro n hn
      rw [has]
      exact List.mem_append_left _ hn
    · intro n hn
      rw [has, List.mem_append, List.mem_singleton] at hn
      exact hn.symm

/-! ## A return -/

/-- The connection of a valid handle, if it cannot say whether it is closed. -/
def unchecked (D : Driver δ) (c : Checkout) (p : Pool δ) : List ConnectionId :=
  if p.state.isValid c then
    match (p.line.ask D (.on c.connection .isClosed)).1 with
    | .error _ => [c.connection]
    | .ok _ => []
  else []

theorem unchecked_of_ok {b : Bool} (valid : p.state.isValid c = true)
    (h : (p.line.ask D (.on c.connection .isClosed)).1 = .ok b) : unchecked D c p = [] := by
  rw [unchecked, if_pos valid, h]

theorem unchecked_of_error {reason : String} (valid : p.state.isValid c = true)
    (h : (p.line.ask D (.on c.connection .isClosed)).1 = .error reason) :
    unchecked D c p = [c.connection] := by
  rw [unchecked, if_pos valid, h]

/-- The pool lets go of one connection that it has handed out, or takes it back. -/
theorem Custody.accounts_return {S : ConnectionId → Prop} (hp : Custody p)
    (hc : c ∈ p.state.active) (hl : Line.Served S p.line p'.line)
    (hk : ∀ n, n ∈ (p.state.checkIn c).connections → n ∈ p'.state.connections)
    (ho : ∀ n ∈ p'.state.connections, n = c.connection ∨ n ∈ (p.state.checkIn c).connections)
    (hout : Accounted p' c.connection ∨ c.connection ∈ lost)
    (hlost : ∀ n ∈ lost, n = c.connection ∧ n ∉ p'.state.connections ∧ p'.line.Failed n) :
    Accounts lost p p' := by
  have mem : ∀ n, n ∈ p.state.connections ↔
      n = c.connection ∨ n ∈ (p.state.checkIn c).connections := fun n => by
    rw [(hp.connections_perm hc).mem_iff, List.mem_cons]
  refine ⟨hl.grows, fun n hn => ?_, fun n hn => .inl ((mem n).mpr (ho n hn)), fun n hn => ?_⟩
  · rcases hn with hn | ⟨hn, hn'⟩
    · rcases (mem n).mp hn with rfl | hn
      · exact hout
      · exact .inl (.inl (hk n hn))
    · rw [hl.opened] at hn'
      exact absurd hn' (Nat.not_le_of_lt hn)
  · obtain ⟨rfl, hn, hf⟩ := hlost n hn
    have here : c.connection ∈ p.state.connections := (mem _).mpr (.inl rfl)
    exact ⟨hl.opened ▸ hp.opened _ here, hn, hf⟩

theorem Returns.accounts (hp : Custody p) (hk : Known p c) (back : Returns D now c p p') :
    Accounts (unchecked D c p) p p' := by
  cases back with
  | stale invalid =>
    have none : unchecked D c p = [] := by simp [unchecked, invalid]
    rw [none, hp.checkIn_of_invalid invalid]
    exact .of_books rfl rfl
  | @bad valid line bad =>
    have served := validate_served bad
    have active := (hp.isValid_iff hk).mp valid
    have apart : c.connection ∉ (p.state.checkIn c).connections := (hp.spare_checkIn active).apart
    rcases validate_false bad with ⟨reason, hask, hlog⟩ | ⟨⟨b, hask⟩, closed⟩
    · rw [unchecked_of_error valid hask]
      refine hp.accounts_return active served (fun n hn => hn) (fun n hn => .inr hn)
        (.inr (List.mem_singleton_self _)) fun n hn => ?_
      rw [List.mem_singleton.mp hn]
      exact ⟨rfl, apart, reason, .inr hlog⟩
    · rw [unchecked_of_ok valid hask]
      exact hp.accounts_return active served (fun n hn => hn) (fun n hn => .inr hn)
        (.inl (.inr closed)) fun n hn => by cases hn
  | @kept valid line good keep =>
    have served := validate_served good
    have active := (hp.isValid_iff hk).mp valid
    have none : unchecked D c p = [] := unchecked_of_ok valid (validate_true good)
    have mem : ∀ n, n ∈ State.connections ({ p.state.checkIn c with
        idle := p.state.idle ++ [c.detach] }.countReturn now c) ↔
          n = c.connection ∨ n ∈ (p.state.checkIn c).connections := fun n => by
      simp only [State.connections, State.countReturn, State.count, List.map_append, List.map_cons,
        List.map_nil, List.mem_append, List.mem_singleton]
      exact (or_assoc.trans or_left_comm)
    have ended := served.trans (Line.rollbackIfNeeded_served D c.connection line)
    rw [none]
    refine hp.accounts_return active ended (fun n hn => (mem n).mpr (.inr hn))
      (fun n hn => (mem n).mp hn) (.inl (.inl ((mem _).mpr (.inl rfl)))) fun n hn => by cases hn
  | @closed valid line good keep =>
    have served := validate_served good
    have active := (hp.isValid_iff hk).mp valid
    have none : unchecked D c p = [] := unchecked_of_ok valid (validate_true good)
    have ended := served.trans (Line.retire_served D c.connection line)
    have asked := Line.closeAsked_close D c.connection (line.rollbackIfNeeded D c.connection).2
    rw [none]
    exact hp.accounts_return active ended (fun n hn => hn) (fun n hn => .inr hn)
      (.inl (.inr (.inl asked))) fun n hn => by cases hn

/-! ## The whole pool -/

theorem closeAll_served (D : Driver δ) (p : Pool δ) :
    Line.Served (· ∈ p.state.connections) p.line (closeAll D p).line := by
  refine ((Line.retireAll_served D Checkout.connection p.state.active p.line).mono ?_).trans
    ((Line.retireAll_served D Detached.connection p.state.idle _).mono ?_)
  · exact fun n hn => List.mem_append_right _ hn
  · exact fun n hn => List.mem_append_left _ hn

theorem closeAsked_closeAll (D : Driver δ) (p : Pool δ) (n : ConnectionId)
    (hn : n ∈ p.state.connections) : (closeAll D p).line.CloseAsked n := by
  rcases List.mem_append.mp hn with hn | hn
  · obtain ⟨d, hd, rfl⟩ := List.mem_map.mp hn
    exact Line.closeAsked_retireAll D Detached.connection hd _
  · obtain ⟨c, hc, rfl⟩ := List.mem_map.mp hn
    exact (Line.closeAsked_retireAll D Checkout.connection hc p.line).mono
      (Line.retireAll_served D Detached.connection p.state.idle _).suffix

theorem accounts_overhaul (D : Driver δ) (p : Pool δ) (source : Source.DataSource)
    (settings : Settings) (closed : Bool) :
    Accounts [] p
      (closeAll D { p with state := { p.state with source, settings, closed } }) := by
  refine .of_served (closeAll_served D { p with state := { p.state with source, settings, closed } })
    (fun n hn => .inr (.inl (closeAsked_closeAll D _ n hn))) fun n hn => ?_
  cases hn

end DataTier.Pool
