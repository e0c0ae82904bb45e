import DataTier.Pool.Acquire

/-! What work on connections does to the line: it asks what it has to (`Asks`), which adds
calls on them and opens nothing (`Served`). Only `connect` opens, and it opens one connection at most, the next in the
order, so that the number of a connection is its place among `openings`. -/

namespace DataTier.Pool

namespace Line

variable {δ : Type} {D : Driver δ} {S T : ConnectionId → Prop} {P Q : Call → Prop}
  {c : ConnectionId} {l l' l'' : Line δ}

/-- The source and the credentials of a call that opened a connection. -/
def opening? : Call × Answer → Option (Source.DataSource × Source.Credentials)
  | (.open source credentials, .ok _) => some (source, credentials)
  | _ => none

/-- What was opened, in its order. -/
def openings (l : Line δ) : List (Source.DataSource × Source.Credentials) :=
  l.log.reverse.filterMap opening?

/-- Somebody has asked for the connection to be closed. -/
def CloseAsked (c : ConnectionId) (l : Line δ) : Prop := Call.on c .close ∈ l.log.map Prod.fst

/-- The connection has said of itself that it is closed. -/
def SaidClosed (c : ConnectionId) (l : Line δ) : Prop := (Call.on c .isClosed, .ok true) ∈ l.log

/-! ## Calls -/

/-- The line `l'` is `l` after calls that are as `P` says. -/
inductive Asks (D : Driver δ) (P : Call → Prop) (l : Line δ) : Line δ → Prop
  | refl : Asks D P l l
  | ask {l' : Line δ} (before : Asks D P l l') {call : Call} (hc : P call) :
      Asks D P l (l'.ask D call).2

namespace Asks

theorem trans (h : Asks D P l l') (h' : Asks D P l' l'') : Asks D P l l'' := by
  induction h' with
  | refl => exact h
  | ask before hc ih => exact ih.ask hc

theorem mono (h : Asks D P l l') (hp : ∀ call, P call → Q call) : Asks D Q l l' := by
  induction h with
  | refl => exact .refl
  | ask before hc ih => exact ih.ask (hp _ hc)

end Asks

/-- The calls that end the work on a connection. -/
inductive Ends (c : ConnectionId) : Call → Prop
  | autoCommit : Ends c (.on c .autoCommit)
  | rollback : Ends c (.on c .rollback)
  | close : Ends c (.on c .close)

theorem close_asks (D : Driver δ) (c : ConnectionId) (l : Line δ) :
    Asks D (Ends c) l (l.close D c) := .ask .refl .close

theorem rollbackIfNeeded_asks (D : Driver δ) (c : ConnectionId) (l : Line δ) :
    Asks D (Ends c) l (l.rollbackIfNeeded D c).2 := by
  have first : Asks D (Ends c) l (l.ask D (.on c .autoCommit)).2 := .ask .refl .autoCommit
  unfold rollbackIfNeeded
  split <;> rename_i h <;> rw [h] at first
  · exact first
  · exact first
  · exact first.ask .rollback

theorem retire_asks (D : Driver δ) (c : ConnectionId) (l : Line δ) :
    Asks D (Ends c) l (l.retire D c) :=
  (rollbackIfNeeded_asks D c l).trans (close_asks D c _)

theorem retireAll_asks {α : Type} (D : Driver δ) (f : α → ConnectionId) (xs : List α)
    (l : Line δ) : Asks D (fun call => ∃ x ∈ xs, Ends (f x) call) l
      (xs.foldl (fun l x => l.retire D (f x)) l) := by
  induction xs generalizing l with
  | nil => exact .refl
  | cons x xs ih =>
    refine .trans ((retire_asks D (f x) l).mono ?_) ((ih _).mono ?_)
    · exact fun call ends => ⟨x, List.mem_cons_self, ends⟩
    · exact fun call ⟨y, hy, ends⟩ => ⟨y, List.mem_cons_of_mem _ hy, ends⟩

/-- The calls that bring a connection about. -/
inductive Opens : Call → Prop
  | «open» (source : Source.DataSource) (credentials : Source.Credentials) :
      Opens (.open source credentials)
  | mode (n : ConnectionId) (enabled : Bool) : Opens (.on n (.setAutoCommit enabled))

theorem connect_asks (D : Driver δ) (source : Source.DataSource)
    (credentials : Source.Credentials) (l : Line δ) :
    Asks D Opens l (l.connect D source credentials).2 := by
  have first : Asks D Opens l (l.ask D (.open source credentials)).2 := .ask .refl (.open _ _)
  unfold connect
  split <;> rename_i h <;> rw [h] at first
  · exact first
  · split
    · exact first
    · exact first.ask (.mode _ _)

/-! ## Work on open connections -/

/-- The line `l'` is `l` after calls on connections in `S`. -/
structure Served (S : ConnectionId → Prop) (l l' : Line δ) : Prop where
  opened : l'.opened = l.opened
  log : ∃ calls, l'.log = calls ++ l.log ∧ ∀ e ∈ calls, ∃ c op, S c ∧ e.1 = .on c op

namespace Served

theorem refl (S : ConnectionId → Prop) (l : Line δ) : Served S l l := ⟨rfl, [], rfl, by simp⟩

theorem trans (h : Served S l l') (h' : Served S l' l'') : Served S l l'' := by
  obtain ⟨calls, hl, hc⟩ := h.log
  obtain ⟨calls', hl', hc'⟩ := h'.log
  refine ⟨h'.opened.trans h.opened, calls' ++ calls, by rw [hl', hl, List.append_assoc], ?_⟩
  intro e he
  rcases List.mem_append.mp he with he | he
  · exact hc' e he
  · exact hc e he

theorem mono (h : Served S l l') (hs : ∀ c, S c → T c) : Served T l l' := by
  obtain ⟨calls, hl, hc⟩ := h.log
  refine ⟨h.opened, calls, hl, fun e he => ?_⟩
  obtain ⟨c, op, hsc, hop⟩ := hc e he
  exact ⟨c, op, hs c hsc, hop⟩

theorem suffix (h : Served S l l') : l.log <:+ l'.log := by
  obtain ⟨calls, hl, _⟩ := h.log
  exact ⟨calls, hl.symm⟩

theorem openings_eq (h : Served S l l') : l'.openings = l.openings := by
  obtain ⟨calls, hl, hc⟩ := h.log
  have none : calls.reverse.filterMap opening? = [] := by
    refine List.filterMap_eq_nil_iff.mpr fun e he => ?_
    obtain ⟨_, op, _, hop⟩ := hc e (List.mem_reverse.mp he)
    obtain ⟨call, a⟩ := e
    cases hop
    rfl
  unfold openings
  rw [hl, List.reverse_append, List.filterMap_append, none, List.append_nil]

end Served

theorem ask_served (D : Driver δ) (c : ConnectionId) (op : Operation) (l : Line δ) :
    Served (· = c) l (l.ask D (.on c op)).2 := by
  refine ⟨rfl, [(.on c op, (l.ask D (.on c op)).1)], rfl, fun e he => ?_⟩
  rw [List.mem_singleton.mp he]
  exact ⟨c, op, rfl, rfl⟩

theorem Asks.served (h : Asks D P l l') (on : ∀ call, P call → ∃ c op, S c ∧ call = .on c op) :
    Served S l l' := by
  induction h with
  | refl => exact .refl S l
  | @ask l' before call hc ih =>
    obtain ⟨c, op, hs, rfl⟩ := on call hc
    exact ih.trans ((ask_served D c op l').mono fun _ same => same ▸ hs)

theorem Ends.on {call : Call} (h : Ends c call) : ∃ op, call = .on c op := by
  cases h <;> exact ⟨_, rfl⟩

theorem Asks.served_of_ends (h : Asks D (Ends c) l l') : Served (· = c) l l' := by
  refine h.served fun call ends => ?_
  obtain ⟨op, rfl⟩ := ends.on
  exact ⟨c, op, rfl, rfl⟩

theorem close_served (D : Driver δ) (c : ConnectionId) (l : Line δ) :
    Served (· = c) l (l.close D c) := (close_asks D c l).served_of_ends

theorem rollbackIfNeeded_served (D : Driver δ) (c : ConnectionId) (l : Line δ) :
    Served (· = c) l (l.rollbackIfNeeded D c).2 := (rollbackIfNeeded_asks D c l).served_of_ends

theorem retire_served (D : Driver δ) (c : ConnectionId) (l : Line δ) :
    Served (· = c) l (l.retire D c) := (retire_asks D c l).served_of_ends

theorem retireAll_served {α : Type} (D : Driver δ) (f : α → ConnectionId) (xs : List α)
    (l : Line δ) : Served (· ∈ xs.map f) l (xs.foldl (fun l x => l.retire D (f x)) l) := by
  refine (retireAll_asks D f xs l).served ?_
  rintro call ⟨x, hx, ends⟩
  obtain ⟨op, rfl⟩ := ends.on
  exact ⟨f x, op, List.mem_map_of_mem hx, rfl⟩

/-! ## Closing -/

theorem CloseAsked.mono (h : CloseAsked c l) (hl : l.log <:+ l'.log) : CloseAsked c l' :=
  (hl.map Prod.fst).subset h

theorem SaidClosed.mono (h : SaidClosed c l) (hl : l.log <:+ l'.log) : SaidClosed c l' :=
  hl.subset h

theorem closeAsked_close (D : Driver δ) (c : ConnectionId) (l : Line δ) :
    CloseAsked c (l.close D c) := by
  simp [CloseAsked, close]

theorem closeAsked_retireAll {α : Type} (D : Driver δ) (f : α → ConnectionId) {xs : List α}
    {x : α} (hx : x ∈ xs) (l : Line δ) :
    CloseAsked (f x) (xs.foldl (fun l x => l.retire D (f x)) l) := by
  induction xs generalizing l with
  | nil => cases hx
  | cons y xs ih =>
    rcases List.mem_cons.mp hx with rfl | hx
    · exact (closeAsked_close D (f x) _).mono (retireAll_served D f xs _).suffix
    · exact ih hx _

/-! ## Opening -/

/-- The connections of a line are numbered by their places among its openings. -/
def Numbered (l : Line δ) : Prop := l.opened = l.openings.length

/-- The line `l'` is `l` after calls of any kind. -/
structure Grows (l l' : Line δ) : Prop where
  suffix : l.log <:+ l'.log
  opened : l.opened ≤ l'.opened
  numbered : Numbered l → Numbered l'

theorem Grows.trans (h : Grows l l') (h' : Grows l' l'') : Grows l l'' :=
  ⟨h.suffix.trans h'.suffix, Nat.le_trans h.opened h'.opened,
    fun hn => h'.numbered (h.numbered hn)⟩

theorem Served.grows (h : Served S l l') : Grows l l' := by
  refine ⟨h.suffix, Nat.le_of_eq h.opened.symm, fun hn => ?_⟩
  unfold Numbered
  rw [h.opened, h.openings_eq]
  exact hn

theorem ask_open_error {source : Source.DataSource} {credentials : Source.Credentials}
    {e : String} (h : l.ask D (.open source credentials) = (.error e, l')) :
    l'.opened = l.opened ∧ Grows l l' := by
  cases hd : D.answer (.open source credentials) l.driver with
  | mk a driver =>
    simp only [ask, hd, Prod.mk.injEq] at h
    obtain ⟨rfl, rfl⟩ := h
    refine ⟨rfl, List.suffix_cons _ _, Nat.le_refl _, fun hn => ?_⟩
    exact hn.trans (congrArg List.length (by simp [openings, opening?]))

theorem ask_open_ok {source : Source.DataSource} {credentials : Source.Credentials} {b : Bool}
    (h : l.ask D (.open source credentials) = (.ok b, l')) :
    l'.opened = l.opened + 1 ∧ l'.openings = l.openings ++ [(source, credentials)] ∧
      l.log <:+ l'.log := by
  cases hd : D.answer (.open source credentials) l.driver with
  | mk a driver =>
    simp only [ask, hd, Prod.mk.injEq] at h
    obtain ⟨rfl, rfl⟩ := h
    exact ⟨rfl, by simp [openings, opening?], List.suffix_cons _ _⟩

/-- The line `l'` is `l` after a call that opened one connection, and calls on that one. -/
structure Opened (source : Source.DataSource) (credentials : Source.Credentials)
    (l l' : Line δ) : Prop where
  opened : l'.opened = l.opened + 1
  openings : l'.openings = l.openings ++ [(source, credentials)]
  suffix : l.log <:+ l'.log

theorem Opened.grows {source : Source.DataSource} {credentials : Source.Credentials}
    (h : Opened source credentials l l') : Grows l l' := by
  refine ⟨h.suffix, h.opened ▸ Nat.le_succ _, fun hn => ?_⟩
  unfold Numbered
  rw [h.opened, h.openings, List.length_append, hn, List.length_singleton]

theorem Opened.served {source : Source.DataSource} {credentials : Source.Credentials}
    (h : Opened source credentials l l') (hs : Served S l' l'') : Opened source credentials l l'' :=
  ⟨hs.opened.trans h.opened, hs.openings_eq.trans h.openings, h.suffix.trans hs.suffix⟩

theorem connect_ok {source : Source.DataSource} {credentials : Source.Credentials}
    (h : l.connect D source credentials = (.ok c, l')) :
    c = l.opened + 1 ∧ Opened source credentials l l' := by
  unfold connect at h
  split at h
  · cases h
  · rename_i b line hopen
    obtain ⟨hn, ho, hl⟩ := ask_open_ok hopen
    split at h
    · obtain ⟨hc, rfl⟩ := Prod.mk.inj h
      exact ⟨(Except.ok.inj hc).symm.trans hn, hn, ho, hl⟩
    · rename_i enabled _
      have hs := ask_served D line.opened (.setAutoCommit enabled) line
      dsimp only at h
      generalize line.ask D (.on line.opened (.setAutoCommit enabled)) = r at h hs
      obtain ⟨_ | b, line'⟩ := r
      · cases h
      · cases h
        exact ⟨hn, Opened.served ⟨hn, ho, hl⟩ hs⟩

/-- A source that cannot be reached opens nothing, but a mode that cannot be set leaves
behind a connection that was opened. -/
theorem connect_error {source : Source.DataSource} {credentials : Source.Credentials} {e : String}
    (h : l.connect D source credentials = (.error e, l')) :
    (l'.opened = l.opened ∧ Grows l l') ∨
      Opened source credentials l l' ∧ ∃ enabled, source.autoCommit = some enabled ∧
        (Call.on l'.opened (.setAutoCommit enabled), .error e) ∈ l'.log := by
  unfold connect at h
  split at h
  · rename_i hopen
    obtain ⟨_, rfl⟩ := Prod.mk.inj h
    exact .inl (ask_open_error hopen)
  · rename_i b line hopen
    obtain ⟨hn, ho, hl⟩ := ask_open_ok hopen
    split at h
    · cases h
    · rename_i enabled hmode
      have hs := ask_served D line.opened (.setAutoCommit enabled) line
      have hlog := ask_log D (.on line.opened (.setAutoCommit enabled)) line
      dsimp only at h
      generalize line.ask D (.on line.opened (.setAutoCommit enabled)) = r at h hs hlog
      obtain ⟨_ | b, line'⟩ := r
      · cases h
        refine .inr ⟨Opened.served ⟨hn, ho, hl⟩ hs, enabled, hmode, ?_⟩
        rw [hlog, hs.opened]
        exact List.mem_cons_self
      · cases h

end Line

/-- A driver that grants every call but those at the places `ns` in the order of all calls. -/
def Driver.refusing (ns : List Nat) : Driver Nat where
  answer call n :=
    let a := match call with
      | .on _ .isClosed => .ok false
      | _ => .ok true
    (if n ∈ ns then .error "refused" else a, n + 1)

end DataTier.Pool
