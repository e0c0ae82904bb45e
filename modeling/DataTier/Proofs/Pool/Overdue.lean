import DataTier.Proofs.Pool.Moves

/-! The oldest checkout is at the front of the active ones. A checkout joins them at their end
and leaves them from anywhere, and the clock does not go back (`Aged`); so the front tells whether
any of them is overdue. The clock may stand still from one request to the next. -/

namespace DataTier.Pool

variable {κ δ : Type} {D : Driver δ} {now now' : Time.Instant} {c oldest : Checkout}
  {cs cs' rest : List Checkout} {p p' : Pool δ}

/-! ## Ages -/

/-- In the order in which they began, none of them after the reading. -/
structure Aged (now : Time.Instant) (cs : List Checkout) : Prop where
  order : cs.Pairwise fun c d => c.checkedOutAt.nanoseconds ≤ d.checkedOutAt.nanoseconds
  past : ∀ c ∈ cs, c.checkedOutAt.nanoseconds ≤ now.nanoseconds

theorem Aged.nil (now : Time.Instant) : Aged now [] := ⟨.nil, by simp⟩

theorem Aged.wait (h : Aged now cs) (le : now.nanoseconds ≤ now'.nanoseconds) :
    Aged now' cs := by
  refine ⟨h.order, ?_⟩
  intro c hc
  exact Nat.le_trans (h.past c hc) le

theorem Aged.thin (h : Aged now cs) (part : cs'.Sublist cs) : Aged now cs' := by
  refine ⟨h.order.sublist part, ?_⟩
  intro c hc
  exact h.past c (part.subset hc)

theorem Aged.join (h : Aged now cs) (hc : c.checkedOutAt = now) : Aged now (cs ++ [c]) := by
  constructor
  · refine List.pairwise_append.mpr ⟨h.order, List.pairwise_singleton _ _, ?_⟩
    intro d hd e he
    rw [List.mem_singleton.mp he, hc]
    exact h.past d hd
  · intro d hd
    rcases List.mem_append.mp hd with hd | hd
    · exact h.past d hd
    · rw [List.mem_singleton.mp hd]
      exact Nat.le_of_eq (congrArg Time.Instant.nanoseconds hc)

/-- At any reading no other checkout is older than the first. -/
theorem Aged.age_le (h : Aged now (oldest :: rest)) (hc : c ∈ oldest :: rest)
    (reading : Time.Instant) :
    (c.age reading).nanoseconds ≤ (oldest.age reading).nanoseconds := by
  have first : oldest.checkedOutAt.nanoseconds ≤ c.checkedOutAt.nanoseconds := by
    rcases List.mem_cons.mp hc with rfl | hc
    · exact Nat.le_refl _
    · exact List.rel_of_pairwise_cons h.order hc
  exact Nat.sub_le_sub_left first _

/-! ## What operations do to the active checkouts -/

theorem Offers.active_sublist {credentials : Source.Credentials} {o : Candidate}
    (offer : Offers D now credentials p o p') :
    p'.state.active.Sublist p.state.active := by
  cases offer with
  | overdue idle full active due =>
    rw [active]
    exact List.sublist_cons_self _ _
  | idle | fresh | unreachable | none => exact List.Sublist.refl _

theorem Visits.aged {a : Attempt} {o : Outcome} (visit : Visits D now a p o p')
    (h : Aged now p.state.active) : Aged now p'.state.active := by
  cases visit with
  | refused closed => exact h
  | @waits closed p₁ offer =>
    obtain ⟨f, hf⟩ := wait_eq a p₁
    rw [hf]
    exact h.thin offer.active_sublist
  | unreachable closed offer | rejected closed offer bad => exact h.thin offer.active_sublist
  | granted closed offer good => exact (h.thin offer.active_sublist).join rfl

theorem Returns.active_sublist (back : Returns D now c p p') :
    p'.state.active.Sublist p.state.active := by
  cases back <;> exact List.filter_sublist

namespace Service

variable [DecidableEq κ] {s : Service κ δ}

theorem serve_aged (D : Driver δ) (r : Request κ) (h : Aged s.tick.now s.pool.state.active) :
    Aged s.tick.now (s.serve D r).2.pool.state.active := by
  cases r with
  | acquire caller credentials =>
    simp only [serve, acquire]
    split
    · exact h
    · rw [proceed_pool]
      exact (examine_visits D s.tick.now _ s.pool).aged h
  | release caller =>
    simp only [serve, release]
    split
    · exact h
    · exact h.thin (release_returns D s.tick.now _ s.pool).active_sublist
  | drop caller =>
    simp only [serve, drop]
    split <;> exact h
  | cancel caller =>
    simp only [serve, cancel]
    split <;> exact h
  | use caller op =>
    simp only [serve, use]
    split
    · exact h
    · split <;> exact h
  | resume caller =>
    simp only [serve, resume]
    split
    · rw [proceed_pool]
      exact (examine_visits D s.tick.now _ s.pool).aged h
    · exact h
    · split <;> exact h
  | expire caller => rcases serve_expire D s caller with same | same <;> rw [same] <;> exact h
  | closeAll | shutdown | reconfigure => exact .nil _
  | setTolerance | elapse => exact h

/-! ## Runs by a clock -/

/-- A run whose requests come at given readings of the clock. -/
def runAt (D : Driver δ) (s : Service κ δ) (rs : List (Time.Instant × Request κ)) :
    Service κ δ := rs.foldl (fun s r => ({ s with now := r.1 }.serve D r.2).2) s

/-- The readings do not go back. -/
def Ascending (rs : List (Time.Instant × Request κ)) : Prop :=
  rs.Pairwise fun r r' => r.1.nanoseconds ≤ r'.1.nanoseconds

theorem Orderly.runAt {handles : List Checkout} (h : Orderly s handles) (D : Driver δ)
    (rs : List (Time.Instant × Request κ)) : ∃ handles, Orderly (s.runAt D rs) handles := by
  induction rs generalizing s handles with
  | nil => exact ⟨handles, h⟩
  | cons r rs ih =>
    have there : Orderly { s with now := r.1 } handles :=
      ⟨h.custody, h.known, h.distinct, h.held, h.sole⟩
    exact ih (there.serve D r.2)

theorem runAt_aged (D : Driver δ) {rs : List (Time.Instant × Request κ)}
    (ascending : Ascending rs) (h : Aged now s.pool.state.active)
    (start : ∀ r ∈ rs, now.nanoseconds ≤ (r.1.plus ⟨1⟩).nanoseconds) :
    ∃ last, Aged last (s.runAt D rs).pool.state.active := by
  induction rs generalizing s now with
  | nil => exact ⟨now, h⟩
  | cons r rs ih =>
    obtain ⟨first, ascending⟩ := List.pairwise_cons.mp ascending
    have served := serve_aged (s := { s with now := r.1 }) D r.2
      (h.wait (start r List.mem_cons_self))
    refine ih ascending served ?_
    intro r' hr'
    exact Nat.add_le_add_right (first r' hr') 1

theorem proceed_now (D : Driver δ) (caller : κ) (a : Attempt) (s : Service κ δ) :
    (proceed D caller a s).2.now = s.now := by
  unfold proceed
  split <;> rfl

theorem now_le_serve (D : Driver δ) (s : Service κ δ) (r : Request κ) :
    s.now.nanoseconds ≤ (s.serve D r).2.now.nanoseconds := by
  have tick : s.now.nanoseconds ≤ s.tick.now.nanoseconds := Nat.le_succ _
  cases r with
  | acquire caller credentials =>
    simp only [serve, acquire]
    split
    · exact tick
    · rw [proceed_now]
      exact tick
  | resume caller =>
    simp only [serve, resume]
    split
    · rw [proceed_now]
      exact tick
    · exact tick
    · split <;> exact tick
  | release caller =>
    simp only [serve, release]
    split <;> exact tick
  | drop caller =>
    simp only [serve, drop]
    split <;> exact tick
  | cancel caller =>
    simp only [serve, cancel]
    split <;> exact tick
  | use caller op =>
    simp only [serve, use]
    split
    · exact tick
    · split <;> exact tick
  | expire caller => rcases serve_expire D s caller with same | same <;> rw [same] <;> exact tick
  | closeAll | shutdown | reconfigure | setTolerance => exact tick
  | elapse d => exact Nat.le_add_right _ _

/-- A run keeps a clock of its own, and its requests come at ascending readings of that. -/
theorem run_eq_runAt (D : Driver δ) (s : Service κ δ) (rs : List (Request κ)) :
    ∃ rs', rs'.map Prod.snd = rs ∧ Ascending rs' ∧
      (∀ r ∈ rs', s.now.nanoseconds ≤ r.1.nanoseconds) ∧ s.runAt D rs' = s.run D rs := by
  induction rs generalizing s with
  | nil => exact ⟨[], rfl, .nil, by simp, rfl⟩
  | cons r rs ih =>
    obtain ⟨rs', requests, ascending, after, same⟩ := ih (s.serve D r).2
    have next : ∀ r' ∈ rs', s.now.nanoseconds ≤ r'.1.nanoseconds := by
      intro r' hr'
      exact Nat.le_trans (now_le_serve D s r) (after r' hr')
    refine ⟨(s.now, r) :: rs', congrArg (r :: ·) requests, ascending.cons next, ?_, same⟩
    intro r' hr'
    rcases List.mem_cons.mp hr' with rfl | hr'
    · exact Nat.le_refl _
    · exact next r' hr'

end Service

/-! ## Taking over -/

/-- Of the checkouts that the pool knows, the one that is taken over loses its validity. -/
theorem Custody.isValid_takeOver (h : Custody p) (active : p.state.active = oldest :: rest)
    (known : Known p c) :
    (p.state.isValid c = true ∧ (p.state.takeOver now oldest rest).isValid c = false) ↔
      c = oldest := by
  have same : (p.state.takeOver now oldest rest).isValid c =
      (!decide (c.ticket = oldest.ticket) && p.state.isValid c) :=
    State.isValid_invalidate { p.state with active := rest } oldest c
  have front : oldest ∈ p.state.active := by
    rw [active]
    exact List.mem_cons_self
  rw [same]
  constructor
  · rintro ⟨valid, lost⟩
    rw [valid, Bool.and_true, Bool.not_eq_false', decide_eq_true_eq] at lost
    exact (known.sole oldest front lost.symm).symm
  · rintro rfl
    exact ⟨(h.isValid_iff known).mpr front, by simp⟩

namespace Service

variable [DecidableEq κ]

/-- After any run of requests at readings of a clock that does not go back, the active checkouts
are in the order in which they began. So at any reading the pool takes over a checkout if one of
them is overdue, and that is one of the greatest age: it is the first, its handle and no other
becomes invalid, the others stay as they are, and when its connection is handed out again, it
comes last and keeps its number and the time of its opening. -/
theorem oldest_in_front (D : Driver δ) (source : Source.DataSource) (settings : Settings)
    (driver : δ) (rs : List (Time.Instant × Request κ)) (ascending : Ascending rs) :
    let s : Service κ δ := (start source settings driver).runAt D rs
    let p := s.pool
    p.state.active.Pairwise (fun c d =>
      c.checkedOutAt.nanoseconds ≤ d.checkedOutAt.nanoseconds) ∧
    ∀ now : Time.Instant,
      ((∀ c ∈ p.state.active, ¬p.state.isOverdue now c) → claimOverdue D now p = (.none, p)) ∧
      ((∃ c ∈ p.state.active, p.state.isOverdue now c) → ∃ oldest rest p',
        claimOverdue D now p = (.ready oldest.detach, p') ∧
        p.state.active = oldest :: rest ∧ p'.state.active = rest ∧
        (∀ c ∈ p.state.active, (c.age now).nanoseconds ≤ (oldest.age now).nanoseconds) ∧
        (∀ c, s.Holds c ∨ c ∈ p.state.active →
          (p.state.isValid c = true ∧ p'.state.isValid c = false ↔ c = oldest)) ∧
        ∀ (later : Time.Instant) (a : Attempt) (line : Line δ),
          let r := accept D later a oldest.detach { p' with line }
          r.1.connection = oldest.connection ∧ r.1.physicalId = oldest.physicalId ∧
          r.1.createdAt = oldest.createdAt ∧ r.1.checkedOutAt = later ∧
          r.2.state.active = rest ++ [r.1]) := by
  intro s p
  obtain ⟨handles, orderly⟩ := (start_orderly source settings driver).runAt (κ := κ) D rs
  obtain ⟨last, aged⟩ : ∃ last, Aged last p.state.active :=
    runAt_aged D ascending (.nil .start) fun _ _ => Nat.zero_le _
  refine ⟨aged.order, ?_⟩
  intro now
  rcases claimOverdue_cases D now p with ⟨claim, young⟩ | ⟨oldest, rest, active, due, claim⟩
  · refine ⟨fun _ => claim, ?_⟩
    rintro ⟨c, hc, due⟩
    cases active : p.state.active with
    | nil =>
      rw [active] at hc
      cases hc
    | cons oldest rest =>
      -- the first is at least as old
      rw [active] at hc aged
      have front := young oldest (by rw [active]; rfl)
      exact absurd (Nat.le_trans due (aged.age_le hc now)) front
  · have front : oldest ∈ p.state.active := by
      rw [active]
      exact List.mem_cons_self
    refine ⟨fun none => absurd due (none oldest front), fun _ => ?_⟩
    refine ⟨oldest, rest, _, claim, active, rfl, ?_, ?_, ?_⟩
    · intro c hc
      rw [active] at hc aged
      exact aged.age_le hc now
    · rintro c (held | out)
      · exact orderly.custody.isValid_takeOver active (orderly.known_of_holds c held)
      · exact orderly.custody.isValid_takeOver active (orderly.custody.known out)
    · intro later a line
      exact ⟨rfl, rfl, rfl, rfl, rfl⟩

/-- Two callers come at one reading, and a third takes over the connection of the first; so from
then on the checkout of the second is the oldest. -/
theorem oldest_in_front_taken :
    let D := Driver.refusing []
    let rs : List (Time.Instant × Request Nat) :=
      [(⟨5⟩, .acquire 0 none), (⟨5⟩, .acquire 1 none), (⟨7⟩, .acquire 2 none)]
    let s : Service Nat Nat :=
      (start { url := "db" } { maxActive := 2, maxCheckoutTime := .zero } 0).runAt D rs
    Ascending rs ∧ s.pool.state.active.map (·.connection) = [2, 1] ∧
    ∃ oldest rest p', claimOverdue D ⟨9⟩ s.pool = (.ready oldest.detach, p') ∧
      s.pool.state.active = oldest :: rest ∧ p'.state.active = rest := by
  intro D rs s
  have ascending : Ascending rs := by
    simp [rs, Ascending]
  have two : s.pool.state.active.map (·.connection) = [2, 1] := by decide +kernel
  obtain ⟨c, hc, -⟩ := List.mem_map.mp (two ▸ List.mem_cons_self)
  have due : s.pool.state.isOverdue ⟨9⟩ c := Nat.zero_le _
  have claims := ((oldest_in_front D { url := "db" } { maxActive := 2, maxCheckoutTime := .zero } 0
    rs ascending).2 ⟨9⟩).2
  obtain ⟨oldest, rest, p', claim, active, left, _⟩ := claims ⟨c, hc, due⟩
  exact ⟨ascending, two, oldest, rest, p', claim, active, left⟩

end Service
end DataTier.Pool
