import DataTier.Pool.Service
import DataTier.Proofs.Pool.Custody

/-! What one request does to the pool (`Move`) and to the handles that are out, and what a
run of requests answers. A property of pools that every move keeps holds after every run. -/

namespace DataTier.Pool

variable {κ δ : Type}

/-- The pool after one request, in a service where the checkouts `held` are in their holders'
hands. -/
inductive Move (D : Driver δ) (held : Checkout → Prop) (p : Pool δ) : Pool δ → Prop
  | stays : Move D held p p
  | visit (now : Time.Instant) (a : Attempt) : Move D held p (examine D now a p).2
  | recount (f : Counters → Counters) : Move D held p { p with state := p.state.count f }
  | giveBack (now : Time.Instant) {c : Checkout} (hc : held c) : Move D held p (release D now c p)
  | call (op : Operation) {c : Checkout} (hc : held c) (valid : p.state.isValid c = true) :
      Move D held p { p with line := (p.line.ask D (.on c.connection op)).2 }
  | overhaul (source : Source.DataSource) (settings : Settings) (closed : Bool) :
      Move D held p (closeAll D { p with state := { p.state with source, settings, closed } })
  | setTolerance (n : Nat) : Move D held p (setTolerance n p)

namespace Move

variable {D : Driver δ} {held : Checkout → Prop} {p p' : Pool δ}

theorem custody (move : Move D held p p') (h : Custody p) (hk : ∀ c, held c → Known p c) :
    Custody p' := by
  cases move with
  | stays => exact h
  | visit now a => exact (examine_visits D now a p).custody h
  | recount f => exact h.recount f
  | @giveBack now c hc => exact (release_returns D now c p).custody h (hk c hc)
  | @call op c hc valid =>
    exact h.onLine (Nat.le_of_eq (Line.ask_served D c.connection op p.line).opened.symm)
  | overhaul source settings closed =>
    have changed : Custody { p with state := { p.state with source, settings, closed } } :=
      ⟨h.distinct, h.opened, h.tickets, h.issued, h.valid⟩
    exact changed.closeAll D
  | setTolerance n => exact ⟨h.distinct, h.opened, h.tickets, h.issued, h.valid⟩

theorem later (move : Move D held p p') : Later p p' := by
  cases move with
  | visit now a => exact (examine_visits D now a p).later
  | @giveBack now c hc => exact (release_returns D now c p).later
  | overhaul source settings closed =>
    have changed : Later p { p with state := { p.state with source, settings, closed } } :=
      .of_subset rfl fun _ hd => hd
    exact changed.trans (closeAll_later D _)
  | stays | recount | call | setTolerance => exact .of_subset rfl fun _ hd => hd

end Move

/-- What a caller is told after a visit. -/
def Outcome.reply : Outcome → Reply
  | .granted c => .handle c
  | .failed e => .failed e
  | .waits _ => .waiting
  | .retries _ => .retrying

namespace Service

variable [DecidableEq κ] {D : Driver δ}

/-- Somebody holds the handle. -/
def Holds (s : Service κ δ) (c : Checkout) : Prop := ∃ caller, s.held.get? caller = some c

theorem proceed_pool (D : Driver δ) (caller : κ) (a : Attempt) (s : Service κ δ) :
    (proceed D caller a s).2.pool = (examine D s.now a s.pool).2 := by
  unfold proceed
  split <;> rename_i h <;> rw [h]

theorem proceed_reply (D : Driver δ) (caller : κ) (a : Attempt) (s : Service κ δ) :
    (proceed D caller a s).1 = (examine D s.now a s.pool).1.reply := by
  unfold proceed
  split <;> rename_i h <;> rw [h] <;> rfl

theorem serve_move (D : Driver δ) (s : Service κ δ) (r : Request κ) :
    Move D s.Holds s.pool (s.serve D r).2.pool := by
  cases r with
  | acquire caller credentials =>
    simp only [serve, acquire]
    split
    · exact .stays
    · rw [proceed_pool]
      exact .visit _ _
  | release caller =>
    simp only [serve, release]
    split
    · exact .stays
    · rename_i c hc
      exact .giveBack _ ⟨caller, hc⟩
  | drop caller =>
    simp only [serve, drop]
    split <;> exact .stays
  | cancel caller =>
    simp only [serve, cancel]
    split <;> exact .stays
  | use caller op =>
    simp only [serve, use]
    split
    · exact .stays
    · rename_i c hc
      split
      · rename_i hvalid
        exact .call op ⟨caller, hc⟩ hvalid
      · exact .stays
  | closeAll => exact .overhaul s.pool.state.source s.pool.state.settings s.pool.state.closed
  | shutdown => exact .overhaul s.pool.state.source s.pool.state.settings true
  | reconfigure change =>
    exact .overhaul (change s.pool.state.source s.pool.state.settings).1
      (change s.pool.state.source s.pool.state.settings).2 s.pool.state.closed
  | setTolerance n => exact .setTolerance n
  | resume caller =>
    simp only [serve, resume]
    split
    · rw [proceed_pool]
      exact .visit _ _
    · exact .stays
    · split
      · exact .recount _
      · exact .stays
  | expire caller => rcases serve_expire D s caller with same | same <;> rw [same] <;> exact .stays
  | elapse d => exact .stays

/-! ## Handles -/

end Service

/-- The handle that a reply hands over. -/
def Reply.handle? : Reply → Option Checkout
  | .handle c => some c
  | _ => none

namespace Service

variable [DecidableEq κ] {D : Driver δ}

def replies (D : Driver δ) : Service κ δ → List (Request κ) → List Reply
  | _, [] => []
  | s, r :: rs => (s.serve D r).1 :: replies D (s.serve D r).2 rs

/-- The handles that a run of requests hands out, the first one first. -/
def handles (D : Driver δ) (s : Service κ δ) (rs : List (Request κ)) : List Checkout :=
  (s.replies D rs).filterMap Reply.handle?

theorem handles_cons (D : Driver δ) (s : Service κ δ) (r : Request κ) (rs : List (Request κ)) :
    s.handles D (r :: rs) = (s.serve D r).1.handle?.toList ++ (s.serve D r).2.handles D rs := by
  simp only [handles, replies, List.filterMap_cons]
  cases (s.serve D r).1.handle? <;> rfl

/-- What a reply says of the handles that are out: a new one, under the next ticket, has
joined them, or they have become no more. -/
structure Hands (s : Service κ δ) (reply : Reply) (s' : Service κ δ) : Prop where
  fresh : ∀ c, reply.handle? = some c → c.ticket = s.pool.state.nextTicket ∧
    c ∈ s'.pool.state.active ∧ ∃ caller, s'.held = s.held.set caller c
  rest : reply.handle? = none →
    ∀ caller c, s'.held.get? caller = some c → s.held.get? caller = some c

theorem Hands.of_held {s s' : Service κ δ} {reply : Reply} (hr : reply.handle? = none)
    (hh : s'.held = s.held) : Hands s reply s' := by
  refine ⟨fun c hc => ?_, fun _ caller c hc => hh ▸ hc⟩
  rw [hr] at hc
  cases hc

theorem Hands.of_erase {s s' : Service κ δ} {reply : Reply} {caller : κ}
    (hr : reply.handle? = none) (hh : s'.held = s.held.erase caller) : Hands s reply s' := by
  refine ⟨fun c hc => ?_, fun _ k c hc => ?_⟩
  · rw [hr] at hc
    cases hc
  · rw [hh, Table.get?_erase] at hc
    split at hc
    · cases hc
    · exact hc

theorem proceed_hands (D : Driver δ) (caller : κ) (a : Attempt) {s₀ s : Service κ δ}
    (hp : s.pool = s₀.pool) (hh : s.held = s₀.held) :
    Hands s₀ (proceed D caller a s).1 (proceed D caller a s).2 := by
  have visit := examine_visits D s.now a s.pool
  unfold proceed
  split <;> rename_i h <;> rw [h] at visit
  · refine ⟨fun c hc => ?_, fun hn => by cases hn⟩
    cases hc
    obtain ⟨ht, ha⟩ := visit.fresh
    exact ⟨hp ▸ ht, ha, caller, by rw [hh]⟩
  all_goals exact .of_held rfl hh

theorem serve_hands (D : Driver δ) (s : Service κ δ) (r : Request κ) :
    Hands s (s.serve D r).1 (s.serve D r).2 := by
  cases r with
  | acquire caller credentials =>
    simp only [serve, acquire]
    split
    · exact .of_held rfl rfl
    · exact proceed_hands D caller _ rfl rfl
  | release caller =>
    simp only [serve, release]
    split
    · exact .of_held rfl rfl
    · exact .of_erase rfl rfl
  | drop caller =>
    simp only [serve, drop]
    split
    · exact .of_erase rfl rfl
    · exact .of_held rfl rfl
  | cancel caller =>
    simp only [serve, cancel]
    split <;> exact .of_held rfl rfl
  | use caller op =>
    simp only [serve, use]
    split
    · exact .of_held rfl rfl
    · split
      · refine .of_held ?_ rfl
        dsimp only
        split
        · rfl
        · split <;> rfl
      · exact .of_held rfl rfl
  | resume caller =>
    simp only [serve, resume]
    split
    · exact proceed_hands D caller _ rfl rfl
    · exact .of_held rfl rfl
    · split <;> exact .of_held rfl rfl
  | expire caller =>
    rcases serve_expire D s caller with same | same <;> rw [same] <;> exact .of_held rfl rfl
  | closeAll | shutdown | reconfigure | setTolerance | elapse => exact .of_held rfl rfl

/-! ## Services in order -/

/-- The pool is in order, and so are the handles that were handed out: each under a ticket of
its own, and no two callers with the same one. -/
structure Orderly (s : Service κ δ) (handles : List Checkout) : Prop where
  custody : Custody s.pool
  known : ∀ c ∈ handles, Known s.pool c
  distinct : (handles.map (·.ticket)).Nodup
  held : ∀ caller c, s.held.get? caller = some c → c ∈ handles
  sole : ∀ k k' c, s.held.get? k = some c → s.held.get? k' = some c → k = k'

theorem start_orderly (source : Source.DataSource) (settings : Settings) (driver : δ) :
    Orderly (start source settings driver : Service κ δ) [] := by
  refine ⟨⟨List.nodup_nil, by simp [start, State.new, State.connections], List.nodup_nil,
    by simp [start, State.new], by simp [start, State.new]⟩, by simp, List.nodup_nil, ?_, ?_⟩
  · intro caller c hc
    cases hc
  · intro k k' c hc
    cases hc

theorem Orderly.known_of_holds {s : Service κ δ} {handles : List Checkout} (h : Orderly s handles)
    (c : Checkout) (hc : s.Holds c) : Known s.pool c := by
  obtain ⟨caller, hc⟩ := hc
  exact h.known c (h.held caller c hc)

theorem Orderly.serve {s : Service κ δ} {handles : List Checkout} (h : Orderly s handles)
    (D : Driver δ) (r : Request κ) :
    Orderly (s.serve D r).2 (handles ++ (s.serve D r).1.handle?.toList) := by
  have move := serve_move D s r
  have hands := serve_hands D s r
  have custody := move.custody h.custody h.known_of_holds
  have known : ∀ c ∈ handles, Known (s.serve D r).2.pool c :=
    fun c hc => (h.known c hc).later move.later
  cases hr : (s.serve D r).1.handle? with
  | none =>
    rw [Option.toList_none, List.append_nil]
    have kept := hands.rest hr
    exact ⟨custody, known, h.distinct, fun k c hc => h.held k c (kept k c hc),
      fun k k' c hk hk' => h.sole k k' c (kept k c hk) (kept k' c hk')⟩
  | some c =>
    obtain ⟨ht, hactive, caller, hheld⟩ := hands.fresh c hr
    -- nobody had the new ticket before
    have new : ∀ d ∈ handles, d.ticket ≠ c.ticket := fun d hd e => by
      have := (h.known d hd).issued
      omega
    rw [Option.toList_some]
    refine ⟨custody, fun d hd => ?_, ?_, fun k d hd => ?_, fun k k' d hk hk' => ?_⟩
    · rcases List.mem_append.mp hd with hd | hd
      · exact known d hd
      · rw [List.mem_singleton.mp hd]
        exact custody.known hactive
    · rw [List.map_append, List.map_singleton]
      refine h.distinct.append (List.nodup_singleton _) ?_
      simpa using new
    · rw [hheld, Table.get?_set] at hd
      split at hd
      · rw [Option.some.inj hd]
        exact List.mem_append_right _ (List.mem_singleton_self _)
      · exact List.mem_append_left _ (h.held k d hd)
    · rw [hheld, Table.get?_set] at hk hk'
      split at hk <;> split at hk'
      · rename_i e e'
        exact e.symm.trans e'
      · exact absurd (congrArg Checkout.ticket (Option.some.inj hk)).symm (new d (h.held k' d hk'))
      · exact absurd (congrArg Checkout.ticket (Option.some.inj hk')).symm (new d (h.held k d hk))
      · exact h.sole k k' d hk hk'

theorem Orderly.run {s : Service κ δ} {handles : List Checkout} (h : Orderly s handles)
    (D : Driver δ) (rs : List (Request κ)) :
    Orderly (s.run D rs) (handles ++ s.handles D rs) := by
  induction rs generalizing s handles with
  | nil =>
    rw [show s.handles D [] = [] from rfl, List.append_nil]
    exact h
  | cons r rs ih =>
    rw [handles_cons, ← List.append_assoc]
    exact ih (h.serve D r)

/-- What every move of a pool in order keeps holds after every run. -/
theorem Orderly.run_keeps {P : Pool δ → Prop} {s : Service κ δ} {handles : List Checkout}
    (h : Orderly s handles) (keeps : ∀ held p p', Move D held p p' → Custody p →
      (∀ c, held c → Known p c) → P p → P p') (hs : P s.pool) (rs : List (Request κ)) :
    P (s.run D rs).pool := by
  induction rs generalizing s handles with
  | nil => exact hs
  | cons r rs ih =>
    have step := serve_move D s r
    exact ih (h.serve D r) (keeps _ _ _ step h.custody h.known_of_holds hs)

theorem run_later (D : Driver δ) (s : Service κ δ) (rs : List (Request κ)) :
    Later s.pool (s.run D rs).pool := by
  induction rs generalizing s with
  | nil => exact Later.refl _
  | cons r rs ih => exact (serve_move D s r).later.trans (ih _)

end Service
end DataTier.Pool
