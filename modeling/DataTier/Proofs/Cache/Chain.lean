import DataTier.Proofs.Cache.Reflection
import DataTier.Proofs.Cache.Visit

/-! The chains that settings build, with gates on top or without. Whatever is done to such a
chain, its soft layer does what `Acts` says, so that it reflects the history of the chain. -/

namespace DataTier.Cache

open History
open Time (Instant)

/-! ## The soft layer -/

namespace Soft

variable {gated : Bool} {limits : Limits} {maxEntries : Option Nat} {s : Soft Memory}

theorem afterDrain_eq {α : Type} (id : String) (maxEntries : Option Nat)
    (f : Soft Memory → Answer α × Soft Memory) (s : Soft Memory) :
    afterDrain (Memory.store id maxEntries) f s = f s.drained := by
  rw [afterDrain, drain_eq]

theorem get_eq (limits : Limits) (id : String) (maxEntries : Option Nat) (k : Key)
    (s : Soft Memory) : get limits (Memory.store id maxEntries) k s =
      (.ok (s.drained.below.entry? k), noteRead limits k (.ok (s.drained.below.entry? k))
        ⟨(s.drained.below.get k).2, s.drained.books⟩) := by
  rw [get, afterDrain_eq, ← Memory.get_fst]
  rfl

theorem Reflects.get {h : List Turn} (reflects : Reflects gated limits h s) (id : String)
    (maxEntries : Option Nat) (k : Key) :
    (Soft.get limits (Memory.store id maxEntries) k s).1 = .ok (latest? gated h k) := by
  have drained := reflects.tracks.drained reflects.consistent
  rw [get_eq, drained.latest?_eq reflects.consistent.drained]

theorem put_eq {id : String} {k : Key} {e : Entry} {b : Books} (limits : Limits)
    (reconciled : reconcile (Memory.store id maxEntries)
      ⟨s.drained.below.put maxEntries k e, s.drained.books.track k e.weight⟩ =
        (.ok (), ⟨s.drained.below.put maxEntries k e, b⟩)) :
    put limits (Memory.store id maxEntries) k e s =
      (.ok (), enforce limits ⟨s.drained.below.put maxEntries k e, b⟩) := by
  rw [put, afterDrain_eq]
  dsimp only [Memory.store] at reconciled ⊢
  rw [reconciled]

/-- A write goes through; what the memory has dropped for it is forgotten before the budget is
looked at. -/
theorem put_forgets (hs : s.Consistent) (limits : Limits) (id : String) (maxEntries : Option Nat)
    (k : Key) (e : Entry) :
    ∃ b, Forgets (s.drained.below.put maxEntries k e) (s.drained.books.track k e.weight) b ∧
      Level (s.drained.below.put maxEntries k e) b ∧ b.reclaimedTotal = s.books.reclaimedTotal ∧
      put limits (Memory.store id maxEntries) k e s =
        (.ok (), enforce limits ⟨s.drained.below.put maxEntries k e, b⟩) := by
  have covers := hs.drained.put maxEntries k e
  obtain ⟨b, reconciled, level⟩ := covers.reconcile id maxEntries
  have forgets := forgetEvicted_forgets (Books.nodup_oldestFirst covers.books.nodup)
    (fun _ hk => Books.mem_oldestFirst.mp hk) reconciled
  have total := reclaimedTotal_reconcile (Memory.store id maxEntries)
    ⟨s.drained.below.put maxEntries k e, s.drained.books.track k e.weight⟩
  rw [reconciled] at total
  exact ⟨b, forgets, level, total, put_eq limits reconciled⟩

theorem put_acts (hs : s.Consistent) (gated : Bool) (limits : Limits) (id : String)
    (maxEntries : Option Nat) (k : Key) (e : Entry) (a : Answer Reply) :
    Acts gated limits maxEntries s (.call (.put k e)) a
      (put limits (Memory.store id maxEntries) k e s).2 := by
  obtain ⟨b, forgets, level, -, written⟩ := put_forgets hs limits id maxEntries k e
  rw [written]
  exact .writes k e a forgets level

theorem clear_acts (gated : Bool) (limits : Limits) (id : String) (maxEntries : Option Nat)
    (a : Answer Reply) (s : Soft Memory) :
    Acts gated limits maxEntries s (.call .clear) a (clear (Memory.store id maxEntries) s).2 := by
  rw [clear, afterDrain_eq]
  exact .clears a

theorem perform_acts (hs : s.Consistent) (limits : Limits) (id : String)
    (maxEntries : Option Nat) (now : Instant) (o : Operation) :
    let r := (Shape.soft limits (.memory id maxEntries)).perform now s o
    Acts false limits maxEntries s o r.1 r.2 := by
  let d := store limits (Memory.store id maxEntries)
  cases o with
  | reclaimUnretained => exact .reclaims _
  | call c =>
    show Acts false limits maxEntries s (.call c) (d.perform c s).1 (d.perform c s).2
    cases c with
    | size =>
      simp only [Store.perform, d, store, size, afterDrain_eq]
      exact .counts _
    | contains k =>
      simp only [Store.perform, d, store, contains, afterDrain_eq]
      exact .looks k _
    | get k =>
      simp only [Store.perform, d, store, get_eq]
      exact .reads k
    | put k e => exact put_acts hs false limits id maxEntries k e _
    | remove k =>
      simp only [Store.perform, d, store, remove, afterDrain_eq]
      exact .removes k _ rfl
    | clear => exact clear_acts false limits id maxEntries _ s

end Soft

/-! ## Gates -/

namespace Blocking

variable {σ : Type} {d : Store σ} {now : Instant} {k : Key} {s : Blocking σ}

theorem Gates.isLocked_eq_false_iff {g : Gates} :
    g.isLocked k = false ↔ g.table.get? k = none := by
  simp [isLocked, Table.has]

theorem Gates.isLocked_iff {g : Gates} :
    g.isLocked k = true ↔ ∃ gate, g.table.get? k = some gate := by
  simp [isLocked, Table.has, Option.isSome_iff_exists]

/-- Whether the clock can show the end of a wait that begins now, if it has one. -/
def Gates.isTimed (g : Gates) (now : Instant) : Bool :=
  g.timeout.all fun t => (now.after? t).isSome

theorem Visit.Step.timeout {v v' : Visit} {s' : Blocking σ}
    (step : Visit.Step d now v s v' s') : s'.gates.timeout = s.gates.timeout := by
  cases step <;> rfl

theorem alone_timeout (d : Store σ) (now : Instant) (v : Visit) (s : Blocking σ) :
    (alone d now v s).2.gates.timeout = s.gates.timeout := by
  rw [alone, Visit.settle]
  exact Visit.steps_invariant _ (I := fun _ u => u.gates.timeout = s.gates.timeout)
    (fun step same => step.timeout.trans same) 8 rfl

/-- A reader has an end of its wait to name, if it needs one, or fails at once. -/
theorem Visit.read_cases (id : String) (now : Instant) (k : Key) (g : Gates) :
    (g.isTimed now = true ∧ ∃ deadline, Visit.read id now k g.timeout =
      { key := k, phase := .entering, timeout := g.timeout, deadline }) ∨
    (g.isTimed now = false ∧ ∃ t, g.timeout = some t ∧ Visit.read id now k g.timeout =
      { key := k, phase := .finished (.error (.deadline k id t)), timeout := g.timeout }) := by
  unfold Visit.read
  cases wait : g.timeout with
  | none => exact .inl ⟨by simp [Gates.isTimed, wait], none, rfl⟩
  | some t =>
    dsimp only
    cases ends : now.after? t with
    | none => exact .inr ⟨by simp [Gates.isTimed, wait, ends], t, rfl, rfl⟩
    | some deadline => exact .inl ⟨by simp [Gates.isTimed, wait, ends], some deadline, rfl⟩

/-- An open gate passes a read on. -/
theorem get_of_open (free : s.gates.isLocked k = false) (timed : s.gates.isTimed now = true) :
    (get d now k s).1 = (d.get k s.below).1 ∧ (get d now k s).2.below = (d.get k s.below).2 := by
  have look := Gates.isLocked_eq_false_iff.mp free
  rcases Visit.read_cases d.id now k s.gates with ⟨_, deadline, enters⟩ | ⟨untimed, _⟩
  · rw [get, enters]
    rcases below : d.get k s.below with ⟨_ | _ | _, below'⟩ <;>
      simp [alone, Visit.settle, Visit.steps, Visit.step, Visit.afterRead, Visit.answer?, look,
        below, Gates.close]
  · rw [timed] at untimed
    cases untimed

theorem get_of_untimed (d : Store σ) (k : Key) (untimed : s.gates.isTimed now = false) :
    ∃ t, s.gates.timeout = some t ∧ get d now k s = (.error (.deadline k d.id t), s) := by
  rcases Visit.read_cases d.id now k s.gates with ⟨timed, _⟩ | ⟨_, t, wait, fails⟩
  · rw [timed] at untimed
    cases untimed
  · refine ⟨t, wait, ?_⟩
    rw [get, fails]
    simp [alone, Visit.settle, Visit.steps, Visit.step, Visit.answer?]

/-- A read at a closed gate fails in the end and does nothing. -/
theorem get_of_locked (d : Store σ) (now : Instant) (locked : s.gates.isLocked k = true) :
    ∃ e, get d now k s = (.error e, s) := by
  obtain ⟨gate, look⟩ := Gates.isLocked_iff.mp locked
  rcases Visit.read_cases d.id now k s.gates with ⟨_, deadline, enters⟩ | ⟨untimed, _⟩
  · rw [get, enters]
    by_cases shut : s.gates.isShut gate = true
    · cases deadline <;>
        simp [alone, Visit.settle, Visit.steps, Visit.step, Visit.answer?, Visit.hasExpired,
          Visit.expire, look, shut, Time.Instant.reached]
    · simp [alone, Visit.settle, Visit.steps, Visit.step, Visit.answer?, look, shut]
  · obtain ⟨t, _, fails⟩ := get_of_untimed d k untimed
    exact ⟨_, fails⟩

/-- A read fails and does nothing, unless it finds its gate open and has a wait that can be timed. -/
theorem get_cases (d : Store σ) (now : Instant) (k : Key) (s : Blocking σ) :
    (∃ e, get d now k s = (.error e, s)) ∨
      s.gates.isLocked k = false ∧ s.gates.isTimed now = true := by
  cases locked : s.gates.isLocked k with
  | true => exact .inl (get_of_locked d now locked)
  | false =>
    cases timed : s.gates.isTimed now with
    | false =>
      obtain ⟨t, _, fails⟩ := get_of_untimed d k timed
      exact .inl ⟨_, fails⟩
    | true => exact .inr ⟨rfl, rfl⟩

theorem put_below (d : Store σ) (now : Instant) (k : Key) (e : Entry) (s : Blocking σ) :
    (put d now k e s).2.below = (d.put k e s.below).2 := by
  cases look : s.gates.table.get? k <;>
    simp [put, alone, Visit.write, Visit.settle, Visit.steps, Visit.step, look]

theorem remove_below (d : Store σ) (now : Instant) (k : Key) (s : Blocking σ) :
    (remove d now k s).2.below = s.below := by
  cases look : s.gates.table.get? k <;>
    simp [remove, alone, Visit.giveUp, Visit.settle, Visit.steps, Visit.step, look]

theorem perform_acts {s : Blocking (Soft Memory)} (hs : s.below.Consistent)
    (timeout : Option Time.Duration) (limits : Soft.Limits) (id : String)
    (maxEntries : Option Nat) (now : Instant) (o : Soft.Operation) :
    let r := (Shape.blocking timeout (.soft limits (.memory id maxEntries))).perform now s o
    Soft.Acts true limits maxEntries s.below o r.1 r.2.below ∧
      r.2.gates.timeout = s.gates.timeout := by
  let d := Soft.store limits (Memory.store id maxEntries)
  cases o with
  | reclaimUnretained => exact ⟨.reclaims _, rfl⟩
  | call c =>
    let gated : Store (Blocking (Soft Memory)) := store (fun _ => d) now
    show Soft.Acts true limits maxEntries s.below (.call c) (gated.perform c s).1
      (gated.perform c s).2.below ∧ (gated.perform c s).2.gates.timeout = s.gates.timeout
    cases c with
    | size =>
      refine ⟨?_, rfl⟩
      simp only [Store.perform, gated, store, onBelow, d, Soft.store, Soft.size,
        Soft.afterDrain_eq]
      exact .counts _
    | contains k =>
      refine ⟨?_, rfl⟩
      simp only [Store.perform, gated, store, onBelow, d, Soft.store, Soft.contains,
        Soft.afterDrain_eq]
      exact .looks k _
    | get k =>
      refine ⟨?_, alone_timeout ..⟩
      show Soft.Acts true limits maxEntries s.below _ ((get d now k s).1.map Reply.entry)
        (get d now k s).2.below
      rcases get_cases d now k s with ⟨e, fails⟩ | ⟨free, timed⟩
      · rw [fails]
        exact .fails k e
      · obtain ⟨answer, below⟩ := get_of_open (d := d) free timed
        rw [answer, below]
        simp only [d, Soft.store, Soft.get_eq]
        exact .reads k
    | put k e =>
      refine ⟨?_, alone_timeout d now (.write k e) s⟩
      show Soft.Acts true limits maxEntries s.below _ _ (put d now k e s).2.below
      rw [put_below]
      exact Soft.put_acts hs true limits id maxEntries k e _
    | remove k =>
      refine ⟨?_, alone_timeout ..⟩
      show Soft.Acts true limits maxEntries s.below _ _ (remove d now k s).2.below
      rw [remove_below]
      exact .passes k _ rfl
    | clear => exact ⟨Soft.clear_acts true limits id maxEntries _ s.below, rfl⟩

end Blocking

/-! ## Built chains -/

theorem Shape.live_snoc (s : Shape) (os : List (Instant × Soft.Operation)) (now : Instant)
    (o : Soft.Operation) : s.live (os ++ [(now, o)]) =
      ((s.turn now (s.live os).2 o).1 :: (s.live os).1, (s.turn now (s.live os).2 o).2) := by
  rw [live, List.foldl_append]
  rfl

/-- What holds at first and is kept by every turn holds of every history. -/
theorem Shape.live_keeps (s : Shape) {P : List Turn → s.State → Prop} (start : P [] s.initial)
    (step : ∀ h st now o, P h st → P ((s.turn now st o).1 :: h) (s.turn now st o).2)
    (os : List (Instant × Soft.Operation)) : P (s.live os).1 (s.live os).2 :=
  List.foldlRecOn os (motive := fun r : List Turn × s.State => P r.1 r.2) _ start
    fun r kept o _ => step r.1 r.2 o.1 o.2 kept

namespace Settings

variable {settings : Settings}

/-- Whether the clock can show the end of a wait at the gates that begins now. A wait of no
length counts as one without end. -/
def isTimed (s : Settings) (now : Instant) : Bool :=
  !s.blocking ||
    (s.blockingTimeout.bind Time.Duration.positive?).all fun t => (now.after? t).isSome

theorem soft_reflects (limits : Soft.Limits) (id : String) (maxEntries : Option Nat)
    (os : List (Instant × Soft.Operation)) :
    let r := (Shape.soft limits (.memory id maxEntries)).live os
    Soft.Reflects false limits r.1 r.2 := by
  refine Shape.live_keeps (.soft limits (.memory id maxEntries))
    (P := fun h (s : Soft Memory) => Soft.Reflects false limits h s)
    (Soft.start_reflects false limits) (fun h s now o reflects => ?_) os
  exact reflects.acts (Soft.perform_acts reflects.consistent limits id maxEntries now o)

theorem gated_reflects (timeout : Option Time.Duration) (limits : Soft.Limits) (id : String)
    (maxEntries : Option Nat) (os : List (Instant × Soft.Operation)) :
    let r := (Shape.blocking timeout (.soft limits (.memory id maxEntries))).live os
    let st : Blocking (Soft Memory) := r.2
    Soft.Reflects true limits r.1 st.below ∧
      st.gates.timeout = timeout.bind Time.Duration.positive? := by
  refine Shape.live_keeps (.blocking timeout (.soft limits (.memory id maxEntries)))
    (P := fun h (st : Blocking (Soft Memory)) =>
    Soft.Reflects true limits h st.below ∧
      st.gates.timeout = timeout.bind Time.Duration.positive?)
    ⟨Soft.start_reflects true limits, rfl⟩ (fun h st now o kept => ?_) os
  obtain ⟨reflects, wait⟩ := kept
  obtain ⟨acts, same⟩ :=
    Blocking.perform_acts reflects.consistent timeout limits id maxEntries now o
  exact ⟨reflects.acts acts, same.trans wait⟩

theorem shape_of_soft (hb : settings.blocking = false) :
    settings.shape = .soft settings.limits (.memory settings.id settings.maxEntries) := by
  rw [shape, if_neg (by simp [hb])]

theorem shape_of_gated (hb : settings.blocking = true) : settings.shape = .blocking
    settings.blockingTimeout (.soft settings.limits (.memory settings.id settings.maxEntries)) := by
  rw [shape, if_pos hb]

/-- The next turn is one of a soft layer that reflects the history. -/
theorem turn_acts (settings : Settings) (os : List (Instant × Soft.Operation)) (now : Instant)
    (o : Soft.Operation) :
    let r := settings.shape.live os
    ∃ s a s', Soft.Reflects settings.blocking settings.limits r.1 s ∧
      Soft.Acts settings.blocking settings.limits settings.maxEntries s o a s' ∧
      (settings.shape.turn now r.2 o).1 = Soft.turnOf o a s s' := by
  cases hb : settings.blocking with
  | false =>
    rw [shape_of_soft hb]
    have reflects := soft_reflects settings.limits settings.id settings.maxEntries os
    exact ⟨_, _, _, reflects, Soft.perform_acts reflects.consistent _ settings.id _ now o, rfl⟩
  | true =>
    rw [shape_of_gated hb]
    obtain ⟨reflects, _⟩ := gated_reflects settings.blockingTimeout settings.limits settings.id
      settings.maxEntries os
    have acts := (Blocking.perform_acts reflects.consistent settings.blockingTimeout
      settings.limits settings.id settings.maxEntries now o).1
    exact ⟨_, _, _, reflects, acts, rfl⟩

theorem isTimed_eq (hb : settings.blocking = true) {g : Blocking.Gates}
    (wait : g.timeout = settings.blockingTimeout.bind Time.Duration.positive?) (now : Instant) :
    g.isTimed now = settings.isTimed now := by
  rw [Blocking.Gates.isTimed, isTimed, hb, wait, Bool.not_true, Bool.false_or]

/-- At an open gate, or without gates, a read answers what the history says. -/
theorem get_of_history (settings : Settings) (os : List (Instant × Soft.Operation)) (now : Instant)
    (k : Key) :
    let r := settings.shape.live os
    settings.shape.isLocked r.2 k = false → settings.isTimed now = true →
      ((settings.shape.store now).get k r.2).1 = .ok (latest? settings.blocking r.1 k) := by
  cases hb : settings.blocking with
  | false =>
    rw [shape_of_soft hb]
    intro r _ _
    have reflects := soft_reflects settings.limits settings.id settings.maxEntries os
    exact reflects.get settings.id settings.maxEntries k
  | true =>
    rw [shape_of_gated hb]
    intro r free timed
    obtain ⟨reflects, wait⟩ := gated_reflects settings.blockingTimeout settings.limits settings.id
      settings.maxEntries os
    have passed := Blocking.get_of_open (d := Soft.store settings.limits
      (Memory.store settings.id settings.maxEntries)) free ((isTimed_eq hb wait now).trans timed)
    exact passed.1.trans (reflects.get settings.id settings.maxEntries k)

/-- At gates built by the settings a read fails if its wait cannot be timed. -/
theorem get_of_gates {d : Store (Soft Memory)} {s : Blocking (Soft Memory)} {now : Instant}
    (hb : settings.blocking = true) (wait : s.gates.timeout =
      settings.blockingTimeout.bind Time.Duration.positive?)
    (untimed : settings.isTimed now = false) (k : Key) : ∃ t, settings.blockingTimeout = some t ∧
      (Blocking.get d now k s).1 = .error (.deadline k d.id t) := by
  obtain ⟨t, ends, fails⟩ := Blocking.get_of_untimed d k ((isTimed_eq hb wait now).trans untimed)
  rw [wait, Option.bind_eq_some_iff] at ends
  obtain ⟨u, given, positive⟩ := ends
  rw [Time.Duration.positive?] at positive
  split at positive
  · cases positive
  · obtain rfl := Option.some.inj positive
    exact ⟨u, given, congrArg Prod.fst fails⟩

theorem blocking_of_untimed {now : Instant} (untimed : settings.isTimed now = false) :
    settings.blocking = true := by
  rw [isTimed, Bool.or_eq_false_iff, Bool.not_eq_false'] at untimed
  exact untimed.1

theorem get_of_untimed (settings : Settings) (os : List (Instant × Soft.Operation)) {now : Instant}
    (k : Key) (untimed : settings.isTimed now = false) :
    ∃ t, settings.blockingTimeout = some t ∧
      ((settings.shape.store now).get k (settings.shape.live os).2).1 =
        .error (.deadline k settings.id t) := by
  have hb := blocking_of_untimed untimed
  rw [shape_of_gated hb]
  obtain ⟨_, wait⟩ := gated_reflects settings.blockingTimeout settings.limits settings.id
    settings.maxEntries os
  exact get_of_gates (d := Soft.store settings.limits
    (Memory.store settings.id settings.maxEntries)) hb wait untimed k

/-- After any run of operations, a read of a key whose gate is open answers what the history of
the chain says: the entry that was written last, unless the key has been lost since. A chain
loses a key by a clearing, without gates by a removal of the key, and else in two ways. A write
of a new key into a full memory evicts the key used least recently. A write over the budget and
the request to reclaim what is not retained reclaim keys that are not protected by one of the
last hits, a write no more than it takes to be within the budget. Only where the wait at the gates
would end after all that the clock can show, for a read that comes now, does every read fail. -/
theorem history_tells (settings : Settings) (os : List (Instant × Soft.Operation))
    (now : Instant) :
    let gated := settings.blocking
    let shape := settings.shape
    let h := (shape.live os).1
    let st := (shape.live os).2
    (∀ k, shape.isLocked st k = false → settings.isTimed now = true →
      ((shape.store now).get k st).1 = .ok (latest? gated h k)) ∧
    (∀ o v, v ∈ (shape.turn now st o).1.evicted →
      ∃ k e n, o = .call (.put k e) ∧ k ∉ kept gated h ∧
        Memory.bound? settings.maxEntries = some n ∧ n ≤ (kept gated h).length ∧
        LeastRecent gated h v) ∧
    (∀ o v, let t := (shape.turn now st o).1
      v ∈ t.reclaimed → ¬Protected gated settings.retentionSize h v ∧
        (o = .reclaimUnretained ∨
          ∃ k e budget before after, o = .call (.put k e) ∧
            settings.memoryBudget = some budget ∧ t.reclaimed = before ++ v :: after ∧
            budget < weight gated ({ t with reclaimed := before } :: h))) ∧
    (settings.isTimed now = false → ∀ k, ∃ t, settings.blockingTimeout = some t ∧
      ((shape.store now).get k st).1 = .error (.deadline k settings.id t)) := by
  intro gated shape h st
  refine ⟨get_of_history settings os now, fun o v gone => ?_, fun o v => ?_,
    fun untimed k => get_of_untimed settings os k untimed⟩
  · obtain ⟨s, a, s', reflects, acts, turn⟩ := settings.turn_acts os now o
    exact reflects.evicted acts (turn ▸ gone)
  · intro t gone
    obtain ⟨s, a, s', reflects, acts, turn⟩ := settings.turn_acts os now o
    have same : t = Soft.turnOf o a s s' := turn
    rw [same] at gone ⊢
    exact reflects.reclaimed acts gone

/-- A chain without limits gives up nothing that it is given. -/
theorem latest?_of_unlimited (unbounded : Memory.bound? settings.maxEntries = none)
    (unlimited : settings.memoryBudget = none) (os : List (Instant × Soft.Operation))
    (now : Instant) (k : Key) (e : Entry) : latest? settings.blocking
      (settings.shape.live (os ++ [(now, .call (.put k e))])).1 k = some e := by
  obtain ⟨s, a, s', reflects, acts, turn⟩ := settings.turn_acts os now (.call (.put k e))
  rw [Shape.live_snoc, turn]
  have unevicted : k ∉ (Soft.turnOf (.call (.put k e)) a s s').evicted := fun gone => by
    obtain ⟨_, _, n, _, _, bound, _⟩ := reflects.evicted acts gone
    rw [unbounded] at bound
    cases bound
  have unclaimed : k ∉ (Soft.turnOf (.call (.put k e)) a s s').reclaimed := fun gone => by
    rcases (reflects.reclaimed acts gone).2 with reclaim | ⟨_, _, _, _, _, _, limit, _⟩
    · cases reclaim
    · cases unlimited.symm.trans limit
  rw [latest?_of_keeps]
  · simp [Turn.written?, Soft.turnOf, Turn.of]
  · rw [Turn.loses, decide_eq_false unevicted, decide_eq_false unclaimed]
    rfl

theorem isTimed_of_late {now : Instant} {t : Time.Duration} (hb : settings.blocking = true)
    (wait : settings.blockingTimeout.bind Time.Duration.positive? = some t)
    (late : Instant.secondsBound * 1000000000 ≤ now.nanoseconds + t.nanoseconds) :
    settings.isTimed now = false := by
  rw [isTimed, hb, wait, Option.all_some, Instant.after?_eq_none_iff.mpr late]
  rfl

/-- A read fails at gates whose wait would outlast the clock, though its key has just been
written, whenever it comes. -/
theorem get_fails_after_write :
    let wait : Time.Duration := .ofSeconds 18446744073709551615
    let settings : Settings := { id := "users", blockingTimeout := some wait, memoryBudget := none }
    ∀ before now, let r := settings.shape.live [(before, .call (.put ⟨"a"⟩ .knownAbsent))]
      settings.shape.isLocked r.2 ⟨"a"⟩ = false ∧
        latest? settings.blocking r.1 ⟨"a"⟩ = some .knownAbsent ∧
        ((settings.shape.store now).get ⟨"a"⟩ r.2).1 = .error (.deadline ⟨"a"⟩ "users" wait) := by
  intro wait settings before now r
  have late : Instant.secondsBound * 1000000000 ≤ now.nanoseconds + wait.nanoseconds :=
    Nat.le_trans (by decide) (Nat.le_add_left ..)
  have untimed : settings.isTimed now = false := isTimed_of_late rfl rfl late
  obtain ⟨t, given, fails⟩ :=
    get_of_untimed settings [(before, .call (.put ⟨"a"⟩ .knownAbsent))] ⟨"a"⟩ untimed
  obtain rfl := Option.some.inj given
  exact ⟨rfl, latest?_of_unlimited rfl rfl [] before ⟨"a"⟩ .knownAbsent, fails⟩

end Settings
end DataTier.Cache
