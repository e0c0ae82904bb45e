import DataTier.Proofs.Cache.History

/-! A soft layer over a memory, held against its history. The tracked keys are those that have an
entry by the history, and the memory holds these entries (`Tracks`); it has stamped its slots in
the order of their last uses (`Stamped`), and the late hits are at the front of the retained keys
(`Retains`). Every operation keeps all three. -/

namespace DataTier.Cache.Soft

open History

variable {gated : Bool} {n : Nat} {limits : Limits} {maxEntries : Option Nat} {id : String}
  {h : List Turn} {t : Turn} {m m' : Memory} {b b' : Books} {s s' : Soft Memory} {j k : Key}
  {e : Entry} {ks ks' : List Key}

/-! ## With nothing left to be removed -/

/-- What every operation begins with. -/
def drained (s : Soft Memory) : Soft Memory where
  below := s.books.reclaimed.foldl (fun m k => (m.remove k).2) s.below
  books := { s.books with reclaimed := [] }

theorem drain_eq (id : String) (maxEntries : Option Nat) (s : Soft Memory) :
    drain (Memory.store id maxEntries) s.books.reclaimed s = (.ok (), s.drained) := by
  obtain ⟨m, b⟩ := s
  generalize queue : b.reclaimed = ks
  induction ks generalizing m b with
  | nil =>
    rw [drain, drained, queue, List.foldl_nil]
    exact congrArg (fun ks => (_, (⟨m, { b with reclaimed := ks }⟩ : Soft Memory))) queue
  | cons k ks ih =>
    rw [drain, drained, queue, List.foldl_cons]
    exact ih (m.remove k).2 { b with reclaimed := ks } rfl

theorem drained_of_idle (idle : s.books.reclaimed = []) : s.drained = s := by
  obtain ⟨m, b⟩ := s
  rw [Soft.drained, idle]
  exact congrArg (fun ks => (⟨m, { b with reclaimed := ks }⟩ : Soft Memory)) idle.symm

theorem Consistent.drained (hs : s.Consistent) : Level s.drained.below s.drained.books := by
  obtain ⟨s', drain, level⟩ := drain_level "" none _ hs rfl
  rw [drain_eq] at drain
  cases drain
  exact level

theorem get?_drained (k : Key) : s.drained.below.slots.get? k =
    if k ∈ s.books.reclaimed then none else s.below.slots.get? k := by
  rw [drained]
  generalize s.books.reclaimed = ks, s.below = m
  induction ks generalizing m with
  | nil => rfl
  | cons j ks ih =>
    rw [List.foldl_cons, ih, Memory.remove, Table.get?_erase]
    by_cases same : j = k
    · simp [same]
    · simp [same, Ne.symm same]

theorem drained_below (s : Soft Memory) : s.drained.below =
    { s.below with slots := s.below.slots.filter fun e => e.1 ∉ s.books.reclaimed } := by
  rw [drained]
  generalize s.books.reclaimed = ks, s.below = m
  induction ks generalizing m with
  | nil => simp
  | cons k ks ih =>
    rw [List.foldl_cons, ih, Memory.remove, Table.erase_eq_filter, List.filter_filter]
    simp only [List.mem_cons, not_or, Bool.decide_and, Bool.and_comm]

theorem drained_clock (s : Soft Memory) : s.drained.below.clock = s.below.clock := by
  rw [drained_below]

theorem holds_drained (k : Key) : s.drained.below.holds k = true ↔
    k ∉ s.books.reclaimed ∧ s.below.holds k = true := by
  rw [Memory.holds, Memory.holds, Table.has, Table.has, get?_drained]
  split <;> simp [*]

/-! ## What an operation does -/

/-- Only keys that were tracked and that the memory does not hold have been forgotten. -/
structure Forgets (m : Memory) (b b' : Books) : Prop where
  tracked : ∀ k, k ∉ b.tracked.keys ∨ m.holds k = true →
    b'.tracked.get? k = b.tracked.get? k
  retained : ∀ k i, k ∉ b.tracked.keys ∨ m.holds k = true → k ∈ b.retained.take i →
    k ∈ b'.retained.take i

theorem Forgets.refl (m : Memory) (b : Books) : Forgets m b b :=
  ⟨fun _ _ => rfl, fun _ _ _ hk => hk⟩

theorem Forgets.trans {b'' : Books} (hb : Forgets m b b') (hb' : Forgets m b' b'') :
    Forgets m b b'' := by
  have still : ∀ k, k ∉ b.tracked.keys ∨ m.holds k = true →
      k ∉ b'.tracked.keys ∨ m.holds k = true := by
    rintro k (out | held)
    · have same := hb.tracked k (.inl out)
      rw [Table.get?_eq_none_iff.mpr out] at same
      exact .inl (Table.get?_eq_none_iff.mp same)
    · exact .inr held
  refine ⟨fun k hk => (hb'.tracked k (still k hk)).trans (hb.tracked k hk), fun k i hk mem => ?_⟩
  exact hb'.retained k i (still k hk) (hb.retained k i hk mem)

/-- A key that the memory holds stays retained. -/
theorem Forgets.mem_retained (forgets : Forgets m b b') (held : m.holds k = true)
    (mem : k ∈ b.retained) : k ∈ b'.retained := by
  have front : k ∈ b.retained.take b.retained.length := by rwa [List.take_length]
  exact List.mem_of_mem_take (forgets.retained k _ (.inr held) front)

theorem Forgets.forget (hk : k ∈ b.tracked.keys) (gone : m.holds k = false) :
    Forgets m b (b.forget k) := by
  have other : ∀ j, j ∉ b.tracked.keys ∨ m.holds j = true → j ≠ k := by
    rintro j (out | held) rfl
    · exact out hk
    · rw [gone] at held
      cases held
  refine ⟨fun j hj => ?_, fun j i hj mem => ?_⟩
  · have look : (b.forget k).tracked.get? j = _ := Books.get?_tracked_untrack j
    rw [look, if_neg (other j hj).symm]
  · -- leaving out some keys brings the others only closer to the front
    have start : b.retained.take i <+: b.retained := List.take_prefix i _
    have front : (b.retained.take i).filter (· ≠ k) <+: (b.retained.filter (· ≠ k)).take i :=
      List.prefix_take_iff.mpr ⟨start.filter _,
        Nat.le_trans (List.length_filter_le _ _) (List.length_take_le _ _)⟩
    exact front.subset (List.mem_filter.mpr ⟨mem, decide_eq_true (other j hj)⟩)

theorem forgetEvicted_forgets {held : Nat} (once : ks.Nodup)
    (tracked : ∀ k ∈ ks, k ∈ b.tracked.keys)
    (done : forgetEvicted (Memory.store id maxEntries) held ks ⟨m, b⟩ = (.ok (), ⟨m', b'⟩)) :
    Forgets m b b' := by
  induction ks generalizing b with
  | nil =>
    cases done
    exact .refl ..
  | cons k ks ih =>
    obtain ⟨first, once⟩ := List.nodup_cons.mp once
    rw [forgetEvicted] at done
    split at done
    · cases done
      exact .refl ..
    · have asked : (Memory.store id maxEntries).contains k m = (.ok (m.holds k), m) := rfl
      dsimp only at done
      rw [asked] at done
      cases answer : m.holds k with
      | true =>
        rw [answer] at done
        exact ih once (fun j hj => tracked j (List.mem_cons_of_mem k hj)) done
      | false =>
        rw [answer] at done
        refine (Forgets.forget (tracked k List.mem_cons_self) answer).trans (ih once ?_ done)
        intro j hj
        have other : j ≠ k := fun same => first (same ▸ hj)
        exact Books.mem_tracked_untrack.mpr ⟨tracked j (List.mem_cons_of_mem k hj), other⟩

/-- What an operation at the top of a built chain comes to in its soft layer, `gated` saying
whether there are gates above it. -/
inductive Acts (gated : Bool) (limits : Limits) (maxEntries : Option Nat) (s : Soft Memory) :
    Operation → Answer Reply → Soft Memory → Prop
  | counts (a : Answer Reply) : Acts gated limits maxEntries s (.call .size) a s.drained
  | looks (k : Key) (a : Answer Reply) :
      Acts gated limits maxEntries s (.call (.contains k)) a s.drained
  | reads (k : Key) :
      Acts gated limits maxEntries s (.call (.get k)) (.ok (.entry (s.drained.below.entry? k)))
        (noteRead limits k (.ok (s.drained.below.entry? k))
          ⟨(s.drained.below.get k).2, s.drained.books⟩)
  /-- A read may fail at the gates. -/
  | fails (k : Key) (e : Error) : Acts gated limits maxEntries s (.call (.get k)) (.error e) s
  | writes (k : Key) (e : Entry) (a : Answer Reply) {b : Books}
      (forgets : Forgets (s.drained.below.put maxEntries k e)
        (s.drained.books.track k e.weight) b)
      (level : Level (s.drained.below.put maxEntries k e) b) :
      Acts gated limits maxEntries s (.call (.put k e)) a
        (enforce limits ⟨s.drained.below.put maxEntries k e, b⟩)
  | removes (k : Key) (a : Answer Reply) (free : gated = false) :
      Acts gated limits maxEntries s (.call (.remove k)) a
        ⟨(s.drained.below.remove k).2, s.drained.books.untrack k⟩
  | passes (k : Key) (a : Answer Reply) (shut : gated = true) :
      Acts gated limits maxEntries s (.call (.remove k)) a s
  | clears (a : Answer Reply) :
      Acts gated limits maxEntries s (.call .clear) a
        ⟨s.drained.below.clear, Books.clear { s.drained.books with retained := [] }⟩
  | reclaims (a : Answer Reply) :
      Acts gated limits maxEntries s .reclaimUnretained a s.reclaimUnretained.2

theorem Acts.consistent {o : Operation} {a : Answer Reply}
    (acts : Acts gated limits maxEntries s o a s') (hs : s.Consistent) : s'.Consistent := by
  cases acts with
  | counts | looks => exact hs.drained.toAgrees
  | reads k => exact hs.drained.noteRead limits k
  | fails | passes => exact hs
  | writes k e a forgets level => exact Consistent.enforce level.toAgrees
  | removes k a free => exact hs.drained.remove k
  | clears =>
    have level := hs.drained
    exact Level.clear ⟨level.toAgrees.retaining [], level.drained⟩
  | reclaims => exact Agrees.reclaimUnretained hs

/-- The turn of a chain with this soft layer. -/
def turnOf (o : Operation) (a : Answer Reply) (s s' : Soft Memory) : Turn :=
  .of o a s.below s'.below s.books.reclaimed s'.books.reclaimed

/-! ## What is tracked -/

/-- The tracked keys are those that have an entry, and the memory has this entry. -/
def Tracks (gated : Bool) (h : List Turn) (m : Memory) (b : Books) : Prop :=
  ∀ k, latest? gated h k = if k ∈ b.tracked.keys then m.entry? k else none

theorem Tracks.turn (tracks : Tracks gated h m b)
    (lost : ∀ k, t.loses gated k = true → k ∉ b'.tracked.keys)
    (written : ∀ k e, t.loses gated k = false → t.written? k = some e →
      k ∈ b'.tracked.keys ∧ m'.entry? k = some e)
    (rest : ∀ k, t.loses gated k = false → t.written? k = none →
      (k ∈ b'.tracked.keys ↔ k ∈ b.tracked.keys) ∧
        (k ∈ b.tracked.keys → m'.entry? k = m.entry? k)) :
    Tracks gated (t :: h) m' b' := by
  intro k
  cases gone : t.loses gated k with
  | true => rw [latest?_of_loses gone, if_neg (lost k gone)]
  | false =>
    rw [latest?_of_keeps gone]
    cases write : t.written? k with
    | some e =>
      obtain ⟨tracked, entry⟩ := written k e gone write
      rw [if_pos tracked, entry, Option.some_or]
    | none =>
      obtain ⟨same, entry⟩ := rest k gone write
      rw [Option.none_or, tracks k]
      by_cases tracked : k ∈ b.tracked.keys
      · rw [if_pos tracked, if_pos (same.mpr tracked), entry tracked]
      · rw [if_neg tracked, if_neg (mt same.mp tracked)]

theorem Tracks.quiet (tracks : Tracks gated h m b)
    (quiet : ∀ j, t.loses gated j = false ∧ t.written? j = none) : Tracks gated (t :: h) m b := by
  intro k
  rw [latest?_of_keeps (quiet k).1, (quiet k).2, Option.none_or]
  exact tracks k

theorem Tracks.drained (tracks : Tracks gated h s.below s.books) (hs : s.Consistent) :
    Tracks gated h s.drained.below s.drained.books := by
  intro k
  rw [tracks k]
  by_cases tracked : k ∈ s.books.tracked.keys
  · have free : k ∉ s.books.reclaimed := fun queued =>
      Table.get?_eq_none_iff.mp ((hs.queued k).mp queued).2 tracked
    have same : s.drained.below.entry? k = s.below.entry? k := by
      rw [Memory.entry?, get?_drained, if_neg free]
      rfl
    rw [if_pos tracked, ← same]
    exact (if_pos tracked).symm
  · rw [if_neg tracked]
    exact (if_neg tracked).symm

/-- Where nothing waits to be removed, what has an entry is what the memory holds. -/
theorem Tracks.latest?_eq (tracks : Tracks gated h m b) (level : Level m b) (k : Key) :
    latest? gated h k = m.entry? k := by
  rw [tracks k]
  split
  · rfl
  · rename_i untracked
    by_contra held
    obtain ⟨e, held⟩ := Option.ne_none_iff_exists'.mp (Ne.symm held)
    exact untracked (level.mem_tracked_iff.mpr (Memory.holds_iff.mpr ⟨e, held⟩))

/-- Noting a read tracks no other keys than before. -/
theorem Level.mem_tracked_noteRead (level : Level m b) (limits : Limits) (k : Key)
    (below : Memory) :
    let s' := Soft.noteRead limits k (.ok (m.entry? k)) ⟨below, b⟩
    s'.below = below ∧ ∀ j, j ∈ s'.books.tracked.keys ↔ j ∈ b.tracked.keys := by
  cases held : m.entry? k with
  | none =>
    dsimp only [Soft.noteRead]
    rw [Books.untrack_of_untracked (level.untracked_of_miss held)]
    exact ⟨rfl, fun _ => Iff.rfl⟩
  | some e =>
    obtain ⟨t, look⟩ := level.tracked_iff.mpr (Memory.holds_iff.mpr ⟨e, held⟩)
    dsimp only [Soft.noteRead, Books.retain]
    rw [Books.touch_of_tracked look]
    refine ⟨rfl, fun j => ?_⟩
    rw [Table.keys_set, if_pos (Table.mem_keys_iff_get?.mpr ⟨t, look⟩)]

theorem Tracks.noteRead (tracks : Tracks gated h m b) (level : Level m b) (limits : Limits)
    (k : Key) : let s' := Soft.noteRead limits k (.ok (m.entry? k)) ⟨(m.get k).2, b⟩
    Tracks gated h s'.below s'.books := by
  intro s' j
  obtain ⟨below, tracked⟩ := level.mem_tracked_noteRead limits k (m.get k).2
  rw [tracks j, below, Memory.entry?_get]
  simp only [s', tracked j]

/-- What is written has an entry, and so has everything else but what has been lost. -/
theorem Tracks.write (tracks : Tracks gated h m b) (level : Level m b)
    (level' : Level (m.put maxEntries k e) b') (op : t.operation = .call (.put k e))
    (evicted : ∀ j, j ∈ t.evicted ↔ m.holds j = true ∧ (m.put maxEntries k e).holds j = false) :
    Tracks gated (t :: h) (m.put maxEntries k e) (b'.reclaimAll t.reclaimed) := by
  have loses : ∀ j, t.loses gated j = (decide (j ∈ t.evicted) || decide (j ∈ t.reclaimed)) := by
    intro j
    simp [Turn.loses, op]
  refine tracks.turn (fun j gone tracked => ?_) (fun j f kept write => ?_) fun j kept write => ?_
  · obtain ⟨tracked, unshed⟩ := (Books.mem_tracked_reclaimAll _).mp tracked
    rw [loses, Bool.or_eq_true, decide_eq_true_eq, decide_eq_true_eq] at gone
    have dropped := ((evicted j).mp (gone.resolve_right unshed)).2
    rw [level'.mem_tracked_iff.mp tracked] at dropped
    cases dropped
  · rw [loses, Bool.or_eq_false_iff, decide_eq_false_iff_not, decide_eq_false_iff_not] at kept
    obtain ⟨rfl, rfl⟩ : k = j ∧ e = f := by
      simp only [Turn.written?, op] at write
      split at write
      · exact ⟨‹_›, Option.some.inj write⟩
      · cases write
    have entry := Memory.entry?_put_self maxEntries k e m
    have tracked := level'.mem_tracked_iff.mpr (Memory.holds_iff.mpr ⟨e, entry⟩)
    exact ⟨(Books.mem_tracked_reclaimAll _).mpr ⟨tracked, kept.2⟩, entry⟩
  · rw [loses, Bool.or_eq_false_iff, decide_eq_false_iff_not, decide_eq_false_iff_not] at kept
    have other : k ≠ j := by
      rintro rfl
      simp [Turn.written?, op] at write
    have stays : m.holds j = true → (m.put maxEntries k e).holds j = true := fun was => by
      by_contra gone
      exact kept.1 ((evicted j).mpr ⟨was, Bool.not_eq_true _ ▸ gone⟩)
    have same : ∀ f, Memory.entry? (m.put maxEntries k e) j = some f → m.entry? j = some f :=
      fun f entry => Memory.entry?_of_put entry other
    refine ⟨?_, fun tracked => ?_⟩
    · rw [Books.mem_tracked_reclaimAll, and_iff_left kept.2, level'.mem_tracked_iff,
        level.mem_tracked_iff]
      refine ⟨fun now => ?_, stays⟩
      obtain ⟨f, entry⟩ := Memory.holds_iff.mp now
      exact Memory.holds_iff.mpr ⟨f, same f entry⟩
    · obtain ⟨f, entry⟩ := Memory.holds_iff.mp (stays (level.mem_tracked_iff.mp tracked))
      rw [entry, same f entry]

/-! ## Stamps -/

/-- The memory has stamped its slots in the order of their last uses. -/
structure Stamped (h : List Turn) (m : Memory) : Prop where
  past : ∀ k u, m.slots.get? k = some u → u.lastAccessed ≤ m.clock
  order : ∀ j k u v, m.slots.get? j = some u → m.slots.get? k = some v → j ≠ k →
    u.lastAccessed < v.lastAccessed ∧ idle h k < idle h j ∨
      v.lastAccessed < u.lastAccessed ∧ idle h j < idle h k

theorem Stamped.of_empty (empty : m.slots = []) : Stamped h m := by
  have none : ∀ k u, m.slots.get? k ≠ some u := fun k u look => by
    rw [empty] at look
    cases look
  exact ⟨fun k u look => absurd look (none k u), fun j k u v look => absurd look (none j u)⟩

/-- Slots may go, and time may pass. -/
theorem Stamped.thin (stamped : Stamped h m) (later : m.clock ≤ m'.clock)
    (slots : ∀ k u, m'.slots.get? k = some u → m.slots.get? k = some u) : Stamped h m' where
  past k u look := Nat.le_trans (stamped.past k u (slots k u look)) later
  order j k u v hj hk := stamped.order j k u v (slots j u hj) (slots k v hk)

theorem Stamped.quiet (stamped : Stamped h m) (quiet : ∀ k, t.uses k = false) :
    Stamped (t :: h) m where
  past := stamped.past
  order j k u v hj hk other := by
    rw [idle_of_not_uses (quiet j), idle_of_not_uses (quiet k)]
    exact (stamped.order j k u v hj hk other).imp
      (And.imp_right Nat.succ_lt_succ) (And.imp_right Nat.succ_lt_succ)

/-- The slot that is used gets the youngest stamp. -/
theorem Stamped.use (stamped : Stamped h m) (used : ∀ j, t.uses j = decide (k = j))
    (clock : m'.clock = m.clock + 1)
    (own : ∀ u, m'.slots.get? k = some u → u.lastAccessed = m.clock + 1)
    (others : ∀ j u, k ≠ j → m'.slots.get? j = some u → m.slots.get? j = some u) :
    Stamped (t :: h) m' := by
  have now : idle (t :: h) k = 0 := idle_of_uses ((used k).trans (decide_eq_true rfl))
  have past : ∀ j, k ≠ j → idle (t :: h) j = idle h j + 1 := fun j other =>
    idle_of_not_uses ((used j).trans (decide_eq_false other))
  -- against any other slot the one used has the younger stamp and has been idle for less
  have first : ∀ j u v, k ≠ j → m'.slots.get? j = some u → m'.slots.get? k = some v →
      u.lastAccessed < v.lastAccessed ∧ idle (t :: h) k < idle (t :: h) j := by
    intro j u v other hj hk
    have before := stamped.past j u (others j u other hj)
    rw [own v hk, now, past j other]
    exact ⟨Nat.lt_succ_of_le before, Nat.succ_pos _⟩
  refine ⟨fun j u look => ?_, fun i j u v hi hj other => ?_⟩
  · rw [clock]
    by_cases same : k = j
    · exact Nat.le_of_eq (own u (same ▸ look))
    · exact Nat.le_succ_of_le (stamped.past j u (others j u same look))
  · by_cases hik : k = i
    · subst hik
      exact .inr (first j v u other hj hi)
    · by_cases hjk : k = j
      · subst hjk
        exact .inl (first i u v hik hi hj)
      · rw [past i hik, past j hjk]
        exact (stamped.order i j u v (others i u hik hi) (others j v hjk hj) other).imp
          (And.imp_right Nat.succ_lt_succ) (And.imp_right Nat.succ_lt_succ)

theorem Stamped.drained (stamped : Stamped h s.below) : Stamped h s.drained.below := by
  refine stamped.thin (Nat.le_of_eq (drained_clock s).symm) fun k u look => ?_
  rw [get?_drained] at look
  split at look
  · cases look
  · exact look

theorem Stamped.read (stamped : Stamped h m) (k : Key)
    (used : ∀ j, t.uses j = (decide (k = j) && (m.entry? k).isSome)) :
    Stamped (t :: h) (m.get k).2 := by
  cases held : m.entry? k with
  | some e =>
    refine stamped.use (k := k) (fun j => by rw [used, held]; exact Bool.and_true _)
      (Memory.get_clock k m) (fun u look => ?_) fun j u other look => ?_
    · rw [Memory.get?_get, if_pos rfl] at look
      obtain ⟨v, _, rfl⟩ := Option.map_eq_some_iff.mp look
      rfl
    · rw [Memory.get?_get, if_neg other] at look
      exact look
  | none =>
    have quiet : ∀ j, t.uses j = false := fun j => by
      rw [used, held]
      exact Bool.and_false _
    refine (stamped.quiet quiet).thin ?_ fun j u look => ?_
    · rw [Memory.get_clock]
      exact Nat.le_succ _
    · have empty : m.slots.get? k = none := Option.map_eq_none_iff.mp held
      rw [Memory.get?_get] at look
      split at look
      · rename_i same
        rw [← same, empty] at look
        cases look
      · exact look

/-! ## Late hits -/

/-- The keys of late hits are at the front, as far as they have not been lost. -/
def Retains (gated : Bool) (n : Nat) (h : List Turn) (ks : List Key) : Prop :=
  ∀ later t earlier k, h = later ++ t :: earlier → t.hit? = some k →
    (later.filterMap Turn.hit?).length < n → (∀ u ∈ later, u.loses gated k = false) →
    k ∈ ks.take ((later.filterMap Turn.hit?).length + 1)

/-- Without a hit no key may fall back unless it is lost. -/
theorem Retains.quiet (retains : Retains gated n h ks) (miss : t.hit? = none)
    (front : ∀ k i, t.loses gated k = false → k ∈ ks.take i → k ∈ ks'.take i) :
    Retains gated n (t :: h) ks' := by
  intro later u earlier k split hit few stays
  cases later with
  | nil =>
    obtain ⟨rfl, _⟩ := List.cons.inj split
    rw [miss] at hit
    cases hit
  | cons v later =>
    obtain ⟨rfl, rest⟩ := List.cons.inj split
    rw [List.filterMap_cons, miss] at few ⊢
    have kept := retains later u earlier k rest hit few
      fun w hw => stays w (List.mem_cons_of_mem _ hw)
    exact front k _ (stays _ List.mem_cons_self) kept

theorem Retains.hit (retains : Retains gated n h ks) (hit : t.hit? = some k) :
    Retains gated n (t :: h) ((k :: ks).take n) := by
  intro later u earlier j split hit' few stays
  cases later with
  | nil =>
    obtain ⟨rfl, _⟩ := List.cons.inj split
    obtain rfl := Option.some.inj (hit.symm.trans hit')
    rw [List.take_take, Nat.min_eq_left few]
    exact List.mem_cons_self
  | cons v later =>
    obtain ⟨rfl, rest⟩ := List.cons.inj split
    rw [List.filterMap_cons, hit, List.length_cons] at few ⊢
    have kept := retains later u earlier j rest hit' (Nat.lt_of_succ_lt few)
      fun w hw => stays w (List.mem_cons_of_mem _ hw)
    rw [List.take_take, Nat.min_eq_left few]
    exact List.mem_cons_of_mem k kept

theorem Retains.mem_of_protected (retains : Retains gated n h ks)
    (shield : Protected gated n h k) : k ∈ ks := by
  obtain ⟨later, t, earlier, split, hit, few, stays⟩ := shield
  exact List.mem_of_mem_take (retains later t earlier k split hit few stays)

/-! ## Histories -/

/-- The soft layer and its memory are what the history says. -/
structure Reflects (gated : Bool) (limits : Limits) (h : List Turn) (s : Soft Memory) : Prop where
  consistent : s.Consistent
  tracks : Tracks gated h s.below s.books
  stamped : Stamped h s.below
  retains : Retains gated limits.retentionSize h s.books.retained

variable {o : Operation} {a : Answer Reply}

/-- A write over the budget reclaims keys that are not retained, each while it is over. -/
theorem enforce_eq (limits : Limits) (m : Memory) (b : Books) :
    ∃ ks, enforce limits ⟨m, b⟩ = ⟨m, b.reclaimAll ks⟩ ∧ ks.Sublist b.oldestFirst ∧
      (∀ k ∈ ks, k ∉ b.retained) ∧ ∀ i < ks.length, ∃ budget, limits.budget = some budget ∧
        budget < (b.reclaimAll (ks.take i)).totalWeight := by
  unfold enforce
  split
  · exact ⟨[], rfl, List.nil_sublist _, by simp, by simp⟩
  · rename_i budget hb
    obtain ⟨n, shed, exceeds⟩ := Books.shed_over budget (b.oldestFirst.filter (· ∉ b.retained)) b
    refine ⟨_, congrArg (Soft.mk m) shed, (List.take_sublist _ _).trans List.filter_sublist,
      fun k hk => ?_, fun i hi => ⟨budget, hb, exceeds i hi⟩⟩
    simpa using (List.mem_filter.mp (List.mem_of_mem_take hk)).2

theorem Level.reclaimed_reclaimAll (level : Level m b) (ks : List Key) :
    (b.reclaimAll ks).reclaimed = ks := by
  rw [Books.reclaimed_reclaimAll, level.drained, List.nil_append]

theorem mem_reclaimed_reclaimUnretained (s : Soft Memory) (a : Answer Reply) :
    j ∈ (turnOf .reclaimUnretained a s s.reclaimUnretained.2).reclaimed ↔
      j ∈ s.books.unretained ∧ j ∉ s.books.reclaimed := by
  have queue : s.reclaimUnretained.2.books.reclaimed =
      s.books.reclaimed ++ s.books.unretained := Books.reclaimed_reclaimAll ..
  simp only [turnOf, Turn.of, queue, List.mem_filter, List.mem_append, decide_eq_true_eq]
  rw [or_and_right, and_not_self_iff, false_or]

/-- The keys evicted by a write are those that it has found and left out. -/
theorem mem_evicted (s s' : Soft Memory) (a : Answer Reply)
    (hs' : s'.below = s.drained.below.put maxEntries k e) :
    j ∈ (turnOf (.call (.put k e)) a s s').evicted ↔
      s.drained.below.holds j = true ∧ (s.drained.below.put maxEntries k e).holds j = false := by
  rw [holds_drained, ← hs', turnOf, Turn.of, List.mem_filter, Memory.mem_keys_iff,
    Bool.and_eq_true, decide_eq_true_eq, Bool.not_eq_true', and_left_comm, and_assoc]

theorem Acts.tracks (acts : Acts gated limits maxEntries s o a s') (hs : s.Consistent)
    (tracks : Tracks gated h s.below s.books) :
    Tracks gated (turnOf o a s s' :: h) s'.below s'.books := by
  have level := hs.drained
  have drained := tracks.drained hs
  cases acts with
  | counts | looks =>
    exact drained.quiet fun _ => ⟨rfl, rfl⟩
  | reads k =>
    exact (drained.noteRead level limits k).quiet fun _ => ⟨rfl, rfl⟩
  | fails =>
    exact tracks.quiet fun _ => ⟨rfl, rfl⟩
  | passes k a shut =>
    subst shut
    exact tracks.quiet fun _ => ⟨rfl, rfl⟩
  | @writes k e a b forgets level' =>
    obtain ⟨ks, enforced, _⟩ := enforce_eq limits (s.drained.below.put maxEntries k e) b
    rw [enforced]
    have written := drained.write
      (t := turnOf (.call (.put k e)) a s ⟨_, b.reclaimAll ks⟩) level level' rfl
      fun j => mem_evicted s _ a rfl
    rw [show (turnOf (.call (.put k e)) a s ⟨_, b.reclaimAll ks⟩).reclaimed = ks from
      level'.reclaimed_reclaimAll ks] at written
    exact written
  | removes k a free =>
    have loses : ∀ s' j, (turnOf (.call (.remove k)) a s s').loses gated j = decide (k = j) := by
      intro s' j
      simp [turnOf, Turn.of, Turn.loses, free]
    refine drained.turn (fun j gone => ?_) (fun j e _ write => by cases write) fun j kept _ => ?_
    · rw [loses, decide_eq_true_eq] at gone
      exact fun tracked => (Books.mem_tracked_untrack.mp tracked).2 gone.symm
    · rw [loses, decide_eq_false_iff_not] at kept
      refine ⟨?_, fun _ => ?_⟩
      · rw [Books.mem_tracked_untrack, and_iff_left (Ne.symm kept)]
      · rw [Memory.entry?_remove, if_neg kept]
  | clears =>
    intro j
    exact latest?_of_loses rfl
  | reclaims =>
    have loses : ∀ j, (turnOf .reclaimUnretained a s s.reclaimUnretained.2).loses gated j =
        decide (j ∈ s.books.unretained ∧ j ∉ s.books.reclaimed) := fun j =>
      decide_eq_decide.mpr (mem_reclaimed_reclaimUnretained s a)
    have now : ∀ j, j ∈ s.reclaimUnretained.2.books.tracked.keys ↔
        j ∈ s.books.tracked.keys ∧ j ∉ s.books.unretained := fun j =>
      Books.mem_tracked_reclaimAll _
    refine tracks.turn (fun j gone => ?_) (fun j e _ write => by cases write)
      fun j kept _ => ⟨?_, fun _ => rfl⟩
    · rw [loses, decide_eq_true_eq] at gone
      exact fun tracked => ((now j).mp tracked).2 gone.1
    · rw [loses, decide_eq_false_iff_not, not_and_not_right] at kept
      rw [now, and_iff_left_iff_imp]
      intro tracked unretained
      have untracked := ((hs.queued j).mp (kept unretained)).2
      exact Table.get?_eq_none_iff.mp untracked tracked

theorem Acts.stamped (acts : Acts gated limits maxEntries s o a s') (hs : s.Consistent)
    (stamped : Stamped h s.below) : Stamped (turnOf o a s s' :: h) s'.below := by
  have level := hs.drained
  cases acts with
  | counts | looks =>
    exact stamped.drained.quiet fun _ => rfl
  | reads k =>
    rw [(level.mem_tracked_noteRead limits k (s.drained.below.get k).2).1]
    refine stamped.drained.read k fun j => ?_
    simp only [turnOf, Turn.of, Turn.uses, Turn.hit?, Turn.key?]
    cases s.drained.below.entry? k <;> simp
  | fails | passes =>
    exact stamped.quiet fun _ => rfl
  | @writes k e a b forgets level' =>
    obtain ⟨ks, enforced, _⟩ := enforce_eq limits (s.drained.below.put maxEntries k e) b
    rw [enforced]
    refine stamped.drained.use (k := k) (fun j => ?_) (Memory.put_clock ..) (fun u look => ?_)
      fun j u other look => Memory.get?_of_put look other
    · simp [turnOf, Turn.of, Turn.uses, Turn.hit?, Turn.key?]
    · rw [Memory.get?_put_self] at look
      cases look
      rfl
  | removes k a free =>
    refine (stamped.drained.quiet fun _ => rfl).thin (Nat.le_refl _) fun j u look => ?_
    rw [Memory.remove, Table.get?_erase] at look
    split at look
    · cases look
    · exact look
  | clears =>
    exact .of_empty rfl
  | reclaims =>
    exact stamped.quiet fun _ => rfl

theorem Acts.retains (acts : Acts gated limits maxEntries s o a s') (hs : s.Consistent)
    (retains : Retains gated limits.retentionSize h s.books.retained) :
    Retains gated limits.retentionSize (turnOf o a s s' :: h) s'.books.retained := by
  have level := hs.drained
  have same : ∀ t, t.hit? = none → Retains gated limits.retentionSize (t :: h) s.books.retained :=
    fun t miss => retains.quiet miss fun _ _ _ front => front
  cases acts with
  | counts | looks | fails | removes | passes => exact same _ rfl
  | reads k =>
    cases held : s.drained.below.entry? k with
    | none =>
      dsimp only [Soft.noteRead]
      rw [Books.untrack_of_untracked (level.untracked_of_miss held)]
      exact same _ rfl
    | some e =>
      obtain ⟨t, look⟩ := level.tracked_iff.mpr (Memory.holds_iff.mpr ⟨e, held⟩)
      dsimp only [Soft.noteRead, Books.retain]
      rw [Books.touch_of_tracked look]
      exact retains.hit rfl
  | @writes k e a b forgets level' =>
    obtain ⟨ks, enforced, _⟩ := enforce_eq limits (s.drained.below.put maxEntries k e) b
    rw [enforced, Books.retained_reclaimAll]
    refine retains.quiet rfl fun j i kept front => forgets.retained j i ?_ front
    by_contra gone
    obtain ⟨tracked, gone⟩ := not_or.mp gone
    rw [not_not, Table.mem_keys_iff_get?, Books.get?_tracked_track] at tracked
    split at tracked
    · rename_i same
      refine gone (Memory.holds_iff.mpr ⟨e, ?_⟩)
      rw [← same, Memory.entry?_put_self]
    · -- it had been held until this write
      have held := level.tracked_iff.mp tracked
      have evicted := (mem_evicted s ⟨_, b.reclaimAll ks⟩ a rfl).mpr
        ⟨held, Bool.not_eq_true _ ▸ gone⟩
      simp only [Turn.loses, Bool.or_eq_false_iff, decide_eq_false_iff_not] at kept
      exact kept.1.2 evicted
  | clears =>
    exact retains.quiet rfl fun j i kept => by cases kept
  | reclaims =>
    have retained : s.reclaimUnretained.2.books.retained = s.books.retained :=
      Books.retained_reclaimAll ..
    rw [retained]
    exact same _ rfl

theorem Reflects.acts (reflects : Reflects gated limits h s)
    (acts : Acts gated limits maxEntries s o a s') :
    Reflects gated limits (turnOf o a s s' :: h) s' where
  consistent := acts.consistent reflects.consistent
  tracks := acts.tracks reflects.consistent reflects.tracks
  stamped := acts.stamped reflects.consistent reflects.stamped
  retains := acts.retains reflects.consistent reflects.retains

theorem start_reflects (gated : Bool) (limits : Limits) : Reflects gated limits [] ⟨{}, {}⟩ where
  consistent := start_consistent
  tracks _ := rfl
  stamped := .of_empty rfl
  retains later t earlier k split := by simp at split

/-! ## What the history tells -/

theorem Tracks.mem_kept_iff (tracks : Tracks gated h m b) (agrees : Agrees m b) :
    k ∈ kept gated h ↔ k ∈ b.tracked.keys := by
  rw [mem_kept, tracks k]
  split
  · rename_i tracked
    obtain ⟨t, look⟩ := Table.mem_keys_iff_get?.mp tracked
    exact iff_of_true (Memory.holds_iff.mp (agrees.holds_of_tracked look)) tracked
  · rename_i untracked
    refine iff_of_false ?_ untracked
    rintro ⟨e, held⟩
    cases held

theorem Tracks.kept_perm (tracks : Tracks gated h m b) (agrees : Agrees m b) :
    (kept gated h).Perm b.tracked.keys :=
  (List.perm_ext_iff_of_nodup (nodup_kept gated h) agrees.books.nodup).mpr
    fun _ => tracks.mem_kept_iff agrees

/-- The total of the books is what the kept entries weigh. -/
theorem Tracks.weight_eq (tracks : Tracks gated h m b) (agrees : Agrees m b) :
    weight gated h = b.totalWeight := by
  have each : ∀ k ∈ b.tracked.keys, (latest? gated h k).elim 0 Entry.weight = m.weightOf k := by
    intro k tracked
    rw [tracks k, if_pos tracked]
    rfl
  rw [weight, ((tracks.kept_perm agrees).map _).sum_nat, agrees.totalWeight_eq]
  exact congrArg List.sum (List.map_congr_left each)

/-- Only a write of a new key into a full memory evicts, and what it evicts has been used
least recently. -/
theorem Reflects.evicted (reflects : Reflects gated limits h s)
    (acts : Acts gated limits maxEntries s o a s') (gone : j ∈ (turnOf o a s s').evicted) :
    ∃ k e n, o = .call (.put k e) ∧ k ∉ kept gated h ∧ Memory.bound? maxEntries = some n ∧
      n ≤ (kept gated h).length ∧ LeastRecent gated h j := by
  cases acts with
  | @writes k e a b forgets level' =>
    have level := reflects.consistent.drained
    have tracks := reflects.tracks.drained reflects.consistent
    obtain ⟨ks, enforced, _⟩ := enforce_eq limits (s.drained.below.put maxEntries k e) b
    rw [enforced] at gone
    obtain ⟨held, dropped⟩ := (mem_evicted s ⟨_, b.reclaimAll ks⟩ a rfl).mp gone
    obtain ⟨new, ⟨n, bound, full⟩, slot, look, oldest⟩ :=
      Memory.evicted_of_put level.slots held dropped
    have holds : ∀ i, i ∈ kept gated h ↔ s.drained.below.holds i = true := fun i =>
      (tracks.mem_kept_iff level.toAgrees).trans level.mem_tracked_iff
    refine ⟨k, e, n, rfl, ?_, bound, ?_, (holds j).mpr held, fun i hi other => ?_⟩
    · rw [holds, new]
      exact Bool.false_ne_true
    · have all : s.drained.below.slots.keys.Subperm (kept gated h) :=
        level.slots.subperm fun i hi => (holds i).mpr (Memory.mem_keys_iff.mp hi)
      have size := all.length_le
      rw [Table.keys, List.length_map] at size
      exact Nat.le_trans full size
    · -- of two slots the one with the older stamp has been idle for longer
      obtain ⟨u, look'⟩ := Option.isSome_iff_exists.mp ((holds i).mp hi)
      have order := reflects.stamped.drained.order i j u slot look' look other
      exact (order.resolve_left fun young => absurd (oldest i u look') (Nat.not_le.mpr young.1)).2
  | _ => cases gone

/-- What is reclaimed is not protected; a write reclaims a key only while what is kept, less the
keys reclaimed before it, is over the budget. -/
theorem Reflects.reclaimed (reflects : Reflects gated limits h s)
    (acts : Acts gated limits maxEntries s o a s') (gone : j ∈ (turnOf o a s s').reclaimed) :
    ¬Protected gated limits.retentionSize h j ∧
      (o = .reclaimUnretained ∨ ∃ k e budget before after, o = .call (.put k e) ∧
        limits.budget = some budget ∧ (turnOf o a s s').reclaimed = before ++ j :: after ∧
        budget < weight gated ({ turnOf o a s s' with reclaimed := before } :: h)) := by
  have level := reflects.consistent.drained
  cases acts with
  | @writes k e a b forgets level' =>
    have tracks := reflects.tracks.drained reflects.consistent
    obtain ⟨ks, enforced, part, unretained, exceeds⟩ :=
      enforce_eq limits (s.drained.below.put maxEntries k e) b
    rw [enforced] at gone ⊢
    have shed : (turnOf (.call (.put k e)) a s ⟨s.drained.below.put maxEntries k e,
        b.reclaimAll ks⟩).reclaimed = ks := level'.reclaimed_reclaimAll ks
    rw [shed] at gone ⊢
    have tracked : ∀ i ∈ ks, i ∈ b.tracked.keys :=
      fun i hi => Books.mem_oldestFirst.mp (part.subset hi)
    refine ⟨fun shield => unretained j gone ?_, .inr ?_⟩
    · have held := level'.mem_tracked_iff.mp (tracked j gone)
      exact forgets.mem_retained held (reflects.retains.mem_of_protected shield)
    · obtain ⟨before, after, rfl⟩ := List.append_of_mem gone
      obtain ⟨budget, limit, exceeds⟩ := exceeds before.length (by simp)
      rw [List.take_left] at exceeds
      refine ⟨k, e, budget, before, after, rfl, limit, rfl, ?_⟩
      have once := ((Books.nodup_oldestFirst level'.books.nodup).sublist part).of_append_left
      have agrees := level'.toAgrees.reclaimAll once
        fun i hi => tracked i (List.mem_append_left _ hi)
      have written := tracks.write (t := { turnOf (.call (.put k e)) a s
        ⟨s.drained.below.put maxEntries k e, b.reclaimAll (before ++ j :: after)⟩ with
          reclaimed := before }) level level' rfl fun i => mem_evicted s _ a rfl
      rw [written.weight_eq agrees]
      exact exceeds
  | reclaims =>
    refine ⟨fun shield => ?_, .inl rfl⟩
    have retained := reflects.retains.mem_of_protected shield
    have unretained := ((mem_reclaimed_reclaimUnretained s a).mp gone).1
    exact of_decide_eq_true (List.mem_filter.mp unretained).2 retained
  | _ => cases gone

end DataTier.Cache.Soft
