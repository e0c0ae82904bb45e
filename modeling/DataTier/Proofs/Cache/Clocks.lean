import DataTier.Proofs.Cache.Chain
import DataTier.Proofs.Cache.Journal
import DataTier.Proofs.Cache.Recency

/-! A soft layer and the memory below it have a clock each, and the two tick at different events.
Where both have stamped a key they have done so at its last use, so on the keys that are tracked
and held they give the same order (`Timed`). The key that a write drives out of the memory is
therefore the first one that the layer looks for, and it looks for no other. -/

namespace DataTier.Cache

/-! ## Keys that were asked for -/

namespace Journal

/-- The keys that a store has been asked whether it contains them, the latest first. -/
def checks : Journal → List Key
  | [] => []
  | (.contains k, _) :: earlier => k :: checks earlier
  | _ :: earlier => checks earlier

end Journal

namespace Soft

variable {m m' : Memory} {b b' : Books} {s s' : Soft Memory} {j k : Key} {e : Entry} {id : String}
  {maxEntries : Option Nat} {limits : Limits}

/-! ## Two orders -/

/-- Of two keys that are tracked and held, the same one was used last by both clocks. -/
def Aligned (m : Memory) (b : Books) : Prop :=
  ∀ j k t u x y, b.tracked.get? j = some t → b.tracked.get? k = some u →
    m.slots.get? j = some x → m.slots.get? k = some y →
    (t.lastTouched < u.lastTouched ↔ x.lastAccessed < y.lastAccessed)

/-- Each clock has given all its stamps, and no two of them are the same. -/
structure Timed (maxEntries : Option Nat) (m : Memory) (b : Books) : Prop where
  orderly : Memory.Orderly maxEntries m
  dated : b.Dated
  aligned : Aligned m b

theorem Aligned.thin (aligned : Aligned m b)
    (held : ∀ j x, m'.slots.get? j = some x → m.slots.get? j = some x)
    (tracked : ∀ j t, b'.tracked.get? j = some t → b.tracked.get? j = some t) :
    Aligned m' b' := by
  intro j k t u x y ht hu hx hy
  exact aligned j k t u x y (tracked j t ht) (tracked k u hu) (held j x hx) (held k y hy)

theorem Timed.slot_le (timed : Timed maxEntries m b) {x : Slot} (look : m.slots.get? k = some x) :
    x.lastAccessed ≤ m.clock :=
  timed.orderly.dated.past _ ((Table.mem_iff_get? timed.orderly.dated.keys).mpr look)

theorem Timed.touch_le (timed : Timed maxEntries m b) {t : Tracked}
    (look : b.tracked.get? k = some t) : t.lastTouched ≤ b.clock :=
  Table.Dated.past timed.dated _ ((Table.mem_iff_get? (Table.Dated.keys timed.dated)).mpr look)

/-- The key in use gets the latest stamp on either side. -/
theorem Timed.use (timed : Timed maxEntries m b)
    (held : ∀ j x, k ≠ j → m'.slots.get? j = some x → m.slots.get? j = some x)
    (tracked : ∀ j t, k ≠ j → b'.tracked.get? j = some t → b.tracked.get? j = some t)
    (accessed : ∀ x, m'.slots.get? k = some x → m.clock < x.lastAccessed)
    (touched : ∀ t, b'.tracked.get? k = some t → b.clock < t.lastTouched) : Aligned m' b' := by
  intro i j t u x y ht hu hx hy
  by_cases hi : k = i <;> by_cases hj : k = j
  · subst hi hj
    cases ht.symm.trans hu
    cases hx.symm.trans hy
    simp
  · subst hi
    have late := accessed x hx
    have late' := touched t ht
    have early := timed.slot_le (held j y hj hy)
    have early' := timed.touch_le (tracked j u hj hu)
    omega
  · subst hj
    have late := accessed y hy
    have late' := touched u hu
    have early := timed.slot_le (held i x hi hx)
    have early' := timed.touch_le (tracked i t hi ht)
    omega
  · exact timed.aligned i j t u x y (tracked i t hi ht) (tracked j u hj hu) (held i x hi hx)
      (held j y hj hy)

/-! ## Steps -/

theorem Books.of_untrack {t : Tracked} (look : (b.untrack k).tracked.get? j = some t) :
    b.tracked.get? j = some t := by
  rw [Books.get?_tracked_untrack] at look
  split at look
  · cases look
  · exact look

theorem Timed.untrack (timed : Timed maxEntries m b) (k : Key) :
    Timed maxEntries m (b.untrack k) where
  orderly := timed.orderly
  dated := timed.dated.untrack k
  aligned := timed.aligned.thin (fun _ _ look => look) fun _ _ look => Books.of_untrack look

theorem Timed.remove (timed : Timed maxEntries m b) (k : Key) :
    Timed maxEntries (m.remove k).2 b where
  orderly := timed.orderly.remove k
  dated := timed.dated
  aligned := by
    refine timed.aligned.thin ?_ fun _ _ look => look
    intro j x look
    rw [Memory.remove, Table.get?_erase] at look
    split at look
    · cases look
    · exact look

theorem Books.touch_cases (k : Key) (w : Nat) (b : Books) :
    (∀ j, k ≠ j → (b.touch k w).tracked.get? j = b.tracked.get? j) ∧
      ∃ t, (b.touch k w).tracked.get? k = some t ∧ b.clock < t.lastTouched := by
  cases look : b.tracked.get? k with
  | some t =>
    rw [Books.touch_of_tracked look]
    refine ⟨?_, _, Table.get?_set_self .., Nat.lt_succ_self _⟩
    intro j other
    exact (Table.get?_set ..).trans (if_neg other)
  | none =>
    have tracks : b.touch k w = b.tick.track k w := by simp only [Books.touch, Books.tick, look]
    rw [tracks]
    refine ⟨?_, ⟨w, b.clock + 1 + 1⟩, ?_, ?_⟩
    · intro j other
      exact (Books.get?_tracked_track j).trans (if_neg other)
    · exact (Books.get?_tracked_track k).trans (if_pos rfl)
    · show b.clock < b.clock + 1 + 1
      omega

theorem Timed.read (timed : Timed maxEntries m b) (limits : Limits) (k : Key) :
    Timed maxEntries (m.get k).2 (noteRead limits k (.ok (m.entry? k)) ⟨(m.get k).2, b⟩).books := by
  have dated := timed.dated.noteRead limits k (.ok (m.entry? k)) (m.get k).2
  have orderly := timed.orderly.get k
  cases found : m.slots.get? k with
  | none =>
    have miss : m.entry? k = none := by rw [Memory.entry?, found, Option.map_none]
    rw [miss] at dated ⊢
    refine ⟨orderly, dated, timed.aligned.thin ?_ fun _ _ look => Books.of_untrack look⟩
    intro j x look
    rwa [Memory.get_of_miss found] at look
  | some slot =>
    have hit : m.entry? k = some slot.entry := by rw [Memory.entry?, found, Option.map_some]
    rw [hit] at dated ⊢
    obtain ⟨others, t, own, late⟩ := Books.touch_cases k slot.entry.weight b
    refine ⟨orderly, dated, timed.use (k := k) ?_ ?_ ?_ ?_⟩
    · intro j x other look
      rwa [Memory.get?_get, if_neg other] at look
    · intro j t other look
      exact (others j other).symm.trans look
    · intro x look
      rw [Memory.get?_get, if_pos rfl, found, Option.map_some] at look
      cases look
      exact Nat.lt_succ_self _
    · intro u look
      cases own.symm.trans look
      exact late

theorem Timed.write (timed : Timed maxEntries m b) (k : Key) (e : Entry) :
    Timed maxEntries (m.put maxEntries k e) (b.track k e.weight) where
  orderly := timed.orderly.put k e
  dated := timed.dated.track k e.weight
  aligned := by
    refine timed.use (k := k) ?_ ?_ ?_ ?_
    · intro j x other look
      exact Memory.get?_of_put look other
    · intro j t other look
      rwa [Books.get?_tracked_track, if_neg other] at look
    · intro x look
      cases (Memory.get?_put_self maxEntries k e m).symm.trans look
      exact Nat.lt_succ_self _
    · intro t look
      rw [Books.get?_tracked_track, if_pos rfl] at look
      cases look
      exact Nat.lt_succ_self _

theorem Step.timed (step : Step limits (Memory.store id maxEntries) s s')
    (timed : Timed maxEntries s.below s.books) : Timed maxEntries s'.below s'.books := by
  cases step with
  | counts | looks => exact timed
  | unprotects => exact ⟨timed.orderly, timed.dated, timed.aligned⟩
  | fails k e refused => cases refused
  | removes k ks =>
    have removed := timed.remove k
    exact ⟨removed.orderly, removed.dated, removed.aligned⟩
  | forgets k | reclaims k =>
    have untracked := timed.untrack k
    exact ⟨untracked.orderly, untracked.dated, untracked.aligned⟩
  | drops k => exact (timed.remove k).untrack k
  | clears =>
    refine ⟨Memory.orderly_of_empty maxEntries rfl, .nil _ _, ?_⟩
    intro j k t u x y ht
    cases ht
  | writes k e => exact timed.write k e
  | reads k =>
    have read := timed.read limits k
    rw [← Memory.get_fst] at read
    rw [below_noteRead]
    exact read

theorem carryOutAll_timed (limits : Limits) (id : String) (maxEntries : Option Nat)
    (os : List Operation) :
    let s := carryOutAll limits (Memory.store id maxEntries) ⟨{}, {}⟩ os
    Timed maxEntries s.below s.books := by
  refine carryOutAll_keeps (s := ⟨{}, {}⟩) (P := fun s => Timed maxEntries s.below s.books) .nil
    ?_ ?_ os
  · refine ⟨Memory.orderly_of_empty maxEntries rfl, .nil _ _, ?_⟩
    intro j k t u x y ht
    cases ht
  · intro s s' timed step
    exact step.timed timed

/-! ## Writes -/

theorem Level.length_eq (level : Level m b) : b.tracked.length = m.size := by
  have perm : b.tracked.keys.Perm m.slots.keys := by
    refine (List.perm_ext_iff_of_nodup level.books.nodup level.slots).mpr ?_
    intro j
    exact level.mem_tracked_iff.trans Memory.mem_keys_iff.symm
  simpa [Table.keys, Memory.size] using perm.length_eq

/-- The oldest slot of the memory has the key that was touched longest ago, for the key written is
the latest of all. -/
theorem Timed.oldestFirst_track (timed : Timed maxEntries m b) (level : Level m b) {v : Key}
    {x : Slot} (look : m.slots.get? v = some x)
    (oldest : ∀ j y, m.slots.get? j = some y → j ≠ v → x.lastAccessed < y.lastAccessed)
    (other : k ≠ v) (w : Nat) : ∃ rest, (b.track k w).oldestFirst = v :: rest := by
  have dated : (b.track k w).Dated := timed.dated.track k w
  have held : m.holds v = true :=
    Memory.mem_keys_iff.mp (Table.mem_keys_iff_get?.mpr ⟨x, look⟩)
  obtain ⟨t, tracked⟩ := level.tracked_iff.mpr held
  have stays : (b.track k w).tracked.get? v = some t := by
    rw [Books.get?_tracked_track, if_neg other, tracked]
  refine ⟨_, congrArg Table.keys (Table.Dated.ranked_cons dated stays ?_)⟩
  rintro ⟨j, u⟩ mem
  have entered := (Table.mem_iff_get? (Table.Dated.keys dated)).mp mem
  rw [Books.get?_tracked_track] at entered
  -- the key written has a new stamp, all others have the slots that they had
  split at entered
  · cases entered
    exact Nat.le_succ_of_le (timed.touch_le tracked)
  · by_cases same : j = v
    · subst same
      cases tracked.symm.trans entered
      exact Nat.le_refl _
    · have there := level.tracked_iff.mp ⟨u, entered⟩
      obtain ⟨y, look'⟩ := Table.mem_keys_iff_get?.mp (Memory.mem_keys_iff.mpr there)
      exact Nat.le_of_lt
        ((timed.aligned v j t u x y tracked entered look look').mpr (oldest j y look' same))

/-- A write into a full memory drives out the key touched longest ago. -/
theorem Timed.evicts (timed : Timed maxEntries m b) (level : Level m b) (new : m.holds k = false)
    (full : m.isFull maxEntries = true) (e : Entry) :
    ∃ v rest, (b.track k e.weight).oldestFirst = v :: rest ∧ m.holds v = true ∧
      (∀ j, (m.put maxEntries k e).holds j = true ↔ j = k ∨ m.holds j = true ∧ j ≠ v) ∧
      (m.put maxEntries k e).holds v = false := by
  obtain ⟨v, x, look, oldest, _, left⟩ := Memory.put_of_full timed.orderly new full e
  have held : m.holds v = true :=
    Memory.mem_keys_iff.mp (Table.mem_keys_iff_get?.mpr ⟨x, look⟩)
  have other : k ≠ v := by
    rintro rfl
    rw [new] at held
    cases held
  obtain ⟨rest, first⟩ := timed.oldestFirst_track level look oldest other e.weight
  refine ⟨v, rest, first, held, left, ?_⟩
  rw [Bool.eq_false_iff]
  intro still
  rcases (left v).mp still with same | ⟨_, apart⟩
  · exact other same.symm
  · exact apart rfl

/-! ## Keys looked for -/

variable {v : Key} {ks : List Key}

theorem forgetEvicted_of_level (level : Level m b) (ks : List Key) (h : Journal) :
    forgetEvicted (Memory.store id maxEntries).journaled m.size ks ⟨(m, h), b⟩ =
      (.ok (), ⟨(m, h), b⟩) := by
  cases ks with
  | nil => rfl
  | cons k ks => rw [forgetEvicted, if_pos (Nat.le_of_eq level.length_eq)]

/-- One key too many is tracked, and it is looked for first. -/
theorem forgetEvicted_of_first (once : b.tracked.keys.Nodup) (tracked : v ∈ b.tracked.keys)
    (gone : m.holds v = false) (after : Level m (b.forget v)) (ks : List Key) (h : Journal) :
    forgetEvicted (Memory.store id maxEntries).journaled m.size (v :: ks) ⟨(m, h), b⟩ =
      (.ok (), ⟨(m, (.contains v, .ok (.flag false)) :: h), b.forget v⟩) := by
  have more : ¬b.tracked.length ≤ m.size := by
    have fewer := Table.length_erase_of_mem once tracked
    have same : (b.tracked.erase v).length = m.size := after.length_eq
    omega
  have answer : (Memory.store id maxEntries).journaled.contains v (m, h) =
      (.ok false, (m, (.contains v, .ok (.flag false)) :: h)) := by
    rw [← gone]
    rfl
  rw [forgetEvicted, if_neg more]
  dsimp only
  rw [answer]
  exact forgetEvicted_of_level after ks _

/-- A write looks for the key that it has driven out, which is the first one to look for, and for
none if it has driven out none. -/
theorem Timed.examined (timed : Timed maxEntries m b) (level : Level m b) (id : String) (k : Key)
    (e : Entry) (h : Journal) :
    let m' := m.put maxEntries k e
    let b' := b.track k e.weight
    ∃ (asked : Option Key) (h' : Journal) (b'' : Books),
      forgetEvicted (Memory.store id maxEntries).journaled m'.size b'.oldestFirst ⟨(m', h), b'⟩ =
        (.ok (), ⟨(m', h'), b''⟩) ∧
      h'.checks = asked.toList ++ h.checks ∧
      (∀ v, asked = some v ↔ m.holds v = true ∧ m'.holds v = false) ∧
      ∀ v, asked = some v → b'.oldestFirst.head? = some v := by
  intro m' b'
  have covers : Covers m' b' := level.put maxEntries k e
  rcases Memory.makeRoom_cases maxEntries k m with ⟨new, full⟩ | room
  · obtain ⟨v, rest, first, held, left, gone⟩ := timed.evicts level new full e
    change b'.oldestFirst = v :: rest at first
    have tracked : v ∈ b'.tracked.keys := by
      rw [← Books.mem_oldestFirst, first]
      exact List.mem_cons_self
    have after : Level m' (b'.forget v) := by
      refine (covers.forget gone).level ?_
      intro j hj
      obtain ⟨hj, apart⟩ := Books.mem_tracked_untrack.mp hj
      refine (left j).mpr (((Table.mem_keys_set j k _).mp hj).imp_right ?_)
      intro before
      exact ⟨level.mem_tracked_iff.mp before, apart⟩
    refine ⟨some v, (.contains v, .ok (.flag false)) :: h, b'.forget v, ?_, rfl, ?_, ?_⟩
    · rw [first]
      exact forgetEvicted_of_first covers.books.nodup tracked gone after rest h
    · intro j
      rw [Option.some.injEq]
      constructor
      · rintro rfl
        exact ⟨held, gone⟩
      · intro ⟨was, out⟩
        by_contra apart
        rw [(left j).mpr (.inr ⟨was, Ne.symm apart⟩)] at out
        cases out
    · intro j same
      cases same
      rw [first, List.head?_cons]
  · obtain ⟨_, left⟩ := Memory.put_of_room room e
    have after : Level m' b' := by
      refine covers.level ?_
      intro j hj
      exact (left j).mpr (((Table.mem_keys_set j k _).mp hj).imp_right level.mem_tracked_iff.mp)
    refine ⟨none, h, b', forgetEvicted_of_level after _ h, rfl, ?_, ?_⟩
    · intro v
      refine ⟨nofun, ?_⟩
      intro ⟨was, out⟩
      rw [(left v).mpr (.inr was)] at out
      cases out
    · intro v same
      cases same

/-! ## Runs -/

theorem checks_drain {σ : Type} (d : Store σ) (ks : List Key) (s : Soft (σ × Journal)) :
    Journal.checks (drain d.journaled ks s).2.below.2 = Journal.checks s.below.2 := by
  induction ks generalizing s with
  | nil => rfl
  | cons k ks ih =>
    have written : Journal.checks (d.journaled.remove k s.below).2.2 = Journal.checks s.below.2 :=
      rfl
    rw [drain]
    split <;> rename_i below removed <;> rw [removed] at written
    · exact written
    · exact (ih _).trans written

/-- What has been reclaimed is removed without looking for it. -/
theorem Timed.drained {s : Soft (Memory × Journal)} (timed : Timed maxEntries s.below.1 s.books)
    (consistent : Agrees s.below.1 s.books) (id : String) :
    ∃ t : Soft (Memory × Journal),
      drain (Memory.store id maxEntries).journaled s.books.reclaimed s = (.ok (), t) ∧
      t.map Prod.fst = (s.map Prod.fst).drained ∧
      Journal.checks t.below.2 = Journal.checks s.below.2 ∧
      Timed maxEntries t.below.1 t.books ∧ Level t.below.1 t.books := by
  have same := map_drain (Store.journaled_extends (Memory.store id maxEntries))
    s.books.reclaimed s
  have checks := checks_drain (Memory.store id maxEntries) s.books.reclaimed s
  have alone := drain_eq id maxEntries (s.map Prod.fst)
  have steps := (steps_of_drain (s := s.map Prod.fst) ⟨0, none⟩ (Memory.store id maxEntries) rfl).1
  have kept : Timed maxEntries (s.map Prod.fst).drained.below (s.map Prod.fst).drained.books := by
    rw [alone] at steps
    exact kept_by_steps (P := fun s => Timed maxEntries s.below s.books)
      (fun _ _ timed step => step.timed timed) steps timed
  have level : Level (s.map Prod.fst).drained.below (s.map Prod.fst).drained.books :=
    Consistent.drained consistent
  rw [show drain _ s.books.reclaimed (s.map Prod.fst) = _ from alone] at same
  rcases drained : drain (Memory.store id maxEntries).journaled s.books.reclaimed s with ⟨a, t⟩
  rw [drained] at same checks
  obtain ⟨rfl, same⟩ := Prod.mk.inj same
  rw [same] at kept level
  exact ⟨t, rfl, same.symm, checks, kept, level⟩

/-- What a write through the layer looks for in a memory that keeps a journal. -/
theorem Timed.put_examines {s : Soft (Memory × Journal)}
    (timed : Timed maxEntries s.below.1 s.books)
    (consistent : Agrees s.below.1 s.books) (limits : Limits) (id : String) (k : Key) (e : Entry) :
    let r := put limits (Memory.store id maxEntries).journaled k e s
    r.1 = .ok () ∧ ∃ asked : Option Key,
      Journal.checks r.2.below.2 = asked.toList ++ Journal.checks s.below.2 ∧
      (∀ v, asked = some v ↔
        s.below.1.holds v = true ∧ v ∉ s.books.reclaimed ∧ r.2.below.1.holds v = false) ∧
      ∀ v, asked = some v → (s.books.track k e.weight).oldestFirst.head? = some v := by
  intro r
  obtain ⟨t, drained, same, checks, timed, level⟩ := timed.drained consistent id
  have size : ∀ (m : Memory) (h : Journal), (Memory.store id maxEntries).journaled.size (m, h) =
      (.ok m.size, (m, (.size, .ok (.count m.size)) :: h)) := fun _ _ => rfl
  have written : (Memory.store id maxEntries).journaled.put k e t.below =
      (.ok (), (t.below.1.put maxEntries k e, (.put k e, .ok .done) :: t.below.2)) := rfl
  obtain ⟨asked, h, b, forgotten, found, evicted, first⟩ := timed.examined level id k e
    ((.size, .ok (.count (t.below.1.put maxEntries k e).size)) ::
      (.put k e, .ok .done) :: t.below.2)
  -- the budget is enforced in the books alone, so the journal ends with what was looked for
  have done : r = (.ok (), enforce limits ⟨(t.below.1.put maxEntries k e, h), b⟩) := by
    dsimp only [r]
    rw [put, afterDrain, drained]
    dsimp only
    rw [written]
    dsimp only
    rw [reconcile, size]
    dsimp only
    rw [forgotten]
  rw [done]
  refine ⟨rfl, asked, ?_, ?_, ?_⟩
  · rw [below_enforce, ← checks]
    exact found
  · intro v
    have before : t.below.1.holds v = true ↔ v ∉ s.books.reclaimed ∧ s.below.1.holds v = true := by
      have held := holds_drained (s := s.map Prod.fst) v
      rwa [← same] at held
    rw [below_enforce, evicted, before]
    tauto
  · intro v hv
    have books : t.books = { s.books with reclaimed := [] } := congrArg Soft.books same
    have head := first v hv
    rw [books] at head
    exact head

/-- After every run of operations through a layer over a memory that nobody else uses, with
whatever bound, of any two keys that are both tracked and held the one touched last is the one
accessed last. So the next write looks for no more than one key in the memory: for the one that
the memory has dropped to make room for it, if there is one, and that is the first of the tracked
keys in the order in which the layer goes through them. -/
theorem clocks_agree (limits : Limits) (id : String) (maxEntries : Option Nat)
    (os : List Operation) :
    let d := (Memory.store id maxEntries).journaled
    let s := carryOutAll limits d ⟨({}, []), {}⟩ os
    (∀ j k t u x y, s.books.tracked.get? j = some t → s.books.tracked.get? k = some u →
      s.below.1.slots.get? j = some x → s.below.1.slots.get? k = some y →
      (t.lastTouched < u.lastTouched ↔ x.lastAccessed < y.lastAccessed)) ∧
    ∀ k e, (put limits d k e s).1 = .ok () ∧
      let s' := (put limits d k e s).2
      ∃ asked : Option Key,
        Journal.checks s'.below.2 = asked.toList ++ Journal.checks s.below.2 ∧
        (∀ v, asked = some v ↔
          s.below.1.holds v = true ∧ v ∉ s.books.reclaimed ∧ s'.below.1.holds v = false) ∧
        ∀ v, asked = some v → (s.books.track k e.weight).oldestFirst.head? = some v := by
  intro d s
  have alone : carryOutAll limits (Memory.store id maxEntries) ⟨{}, {}⟩ os = s.map Prod.fst :=
    map_carryOutAll (Store.journaled_extends (Memory.store id maxEntries)) ⟨({}, []), {}⟩ os
  have timed : Timed maxEntries s.below.1 s.books := by
    have timed := carryOutAll_timed limits id maxEntries os
    rwa [alone] at timed
  have consistent : Agrees s.below.1 s.books := by
    have consistent : Consistent (run limits (Memory.store id maxEntries) ⟨{}, {}⟩ os) :=
      start_consistent.run os
    rwa [run_eq, alone] at consistent
  refine ⟨timed.aligned, ?_⟩
  intro k e
  exact timed.put_examines consistent limits id k e

example :
    let d := (Memory.store "users" (some 2)).journaled
    let s := carryOutAll {} d ⟨({}, []), {}⟩ [.call (.put ⟨"a"⟩ .knownAbsent),
      .call (.put ⟨"b"⟩ .knownAbsent), .call (.get ⟨"a"⟩)]
    (put {} d ⟨"c"⟩ .knownAbsent s).2.below.2.checks = [⟨"b"⟩] := by
  cbv

end Soft
end DataTier.Cache
