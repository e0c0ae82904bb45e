import DataTier.Cache.Soft
import DataTier.Proofs.Cache.Books
import DataTier.Proofs.Cache.Memory
import Mathlib.Data.List.Nodup
import Mathlib.Data.List.Perm.Subperm

/-! A soft layer over a memory that nobody else writes. Both lose keys on their own, the memory
those used least recently and the soft layer those over its budget; after every operation the
memory holds the tracked keys and those that wait to be removed from it (`Agrees`). -/

namespace DataTier.Cache.Soft

/-! ## What the books alone are concerned with -/

section

variable {σ : Type}

theorem below_noteRead (limits : Limits) (k : Key) (a : Answer (Option Entry)) (s : Soft σ) :
    (noteRead limits k a s).below = s.below := by
  rcases a with _ | _ | _ <;> rfl

theorem reclaimed_noteRead (limits : Limits) (k : Key) (a : Answer (Option Entry))
    (s : Soft σ) : (noteRead limits k a s).books.reclaimed = s.books.reclaimed := by
  rcases a with _ | _ | e
  · rfl
  · rfl
  · obtain ⟨_, _, _, touched⟩ := Books.touch_eq k e.weight s.books
    show (s.books.touch k e.weight).reclaimed = s.books.reclaimed
    rw [touched]

theorem reclaimedTotal_noteRead (limits : Limits) (k : Key) (a : Answer (Option Entry))
    (s : Soft σ) :
    (noteRead limits k a s).books.reclaimedTotal = s.books.reclaimedTotal := by
  rcases a with _ | _ | e
  · rfl
  · rfl
  · obtain ⟨_, _, _, touched⟩ := Books.touch_eq k e.weight s.books
    show (s.books.touch k e.weight).reclaimedTotal = s.books.reclaimedTotal
    rw [touched]

theorem below_enforce (limits : Limits) (s : Soft σ) : (enforce limits s).below = s.below := by
  unfold enforce
  split <;> rfl

theorem reclaimedTotal_forgetEvicted (d : Store σ) (held : Nat) (ks : List Key) (s : Soft σ) :
    (forgetEvicted d held ks s).2.books.reclaimedTotal = s.books.reclaimedTotal := by
  induction ks generalizing s with
  | nil => rfl
  | cons k ks ih =>
    rw [forgetEvicted]
    split
    · rfl
    · split
      · rfl
      · exact ih _
      · exact ih _

theorem reclaimedTotal_reconcile (d : Store σ) (s : Soft σ) :
    (reconcile d s).2.books.reclaimedTotal = s.books.reclaimedTotal := by
  rw [reconcile]
  split
  · rfl
  · exact reclaimedTotal_forgetEvicted d _ _ _

end

/-! ## Agreement -/

/-- The memory holds what is tracked, and what is waiting to be removed. -/
structure Agrees (m : Memory) (b : Books) : Prop where
  slots : m.slots.keys.Nodup
  books : b.Sound
  queue : b.reclaimed.Nodup
  queued : ∀ k, k ∈ b.reclaimed ↔ m.holds k = true ∧ b.tracked.get? k = none
  weights : ∀ k t, b.tracked.get? k = some t → (m.entry? k).map Entry.weight = some t.weight

variable {m : Memory} {b : Books} {j k : Key} {e : Entry}

theorem Agrees.holds_of_tracked {t : Tracked} (h : Agrees m b) (look : b.tracked.get? k = some t) :
    m.holds k = true := by
  obtain ⟨e, held, _⟩ := Option.map_eq_some_iff.mp (h.weights k t look)
  exact Memory.holds_iff.mpr ⟨e, held⟩

/-- The total is what the entries of the tracked keys weigh. -/
theorem Agrees.totalWeight_eq (h : Agrees m b) :
    b.totalWeight = (b.tracked.keys.map m.weightOf).sum := by
  have each : ∀ e ∈ b.tracked, e.2.weight = m.weightOf e.1 := by
    rintro ⟨k, t⟩ mem
    have look := (Table.mem_iff_get? h.books.nodup).mp mem
    obtain ⟨f, held, weight⟩ := Option.map_eq_some_iff.mp (h.weights k t look)
    rw [Memory.weightOf, held]
    exact weight.symm
  rw [h.books.total, Table.sumOf, List.map_congr_left each, Table.keys, List.map_map]
  rfl

/-! ## Reclaiming -/

theorem Agrees.reclaim (h : Agrees m b) (hk : k ∈ b.tracked.keys) : Agrees m (b.reclaim k) where
  slots := h.slots
  books := ⟨(h.books.untrack k).nodup, (h.books.untrack k).total⟩
  queue := by
    have apart : k ∉ b.reclaimed := fun queued =>
      Table.get?_eq_none_iff.mp ((h.queued k).mp queued).2 hk
    exact List.nodup_append_comm.mp (List.nodup_cons.mpr ⟨apart, h.queue⟩)
  queued j := by
    obtain ⟨t, look⟩ := Table.mem_keys_iff_get?.mp hk
    have tracked : (b.reclaim k).tracked.get? j = _ := Books.get?_tracked_untrack j
    rw [tracked, Books.reclaim, List.mem_append, List.mem_singleton, Books.untrack, h.queued j]
    split
    · rename_i same
      simp [← same, h.holds_of_tracked look]
    · rename_i other
      simp [Ne.symm other]
  weights j t look := by
    have tracked : (b.reclaim k).tracked.get? j = _ := Books.get?_tracked_untrack j
    rw [tracked] at look
    split at look
    · cases look
    · exact h.weights j t look

theorem Agrees.reclaimAll {ks : List Key} (h : Agrees m b) (once : ks.Nodup)
    (tracked : ∀ k ∈ ks, k ∈ b.tracked.keys) : Agrees m (b.reclaimAll ks) := by
  induction ks generalizing b with
  | nil => exact h
  | cons k ks ih =>
    obtain ⟨first, rest⟩ := List.nodup_cons.mp once
    refine ih (h.reclaim (tracked k List.mem_cons_self)) rest fun l hl => ?_
    have other : l ≠ k := fun same => first (same ▸ hl)
    exact Books.mem_tracked_untrack.mpr ⟨tracked l (List.mem_cons_of_mem k hl), other⟩

theorem Agrees.enforceBudget (h : Agrees m b) (budget : Nat) :
    Agrees m (b.enforceBudget budget) := by
  obtain ⟨n, shed⟩ := Books.shed_eq_reclaimAll budget (b.oldestFirst.filter (· ∉ b.retained)) b
  rw [Books.enforceBudget, shed]
  have part : ((b.oldestFirst.filter (· ∉ b.retained)).take n).Sublist b.oldestFirst :=
    (List.take_sublist _ _).trans List.filter_sublist
  exact h.reclaimAll ((Books.nodup_oldestFirst h.books.nodup).sublist part)
    fun k hk => Books.mem_oldestFirst.mp (part.mem hk)

theorem Agrees.reclaimUnretained (h : Agrees m b) : Agrees m b.reclaimUnretained :=
  h.reclaimAll (h.books.nodup.filter _) fun _ hk => List.mem_of_mem_filter hk

/-! ## Removing what was reclaimed -/

variable {id : String} {maxEntries : Option Nat} {limits : Limits} {s : Soft Memory} {α : Type}

/-- Nothing is waiting to be removed: the memory holds just the tracked keys. -/
structure Level (m : Memory) (b : Books) : Prop extends Agrees m b where
  drained : b.reclaimed = []

theorem Level.tracked_iff (h : Level m b) :
    (∃ t, b.tracked.get? k = some t) ↔ m.holds k = true := by
  refine ⟨fun ⟨t, look⟩ => h.holds_of_tracked look, fun held => ?_⟩
  rw [← Option.ne_none_iff_exists']
  intro untracked
  have queued := (h.queued k).mpr ⟨held, untracked⟩
  rw [h.drained] at queued
  cases queued

theorem Level.mem_tracked_iff (h : Level m b) : k ∈ b.tracked.keys ↔ m.holds k = true :=
  Table.mem_keys_iff_get?.trans h.tracked_iff

theorem Agrees.drainOne {ks : List Key} (h : Agrees m b) (queue : b.reclaimed = k :: ks) :
    Agrees (m.remove k).2 { b with reclaimed := ks } := by
  have once := h.queue
  rw [queue] at once
  obtain ⟨first, rest⟩ := List.nodup_cons.mp once
  have untracked : b.tracked.get? k = none := ((h.queued k).mp (queue ▸ List.mem_cons_self)).2
  refine ⟨Table.nodup_keys_erase h.slots k, ⟨h.books.nodup, h.books.total⟩, rest, fun j => ?_,
    fun j t look => ?_⟩
  · have queued := h.queued j
    rw [queue, List.mem_cons] at queued
    rw [Memory.holds_remove]
    by_cases same : k = j
    · exact iff_of_false (same ▸ first) fun held => held.1.1 same
    · rw [and_iff_right same, ← queued, or_iff_right (Ne.symm same)]
  · have other : k ≠ j := fun same => by
      rw [same, look] at untracked
      cases untracked
    rw [Memory.entry?_remove, if_neg other]
    exact h.weights j t look

def Consistent (s : Soft Memory) : Prop := Agrees s.below s.books

theorem drain_level (id : String) (maxEntries : Option Nat) (ks : List Key) (h : s.Consistent)
    (queue : s.books.reclaimed = ks) :
    ∃ s', drain (Memory.store id maxEntries) ks s = (.ok (), s') ∧ Level s'.below s'.books := by
  induction ks generalizing s with
  | nil => exact ⟨s, rfl, h, queue⟩
  | cons k ks ih =>
    exact ih (s := ⟨_, { s.books with reclaimed := ks }⟩) (Agrees.drainOne h queue) rfl

/-- Every operation begins with nothing left to be removed. -/
theorem Consistent.afterDrain {f : Soft Memory → Answer α × Soft Memory} (h : s.Consistent)
    (hf : ∀ s, Level s.below s.books → (f s).2.Consistent) :
    (afterDrain (Memory.store id maxEntries) f s).2.Consistent := by
  obtain ⟨s', drained, level⟩ := drain_level id maxEntries _ h rfl
  rw [Soft.afterDrain, drained]
  exact hf s' level

/-! ## Reads, removals and clearings -/

theorem Agrees.of_entries {m' : Memory} (h : Agrees m b) (slots : m'.slots.keys.Nodup)
    (same : ∀ k, m'.entry? k = m.entry? k) : Agrees m' b where
  slots := slots
  books := h.books
  queue := h.queue
  queued k := by
    rw [h.queued k, Memory.holds_iff, Memory.holds_iff, same k]
  weights k t look := by
    rw [same k]
    exact h.weights k t look

/-- Which reads protect their keys does not matter. -/
theorem Agrees.retaining (h : Agrees m b) (ks : List Key) : Agrees m { b with retained := ks } :=
  ⟨h.slots, ⟨h.books.nodup, h.books.total⟩, h.queue, h.queued, h.weights⟩

theorem Agrees.touch {t : Tracked} (h : Agrees m b) (look : b.tracked.get? k = some t) (w : Nat) :
    Agrees m (b.touch k w) := by
  have books := h.books.touch k w
  rw [Books.touch_of_tracked look] at books ⊢
  refine ⟨h.slots, books, h.queue, fun j => ?_, fun j u look' => ?_⟩
  · rw [h.queued j, Table.get?_set]
    split
    · rename_i same
      simp [← same, look]
    · rfl
  · rw [Table.get?_set] at look'
    split at look'
    · rename_i same
      cases look'
      exact same ▸ h.weights k t look
    · exact h.weights j u look'

theorem Level.untracked_of_miss (h : Level m b) (miss : m.entry? k = none) :
    b.tracked.get? k = none := by
  by_contra tracked
  obtain ⟨e, held⟩ := Memory.holds_iff.mp (h.tracked_iff.mp (Option.ne_none_iff_exists'.mp tracked))
  rw [miss] at held
  cases held

/-- A hit is of a tracked key, and a miss is not. -/
theorem Level.noteRead (h : Level m b) (limits : Limits) (k : Key) :
    (noteRead limits k (.ok (m.entry? k)) ⟨(m.get k).2, b⟩).Consistent := by
  have read : Agrees (m.get k).2 b :=
    h.toAgrees.of_entries (Memory.nodup_get h.slots k) fun j => Memory.entry?_get j k m
  cases held : m.entry? k with
  | none =>
    dsimp only [Soft.noteRead]
    rw [Books.untrack_of_untracked (h.untracked_of_miss held)]
    exact read
  | some e =>
    obtain ⟨t, look⟩ := h.tracked_iff.mpr (Memory.holds_iff.mpr ⟨e, held⟩)
    exact (read.touch look e.weight).retaining _

theorem Level.remove (h : Level m b) (k : Key) : Agrees (m.remove k).2 (b.untrack k) := by
  have level (j : Key) : m.holds j = true → b.tracked.get? j ≠ none := fun held =>
    Option.ne_none_iff_exists'.mpr (h.tracked_iff.mpr held)
  refine ⟨Table.nodup_keys_erase h.slots k, h.books.untrack k, h.queue, fun j => ?_,
    fun j t look => ?_⟩
  · have none_waits : j ∉ b.reclaimed := by
      rw [h.drained]
      exact List.not_mem_nil
    refine iff_of_false none_waits fun ⟨held, untracked⟩ => ?_
    obtain ⟨other, held⟩ := (Memory.holds_remove ..).mp held
    rw [Books.get?_tracked_untrack, if_neg other] at untracked
    exact level j held untracked
  · rw [Books.get?_tracked_untrack] at look
    split at look
    · cases look
    · rename_i other
      rw [Memory.entry?_remove, if_neg other]
      exact h.weights j t look

theorem Level.clear (h : Level m b) : Agrees m.clear b.clear where
  slots := List.nodup_nil
  books := ⟨List.nodup_nil, rfl⟩
  queue := h.queue
  queued k := by
    have none_waits : k ∉ b.clear.reclaimed := by
      rw [Books.clear, h.drained]
      exact List.not_mem_nil
    exact iff_of_false none_waits fun held => by cases held.1
  weights k t look := by cases look

/-! ## Writes -/

/-- The memory may have dropped keys that are still tracked. -/
structure Covers (m : Memory) (b : Books) : Prop where
  slots : m.slots.keys.Nodup
  books : b.Sound
  drained : b.reclaimed = []
  held : ∀ k, m.holds k = true → k ∈ b.tracked.keys
  weights : ∀ k t e, b.tracked.get? k = some t → m.entry? k = some e → e.weight = t.weight

theorem Level.put (h : Level m b) (maxEntries : Option Nat) (k : Key) (e : Entry) :
    Covers (m.put maxEntries k e) (b.track k e.weight) where
  slots := Memory.nodup_put h.slots
  books := h.books.track k e.weight
  drained := h.drained
  held j held := by
    rw [Table.mem_keys_iff_get?, Books.get?_tracked_track]
    split
    · exact ⟨_, rfl⟩
    · rename_i other
      obtain ⟨f, look⟩ := Memory.holds_iff.mp held
      exact h.tracked_iff.mpr (Memory.holds_iff.mpr ⟨f, Memory.entry?_of_put look other⟩)
  weights j t f look held := by
    rw [Books.get?_tracked_track] at look
    split at look
    · rename_i same
      subst same
      rw [Memory.entry?_put_self] at held
      cases look
      cases held
      rfl
    · rename_i other
      have weight := h.weights j t look
      rw [Memory.entry?_of_put held other] at weight
      exact Option.some.inj weight

theorem Covers.level (h : Covers m b) (all : ∀ k ∈ b.tracked.keys, m.holds k = true) :
    Level m b where
  slots := h.slots
  books := h.books
  queue := h.drained ▸ List.nodup_nil
  queued k := by
    rw [h.drained]
    refine iff_of_false List.not_mem_nil fun ⟨held, untracked⟩ => ?_
    exact Table.get?_eq_none_iff.mp untracked (h.held k held)
  weights k t look := by
    obtain ⟨e, held⟩ := Memory.holds_iff.mp (all k (Table.mem_keys_iff_get?.mpr ⟨t, look⟩))
    rw [held, Option.map_some, h.weights k t e look held]
  drained := h.drained

theorem Covers.forget (h : Covers m b) (gone : m.holds k = false) : Covers m (b.forget k) where
  slots := h.slots
  books := ⟨(h.books.untrack k).nodup, (h.books.untrack k).total⟩
  drained := h.drained
  held j held := by
    refine Books.mem_tracked_untrack.mpr ⟨h.held j held, fun same => ?_⟩
    rw [same, gone] at held
    cases held
  weights j t e look held := by
    have tracked : (b.forget k).tracked.get? j = _ := Books.get?_tracked_untrack j
    rw [tracked] at look
    split at look
    · cases look
    · exact h.weights j t e look held

/-- Where no more keys are tracked than held, the same keys are. -/
theorem Covers.level_of_length (h : Covers m b) (few : b.tracked.length ≤ m.size) : Level m b := by
  -- without repetition the held keys are some of the tracked ones, hence all of them
  have held : m.slots.keys.Subperm b.tracked.keys :=
    h.slots.subperm fun k hk => h.held k (Memory.mem_keys_iff.mp hk)
  have few : b.tracked.keys.length ≤ m.slots.keys.length := by
    rw [Table.keys, Table.keys, List.length_map, List.length_map]
    exact few
  exact h.level fun k hk => Memory.mem_keys_iff.mp ((held.perm_of_length_le few).mem_iff.mpr hk)

/-- The keys still to be asked for are enough to find all that the memory has dropped. -/
theorem Covers.forgetEvicted {ks : List Key} (h : Covers m b)
    (rest : ∀ k ∈ b.tracked.keys, m.holds k = false → k ∈ ks) :
    ∃ b', forgetEvicted (Memory.store id maxEntries) m.size ks ⟨m, b⟩ = (.ok (), ⟨m, b'⟩) ∧
      Level m b' := by
  induction ks generalizing b with
  | nil =>
    -- all have been asked for, so nothing that is tracked has been dropped
    refine ⟨b, rfl, h.level fun k hk => ?_⟩
    by_contra dropped
    exact List.not_mem_nil (rest k hk (Bool.not_eq_true _ ▸ dropped))
  | cons k ks ih =>
    rw [Soft.forgetEvicted]
    split
    · rename_i few
      exact ⟨b, rfl, h.level_of_length few⟩
    · have asked : (Memory.store id maxEntries).contains k m = (.ok (m.holds k), m) := rfl
      dsimp only
      rw [asked]
      cases held : m.holds k with
      | true =>
        refine ih h fun l hl dropped => ?_
        refine (List.mem_cons.mp (rest l hl dropped)).resolve_left fun same => ?_
        rw [same, held] at dropped
        cases dropped
      | false =>
        refine ih (h.forget held) fun l hl dropped => ?_
        obtain ⟨tracked, other⟩ := Books.mem_tracked_untrack.mp hl
        exact (List.mem_cons.mp (rest l tracked dropped)).resolve_left other

theorem Covers.reconcile (h : Covers m b) (id : String) (maxEntries : Option Nat) :
    ∃ b', reconcile (Memory.store id maxEntries) ⟨m, b⟩ = (.ok (), ⟨m, b'⟩) ∧ Level m b' :=
  h.forgetEvicted fun _ hk _ => Books.mem_oldestFirst.mpr hk

theorem Consistent.enforce (h : s.Consistent) : (enforce limits s).Consistent := by
  unfold Soft.enforce
  split
  · exact h
  · exact Agrees.enforceBudget h _

/-! ## Runs -/

inductive Operation where
  | call (c : Call)
  | reclaimUnretained

def operate (limits : Limits) (d : Store Memory) (s : Soft Memory) : Operation → Soft Memory
  | .call c => ((store limits d).perform c s).2
  | .reclaimUnretained => s.reclaimUnretained.2

def run (limits : Limits) (d : Store Memory) (s : Soft Memory) (os : List Operation) :
    Soft Memory := os.foldl (operate limits d) s

theorem Consistent.get (h : s.Consistent) (k : Key) :
    (get limits (Memory.store id maxEntries) k s).2.Consistent := by
  refine h.afterDrain fun s level => ?_
  have read : (Memory.store id maxEntries).get k s.below =
      (.ok (s.below.entry? k), (s.below.get k).2) := by
    rw [← Memory.get_fst]
    rfl
  rw [read]
  exact level.noteRead limits k

theorem Consistent.put (h : s.Consistent) (k : Key) (e : Entry) :
    (put limits (Memory.store id maxEntries) k e s).2.Consistent := by
  refine h.afterDrain fun s level => ?_
  obtain ⟨b', reconciled, level'⟩ := (level.put maxEntries k e).reconcile id maxEntries
  have written : (Memory.store id maxEntries).put k e s.below =
    (.ok (), s.below.put maxEntries k e) := rfl
  rw [written]
  dsimp only
  rw [reconciled]
  exact Consistent.enforce level'.toAgrees

theorem Consistent.operate (h : s.Consistent) (o : Operation) :
    (operate limits (Memory.store id maxEntries) s o).Consistent := by
  cases o with
  | reclaimUnretained => exact Agrees.reclaimUnretained h
  | call c =>
    cases c with
    | size => exact h.afterDrain fun _ level => level.toAgrees
    | contains k => exact h.afterDrain fun _ level => level.toAgrees
    | get k => exact h.get k
    | put k e => exact h.put k e
    | remove k => exact h.afterDrain fun _ level => level.remove k
    | clear =>
      have unprotected : Consistent { s with books := { s.books with retained := [] } } :=
        Agrees.retaining h []
      exact unprotected.afterDrain fun _ level => level.clear

theorem start_consistent : Consistent ⟨{}, {}⟩ where
  slots := List.nodup_nil
  books := ⟨List.nodup_nil, rfl⟩
  queue := List.nodup_nil
  queued k := iff_of_false List.not_mem_nil fun h => by cases h.1
  weights k t h := by cases h

theorem Consistent.run (h : s.Consistent) (os : List Operation) :
    (run limits (Memory.store id maxEntries) s os).Consistent := by
  induction os generalizing s with
  | nil => exact h
  | cons o os ih => exact ih (h.operate o)

/-- After every run the keys that the memory holds are the tracked ones and, apart from them,
the reclaimed ones, each once; every tracked key has the weight of its entry, and the total is
the sum of these weights. -/
theorem books_agree (limits : Limits) (id : String) (maxEntries : Option Nat)
    (os : List Operation) :
    let s := run limits (Memory.store id maxEntries) ⟨{}, {}⟩ os
    (∀ k, s.below.holds k = true ↔ k ∈ s.books.tracked.keys ∨ k ∈ s.books.reclaimed) ∧
    s.books.tracked.keys.Disjoint s.books.reclaimed ∧ s.books.tracked.keys.Nodup ∧
    s.books.reclaimed.Nodup ∧
    (∀ k t, (k, t) ∈ s.books.tracked → (s.below.entry? k).map Entry.weight = some t.weight) ∧
    s.books.totalWeight = (s.books.tracked.map fun e => e.2.weight).sum := by
  intro s
  have h : s.Consistent := start_consistent.run os
  refine ⟨fun k => ⟨fun held => ?_, ?_⟩, fun k tracked reclaimed => ?_, h.books.nodup, h.queue,
    fun k t hm => h.weights k t ((Table.mem_iff_get? h.books.nodup).mp hm), h.books.total⟩
  · by_cases tracked : k ∈ s.books.tracked.keys
    · exact .inl tracked
    · exact .inr ((h.queued k).mpr ⟨held, Table.get?_eq_none_iff.mpr tracked⟩)
  · rintro (tracked | reclaimed)
    · obtain ⟨t, look⟩ := Table.mem_keys_iff_get?.mp tracked
      exact h.holds_of_tracked look
    · exact ((h.queued k).mp reclaimed).1
  · exact Table.get?_eq_none_iff.mp ((h.queued k).mp reclaimed).2 tracked

end DataTier.Cache.Soft
