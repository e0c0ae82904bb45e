import DataTier.Proofs.Cache.Chain
import Mathlib.Algebra.BigOperators.Group.Finset.Basic
import Mathlib.Algebra.Order.BigOperators.Group.Finset

/-! Stores with room for all that is ever written to them. Where a memory may hold as many entries
as there are, and a soft layer may keep what they weigh, nothing is evicted and nothing reclaimed:
what was written stays (`Store.Roomy`). -/

namespace DataTier.Cache

variable {ι σ : Type} {room S : Finset ι} {key : ι → Key} {value : ι → Entry}

/-- A store that keeps whichever of the entries in `room` are written to it. -/
structure Store.Roomy [DecidableEq ι] (d : Store σ) (room : Finset ι) (key : ι → Key)
    (value : ι → Entry) (stores : Finset ι → σ → Prop) : Prop where
  size : ∀ {S s}, S ⊆ room → stores S s → (d.size s).1 = .ok S.card
  get : ∀ {S s i}, S ⊆ room → i ∈ room → stores S s →
    (d.get (key i) s).1 = .ok (if i ∈ S then some (value i) else none) ∧
      stores S (d.get (key i) s).2
  put : ∀ {S s i}, S ⊆ room → i ∈ room → stores S s →
    (d.put (key i) (value i) s).1 = .ok () ∧ stores (insert i S) (d.put (key i) (value i) s).2

/-! ## Memories -/

namespace Memory

variable {m : Memory} {i : ι} {maxEntries : Option Nat} {id : String}

/-- The memory holds these entries, and no others. -/
def Stores (key : ι → Key) (value : ι → Entry) (S : Finset ι) (m : Memory) : Prop :=
  ∀ k e, m.entry? k = some e ↔ ∃ i ∈ S, key i = k ∧ value i = e

theorem Stores.of_entries {m' : Memory} (h : Stores key value S m)
    (same : ∀ k, m'.entry? k = m.entry? k) : Stores key value S m' :=
  fun k e => by rw [same, h k e]

theorem Stores.entry? [DecidableEq ι] (h : Stores key value S m) (apart : Set.InjOn key room)
    (inside : S ⊆ room) (hi : i ∈ room) : m.entry? (key i) = if i ∈ S then some (value i) else none := by
  split
  · rename_i stored
    exact (h _ _).mpr ⟨i, stored, rfl, rfl⟩
  · rename_i missing
    refine Option.eq_none_iff_forall_ne_some.mpr fun e held => ?_
    obtain ⟨j, hj, same, -⟩ := (h _ _).mp held
    exact missing (apart (inside hj) hi same ▸ hj)

theorem Stores.toFinset_keys (h : Stores key value S m) : m.slots.keys.toFinset = S.image key := by
  ext k
  rw [List.mem_toFinset, mem_keys_iff, holds_iff, Finset.mem_image]
  refine ⟨fun ⟨e, held⟩ => ?_, fun ⟨i, hi, same⟩ => ⟨value i, (h _ _).mpr ⟨i, hi, same, rfl⟩⟩⟩
  obtain ⟨i, hi, same, -⟩ := (h _ _).mp held
  exact ⟨i, hi, same⟩

theorem Stores.size_eq (h : Stores key value S m) (nodup : m.slots.keys.Nodup)
    (apart : Set.InjOn key S) : m.size = S.card := by
  rw [← Finset.card_image_of_injOn apart, ← h.toFinset_keys, List.toFinset_card_of_nodup nodup,
    Table.keys, List.length_map]
  rfl

/-- A write that finds its key, or room for one more, evicts nothing. -/
theorem entry?_put_of_room {k : Key} (room : m.holds k = true ∨ m.isFull maxEntries = false)
    (j : Key) (e : Entry) :
    Memory.entry? (m.put maxEntries k e) j = if k = j then some e else m.entry? j := by
  have stays : m.tick.makeRoom maxEntries k = m.tick := by
    refine if_neg fun makes => ?_
    obtain ⟨fresh, full⟩ := (Bool.and_eq_true_iff).mp makes
    rcases room with held | free
    · rw [show m.tick.holds k = m.holds k from rfl, held] at fresh
      cases fresh
    · rw [show m.tick.isFull maxEntries = m.isFull maxEntries from rfl, free] at full
      cases full
  simp only [put, stays, Memory.entry?, Table.get?_set]
  split <;> rfl

theorem Stores.put [DecidableEq ι] (h : Stores key value S m) (apart : Set.InjOn key room)
    (inside : S ⊆ room) (nodup : m.slots.keys.Nodup) (bound : ∀ n, bound? maxEntries = some n → room.card ≤ n)
    (hi : i ∈ room) : Stores key value (insert i S) (m.put maxEntries (key i) (value i)) := by
  have free : m.holds (key i) = true ∨ m.isFull maxEntries = false := by
    by_cases stored : i ∈ S
    · exact .inl (holds_iff.mpr ⟨_, (h _ _).mpr ⟨i, stored, rfl, rfl⟩⟩)
    · right
      have less : S.card < room.card :=
        Finset.card_lt_card ⟨inside, fun all => stored (all hi)⟩
      unfold isFull
      split
      · rfl
      · rename_i n limit
        rw [h.size_eq nodup (apart.mono inside)]
        exact decide_eq_false (Nat.not_le_of_lt (Nat.lt_of_lt_of_le less (bound n limit)))
  intro k e
  rw [entry?_put_of_room free]
  split
  · rename_i same
    subst same
    refine ⟨fun new => ⟨i, Finset.mem_insert_self i S, rfl, Option.some.inj new⟩, ?_⟩
    rintro ⟨j, hj, same, rfl⟩
    rw [apart (Finset.insert_subset hi inside hj) hi same]
  · rename_i other
    rw [h k e]
    simp [other]

end Memory

/-! ## Soft layers -/

namespace Soft

variable {s : Soft Memory} {m : Memory} {b : Books} {limits : Limits} {maxEntries : Option Nat}
  {i : ι}

/-- The memory below holds these entries, and nothing waits to be removed from it. -/
structure Stores (key : ι → Key) (value : ι → Entry) (S : Finset ι) (s : Soft Memory) : Prop where
  level : Level s.below s.books
  entries : s.below.Stores key value S

theorem Stores.drained (h : Stores key value S s) : s.drained = s :=
  drained_of_idle h.level.drained

/-- What is tracked weighs as much as what is held. -/
theorem Level.weighs (level : Level m b) (h : m.Stores key value S)
    (apart : Set.InjOn key S) : b.totalWeight = ∑ i ∈ S, (value i).weight := by
  have keys : b.tracked.keys.toFinset = S.image key := by
    rw [← h.toFinset_keys]
    ext k
    rw [List.mem_toFinset, List.mem_toFinset, level.mem_tracked_iff, Memory.mem_keys_iff]
  calc b.totalWeight = (b.tracked.keys.map m.weightOf).sum := level.totalWeight_eq
    _ = ∑ k ∈ S.image key, m.weightOf k := by
      rw [← keys, List.sum_toFinset _ level.books.nodup]
    _ = ∑ i ∈ S, m.weightOf (key i) := Finset.sum_image apart
    _ = ∑ i ∈ S, (value i).weight := by
      refine Finset.sum_congr rfl fun i hi => ?_
      rw [Memory.weightOf, (h (key i) (value i)).mpr ⟨i, hi, rfl, rfl⟩, Option.elim_some]

theorem enforce_of_light (light : ∀ budget, limits.budget = some budget → b.totalWeight ≤ budget) :
    enforce limits ⟨m, b⟩ = ⟨m, b⟩ := by
  obtain ⟨ks, enforced, -, -, heavy⟩ := enforce_eq limits m b
  have none : ks = [] := by
    refine List.eq_nil_iff_length_eq_zero.mpr (Nat.eq_zero_of_not_pos fun some => ?_)
    obtain ⟨budget, hb, exceeds⟩ := heavy 0 some
    exact absurd (light budget hb) (Nat.not_le_of_lt exceeds)
  rw [enforced, none]
  rfl

theorem roomy [DecidableEq ι] (limits : Limits) (id : String) (maxEntries : Option Nat)
    (apart : Set.InjOn key room) (bound : ∀ n, Memory.bound? maxEntries = some n → room.card ≤ n)
    (light : ∀ budget, limits.budget = some budget → ∑ i ∈ room, (value i).weight ≤ budget) :
    (store limits (Memory.store id maxEntries)).Roomy room key value (Stores key value) where
  size {S s} inside h := by
    have counted : (Soft.size (Memory.store id maxEntries) s).1 = .ok s.below.size := by
      rw [Soft.size, afterDrain_eq, h.drained]
      rfl
    exact counted.trans (congrArg Except.ok (h.entries.size_eq h.level.slots (apart.mono inside)))
  get {S s i} inside hi h := by
    have read := get_eq limits id maxEntries (key i) s
    rw [h.drained] at read
    have found := h.entries.entry? apart inside hi
    have level : Level s.below s.books := h.level
    refine ⟨?_, ?_⟩
    · exact (congrArg Prod.fst read).trans (congrArg Except.ok found)
    · show Stores key value S (Soft.get limits (Memory.store id maxEntries) (key i) s).2
      rw [read]
      refine ⟨⟨level.noteRead limits (key i), ?_⟩, ?_⟩
      · rw [reclaimed_noteRead]
        exact level.drained
      · rw [below_noteRead]
        exact h.entries.of_entries fun k => Memory.entry?_get k (key i) s.below
  put {S s i} inside hi h := by
    have level : Level s.below s.books := h.level
    have covers := level.put maxEntries (key i) (value i)
    obtain ⟨b, reconciled, after⟩ := covers.reconcile id maxEntries
    have entries := h.entries.put apart inside level.slots bound hi
    have all : insert i S ⊆ room := Finset.insert_subset hi inside
    have within (budget : Nat) (hb : limits.budget = some budget) : b.totalWeight ≤ budget := by
      rw [after.weighs entries (apart.mono all)]
      exact Nat.le_trans (Finset.sum_le_sum_of_subset all) (light budget hb)
    have written : Soft.put limits (Memory.store id maxEntries) (key i) (value i) s =
        (.ok (), ⟨s.below.put maxEntries (key i) (value i), b⟩) := by
      rw [← h.drained] at reconciled
      rw [put_eq limits reconciled, h.drained, enforce_of_light within]
    refine ⟨congrArg Prod.fst written, ?_⟩
    show Stores key value (insert i S) (Soft.put limits (Memory.store id maxEntries) _ _ s).2
    rw [written]
    exact ⟨after, entries⟩

theorem start_stores (key : ι → Key) (value : ι → Entry) : Stores key value ∅ ⟨{}, {}⟩ where
  level := ⟨start_consistent, rfl⟩
  entries k e := by simp [Memory.entry?]

end Soft
end DataTier.Cache
