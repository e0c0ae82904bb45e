import DataTier.Cache.Soft.Books
import DataTier.Proofs.Ranking
import Mathlib.Data.List.Perm.Basic

/-! The books of a soft layer by themselves. The total is the sum of what the tracked keys
weigh, and no two keys have been touched last at one time, whatever is entered; reclaiming moves
a tracked key to the end of the queue. -/

namespace DataTier.Cache.Soft.Books

variable {b : Books} {j k : Key} {w : Nat}

/-! ## Totals -/

structure Sound (b : Books) : Prop where
  nodup : b.tracked.keys.Nodup
  total : b.totalWeight = b.tracked.sumOf Tracked.weight

theorem weightOf_eq (b : Books) (k : Key) :
    b.weightOf k = (b.tracked.get? k).elim 0 Tracked.weight := by
  unfold weightOf
  split <;> rename_i look <;> rw [look] <;> rfl

theorem Sound.track (h : b.Sound) (k : Key) (w : Nat) : (b.track k w).Sound where
  nodup := Table.nodup_keys_set h.nodup _ _
  total := by
    have without := Table.sumOf_erase (k := k) Tracked.weight h.nodup
    have added := Table.sumOf_set (t := b.tracked) (k := k) (a := ⟨w, b.clock + 1⟩) Tracked.weight
    dsimp only at added
    simp only [Books.track, weightOf_eq, h.total]
    omega

theorem Sound.untrack (h : b.Sound) (k : Key) : (b.untrack k).Sound where
  nodup := Table.nodup_keys_erase h.nodup _
  total := by
    have without := Table.sumOf_erase (k := k) Tracked.weight h.nodup
    simp only [Books.untrack, weightOf_eq, h.total]
    omega

/-- A tracked key that is touched keeps its weight. -/
theorem touch_of_tracked {t : Tracked} (look : b.tracked.get? k = some t) (w : Nat) :
    b.touch k w = { b with
      clock := b.clock + 1
      tracked := b.tracked.set k { t with lastTouched := b.clock + 1 } } := by
  simp only [touch, tick, look]

/-- A touch concerns nothing but what is tracked. -/
theorem touch_eq (k : Key) (w : Nat) (b : Books) : ∃ tracked totalWeight clock,
    b.touch k w = { b with tracked, totalWeight, clock } := by
  unfold touch
  dsimp only
  split
  · exact ⟨_, _, _, rfl⟩
  · exact ⟨_, _, _, rfl⟩

theorem Sound.touch (h : b.Sound) (k : Key) (w : Nat) : (b.touch k w).Sound := by
  cases look : b.tracked.get? k with
  | none =>
    have tracks : b.touch k w = b.tick.track k w := by simp only [Books.touch, tick, look]
    rw [tracks]
    exact Sound.track (b := b.tick) ⟨h.nodup, h.total⟩ k w
  | some t =>
    rw [touch_of_tracked look]
    refine ⟨Table.nodup_keys_set h.nodup _ _, ?_⟩
    have same := Table.sumOf_set (t := b.tracked) (k := k)
      (a := { t with lastTouched := b.clock + 1 }) Tracked.weight
    rw [look, Option.elim_some, Nat.add_right_cancel_iff] at same
    exact h.total.trans same.symm

/-! ## Stamps -/

/-- Each tracked key has a stamp of its own, none of them to come. -/
def Dated (b : Books) : Prop := b.tracked.Dated Tracked.lastTouched b.clock

theorem Dated.track (h : b.Dated) (k : Key) (w : Nat) : (b.track k w).Dated :=
  Table.Dated.set h k rfl

theorem Dated.untrack (h : b.Dated) (k : Key) : (b.untrack k).Dated := Table.Dated.erase h k

theorem Dated.touch (h : b.Dated) (k : Key) (w : Nat) : (b.touch k w).Dated := by
  cases look : b.tracked.get? k with
  | none =>
    have ticked : b.tick.Dated := Table.Dated.wait h (Nat.le_succ _)
    have tracks : b.touch k w = b.tick.track k w := by simp only [Books.touch, tick, look]
    rw [tracks]
    exact ticked.track k w
  | some t =>
    rw [touch_of_tracked look]
    exact Table.Dated.set h k rfl

/-- When a key was touched last. -/
def touchedAt (b : Books) (k : Key) : Nat := (b.tracked.get? k).elim 0 Tracked.lastTouched

theorem Dated.oldestFirst_pairwise (h : b.Dated) :
    b.oldestFirst.Pairwise fun i j => b.touchedAt i < b.touchedAt j := by
  have stamp : ∀ e ∈ b.tracked, b.touchedAt e.1 = e.2.lastTouched := by
    rintro ⟨k, t⟩ he
    rw [touchedAt, (Table.mem_iff_get? (Table.Dated.keys h)).mp he]
    rfl
  have ranked := Table.ranked_perm Tracked.lastTouched b.tracked
  refine List.pairwise_map.mpr ((Table.Dated.ranked_pairwise h).imp_of_mem ?_)
  intro x y hx hy lt
  rw [stamp x (ranked.mem_iff.mp hx), stamp y (ranked.mem_iff.mp hy)]
  exact lt

/-- The key tracked last is the one touched last. -/
theorem Dated.oldestFirst_track (h : b.Dated) (k : Key) (w : Nat) :
    (b.track k w).oldestFirst = b.oldestFirst.filter (· ≠ k) ++ [k] := by
  have ranked := Table.Dated.ranked_set (a := ⟨w, b.clock + 1⟩) h k rfl
  have last := congrArg Table.keys ranked
  rw [Table.keys, Table.keys, List.map_append, List.map_singleton] at last
  exact last.trans (congrArg (· ++ [k]) (Table.keys_erase _ k))

/-! ## What is tracked -/

theorem get?_tracked_track (j : Key) : (b.track k w).tracked.get? j =
    if k = j then some ⟨w, b.clock + 1⟩ else b.tracked.get? j := Table.get?_set ..

theorem get?_tracked_untrack (j : Key) : (b.untrack k).tracked.get? j =
    if k = j then none else b.tracked.get? j := Table.get?_erase ..

theorem mem_tracked_untrack : j ∈ (b.untrack k).tracked.keys ↔ j ∈ b.tracked.keys ∧ j ≠ k := by
  rw [untrack, Table.keys_erase, List.mem_filter, decide_eq_true_eq]

theorem untrack_of_untracked (h : b.tracked.get? k = none) : b.untrack k = b := by
  rw [untrack, weightOf, h, Table.erase_of_not_mem (Table.get?_eq_none_iff.mp h), Nat.sub_zero]

theorem mem_oldestFirst : k ∈ b.oldestFirst ↔ k ∈ b.tracked.keys :=
  ((List.mergeSort_perm _ _).map Prod.fst).mem_iff

theorem nodup_oldestFirst (h : b.tracked.keys.Nodup) : b.oldestFirst.Nodup :=
  ((List.mergeSort_perm _ _).map Prod.fst).nodup_iff.mpr h

/-! ## Reclaiming -/

def reclaimAll (ks : List Key) (b : Books) : Books := ks.foldl (fun b k => b.reclaim k) b

/-- Shedding reclaims keys in order, each while the total is over the budget. -/
theorem shed_over (budget : Nat) (ks : List Key) (b : Books) :
    ∃ n, shed budget ks b = b.reclaimAll (ks.take n) ∧
      ∀ i < (ks.take n).length, budget < (b.reclaimAll ((ks.take n).take i)).totalWeight := by
  induction ks generalizing b with
  | nil => exact ⟨0, rfl, fun i hi => absurd hi (Nat.not_lt_zero i)⟩
  | cons k ks ih =>
    rw [shed]
    split
    · exact ⟨0, rfl, fun i hi => absurd hi (Nat.not_lt_zero i)⟩
    · rename_i exceeds
      obtain ⟨n, shed, rest⟩ := ih (b.reclaim k)
      refine ⟨n + 1, shed, fun i hi => ?_⟩
      cases i with
      | zero => exact Nat.lt_of_not_le exceeds
      | succ i => exact rest i (Nat.lt_of_succ_lt_succ hi)

/-- Shedding goes on until the total is within the budget, or no key is left. -/
theorem shed_within (budget : Nat) (ks : List Key) (b : Books) :
    (shed budget ks b).totalWeight ≤ budget ∨ shed budget ks b = b.reclaimAll ks := by
  induction ks generalizing b with
  | nil => exact .inr rfl
  | cons k ks ih =>
    rw [shed]
    split
    · rename_i within
      exact .inl within
    · exact ih (b.reclaim k)

theorem shed_eq_reclaimAll (budget : Nat) (ks : List Key) (b : Books) :
    ∃ n, shed budget ks b = b.reclaimAll (ks.take n) :=
  (shed_over budget ks b).imp fun _ h => h.1

theorem reclaimed_reclaimAll (ks : List Key) (b : Books) :
    (b.reclaimAll ks).reclaimed = b.reclaimed ++ ks := by
  induction ks generalizing b with
  | nil => exact (List.append_nil _).symm
  | cons k ks ih => exact (ih (b.reclaim k)).trans (List.append_assoc ..)

theorem retained_reclaimAll (ks : List Key) (b : Books) :
    (b.reclaimAll ks).retained = b.retained := by
  induction ks generalizing b with
  | nil => rfl
  | cons k ks ih => exact ih (b.reclaim k)

theorem reclaimedTotal_reclaimAll (ks : List Key) (b : Books) :
    (b.reclaimAll ks).reclaimedTotal = b.reclaimedTotal + ks.length := by
  induction ks generalizing b with
  | nil => rfl
  | cons k ks ih =>
    have rest := ih (b.reclaim k)
    rw [List.length_cons, Nat.add_comm ks.length, ← Nat.add_assoc]
    exact rest

theorem mem_tracked_reclaimAll (ks : List Key) :
    j ∈ (b.reclaimAll ks).tracked.keys ↔ j ∈ b.tracked.keys ∧ j ∉ ks := by
  induction ks generalizing b with
  | nil => simp [reclaimAll]
  | cons k ks ih =>
    have rest := ih (b := b.reclaim k)
    rw [show j ∈ (b.reclaim k).tracked.keys ↔ _ from mem_tracked_untrack] at rest
    rw [List.mem_cons, not_or, ← and_assoc]
    exact rest

end DataTier.Cache.Soft.Books
