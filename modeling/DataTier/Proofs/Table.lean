import DataTier.Table
import Mathlib.Algebra.GroupWithZero.Nat

/-! More of tables: which pairs a table has, what becomes of them when all values are replaced,
and the sum of what its entries weigh. -/

namespace DataTier.Table

variable {κ α : Type} [DecidableEq κ] {t : Table κ α} {k : κ} {a : α}

theorem get?_eq_none_iff : get? t k = none ↔ k ∉ keys t := by
  rw [mem_keys_iff, has, Bool.not_eq_true, Option.isSome_eq_false_iff, Option.isNone_iff_eq_none]

theorem mem_keys_iff_get? : k ∈ keys t ↔ ∃ a, get? t k = some a := by
  rw [mem_keys_iff, has, Option.isSome_iff_exists]

theorem erase_eq_filter (t : Table κ α) (k : κ) : erase t k = t.filter fun e => e.1 ≠ k := by
  induction t with
  | nil => rfl
  | cons e t ih =>
    obtain ⟨l, a⟩ := e
    rw [erase, ih]
    by_cases same : l = k <;> simp [same]

theorem mem_keys_set (j k : κ) (a : α) : j ∈ keys (set t k a) ↔ j = k ∨ j ∈ keys t := by
  rw [keys_set]
  split
  · rename_i old
    exact ⟨.inr, fun h => h.elim (fun same => same ▸ old) id⟩
  · rw [List.mem_append, List.mem_singleton, or_comm]

theorem mem_iff_get? (nodup : (keys t).Nodup) : (k, a) ∈ t ↔ get? t k = some a := by
  induction t with
  | nil => simp
  | cons e t ih =>
    obtain ⟨l, b⟩ := e
    obtain ⟨first, rest⟩ := List.nodup_cons.mp nodup
    rw [List.mem_cons, ih rest, get?]
    split
    · rename_i same
      have gone : get? t k = none := get?_eq_none_iff.mpr (same ▸ first)
      simp [gone, same, eq_comm]
    · rename_i other
      simp [Ne.symm other]

theorem get?_append (t t' : Table κ α) (k : κ) :
    get? (t ++ t') k = (get? t k).or (get? t' k) := by
  induction t with
  | nil => rfl
  | cons e t ih =>
    rw [List.cons_append, get?, get?]
    split
    · rfl
    · exact ih

theorem get?_map_const (ks : List κ) (a : α) (k : κ) :
    get? (ks.map fun j => (j, a)) k = if k ∈ ks then some a else none := by
  induction ks with
  | nil => rfl
  | cons j ks ih =>
    rw [List.map_cons, get?, ih]
    by_cases same : j = k
    · simp [same]
    · simp [same, Ne.symm same]

/-- The order of a table is of no matter to what it has for a key. -/
theorem get?_perm {t t' : Table κ α} (h : t.Perm t') (nodup : (keys t).Nodup) (k : κ) :
    get? t k = get? t' k := by
  have nodup' : (keys t').Nodup := (h.map Prod.fst).nodup_iff.mp nodup
  refine Option.ext fun a => ?_
  rw [← mem_iff_get? nodup, ← mem_iff_get? nodup', h.mem_iff]

theorem set_perm (nodup : (keys t).Nodup) (k : κ) (a : α) :
    (set t k a).Perm (erase t k ++ [(k, a)]) := by
  induction t with
  | nil => exact .refl _
  | cons e t ih =>
    obtain ⟨l, b⟩ := e
    obtain ⟨first, rest⟩ := List.nodup_cons.mp nodup
    rw [set, erase]
    split
    · rename_i same
      rw [same, erase_of_not_mem (same ▸ first)]
      exact (List.perm_append_singleton _ _).symm
    · exact (ih rest).cons _

theorem perm_cons_erase (nodup : (keys t).Nodup) (look : get? t k = some a) :
    t.Perm ((k, a) :: erase t k) := by
  induction t with
  | nil => cases look
  | cons e t ih =>
    obtain ⟨l, b⟩ := e
    obtain ⟨first, rest⟩ := List.nodup_cons.mp nodup
    rw [get?] at look
    rw [erase]
    split at look
    · rename_i same
      obtain rfl := Option.some.inj look
      rw [if_pos same, erase_of_not_mem (same ▸ first), same]
    · rename_i other
      rw [if_neg other]
      exact ((ih rest look).cons _).trans (.swap _ _ _)

/-! ## Values -/

def mapValues {β : Type} (f : α → β) (t : Table κ α) : Table κ β := t.map fun e => (e.1, f e.2)

omit [DecidableEq κ] in
@[simp] theorem length_mapValues {β : Type} (f : α → β) (t : Table κ α) :
    (mapValues f t).length = t.length := List.length_map _

theorem get?_mapValues {β : Type} (f : α → β) (t : Table κ α) (k : κ) :
    get? (mapValues f t) k = (get? t k).map f := by
  induction t with
  | nil => rfl
  | cons e t ih =>
    rw [mapValues, List.map_cons, get?, get?]
    split
    · rfl
    · exact ih

theorem erase_mapValues {β : Type} (f : α → β) (t : Table κ α) (k : κ) :
    erase (mapValues f t) k = mapValues f (erase t k) := by
  rw [erase_eq_filter, erase_eq_filter, mapValues, mapValues, List.filter_map]
  rfl

/-! ## Sums -/

/-- What the entries weigh together. -/
def sumOf (f : α → Nat) (t : Table κ α) : Nat := (t.map fun e => f e.2).sum

omit [DecidableEq κ] in
theorem sumOf_cons (f : α → Nat) (e : κ × α) : sumOf f (e :: t) = f e.2 + sumOf f t := by
  rw [sumOf, List.map_cons, List.sum_cons, sumOf]

theorem sumOf_set (f : α → Nat) :
    sumOf f (set t k a) + (get? t k).elim 0 f = sumOf f t + f a := by
  induction t with
  | nil => simp [set, sumOf]
  | cons e t ih =>
    obtain ⟨l, b⟩ := e
    rw [set, get?]
    split
    · simp only [sumOf_cons, Option.elim_some]
      omega
    · simp only [sumOf_cons]
      omega

theorem sumOf_erase (f : α → Nat) (nodup : (keys t).Nodup) :
    sumOf f (erase t k) + (get? t k).elim 0 f = sumOf f t := by
  induction t with
  | nil => simp [erase]
  | cons e t ih =>
    obtain ⟨l, b⟩ := e
    obtain ⟨first, rest⟩ := List.nodup_cons.mp nodup
    rw [erase, get?]
    split
    · rename_i same
      rw [erase_of_not_mem (same ▸ first), sumOf_cons, Option.elim_some, Nat.add_comm]
    · rw [sumOf_cons, sumOf_cons, Nat.add_assoc, ih rest]

end DataTier.Table
