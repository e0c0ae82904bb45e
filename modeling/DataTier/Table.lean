/-! Tables: lists of keys with what they stand for, in the order in which the keys came.
A key that is set again keeps its place, so a table made by `set` and `erase` holds each
key once; `get?` follows every operation by a rule of its own. -/

namespace DataTier

abbrev Table (κ α : Type) := List (κ × α)

namespace Table

variable {κ α : Type} [DecidableEq κ]

def get? : Table κ α → κ → Option α
  | [], _ => none
  | (k', a) :: t, k => if k' = k then some a else get? t k

def has (t : Table κ α) (k : κ) : Bool := (get? t k).isSome

def set : Table κ α → κ → α → Table κ α
  | [], k, a => [(k, a)]
  | (k', b) :: t, k, a => if k' = k then (k', a) :: t else (k', b) :: set t k a

def erase : Table κ α → κ → Table κ α
  | [], _ => []
  | (k', a) :: t, k => if k' = k then erase t k else (k', a) :: erase t k

def keys (t : Table κ α) : List κ := t.map Prod.fst

@[simp] theorem get?_nil (k : κ) : get? ([] : Table κ α) k = none := rfl

theorem get?_set (t : Table κ α) (k j : κ) (a : α) :
    get? (set t k a) j = if k = j then some a else get? t j := by
  induction t with
  | nil => simp [set, get?]
  | cons e t ih =>
    obtain ⟨k', b⟩ := e
    by_cases h : k' = k
    · subst h; by_cases hj : k' = j <;> simp [set, get?, hj]
    · by_cases hj : k' = j
      · subst hj; simp [set, get?, h, Ne.symm h]
      · simp [set, get?, h, hj, ih]

@[simp] theorem get?_set_self (t : Table κ α) (k : κ) (a : α) : get? (set t k a) k = some a := by
  simp [get?_set]

theorem get?_erase (t : Table κ α) (k j : κ) :
    get? (erase t k) j = if k = j then none else get? t j := by
  induction t with
  | nil => simp [erase]
  | cons e t ih =>
    obtain ⟨k', b⟩ := e
    by_cases h : k' = k
    · subst h
      rw [erase, if_pos rfl, ih, get?]
      split <;> rfl
    · by_cases hj : k' = j
      · subst hj; simp [erase, get?, h, Ne.symm h]
      · simp [erase, get?, h, hj, ih]

theorem keys_set (t : Table κ α) (k : κ) (a : α) :
    keys (set t k a) = if k ∈ keys t then keys t else keys t ++ [k] := by
  induction t with
  | nil => simp [set, keys]
  | cons e t ih =>
    obtain ⟨k', b⟩ := e
    simp only [keys] at ih
    by_cases h : k' = k
    · simp [set, keys, h]
    · simp only [set, keys, h, if_false, List.map_cons, ih, List.mem_cons, Ne.symm h, false_or]
      by_cases hk : k ∈ List.map Prod.fst t <;> simp only [hk, if_true, if_false, List.cons_append]

theorem keys_erase (t : Table κ α) (k : κ) : keys (erase t k) = (keys t).filter (· ≠ k) := by
  induction t with
  | nil => rfl
  | cons e t ih =>
    obtain ⟨k', b⟩ := e
    simp only [keys] at ih
    by_cases h : k' = k <;> simp [erase, keys, h, ih]

theorem mem_keys_iff (t : Table κ α) (k : κ) : k ∈ keys t ↔ has t k = true := by
  induction t with
  | nil => simp [keys, has]
  | cons e t ih =>
    obtain ⟨k', b⟩ := e
    simp only [keys, has] at ih
    by_cases h : k' = k
    · simp [keys, has, get?, h]
    · simp [keys, has, get?, h, Ne.symm h, ← ih]

theorem nodup_keys_set {t : Table κ α} (h : (keys t).Nodup) (k : κ) (a : α) :
    (keys (set t k a)).Nodup := by
  rw [keys_set]
  split
  · exact h
  · next hk =>
    refine List.nodup_append.mpr ⟨h, by simp, ?_⟩
    intro x hx y hy hxy
    simp only [List.mem_singleton] at hy
    exact hk (hy ▸ hxy ▸ hx)

theorem nodup_keys_erase {t : Table κ α} (h : (keys t).Nodup) (k : κ) :
    (keys (erase t k)).Nodup := by
  rw [keys_erase]
  exact h.filter _

theorem length_set_of_not_mem {t : Table κ α} {k : κ} (h : k ∉ keys t) (a : α) :
    (set t k a).length = t.length + 1 := by
  have hk := congrArg List.length (keys_set t k a)
  rw [if_neg h, List.length_append, List.length_singleton] at hk
  simpa only [keys, List.length_map] using hk

theorem length_erase_of_mem {t : Table κ α} {k : κ} (hn : (keys t).Nodup) (h : k ∈ keys t) :
    (erase t k).length + 1 = t.length := by
  have hk : keys (erase t k) = (keys t).erase k := by
    rw [keys_erase, List.Nodup.erase_eq_filter hn]
    exact List.filter_congr fun x _ => by by_cases e : x = k <;> simp [e]
  have hl := congrArg List.length hk
  have pos := List.length_pos_of_mem h
  rw [List.length_erase_of_mem h] at hl
  simp only [keys, List.length_map] at hl pos
  omega

theorem erase_of_not_mem {t : Table κ α} {k : κ} (h : k ∉ keys t) : erase t k = t := by
  induction t with
  | nil => rfl
  | cons e t ih =>
    obtain ⟨k', b⟩ := e
    simp only [keys, List.map_cons, List.mem_cons, not_or] at h
    rw [erase, if_neg (Ne.symm h.1), ih h.2]

end DataTier.Table
