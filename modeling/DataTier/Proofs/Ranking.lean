import DataTier.Proofs.Table
import Mathlib.Data.List.Sort

/-! Tables whose entries are stamped, later entries with larger stamps. Where the stamps are all
different (`Dated`), the entries have one order only. Taking an entry out leaves the others in
theirs, and an entry that is set anew comes last. -/

namespace DataTier.Table

variable {κ α : Type} [DecidableEq κ] {stamp : α → Nat} {now now' : Nat} {t t' : Table κ α} {k : κ}
  {a : α}

/-- The entries in the order of their stamps. -/
def ranked (stamp : α → Nat) (t : Table κ α) : Table κ α :=
  t.mergeSort fun x y => stamp x.2 ≤ stamp y.2

/-- Each key once and each stamp once, and no stamp is after `now`. -/
structure Dated (stamp : α → Nat) (now : Nat) (t : Table κ α) : Prop where
  keys : t.keys.Nodup
  stamps : (t.map fun e => stamp e.2).Nodup
  past : ∀ e ∈ t, stamp e.2 ≤ now

omit [DecidableEq κ] in
theorem ranked_perm (stamp : α → Nat) (t : Table κ α) : (ranked stamp t).Perm t :=
  List.mergeSort_perm _ _

namespace Dated

omit [DecidableEq κ] in
theorem nil (stamp : α → Nat) (now : Nat) : Dated stamp now ([] : Table κ α) :=
  ⟨.nil, .nil, by simp⟩

omit [DecidableEq κ] in
theorem wait (h : Dated stamp now t) (le : now ≤ now') : Dated stamp now' t := by
  refine ⟨h.keys, h.stamps, ?_⟩
  intro e he
  exact Nat.le_trans (h.past e he) le

omit [DecidableEq κ] in
theorem thin (h : Dated stamp now t) (part : t'.Sublist t) : Dated stamp now t' := by
  refine ⟨(part.map _).nodup h.keys, (part.map _).nodup h.stamps, ?_⟩
  intro e he
  exact h.past e (part.subset he)

omit [DecidableEq κ] in
theorem perm (h : Dated stamp now t) (perm : t'.Perm t) : Dated stamp now t' := by
  refine ⟨(perm.map _).nodup_iff.mpr h.keys, (perm.map _).nodup_iff.mpr h.stamps, ?_⟩
  intro e he
  exact h.past e (perm.mem_iff.mp he)

theorem erase (h : Dated stamp now t) (k : κ) : Dated stamp now (t.erase k) := by
  rw [erase_eq_filter]
  exact h.thin List.filter_sublist

/-- A stamp that is later than all others may be given to any key. -/
theorem set (h : Dated stamp now t) (k : κ) (fresh : stamp a = now + 1) :
    Dated stamp (now + 1) (t.set k a) := by
  have perm := set_perm h.keys k a
  have rest := h.erase k
  refine ⟨nodup_keys_set h.keys k a, ?_, ?_⟩
  · rw [(perm.map _).nodup_iff, List.map_append, List.map_singleton]
    refine rest.stamps.append (List.nodup_singleton _) ?_
    rw [List.disjoint_singleton, fresh]
    intro old
    obtain ⟨e, he, same⟩ := List.mem_map.mp old
    have past := rest.past e he
    omega
  · intro e he
    rcases List.mem_append.mp (perm.mem_iff.mp he) with he | he
    · exact Nat.le_succ_of_le (rest.past e he)
    · rw [List.mem_singleton.mp he]
      exact Nat.le_of_eq fresh

/-! ## Order -/

omit [DecidableEq κ] in
theorem ranked_pairwise (h : Dated stamp now t) :
    (ranked stamp t).Pairwise fun x y => stamp x.2 < stamp y.2 := by
  have sorted : (ranked stamp t).Pairwise fun x y => stamp x.2 ≤ stamp y.2 := by
    have sorts : (ranked stamp t).Pairwise fun x y => decide (stamp x.2 ≤ stamp y.2) = true :=
      List.pairwise_mergeSort (fun x y z => by simpa using Nat.le_trans)
        (fun x y => by simpa using Nat.le_total _ _) t
    simpa using sorts
  have distinct : (ranked stamp t).Pairwise fun x y => stamp x.2 ≠ stamp y.2 := by
    have nodup := ((ranked_perm stamp t).map fun e => stamp e.2).nodup_iff.mpr h.stamps
    exact List.pairwise_map.mp nodup
  exact (sorted.and distinct).imp fun ⟨le, ne⟩ => Nat.lt_of_le_of_ne le ne

omit [DecidableEq κ] in
/-- There is one order of the stamps only. -/
theorem ranked_eq (h : Dated stamp now t) (perm : t'.Perm t)
    (sorted : t'.Pairwise fun x y => stamp x.2 < stamp y.2) : ranked stamp t = t' := by
  refine List.Perm.eq_of_pairwise ?_ h.ranked_pairwise sorted
    ((ranked_perm stamp t).trans perm.symm)
  intro x y _ _ lt gt
  exact absurd gt (Nat.lt_asymm lt)

omit [DecidableEq κ] in
theorem ranked_congr (h : Dated stamp now t) (perm : t'.Perm t) :
    ranked stamp t' = ranked stamp t :=
  (h.ranked_eq ((ranked_perm stamp t').trans perm) (h.perm perm).ranked_pairwise).symm

omit [DecidableEq κ] in
theorem ranked_filter (h : Dated stamp now t) (p : κ × α → Bool) :
    ranked stamp (t.filter p) = (ranked stamp t).filter p :=
  (h.thin List.filter_sublist).ranked_eq ((ranked_perm stamp t).filter p)
    (h.ranked_pairwise.sublist List.filter_sublist)

theorem ranked_erase (h : Dated stamp now t) (k : κ) :
    ranked stamp (t.erase k) = (ranked stamp t).erase k := by
  rw [erase_eq_filter, erase_eq_filter]
  exact h.ranked_filter _

theorem ranked_set (h : Dated stamp now t) (k : κ) (fresh : stamp a = now + 1) :
    ranked stamp (t.set k a) = (ranked stamp t).erase k ++ [(k, a)] := by
  have rest : ((ranked stamp t).erase k).Sublist (ranked stamp t) := by
    rw [erase_eq_filter]
    exact List.filter_sublist
  refine (h.set k fresh).ranked_eq ?_ ?_
  · have left : ((ranked stamp t).erase k).Perm (t.erase k) := by
      rw [← h.ranked_erase]
      exact ranked_perm stamp _
    exact (left.append_right _).trans (set_perm h.keys k a).symm
  · refine List.pairwise_append.mpr
      ⟨h.ranked_pairwise.sublist rest, List.pairwise_singleton _ _, ?_⟩
    intro x hx y hy
    have past := h.past x ((ranked_perm stamp t).mem_iff.mp (rest.subset hx))
    rw [List.mem_singleton.mp hy, fresh]
    exact Nat.lt_succ_of_le past

/-- The entry with the first stamp is the first of all. -/
theorem ranked_cons (h : Dated stamp now t) (look : t.get? k = some a)
    (least : ∀ e ∈ t, stamp a ≤ stamp e.2) :
    ranked stamp t = (k, a) :: ranked stamp (t.erase k) := by
  have perm := perm_cons_erase h.keys look
  have rest := h.erase k
  refine h.ranked_eq (((ranked_perm stamp _).cons _).trans perm.symm)
    (rest.ranked_pairwise.cons ?_)
  intro e he
  have he : e ∈ t.erase k := (ranked_perm stamp _).mem_iff.mp he
  have distinct := (perm.map fun e => stamp e.2).nodup_iff.mp h.stamps
  refine Nat.lt_of_le_of_ne (least e (perm.mem_iff.mpr (List.mem_cons_of_mem _ he))) ?_
  intro same
  exact (List.nodup_cons.mp distinct).1 (List.mem_map.mpr ⟨e, he, same.symm⟩)

end Dated
end DataTier.Table
