import DataTier.Cache.UnitOfWork
import DataTier.Proofs.Table

/-! What the end of a unit of work asks of the store below. Each call of a plan is made,
whatever comes of the others, so a commit writes down what its plan has: the pending entries,
and the marker of an absent row for every key that was missed and not written. -/

namespace DataTier.Cache

/-! ## The calls that are made -/

namespace Store

variable {σ α : Type}

def note (c : Call) (f : σ → Answer α × σ) (s : σ × List Call) : Answer α × σ × List Call :=
  let (a, below) := f s.1
  (a, below, s.2 ++ [c])

/-- The store, with the calls that it was asked to perform, in order. -/
def recorded (d : Store σ) : Store (σ × List Call) where
  id := d.id
  size := note .size d.size
  get k := note (.get k) (d.get k)
  put k e := note (.put k e) (d.put k e)
  contains k := note (.contains k) (d.contains k)
  remove k := note (.remove k) (d.remove k)
  clear := note .clear d.clear

theorem perform_recorded (d : Store σ) (c : Call) (s : σ) (log : List Call) :
    d.recorded.perform c (s, log) = ((d.perform c s).1, (d.perform c s).2, log ++ [c]) := by
  cases c <;> rfl

theorem run_recorded (d : Store σ) (cs : List Call) (s : σ) (log : List Call) :
    d.recorded.run cs (s, log) = ((d.run cs s).1, (d.run cs s).2, log ++ cs) := by
  induction cs generalizing s log with
  | nil => simp [run]
  | cons c cs ih => simp [run, perform_recorded, ih]

end Store

namespace UnitOfWork

variable {σ : Type} {u : UnitOfWork} {k : Key}

/-- What a commit makes the store below do. -/
def commitCalls (d : Store σ) (u : UnitOfWork) (s : σ) : List Call :=
  (u.commit d.recorded (s, [])).2.2.2

theorem commitCalls_eq (d : Store σ) (u : UnitOfWork) (s : σ) :
    u.commitCalls d s = u.commitPlan := by
  simp [commitCalls, commit, Store.performAll, Store.run_recorded]

/-! ## What a plan has -/

theorem mem_unwritten : k ∈ u.unwritten ↔ k ∈ u.missed ∧ k ∉ u.pending.keys := by
  simp [unwritten, Table.mem_keys_iff]

theorem nodup_written (pending : u.pending.keys.Nodup) (missed : u.missed.Nodup) :
    (u.pending.keys ++ u.unwritten).Nodup := by
  refine List.nodup_append.mpr ⟨pending, missed.filter _, fun x hx y hy e => ?_⟩
  exact (mem_unwritten.mp hy).2 (e ▸ hx)

theorem put_mem_commitPlan_iff {e : Entry} (nodup : u.pending.keys.Nodup) :
    .put k e ∈ u.commitPlan ↔ u.pending.get? k = some e ∨
      e = .knownAbsent ∧ k ∈ u.missed ∧ u.pending.get? k = none := by
  have clear : .put k e ∉ if u.clearOnCommit then [Call.clear] else [] := by
    split <;> simp
  rw [commitPlan, List.mem_append, or_iff_right clear, writes, List.mem_append,
    Table.get?_eq_none_iff, ← Table.mem_iff_get? nodup, ← mem_unwritten]
  refine or_congr (by simp) ⟨fun h => ?_, fun ⟨marker, h⟩ => ?_⟩
  · obtain ⟨l, hl, written⟩ := List.mem_map.mp h
    cases written
    exact ⟨rfl, hl⟩
  · exact List.mem_map.mpr ⟨k, h, by rw [marker]⟩

/-! ## What a read leaves -/

theorem pending_note : (u.note k).pending = u.pending := by
  unfold note
  split <;> rfl

theorem pending_learn (a : Answer (Option Entry)) : (u.learn k a).2.pending = u.pending := by
  rcases a with _ | _ | _
  · rfl
  · exact pending_note
  · rfl

end UnitOfWork

end DataTier.Cache
