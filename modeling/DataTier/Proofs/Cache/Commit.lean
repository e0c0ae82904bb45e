import DataTier.Cache.Probe
import DataTier.Proofs.Cache.Markers
import DataTier.Proofs.Cache.Memory

/-! What a commit makes of the store below. It clears the store first if it is to be cleared,
and then writes each key that was written or missed, once; a failure keeps none of the other
calls back. Over a memory without a bound the writes come to lie over what was there, in
whatever order they are made, and until the commit nothing is changed there. -/

namespace DataTier.Cache

open Time (Instant)

variable {σ : Type}

/-! ## The writes -/

namespace UnitOfWork

variable {u u' : UnitOfWork} {k : Key}

/-- No key stands in either of the lists twice. -/
structure Proper (u : UnitOfWork) : Prop where
  pending : u.pending.keys.Nodup
  missed : u.missed.Nodup

theorem Proper.empty : Proper {} := ⟨List.nodup_nil, List.nodup_nil⟩

theorem Proper.learn (h : u.Proper) (k : Key) (a : Answer (Option Entry)) :
    (u.learn k a).2.Proper := by
  refine ⟨by rw [pending_learn]; exact h.pending, ?_⟩
  rcases a with _ | _ | _
  · exact h.missed
  · exact nodup_missed_note h.missed k
  · exact h.missed

/-- The entries that a commit writes. -/
def written (u : UnitOfWork) : Table Key Entry :=
  u.pending ++ u.unwritten.map fun k => (k, .knownAbsent)

theorem writes_eq (u : UnitOfWork) : u.writes = u.written.map fun e => .put e.1 e.2 := by
  simp [writes, written]

theorem keys_written (u : UnitOfWork) : u.written.keys = u.pending.keys ++ u.unwritten := by
  simp [written, Table.keys, Function.comp_def]

theorem Proper.nodup_written (h : u.Proper) : u.written.keys.Nodup := by
  rw [keys_written]
  exact UnitOfWork.nodup_written h.pending h.missed

/-- What was written for a key is written down, or else that it was missed. -/
theorem get?_written (u : UnitOfWork) (k : Key) : u.written.get? k =
    (u.pending.get? k).or (if k ∈ u.missed then some .knownAbsent else none) := by
  rw [written, Table.get?_append, Table.get?_map_const]
  cases own : u.pending.get? k with
  | some e => rfl
  | none => simp [mem_unwritten, Table.get?_eq_none_iff.mp own]

/-- The same unit of work, its keys in another order. -/
structure Reorders (u u' : UnitOfWork) : Prop where
  clears : u.clearOnCommit = u'.clearOnCommit
  pending : u.pending.Perm u'.pending
  missed : u.missed.Perm u'.missed

theorem Reorders.proper (h : u.Reorders u') (hp : u.Proper) : u'.Proper :=
  ⟨(h.pending.map Prod.fst).nodup_iff.mp hp.pending, h.missed.nodup_iff.mp hp.missed⟩

theorem Reorders.written (h : u.Reorders u') (hp : u.Proper) : u.written.Perm u'.written := by
  have has (k : Key) : u.pending.has k = u'.pending.has k :=
    congrArg Option.isSome (Table.get?_perm h.pending hp.pending k)
  have unwritten : u.unwritten.Perm u'.unwritten := by
    unfold UnitOfWork.unwritten
    simp only [has]
    exact h.missed.filter _
  exact h.pending.append (unwritten.map _)

end UnitOfWork

/-! ## Over a memory -/

namespace Memory

variable {maxEntries : Option Nat}

/-- Entries that are written lie over those that were there. -/
theorem entry?_run_puts (unbounded : bound? maxEntries = none) (id : String) {t : Table Key Entry}
    (nodup : t.keys.Nodup) (m : Memory) (k : Key) :
    entry? ((store id maxEntries).run (t.map fun e => .put e.1 e.2) m).2 k =
      (t.get? k).or (m.entry? k) := by
  induction t generalizing m with
  | nil => rfl
  | cons e t ih =>
    obtain ⟨j, e⟩ := e
    obtain ⟨first, rest⟩ := List.nodup_cons.mp nodup
    have step : entry? ((store id maxEntries).run (((j, e) :: t).map fun e => .put e.1 e.2) m).2 k =
        (Table.get? t k).or (if j = k then some e else m.entry? k) := by
      rw [← entry?_put unbounded]
      exact ih rest _
    rw [step, Table.get?]
    split
    · rename_i same
      rw [Table.get?_eq_none_iff.mpr (same ▸ first), Option.none_or, Option.some_or]
    · rfl

end Memory

/-! ## The end of a unit of work -/

namespace UnitOfWork

variable {u u' : UnitOfWork} {k : Key}

theorem Reorders.commitCalls (h : u.Reorders u') (hp : u.Proper) (d : Store σ) (s : σ) :
    (u.commitCalls d s).Perm (u'.commitCalls d s) := by
  rw [commitCalls_eq, commitCalls_eq, commitPlan, commitPlan, h.clears, writes_eq, writes_eq]
  exact ((h.written hp).map _).append_left _

/-- The old content, or none, under the markers of what was missed and the writes. -/
theorem Proper.entry?_commit (h : u.Proper) {maxEntries : Option Nat}
    (unbounded : Memory.bound? maxEntries = none) (id : String) (m : Memory) (k : Key) :
    Memory.entry? (u.commit (Memory.store id maxEntries) m).2.2 k = (u.written.get? k).or
      (if u.clearOnCommit then none else m.entry? k) := by
  have puts := fun m => Memory.entry?_run_puts unbounded id h.nodup_written m k
  simp only [commit, commitPlan, writes_eq, Store.performAll, Store.run_append, puts]
  split <;> rfl

/-- What a unit of work does before it ends. -/
def Request.isOwn : Request σ → Bool
  | .get _ | .put _ _ | .remove _ | .clear => true
  | .commit | .rollback | .below _ => false

namespace Course

/-- Before it ends a unit of work only reads. -/
theorem entry?_request {id : String} {maxEntries : Option Nat} (c : Course Memory)
    {r : Request Memory} (own : r.isOwn = true) (k : Key) :
    Memory.entry? (c.request (Memory.store id maxEntries) r).below k = c.below.entry? k := by
  cases r with
  | get j => exact Memory.entry?_get k j c.below
  | put | remove | clear => rfl
  | commit | rollback | below => cases own

theorem entry?_run {id : String} {maxEntries : Option Nat} (c : Course Memory)
    {rs : List (Instant × Request Memory)} (own : ∀ r ∈ rs, r.2.isOwn = true) (k : Key) :
    Memory.entry? (c.run (fun _ => Memory.store id maxEntries) rs).below k = c.below.entry? k := by
  induction rs generalizing c with
  | nil => rfl
  | cons r rs ih =>
    refine (ih _ fun r hr => own r (List.mem_cons_of_mem _ hr)).trans ?_
    exact entry?_request c (own r List.mem_cons_self) k

theorem request_proper {d : Store σ} {c : Course σ} (h : c.unit.Proper) (r : Request σ) :
    (c.request d r).unit.Proper := by
  cases r with
  | get k => exact h.learn k _
  | put k e => exact ⟨Table.nodup_keys_set h.pending _ _, h.missed⟩
  | clear => exact ⟨List.nodup_nil, h.missed⟩
  | remove | below => exact h
  | commit | rollback => exact .empty

theorem run_proper {d : Clocked σ} {c : Course σ} (h : c.unit.Proper)
    (rs : List (Instant × Request σ)) : (c.run d rs).unit.Proper := by
  induction rs generalizing c with
  | nil => exact h
  | cons r rs ih => exact ih (request_proper h r.2)

end Course

/-- Whatever is below and whichever of its calls fail, a commit clears first if it is to, then
puts every key that was written or missed, each once, and nothing else; it succeeds if all calls
do, and leaves nothing behind. Over a memory without a bound the entries are then those that were
there, if they were not cleared, under the markers of what was missed and the writes, in whatever
order the keys stand; and no entry has changed before. -/
theorem commit_complete (d : Store σ) (u : UnitOfWork) (proper : u.Proper) (s : σ) :
    (∃ puts : List (Key × Entry),
      u.commitCalls d s =
        (if u.clearOnCommit then [.clear] else []) ++ puts.map (fun e => .put e.1 e.2) ∧
      (puts.map Prod.fst).Nodup ∧
      ∀ k e, (k, e) ∈ puts ↔ u.pending.get? k = some e ∨
        u.pending.get? k = none ∧ k ∈ u.missed ∧ e = .knownAbsent) ∧
    ((u.commit d s).1 = .ok () ↔ ∀ e, .error e ∉ (d.run (u.commitCalls d s) s).1) ∧
    (u.commit d s).2.2 = (d.run (u.commitCalls d s) s).2 ∧
    (u.commit d s).2.1.hasPendingChanges = false ∧
    (∀ u', u.Reorders u' → (u.commitCalls d s).Perm (u'.commitCalls d s)) ∧
    ∀ id maxEntries, Memory.bound? maxEntries = none → ∀ m : Memory,
      let content (u : UnitOfWork) :=
        Memory.entry? (u.commit (Memory.store id maxEntries) m).2.2
      (∀ k, content u k = (u.pending.get? k).or (if k ∈ u.missed then some .knownAbsent
        else if u.clearOnCommit then none else m.entry? k)) ∧
      (∀ u', u.Reorders u' → content u = content u') ∧
      ∀ (unit : UnitOfWork) (rs : List (Instant × Request Memory)), (∀ r ∈ rs, r.2.isOwn = true) →
        Memory.entry?
          (Course.run (fun _ => Memory.store id maxEntries) { unit, below := m } rs).below =
            m.entry? := by
  refine ⟨⟨u.written, ?_, proper.nodup_written, fun k e => ?_⟩, ?_, ?_, rfl,
    fun u' order => order.commitCalls proper d s, fun id maxEntries unbounded m => ?_⟩
  · rw [commitCalls_eq, commitPlan, writes_eq]
  · rw [Table.mem_iff_get? proper.nodup_written, get?_written]
    cases own : u.pending.get? k with
    | some f => simp
    | none => by_cases missed : k ∈ u.missed <;> simp [missed, eq_comm]
  · rw [commitCalls_eq]
    exact Store.firstFailure_eq_ok_iff _
  · rw [commitCalls_eq]
    rfl
  · intro content
    have laid (u : UnitOfWork) (h : u.Proper) (k : Key) : content u k = (u.written.get? k).or
        (if u.clearOnCommit then none else m.entry? k) := h.entry?_commit unbounded id m k
    refine ⟨fun k => ?_, fun u' order => funext fun k => ?_, fun unit rs own => funext fun k => ?_⟩
    · rw [laid u proper, get?_written, Option.or_assoc]
      split <;> rfl
    · rw [laid u proper, laid u' (order.proper proper), order.clears,
        Table.get?_perm (order.written proper) proper.nodup_written]
    · exact Course.entry?_run _ own k

/-- The first write fails, and the marker of the other key is written down all the same. -/
theorem commit_complete_failing :
    let a : Key := ⟨"a"⟩
    let b : Key := ⟨"b"⟩
    let e : Entry := .found (.number (.whole 1))
    let d := Probe.store (Memory.store "users" none)
    let rs : List (Request (Probe Memory)) := [.get a, .get b, .clear, .put a e]
    let c := Course.run (fun _ => d) { below := { below := {}, faults := [(.put, 1)] } }
      (rs.map (.start, ·))
    c.unit.Proper ∧ c.unit.commitCalls d c.below = [.clear, .put a e, .put b .knownAbsent] ∧
      (c.unit.commit d c.below).1 ≠ .ok () ∧
      (c.unit.commit d c.below).2.1.hasPendingChanges = false ∧
      Memory.entry? (c.unit.commit (Memory.store "users" none) {}).2.2 b = some .knownAbsent := by
  intro a b e d rs c
  have proper : c.unit.Proper := by
    refine Course.run_proper ?_ _
    exact .empty
  have all := commit_complete d c.unit proper c.below
  refine ⟨proper, rfl, fun ok => ?_, all.2.2.2.1, ?_⟩
  · exact all.2.1.mp ok (.conversion (.injected "put")) (List.mem_cons_of_mem _ List.mem_cons_self)
  · exact (all.2.2.2.2.2 "users" none rfl {}).1 b

end UnitOfWork

end DataTier.Cache
