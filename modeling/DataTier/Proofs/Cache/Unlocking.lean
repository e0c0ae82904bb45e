import DataTier.Proofs.Cache.Chain
import DataTier.Proofs.Cache.Commit
import DataTier.Proofs.Cache.Discipline

/-! The gates that a unit of work leaves behind. Each of its misses closes one, and nothing else
that it does while it goes on closes or opens any (`Keyed`). Every call of a commit or a rollback
that settles a key opens the key's gate, whatever becomes of the call below the gates, so at the
end all of them are open again. -/

namespace DataTier.Cache

open Time (Instant)

variable {σ : Type}

namespace Blocking

/-! ## Opening gates -/

namespace Gates

variable {g : Gates} {k : Key} {ks : List Key} {gate : Nat}

/-- The gate of a key is taken out of the table and opened, if the key has one. -/
def unlock (k : Key) (g : Gates) : Gates :=
  match g.table.get? k with
  | none => g
  | some gate => (g.takeOut k).release gate

def unlockAll (ks : List Key) (g : Gates) : Gates := ks.foldl (fun g k => g.unlock k) g

theorem table_unlock (k : Key) (g : Gates) : (g.unlock k).table = g.table.erase k := by
  unfold unlock
  split
  · rename_i free
    exact (Table.erase_of_not_mem (Table.get?_eq_none_iff.mp free)).symm
  · rfl

theorem mem_shut_unlock : gate ∈ (g.unlock k).shut ↔ gate ∈ g.shut ∧ g.table.get? k ≠ some gate := by
  unfold unlock
  split
  · rename_i free
    simp [free]
  · rename_i own look
    rw [release, takeOut, List.mem_filter, decide_eq_true_eq, look]
    exact and_congr_right fun _ => ⟨fun h e => h (Option.some.inj e).symm, fun h e => h (e ▸ rfl)⟩

theorem table_unlockAll (ks : List Key) (g : Gates) :
    (g.unlockAll ks).table = g.table.filter fun e => e.1 ∉ ks := by
  induction ks generalizing g with
  | nil => simp [unlockAll]
  | cons k ks ih =>
    have step : ((g.unlock k).unlockAll ks).table = _ := ih (g.unlock k)
    rw [unlockAll, List.foldl_cons, ← unlockAll, step, table_unlock, Table.erase_eq_filter,
      List.filter_filter]
    refine List.filter_congr fun e _ => ?_
    rw [Bool.and_comm]
    simp only [List.mem_cons, not_or, Bool.decide_and]

/-- A gate is open once its key has had its turn. -/
theorem mem_shut_unlockAll : gate ∈ (g.unlockAll ks).shut ↔
    gate ∈ g.shut ∧ ∀ k ∈ ks, g.table.get? k ≠ some gate := by
  induction ks generalizing g with
  | nil => simp [unlockAll]
  | cons k ks ih =>
    have step : gate ∈ ((g.unlock k).unlockAll ks).shut ↔ _ := ih
    rw [unlockAll, List.foldl_cons, ← unlockAll, step, mem_shut_unlock, table_unlock,
      List.forall_mem_cons, and_assoc]
    refine and_congr_right fun _ => and_congr_right fun other => forall₂_congr fun l _ => ?_
    rw [Table.get?_erase]
    split
    · rename_i same
      subst same
      simp [other]
    · rfl

theorem isLocked_unlockAll : (g.unlockAll ks).isLocked k = true ↔
    g.isLocked k = true ∧ k ∉ ks := by
  rw [isLocked, isLocked, ← Table.mem_keys_iff, ← Table.mem_keys_iff, table_unlockAll]
  simp [Table.keys]

/-- A key that has had its turn is not locked any more, and its gate is open. -/
theorem unlocked_of_mem (hk : k ∈ ks) (g : Gates) : (g.unlockAll ks).isLocked k = false ∧
    ∀ gate, g.table.get? k = some gate → (g.unlockAll ks).isShut gate = false := by
  refine ⟨?_, fun gate look => ?_⟩
  · rw [Bool.eq_false_iff, Ne, isLocked_unlockAll]
    exact fun locked => locked.2 hk
  · rw [isShut, decide_eq_false_iff_not, mem_shut_unlockAll]
    exact fun shut => shut.2 k hk look

end Gates

/-! ## What calls do to the gates -/

variable {d : Store σ} {now : Instant} {s : Blocking σ} {k : Key}

theorem put_gates (d : Store σ) (now : Instant) (k : Key) (e : Entry) (s : Blocking σ) :
    (put d now k e s).2.gates = s.gates.unlock k := by
  cases look : s.gates.table.get? k <;>
    simp [put, alone, Visit.write, Visit.settle, Visit.steps, Visit.step, Gates.unlock, look]

theorem remove_gates (d : Store σ) (now : Instant) (k : Key) (s : Blocking σ) :
    (remove d now k s).2.gates = s.gates.unlock k := by
  cases look : s.gates.table.get? k <;>
    simp [remove, alone, Visit.giveUp, Visit.settle, Visit.steps, Visit.step, Gates.unlock, look]

/-- Without reads no gate is closed, and those of the settled keys are opened. -/
theorem run_gates (d : Clocked σ) (now : Instant) {cs : List Call} (h : ∀ k, .get k ∉ cs)
    (s : Blocking σ) :
    ((store d now).run cs s).2.gates = s.gates.unlockAll ((settlements cs).map Prod.fst) := by
  induction cs generalizing s with
  | nil => rfl
  | cons c cs ih =>
    have rest := ih fun k hk => h k (List.mem_cons_of_mem c hk)
    rw [Store.run]
    cases c with
    | get k => exact absurd List.mem_cons_self (h k)
    | size | contains | clear => exact rest _
    | put k e =>
      refine (rest _).trans ?_
      rw [show ((store d now).perform (.put k e) s).2.gates = _ from put_gates (d now) now k e s]
      rfl
    | remove k =>
      refine (rest _).trans ?_
      rw [show ((store d now).perform (.remove k) s).2.gates = _ from remove_gates (d now) now k s]
      rfl

theorem commit_gates (d : Clocked σ) (now : Instant) (u : UnitOfWork) (s : Blocking σ) :
    (u.commit (store d now) s).2.2.gates =
      s.gates.unlockAll (u.pending.keys ++ u.unwritten) := by
  rw [← keys_settlements_commitPlan]
  refine run_gates d now (fun k hk => ?_) s
  rw [UnitOfWork.commitPlan, UnitOfWork.writes] at hk
  split at hk <;> simp at hk

theorem rollback_gates (d : Clocked σ) (now : Instant) (u : UnitOfWork) (s : Blocking σ) :
    (u.rollback (store d now) s).2.gates = s.gates.unlockAll u.missed := by
  rw [← keys_settlements_rollbackPlan]
  refine run_gates d now (fun k hk => ?_) s
  simp [UnitOfWork.rollbackPlan] at hk

theorem get_gates (free : s.gates.isLocked k = false) (timed : s.gates.isTimed now = true) :
    (get d now k s).2.gates = if isMiss (d.get k s.below).1 then s.gates.close k
      else ((s.gates.close k).takeOut k).release s.gates.next := by
  have look := Gates.isLocked_eq_false_iff.mp free
  rcases Visit.read_cases d.id now k s.gates with ⟨_, deadline, enters⟩ | ⟨untimed, _⟩
  · rw [get, enters]
    rcases below : d.get k s.below with ⟨_ | _ | _, below'⟩ <;>
      simp [alone, Visit.settle, Visit.steps, Visit.step, Visit.afterRead, Visit.answer?, look,
        below, Gates.close, isMiss]
  · rw [timed] at untimed
    cases untimed

/-- A read closes the gate of its key if it misses, and else leaves all keys as they were. -/
theorem isLocked_get (d : Store σ) (now : Instant) (k j : Key) (s : Blocking σ) :
    (get d now k s).2.gates.isLocked j = true ↔ s.gates.isLocked j = true ∨
      isMiss (get d now k s).1 = true ∧ j = k := by
  rcases get_cases d now k s with ⟨e, fails⟩ | ⟨free, timed⟩
  · simp [fails, isMiss]
  · rw [(get_of_open free timed).1, get_gates free timed]
    cases miss : isMiss (d.get k s.below).1 with
    | true =>
      rw [if_pos rfl, Gates.isLocked_close, Bool.or_eq_true, decide_eq_true_eq, or_comm,
        and_iff_right rfl, eq_comm (a := k)]
    | false =>
      -- the gate that the read has closed itself is out of the table again
      have opened : ((s.gates.close k).takeOut k |>.release s.gates.next).isLocked j =
        ((s.gates.close k).takeOut k).isLocked j := rfl
      rw [if_neg Bool.false_ne_true, opened, Gates.isLocked_takeOut, Gates.isLocked_close]
      by_cases same : k = j
      · subst same
        simp [free]
      · rw [decide_eq_false same, Bool.not_false, Bool.true_and, Bool.false_or]
        simp only [Bool.false_eq_true, false_and, or_false]

/-- A miss finds its gate open. -/
theorem free_of_miss (miss : isMiss (get d now k s).1 = true) : s.gates.isLocked k = false := by
  rcases get_cases d now k s with ⟨e, fails⟩ | ⟨free, _⟩
  · rw [fails] at miss
    cases miss
  · exact free

end Blocking

/-! ## The end of a unit of work -/

namespace UnitOfWork

open Blocking (store)

variable {d : Clocked σ} {now : Instant} {start : Blocking σ} {u : UnitOfWork} {k : Key}

theorem mem_pending_unwritten :
    k ∈ u.pending.keys ++ u.unwritten ↔ k ∈ u.missed ∨ k ∈ u.pending.keys := by
  rw [List.mem_append, mem_unwritten]
  by_cases written : k ∈ u.pending.keys <;> simp [written]

/-- The keys that are locked are those that were and those that the unit of work has missed. -/
structure Keyed (start : Blocking σ) (c : Course (Blocking σ)) : Prop where
  locked : ∀ k, c.below.gates.isLocked k = true ↔
    start.gates.isLocked k = true ∨ k ∈ c.unit.missed
  free : ∀ k ∈ c.unit.missed, start.gates.isLocked k = false

/-- A read adds its key to the missed ones just if it misses at the gates. -/
theorem mem_missed_get (d : Clocked σ) (now : Instant) (c : Course (Blocking σ)) (k j : Key) :
    j ∈ (c.request (store d now) (.get k)).unit.missed ↔
      (Blocking.isMiss (Blocking.get (d now) now k c.below).1 = true ∧ j = k) ∨
        j ∈ c.unit.missed := by
  show j ∈ (c.unit.learn k (Blocking.get (d now) now k c.below).1).2.missed ↔ _
  rcases (Blocking.get (d now) now k c.below).1 with _ | _ | _
  · simp [learn, Blocking.isMiss]
  · simp [learn, Blocking.isMiss, mem_missed_note]
  · simp [learn, Blocking.isMiss]

theorem Keyed.get {c : Course (Blocking σ)} (h : Keyed start c) (k : Key) :
    Keyed start (c.request (store d now) (.get k)) := by
  refine ⟨fun j => ?_, fun j hj => ?_⟩
  · show (Blocking.get (d now) now k c.below).2.gates.isLocked j = true ↔ _
    rw [Blocking.isLocked_get, h.locked j, mem_missed_get, or_assoc,
      or_comm (a := j ∈ c.unit.missed)]
  · rcases (mem_missed_get d now c k j).mp hj with ⟨miss, rfl⟩ | old
    · -- a read that misses has not found the key locked
      have open_before := Blocking.free_of_miss miss
      rw [Bool.eq_false_iff] at open_before ⊢
      exact fun locked => open_before ((h.locked j).mpr (.inl locked))
    · exact h.free j old

theorem Keyed.run {c : Course (Blocking σ)} (h : Keyed start c)
    {rs : List (Instant × Request (Blocking σ))} (own : ∀ r ∈ rs, r.2.isOwn = true) :
    Keyed start (c.run (store d) rs) := by
  induction rs generalizing c with
  | nil => exact h
  | cons r rs ih =>
    refine ih ?_ fun r hr => own r (List.mem_cons_of_mem _ hr)
    have ownFirst := own r List.mem_cons_self
    obtain ⟨now, r⟩ := r
    cases r with
    | get k => exact h.get k
    | put | remove | clear => exact ⟨h.locked, h.free⟩
    | commit | rollback | below => cases ownFirst

/-- Whatever is below the gates and whichever of its calls fail, and whatever a unit of work and
others have done before: a commit takes just the gates of the missed and the written keys out of
the table, a rollback those of the missed keys. No key is locked then that the unit of work has
missed, and the gate it had is open. Where nobody else has touched the gates since the unit of
work began, a rollback leaves the keys locked that were locked then, and a commit those of them
that were not written. -/
theorem end_unlocks (d : Clocked σ) (start : Blocking σ)
    (rs : List (Instant × Request (Blocking σ))) (now : Instant) :
    let c := Course.run (store d) { below := start } rs
    let before := c.below.gates
    let committed := (c.unit.commit (store d now) c.below).2.2.gates
    let rolledBack := (c.unit.rollback (store d now) c.below).2.gates
    (committed.table =
      before.table.filter fun e => ¬(e.1 ∈ c.unit.missed ∨ e.1 ∈ c.unit.pending.keys)) ∧
    (rolledBack.table = before.table.filter fun e => e.1 ∉ c.unit.missed) ∧
    (∀ k, .read k (.ok none) ∈ sinceEnd c.events →
      committed.isLocked k = false ∧ rolledBack.isLocked k = false ∧
      ∀ gate, before.table.get? k = some gate →
        committed.isShut gate = false ∧ rolledBack.isShut gate = false) ∧
    ((∀ r ∈ rs, r.2.isOwn = true) → ∀ k,
      (committed.isLocked k = true ↔
        start.gates.isLocked k = true ∧ k ∉ c.unit.pending.keys) ∧
      rolledBack.isLocked k = start.gates.isLocked k) := by
  intro c before committed rolledBack
  have commits : committed = before.unlockAll (c.unit.pending.keys ++ c.unit.unwritten) :=
    Blocking.commit_gates d now c.unit c.below
  have rollsBack : rolledBack = before.unlockAll c.unit.missed :=
    Blocking.rollback_gates d now c.unit c.below
  have told : Told c.unit c.events := Course.run_told (Told.fresh rfl) rs
  refine ⟨?_, ?_, fun k missed => ?_, fun own k => ?_⟩
  · rw [commits, Blocking.Gates.table_unlockAll]
    simp only [mem_pending_unwritten]
  · rw [rollsBack, Blocking.Gates.table_unlockAll]
  · have missed : k ∈ c.unit.missed := (told.missed k).mpr missed
    have atCommit := Blocking.Gates.unlocked_of_mem (mem_pending_unwritten.mpr (.inl missed)) before
    have atRollback := Blocking.Gates.unlocked_of_mem missed before
    rw [← commits] at atCommit
    rw [← rollsBack] at atRollback
    exact ⟨atCommit.1, atRollback.1, fun gate look => ⟨atCommit.2 gate look, atRollback.2 gate look⟩⟩
  · have keyed : Keyed start c := Keyed.run
      ⟨fun j => (or_iff_left List.not_mem_nil).symm, fun j hj => absurd hj List.not_mem_nil⟩ own
    have apart : start.gates.isLocked k = true → k ∉ c.unit.missed := fun locked missed =>
      Bool.eq_false_iff.mp (keyed.free k missed) locked
    constructor
    · rw [commits, Blocking.Gates.isLocked_unlockAll, keyed.locked k, mem_pending_unwritten]
      tauto
    · rw [rollsBack, Bool.eq_iff_iff, Blocking.Gates.isLocked_unlockAll, keyed.locked k]
      tauto

/-- A missed key is given up and another one written, while neither the clearing nor the writes
below come off. -/
theorem end_unlocks_failing :
    let a : Key := ⟨"a"⟩
    let b : Key := ⟨"b"⟩
    let d := Probe.store (Memory.store "users" none)
    let start : Blocking (Probe Memory) := { below := ⟨{}, [], [(.clear, 1), (.put, 2)]⟩ }
    let rs : List (Instant × Request (Blocking (Probe Memory))) :=
      [(.start, .get a), (⟨1⟩, .get b), (⟨2⟩, .clear), (⟨3⟩, .put a (.found (.number (.whole 1))))]
    let c := Course.run (store fun _ => d) { below := start } rs
    let committed := c.unit.commit (store (fun _ => d) ⟨4⟩) c.below
    (∀ r ∈ rs, r.2.isOwn = true) ∧ c.below.gates.lockedKeys = 2 ∧ committed.1 ≠ .ok () ∧
      committed.2.2.gates.isLocked a = false ∧ committed.2.2.gates.isLocked b = false ∧
      (c.unit.rollback (store (fun _ => d) ⟨4⟩) c.below).2.gates.isLocked a = false := by
  intro a b d start rs c committed
  have own : ∀ r ∈ rs, r.2.isOwn = true := by simp [rs, Request.isOwn]
  have unlocks := (end_unlocks (fun _ => d) start rs ⟨4⟩).2.2.2 own
  have free (k : Key) : committed.2.2.gates.isLocked k = false :=
    Bool.eq_false_iff.mpr fun locked => nomatch ((unlocks k).1.mp locked).1
  refine ⟨own, rfl, fun ok => ?_, free a, free b, (unlocks a).2⟩
  cases ok

end UnitOfWork
end DataTier.Cache
