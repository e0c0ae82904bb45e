import DataTier.Cache.Probe
import DataTier.Proofs.Cache.Journal

/-! What a soft layer knows of the keys that the store below it holds, when calls of that store may
fail. A key is in sight while it is tracked or waits to be removed. It drops out of sight when a
removal of it fails, or a clearing, for the books have given it up by then; the next write of it
that succeeds, or the next read that finds it, brings it back (`in_sight_iff`). -/

namespace DataTier.Cache

variable {σ : Type} {holds : σ → Key → Prop}

/-- No call makes a store hold a key, but for a write of it that succeeds, and what the other
calls say when they succeed is so. -/
structure Store.Truthful (d : Store σ) (holds : σ → Key → Prop) : Prop where
  size : ∀ {s k}, holds (d.size s).2 k → holds s k
  get : ∀ {j s k}, holds (d.get j s).2 k → holds s k
  missed : ∀ {k s}, (d.get k s).1 = .ok none → ¬holds (d.get k s).2 k
  put : ∀ {j e s k}, holds (d.put j e s).2 k → holds s k ∨ j = k ∧ (d.put j e s).1 = .ok ()
  contains : ∀ {j s k}, holds (d.contains j s).2 k → holds s k
  absent : ∀ {k s}, (d.contains k s).1 = .ok false → ¬holds (d.contains k s).2 k
  remove : ∀ {j s k}, holds (d.remove j s).2 k → holds s k
  removed : ∀ {k s e}, (d.remove k s).1 = .ok e → ¬holds (d.remove k s).2 k
  clear : ∀ {s k}, holds (d.clear s).2 k → holds s k
  cleared : ∀ {s k}, (d.clear s).1 = .ok () → ¬holds (d.clear s).2 k

theorem Memory.truthful (id : String) (maxEntries : Option Nat) :
    (Memory.store id maxEntries).Truthful fun m k => m.holds k = true where
  size held := held
  get {j m k} held := by
    have same := Memory.entry?_get k j m
    rw [Memory.holds_iff, ← same]
    exact Memory.holds_iff.mp held
  missed {k m} miss held := by
    have empty : m.entry? k = none := (Memory.get_fst k m).symm.trans (Except.ok.inj miss)
    obtain ⟨e, found⟩ := Memory.holds_iff.mp held
    cases found.symm.trans ((Memory.entry?_get k k m).trans empty)
  put {j e m k} held := by
    by_cases same : j = k
    · exact .inr ⟨same, rfl⟩
    · obtain ⟨f, found⟩ := Memory.holds_iff.mp held
      exact .inl (Memory.holds_iff.mpr ⟨f, Memory.entry?_of_put found same⟩)
  contains held := held
  absent {k m} answer held := by cases held.symm.trans (Except.ok.inj answer)
  remove {j m k} held := ((Memory.holds_remove k j m).mp held).2
  removed {k m e} _ held := ((Memory.holds_remove k k m).mp held).1 rfl
  clear held := nomatch held
  cleared _ held := nomatch held

namespace Probe

variable {α : Type} {c : CallKind} {i : Option Key} {f : σ → Answer α × σ} {p : Probe σ} {k : Key}

theorem holds_of_pass (hf : ∀ s, holds (f s).2 k → holds s k)
    (held : holds (pass c i f p).2.below k) : holds p.below k := by
  unfold pass at held
  dsimp only at held
  split at held
  · exact held
  · exact hf p.below held

/-- A call that succeeds has reached the store below. -/
theorem eq_of_pass {a : α} (answer : (pass c i f p).1 = .ok a) :
    f p.below = (.ok a, (pass c i f p).2.below) := by
  unfold pass at answer ⊢
  dsimp only at answer ⊢
  split at answer
  · cases answer
  · exact Prod.ext answer rfl

/-- A probe fails a call before it passes it on. -/
theorem truthful {d : Store σ} (h : d.Truthful holds) :
    (store d).Truthful fun p k => holds p.below k where
  size held := holds_of_pass (fun _ => h.size) held
  get held := holds_of_pass (fun _ => h.get) held
  missed {k p} miss := by
    have reached : d.get k p.below = (.ok none, _) := eq_of_pass miss
    have told := h.missed (congrArg Prod.fst reached)
    rwa [reached] at told
  put {j e p k} held := by
    have written : holds (pass .put (some j) (d.put j e) p).2.below k := held
    show holds p.below k ∨ j = k ∧ (pass .put (some j) (d.put j e) p).1 = .ok ()
    unfold pass at written ⊢
    dsimp only at written ⊢
    split at written
    · exact .inl written
    · exact h.put written
  contains held := holds_of_pass (fun _ => h.get) held
  absent {k p} answer := by
    have asked : (pass .get (some k) (d.get k) p).1.map Option.isSome = .ok false := answer
    rcases look : (pass .get (some k) (d.get k) p).1 with e | _ | e <;> rw [look] at asked
    · cases asked
    · have reached := eq_of_pass look
      have told := h.missed (congrArg Prod.fst reached)
      rwa [reached] at told
    · cases asked
  remove held := holds_of_pass (fun _ => h.remove) held
  removed {k p e} answer := by
    have reached : d.remove k p.below = (.ok e, _) := eq_of_pass answer
    have told := h.removed (congrArg Prod.fst reached)
    rwa [reached] at told
  clear held := holds_of_pass (fun _ => h.clear) held
  cleared {p k} answer := by
    have reached : d.clear p.below = (.ok (), _) := eq_of_pass answer
    have told := h.cleared (k := k) (congrArg Prod.fst reached)
    rwa [reached] at told

end Probe

/-! ## Journals -/

namespace Journal

/-- The key was to be given up, and may still be held. -/
def loses (k : Key) : Call × Answer Reply → Bool
  | (.remove j, .error _) => j = k
  | (.clear, .error _) => true
  | _ => false

def finds (k : Key) : Call × Answer Reply → Bool
  | (.put j _, .ok _) => j = k
  | (.get j, .ok (.entry (some _))) => j = k
  | _ => false

/-- Whether the key was lost, and has been neither written nor found since. -/
def lost (k : Key) : Journal → Bool
  | [] => false
  | call :: earlier => loses k call || !finds k call && lost k earlier

theorem not_lost {log : Journal} {k : Key} (safe : ∀ call ∈ log, loses k call = false) :
    lost k log = false := by
  induction log with
  | nil => rfl
  | cons call earlier ih =>
    have before := ih fun c hc => safe c (List.mem_cons_of_mem call hc)
    rw [lost, safe call List.mem_cons_self, before, Bool.and_false]
    rfl

end Journal

namespace Soft

variable {d : Store σ} {limits : Limits} {s s' : Soft (σ × Journal)} {b : Books} {j k : Key}

/-! ## The queue -/

/-- No key waits twice, and none that is tracked. -/
structure Books.Lined (b : Books) : Prop where
  once : b.reclaimed.Nodup
  apart : ∀ k ∈ b.reclaimed, k ∉ b.tracked.keys

theorem Books.Lined.of_idle (idle : b.reclaimed = []) : b.Lined :=
  ⟨idle ▸ .nil, by simp [idle]⟩

theorem Books.Lined.untrack (lined : b.Lined) (k : Key) : (b.untrack k).Lined := by
  refine ⟨lined.once, ?_⟩
  intro j waits tracked
  exact lined.apart j waits (Books.mem_tracked_untrack.mp tracked).1

theorem Books.Lined.reclaim (lined : b.Lined) (tracked : k ∈ b.tracked.keys) :
    (b.reclaim k).Lined := by
  refine ⟨?_, ?_⟩
  · have new : k ∉ b.reclaimed := fun waits => lined.apart k waits tracked
    exact List.nodup_append_comm.mp (List.nodup_cons.mpr ⟨new, lined.once⟩)
  · intro j waits still
    obtain ⟨tracked, other⟩ := Books.mem_tracked_untrack.mp still
    rcases List.mem_append.mp waits with waits | last
    · exact lined.apart j waits tracked
    · exact other (List.mem_singleton.mp last)

theorem Step.lined {τ : Type} {d : Store τ} {s s' : Soft τ} (step : Step limits d s s')
    (lined : s.books.Lined) : s'.books.Lined := by
  cases step with
  | counts | looks | fails => exact lined
  | removes k ks queue =>
    have once := lined.once
    rw [queue] at once
    refine ⟨once.of_cons, ?_⟩
    intro j waits
    exact lined.apart j (queue ▸ List.mem_cons_of_mem k waits)
  | forgets k =>
    have rest := lined.untrack k
    exact ⟨rest.once, rest.apart⟩
  | reads k idle => exact .of_idle ((reclaimed_noteRead ..).trans idle)
  | writes _ _ idle | drops _ idle | clears idle => exact .of_idle idle
  | reclaims k tracked => exact lined.reclaim tracked
  | unprotects => exact ⟨lined.once, lined.apart⟩

/-! ## Sight -/

/-- The key is tracked, or waits to be removed. -/
def Books.Sees (b : Books) (k : Key) : Prop := k ∈ b.tracked.keys ∨ k ∈ b.reclaimed

theorem Books.sees_track {w : Nat} : (b.track k w).Sees j ↔ j = k ∨ b.Sees j := by
  rw [Books.Sees, Books.track, Table.mem_keys_set, or_assoc]
  rfl

theorem Books.sees_touch {w : Nat} : (b.touch k w).Sees j ↔ j = k ∨ b.Sees j := by
  unfold Books.touch
  dsimp only
  split
  · rw [Books.Sees, Table.mem_keys_set, or_assoc]
    rfl
  · exact Books.sees_track

theorem Books.sees_untrack (other : j ≠ k) : (b.untrack k).Sees j ↔ b.Sees j := by
  rw [Books.Sees, Books.mem_tracked_untrack, and_iff_left other]
  rfl

theorem Books.sees_reclaim (tracked : k ∈ b.tracked.keys) : (b.reclaim k).Sees j ↔ b.Sees j := by
  by_cases same : j = k
  · subst same
    exact iff_of_true (.inr (List.mem_append_right _ (List.mem_singleton_self j))) (.inl tracked)
  · refine or_congr ?_ ?_
    · exact Books.mem_tracked_untrack.trans (and_iff_left same)
    · rw [Books.reclaim, List.mem_append, List.mem_singleton, or_iff_left same]
      rfl

/-- Of the keys held, those in sight are those that are not lost. -/
def Sighted (holds : σ → Key → Prop) (s : Soft (σ × Journal)) : Prop :=
  ∀ k, holds s.below.1 k → (s.books.Sees k ↔ Journal.lost k s.below.2 = false)

theorem Sighted.call {call : Call × Answer Reply} (sighted : Sighted holds s)
    (written : s'.below.2 = call :: s.below.2)
    (lost : ∀ k, holds s'.below.1 k → Journal.loses k call = true → ¬s'.books.Sees k)
    (found : ∀ k, holds s'.below.1 k → Journal.finds k call = true → s'.books.Sees k)
    (rest : ∀ k, holds s'.below.1 k → Journal.loses k call = false →
      Journal.finds k call = false → holds s.below.1 k ∧ (s'.books.Sees k ↔ s.books.Sees k)) :
    Sighted holds s' := by
  intro k held
  rw [written, Journal.lost]
  cases loses : Journal.loses k call with
  | true => simp [lost k held loses]
  | false =>
    cases finds : Journal.finds k call with
    | true => simp [found k held finds]
    | false =>
      obtain ⟨before, same⟩ := rest k held loses finds
      rw [same, sighted k before]
      simp

/-- Calls that can neither lose a key nor find one. -/
theorem Sighted.quiet {call : Call × Answer Reply} (sighted : Sighted holds s)
    (written : s'.below.2 = call :: s.below.2)
    (mute : ∀ k, Journal.loses k call = false ∧ Journal.finds k call = false)
    (same : ∀ k, holds s'.below.1 k → holds s.below.1 k ∧ (s'.books.Sees k ↔ s.books.Sees k)) :
    Sighted holds s' := by
  refine sighted.call written ?_ ?_ fun k held _ _ => same k held
  · intro k _ loses
    rw [(mute k).1] at loses
    cases loses
  · intro k _ finds
    rw [(mute k).2] at finds
    cases finds

/-- The key is in sight from now on. -/
theorem Sighted.find {call : Call × Answer Reply} (sighted : Sighted holds s)
    (written : s'.below.2 = call :: s.below.2) (safe : ∀ j, Journal.loses j call = false)
    (finds : ∀ j, Journal.finds j call = decide (k = j))
    (sees : ∀ j, s'.books.Sees j ↔ j = k ∨ s.books.Sees j)
    (held : ∀ j, holds s'.below.1 j → k ≠ j → holds s.below.1 j) : Sighted holds s' := by
  refine sighted.call written ?_ ?_ ?_
  · intro j _ loses
    rw [safe j] at loses
    cases loses
  · intro j _ found
    rw [finds j] at found
    exact (sees j).mpr (.inl (of_decide_eq_true found).symm)
  · intro j now _ missing
    rw [finds j] at missing
    have other : k ≠ j := of_decide_eq_false missing
    exact ⟨held j now other, (sees j).trans (or_iff_right (Ne.symm other))⟩

/-- A removal that fails makes a key lost, and after any other the key is not held. -/
theorem Sighted.remove (sighted : Sighted holds s) (truthful : d.Truthful holds)
    (out : ¬b.Sees k) (rest : ∀ j, j ≠ k → (b.Sees j ↔ s.books.Sees j)) :
    Sighted holds ⟨(d.journaled.remove k s.below).2, b⟩ := by
  have written : (d.journaled.remove k s.below).2.2 =
      (.remove k, (d.remove k s.below.1).1.map .entry) :: s.below.2 := rfl
  refine sighted.call written ?_ ?_ ?_
  · intro j _ loses
    cases answer : (d.remove k s.below.1).1 with
    | error e =>
      rw [answer] at loses
      rw [← of_decide_eq_true loses]
      exact out
    | ok e =>
      rw [answer] at loses
      cases loses
  · intro j _ finds
    cases finds
  · intro j held loses _
    refine ⟨truthful.remove held, rest j ?_⟩
    rintro rfl
    cases answer : (d.remove j s.below.1).1 with
    | error e =>
      rw [answer] at loses
      exact of_decide_eq_false loses rfl
    | ok e => exact truthful.removed answer held

/-- A clearing that fails makes all keys lost, and after any other none is held. -/
theorem Sighted.clear (sighted : Sighted holds s) (truthful : d.Truthful holds)
    (none : ∀ k, ¬b.Sees k) : Sighted holds ⟨(d.journaled.clear s.below).2, b⟩ := by
  have written : (d.journaled.clear s.below).2.2 =
      (.clear, (d.clear s.below.1).1.map fun _ => .done) :: s.below.2 := rfl
  refine sighted.call written ?_ ?_ ?_
  · intro k _ _
    exact none k
  · intro k _ finds
    cases finds
  · intro k held loses _
    cases answer : (d.clear s.below.1).1 with
    | error e =>
      rw [answer] at loses
      cases loses
    | ok u => exact absurd held (truthful.cleared answer)

theorem Sighted.put {e : Entry} (sighted : Sighted holds s) (truthful : d.Truthful holds)
    (done : (d.put k e s.below.1).1 = .ok ()) :
    Sighted holds ⟨(d.journaled.put k e s.below).2, s.books.track k e.weight⟩ := by
  have written := Store.journal_put (d := d) (s := s.below) done
  refine sighted.find written (fun _ => rfl) (fun _ => rfl) (fun _ => Books.sees_track) ?_
  intro j held other
  exact (truthful.put held).resolve_right fun new => other new.1

theorem Sighted.get (sighted : Sighted holds s) (truthful : d.Truthful holds) (limits : Limits)
    (k : Key) : Sighted holds
      (noteRead limits k (d.journaled.get k s.below).1
        ⟨(d.journaled.get k s.below).2, s.books⟩) := by
  rcases answer : (d.journaled.get k s.below).1 with e | _ | e <;>
    have written := Store.journal_get answer
  · refine sighted.quiet written (fun _ => ⟨rfl, rfl⟩) ?_
    intro j held
    exact ⟨truthful.get held, Iff.rfl⟩
  · refine sighted.quiet written (fun _ => ⟨rfl, rfl⟩) ?_
    intro j held
    refine ⟨truthful.get held, Books.sees_untrack ?_⟩
    rintro rfl
    exact truthful.missed answer held
  · refine sighted.find written (fun _ => rfl) (fun _ => rfl) ?_ ?_
    · intro j
      exact Books.sees_touch
    · intro j held _
      exact truthful.get held

theorem Step.sighted (step : Step limits d.journaled s s') (truthful : d.Truthful holds)
    (lined : s.books.Lined) (sighted : Sighted holds s) : Sighted holds s' := by
  cases step with
  | counts =>
    exact sighted.quiet rfl (fun _ => ⟨rfl, rfl⟩) fun _ held => ⟨truthful.size held, Iff.rfl⟩
  | looks k =>
    exact sighted.quiet rfl (fun _ => ⟨rfl, rfl⟩) fun _ held => ⟨truthful.contains held, Iff.rfl⟩
  | forgets k gone =>
    refine sighted.quiet rfl (fun _ => ⟨rfl, rfl⟩) ?_
    intro j held
    refine ⟨truthful.contains held, Books.sees_untrack ?_⟩
    rintro rfl
    exact truthful.absent gone held
  | @fails k e error refused =>
    refine sighted.quiet (Store.journal_put refused) (fun _ => ⟨rfl, rfl⟩) ?_
    intro j held
    refine ⟨(truthful.put held).resolve_right ?_, Iff.rfl⟩
    rintro ⟨-, done⟩
    cases done.symm.trans refused
  | reads k => exact sighted.get truthful limits k
  | writes k e _ done => exact sighted.put truthful done
  | removes k ks queue =>
    have once := lined.once
    rw [queue] at once
    refine sighted.remove truthful ?_ ?_
    · have untracked := lined.apart k (queue ▸ List.mem_cons_self)
      exact fun seen => seen.elim untracked (List.nodup_cons.mp once).1
    · intro j other
      rw [Books.Sees, Books.Sees, queue, List.mem_cons, or_iff_right other]
  | drops k idle =>
    refine sighted.remove truthful ?_ fun j other => Books.sees_untrack other
    rintro (tracked | waits)
    · exact (Books.mem_tracked_untrack.mp tracked).2 rfl
    · rw [show (s.books.untrack k).reclaimed = [] from idle] at waits
      cases waits
  | clears idle =>
    refine sighted.clear truthful ?_
    rintro k (tracked | waits)
    · cases tracked
    · rw [show s.books.clear.reclaimed = [] from idle] at waits
      cases waits
  | reclaims k tracked =>
    intro j held
    exact (Books.sees_reclaim tracked).trans (sighted j held)
  | unprotects => exact sighted

/-! ## Runs -/

/-- However often its calls fail, a store holds no key out of the sight of the soft layer over it
but those that are lost: a removal of the key has failed, or a clearing, and since then it has been
neither written nor found. The journal of what the layer asks of the store tells which these are,
and does not change what the layer does. -/
theorem in_sight_iff {holds : σ → Key → Prop} (truthful : d.Truthful holds) {start : σ}
    (empty : ∀ k, ¬holds start k) (limits : Limits) (os : List Operation) :
    let s := carryOutAll limits d.journaled ⟨(start, []), {}⟩ os
    carryOutAll limits d ⟨start, {}⟩ os = ⟨s.below.1, s.books⟩ ∧
      (∀ k, holds s.below.1 k →
        ((k ∈ s.books.tracked.keys ∨ k ∈ s.books.reclaimed) ↔
          Journal.lost k s.below.2 = false)) ∧
      ((∀ call ∈ s.below.2, ∀ k, Journal.loses k call = false) →
        ∀ k, holds s.below.1 k → k ∈ s.books.tracked.keys ∨ k ∈ s.books.reclaimed) := by
  intro s
  have kept : s.books.Lined ∧ Sighted holds s := by
    refine carryOutAll_keeps (s := ⟨(start, []), {}⟩)
      (P := fun s => s.books.Lined ∧ Sighted holds s) .nil ?_ ?_ os
    · exact ⟨.of_idle rfl, fun k held => absurd held (empty k)⟩
    · rintro s s' ⟨lined, sighted⟩ step
      exact ⟨step.lined lined, step.sighted truthful lined sighted⟩
  refine ⟨map_carryOutAll d.journaled_extends ⟨(start, []), {}⟩ os, kept.2, ?_⟩
  intro safe k held
  exact (kept.2 k held).mpr (Journal.not_lost fun call mem => safe call mem k)

/-- The removal of a key that has been reclaimed fails. -/
theorem in_sight_iff_probed :
    let d := Probe.store (Memory.store "users" none)
    let start : Probe Memory := ⟨{}, [], [(.remove, 1)]⟩
    let s := carryOutAll ⟨0, none⟩ d.journaled ⟨(start, []), {}⟩
      [.call (.put ⟨"a"⟩ .knownAbsent), .reclaimUnretained, .call .size]
    s.below.1.below.holds ⟨"a"⟩ = true ∧
      ¬(⟨"a"⟩ ∈ s.books.tracked.keys ∨ ⟨"a"⟩ ∈ s.books.reclaimed) := by
  intro d start s
  have empty : ∀ k, ¬start.below.holds k = true := fun _ held => nomatch held
  have told := in_sight_iff (Probe.truthful (Memory.truthful "users" none)) empty ⟨0, none⟩
    [.call (.put ⟨"a"⟩ .knownAbsent), .reclaimUnretained, .call .size]
  have held : s.below.1.below.holds ⟨"a"⟩ = true := by decide +kernel
  have lost : Journal.lost ⟨"a"⟩ s.below.2 = true := by decide +kernel
  refine ⟨held, ?_⟩
  rw [told.2.1 ⟨"a"⟩ held, lost]
  exact Bool.noConfusion

/-- A key over the budget stays in the memory, unseen, when its removal fails once. -/
theorem unremoved_key_unseen :
    let d := Probe.store (Memory.store "users" none)
    let start : Probe Memory := ⟨{}, [], [(.remove, 1)]⟩
    let s := carryOutAll ⟨0, some 0⟩ d ⟨start, {}⟩
      [.call (.put ⟨"a"⟩ (.found .null)), .call .size, .call .size]
    d.Truthful (fun p k => p.below.holds k = true) ∧ s.below.below.holds ⟨"a"⟩ = true ∧
      ¬(⟨"a"⟩ ∈ s.books.tracked.keys ∨ ⟨"a"⟩ ∈ s.books.reclaimed) :=
  ⟨Probe.truthful (Memory.truthful "users" none), by decide +kernel⟩

end Soft
end DataTier.Cache
