import DataTier.Proofs.Cache.Chain
import Mathlib.Logic.Function.Basic

/-! Asking a chain whether it holds a key. Of all that the layers do for this, only the removal of
what was reclaimed before is left behind, and every later operation would begin with it anyway. So
two chains that are the same but for that (`Soft.Twins`) come to the same in whatever is done next,
at the gates step by step, and nobody finds out who has asked (`contains_unseen`). -/

namespace DataTier.Cache

open Blocking (Visit)
open Soft (Operation)
open Time (Instant)

variable {ι σ : Type}

/-! ## Stores that come to the same -/

/-- Whatever is asked of the one or the other comes to the same. -/
structure Store.Alike (d : Store σ) (s s' : σ) : Prop where
  size : d.size s = d.size s'
  get : ∀ k, d.get k s = d.get k s'
  put : ∀ k e, d.put k e s = d.put k e s'
  contains : ∀ k, d.contains k s = d.contains k s'
  remove : ∀ k, d.remove k s = d.remove k s'
  clear : d.clear s = d.clear s'

theorem Store.Alike.perform {d : Store σ} {s s' : σ} (alike : d.Alike s s') (c : Call) :
    d.perform c s = d.perform c s' := by
  cases c with
  | size => simp only [Store.perform, alike.size]
  | get k => simp only [Store.perform, alike.get k]
  | put k e => simp only [Store.perform, alike.put k e]
  | contains k => simp only [Store.perform, alike.contains k]
  | remove k => simp only [Store.perform, alike.remove k]
  | clear => simp only [Store.perform, alike.clear]

/-! ## Soft layers -/

namespace Soft

variable {limits : Limits} {maxEntries : Option Nat} {id : String} {s s' t t' : Soft Memory}
  {k : Key} {o : Operation} {a : Answer Reply}

theorem drained_drained (s : Soft Memory) : s.drained.drained = s.drained := drained_of_idle rfl

theorem afterDrain_drained {α : Type} (id : String) (maxEntries : Option Nat)
    (f : Soft Memory → Answer α × Soft Memory) (s : Soft Memory) :
    afterDrain (Memory.store id maxEntries) f s.drained =
      afterDrain (Memory.store id maxEntries) f s := by
  rw [afterDrain_eq, afterDrain_eq, drained_drained]

theorem alike_drained (limits : Limits) (id : String) (maxEntries : Option Nat)
    (s : Soft Memory) : (store limits (Memory.store id maxEntries)).Alike s.drained s where
  size := by simp only [store, Soft.size, afterDrain_drained]
  get _ := by simp only [store, Soft.get, afterDrain_drained]
  put _ _ := by simp only [store, Soft.put, afterDrain_drained]
  contains _ := by simp only [store, Soft.contains, afterDrain_drained]
  remove _ := by simp only [store, Soft.remove, afterDrain_drained]
  clear := by
    simp only [store, clear, afterDrain_eq]
    rfl

/-- The same but for what is still to be removed. -/
structure Twins (s s' : Soft Memory) : Prop where
  drained : s.drained = s'.drained
  left : s.Consistent
  right : s'.Consistent

theorem Consistent.twins (hs : s.Consistent) : Twins s s := ⟨rfl, hs, hs⟩

theorem Twins.alike (twins : Twins s s') (limits : Limits) (id : String)
    (maxEntries : Option Nat) : (store limits (Memory.store id maxEntries)).Alike s s' := by
  have left := alike_drained limits id maxEntries s
  have right := alike_drained limits id maxEntries s'
  rw [twins.drained] at left
  exact {
    size := left.size.symm.trans right.size
    get := fun k => (left.get k).symm.trans (right.get k)
    put := fun k e => (left.put k e).symm.trans (right.put k e)
    contains := fun k => (left.contains k).symm.trans (right.contains k)
    remove := fun k => (left.remove k).symm.trans (right.remove k)
    clear := left.clear.symm.trans right.clear }

theorem contains_eq (id : String) (maxEntries : Option Nat) (k : Key) (s : Soft Memory) :
    contains (Memory.store id maxEntries) k s = (.ok (s.drained.below.holds k), s.drained) := by
  rw [contains, afterDrain_eq]
  rfl

/-- A read finds just the keys that are said to be held. -/
theorem get_of_contains (limits : Limits) (id : String) (maxEntries : Option Nat) (k : Key)
    (s : Soft Memory) : ∃ e, (get limits (Memory.store id maxEntries) k s).1 = .ok e ∧
      (contains (Memory.store id maxEntries) k s).1 = .ok e.isSome := by
  refine ⟨s.drained.below.entry? k, ?_, ?_⟩
  · rw [get_eq]
  · rw [contains_eq, Memory.entry?, Option.isSome_map]
    rfl

/-- Who has been asked for a key has a twin that has not. -/
theorem Twins.looked (twins : Twins s s') (id : String) (maxEntries : Option Nat) (k : Key) :
    Twins (contains (Memory.store id maxEntries) k s).2 s' := by
  rw [contains_eq]
  exact ⟨(drained_drained s).trans twins.drained, twins.left.drained.toAgrees, twins.right⟩

theorem Books.reclaimAll_of_same {b b' : Books} (ks : List Key)
    (same : { b with reclaimed := [] } = { b' with reclaimed := [] }) :
    { b.reclaimAll ks with reclaimed := [] } = { b'.reclaimAll ks with reclaimed := [] } := by
  induction ks generalizing b b' with
  | nil => exact same
  | cons k ks ih =>
    refine ih ?_
    exact congrArg (fun b : Books => { b.reclaim k with reclaimed := [] }) same

theorem Twins.unretained (twins : Twins s s') : s.books.unretained = s'.books.unretained := by
  have same := congrArg (fun s : Soft Memory => s.books.unretained) twins.drained
  exact same

theorem Twins.reclaimUnretained (twins : Twins s s') :
    Twins s.reclaimUnretained.2 s'.reclaimUnretained.2 := by
  refine ⟨?_, Agrees.reclaimUnretained twins.left, Agrees.reclaimUnretained twins.right⟩
  have below : s.drained.below = s'.drained.below := congrArg Soft.below twins.drained
  have books : { s.books with reclaimed := [] } = { s'.books with reclaimed := [] } :=
    congrArg Soft.books twins.drained
  have after (s : Soft Memory) : s.reclaimUnretained.2.drained =
      ⟨s.books.unretained.foldl (fun m k => (m.remove k).2) s.drained.below,
        { s.books.reclaimAll s.books.unretained with reclaimed := [] }⟩ := by
    have queue : s.reclaimUnretained.2.books.reclaimed =
        s.books.reclaimed ++ s.books.unretained := Books.reclaimed_reclaimAll ..
    rw [Soft.drained, queue, List.foldl_append]
    rfl
  rw [after, after, twins.unretained, below, Books.reclaimAll_of_same _ books]

theorem Twins.counts (twins : Twins s s') :
    (s.below.hits, s.below.misses, s.below.evictions, s.books.reclaimedTotal) =
      (s'.below.hits, s'.below.misses, s'.below.evictions, s'.books.reclaimedTotal) := by
  have below : s.drained.below = s'.drained.below := congrArg Soft.below twins.drained
  rw [drained_below, drained_below] at below
  have counted := congrArg (fun m : Memory => (m.hits, m.misses, m.evictions)) below
  have total := congrArg (fun s : Soft Memory => s.books.reclaimedTotal) twins.drained
  simp only [Prod.mk.injEq] at counted ⊢
  exact ⟨counted.1, counted.2.1, counted.2.2, total⟩

/-! ## Turns -/

/-- What waits to be removed is not evicted, and the rest is held as it was. -/
theorem evicted_turnOf_put {e : Entry} : (turnOf (.call (.put k e)) a s t).evicted =
    s.drained.below.slots.keys.filter fun k => !t.below.holds k := by
  rw [drained_below, Table.keys, List.filter_map, List.filter_filter, turnOf, Turn.of, Table.keys,
    List.filter_map]
  refine congrArg _ (List.filter_congr ?_)
  intro e _
  exact Bool.and_comm _ _

theorem Consistent.reclaimed_turnOf (hs : s.Consistent) (a : Answer Reply) :
    (turnOf .reclaimUnretained a s s.reclaimUnretained.2).reclaimed = s.books.unretained := by
  have queue : s.reclaimUnretained.2.books.reclaimed =
      s.books.reclaimed ++ s.books.unretained := Books.reclaimed_reclaimAll ..
  have new : ∀ k ∈ s.books.unretained, k ∉ s.books.reclaimed := by
    intro k unretained queued
    exact Table.get?_eq_none_iff.mp ((hs.queued k).mp queued).2 (List.mem_of_mem_filter unretained)
  have old : s.books.reclaimed.filter (· ∉ s.books.reclaimed) = [] :=
    List.filter_eq_nil_iff.mpr fun k mem => by simp [mem]
  have rest : s.books.unretained.filter (· ∉ s.books.reclaimed) = s.books.unretained :=
    List.filter_eq_self.mpr fun k mem => decide_eq_true (new k mem)
  show s.reclaimUnretained.2.books.reclaimed.filter (· ∉ s.books.reclaimed) = _
  rw [queue, List.filter_append, old, rest, List.nil_append]

theorem Twins.turnOf (twins : Twins s s') (a : Answer Reply)
    (put : ∀ k e, o = .call (.put k e) → t = t')
    (reclaims : o = .reclaimUnretained → t = s.reclaimUnretained.2 ∧ t' = s'.reclaimUnretained.2) :
    turnOf o a s t = turnOf o a s' t' := by
  cases o with
  | reclaimUnretained =>
    obtain ⟨rfl, rfl⟩ := reclaims rfl
    have victims := twins.left.reclaimed_turnOf a
    rw [twins.unretained, ← twins.right.reclaimed_turnOf a] at victims
    exact congrArg (Turn.mk .reclaimUnretained a []) victims
  | call c =>
    cases c with
    | size | get | contains | remove | clear => rfl
    | put k e =>
      obtain rfl := put k e rfl
      have victims : (Soft.turnOf (.call (.put k e)) a s t).evicted =
          (Soft.turnOf (.call (.put k e)) a s' t).evicted := by
        rw [evicted_turnOf_put, evicted_turnOf_put, twins.drained]
      exact congrArg (fun ks => Turn.mk (.call (.put k e)) a ks t.books.reclaimed) victims

theorem Twins.turn (twins : Twins s s') (limits : Limits) (id : String)
    (maxEntries : Option Nat) (now : Instant) (o : Operation) :
    let soft := Shape.soft limits (.memory id maxEntries)
    (soft.turn now s o).1 = (soft.turn now s' o).1 ∧
      Twins (soft.turn now s o).2 (soft.turn now s' o).2 := by
  intro soft
  cases o with
  | reclaimUnretained =>
    have count : s.reclaimUnretained.1 = s'.reclaimUnretained.1 :=
      congrArg List.length twins.unretained
    refine ⟨?_, twins.reclaimUnretained⟩
    have turns := twins.turnOf (o := .reclaimUnretained) (.ok (.count s'.reclaimUnretained.1))
      (fun _ _ put => Operation.noConfusion put) fun _ => ⟨rfl, rfl⟩
    have left : (soft.turn now s .reclaimUnretained).1 =
        Soft.turnOf .reclaimUnretained (.ok (.count s.reclaimUnretained.1)) s
          s.reclaimUnretained.2 := rfl
    rw [left, count]
    exact turns
  | call c =>
    have same : (soft.store now).perform c s = (soft.store now).perform c s' :=
      (twins.alike limits id maxEntries).perform c
    have after : Consistent ((soft.store now).perform c s').2 := twins.right.operate (.call c)
    have turns (a : Answer Reply) (t : Soft Memory) :
        Soft.turnOf (.call c) a s t = Soft.turnOf (.call c) a s' t :=
      twins.turnOf a (fun _ _ _ => rfl) fun reclaims => nomatch reclaims
    simp only [Shape.turn, Shape.perform, same]
    exact ⟨turns _ _, after.twins⟩

end Soft

/-! ## Gates -/

namespace Blocking

variable {d : Store σ} {s s' : σ}

/-- What is below the gates has come to the same, or has been left alone. -/
def Parallel (s s' t t' : σ) : Prop := t = t' ∨ t = s ∧ t' = s'

theorem Visit.step_alike (alike : d.Alike s s') (now : Instant) (v : Visit) (g : Gates) :
    (v.step d now ⟨s, g⟩ = none ∧ v.step d now ⟨s', g⟩ = none) ∨
      ∃ v' g' t t', v.step d now ⟨s, g⟩ = some (v', ⟨t, g'⟩) ∧
        v.step d now ⟨s', g⟩ = some (v', ⟨t', g'⟩) ∧ Parallel s s' t t' := by
  unfold Visit.step
  cases v.phase with
  | entering =>
    dsimp only
    cases g.table.get? v.key with
    | none => exact .inr ⟨_, _, s, s', rfl, rfl, .inr ⟨rfl, rfl⟩⟩
    | some gate => exact .inr ⟨_, g, s, s', rfl, rfl, .inr ⟨rfl, rfl⟩⟩
  | waiting gate =>
    dsimp only
    split
    · exact .inr ⟨_, g, s, s', rfl, rfl, .inr ⟨rfl, rfl⟩⟩
    · split
      · exact .inr ⟨_, g, s, s', rfl, rfl, .inr ⟨rfl, rfl⟩⟩
      · exact .inl ⟨rfl, rfl⟩
  | reading =>
    simp only [alike.get]
    exact .inr ⟨_, g, _, _, rfl, rfl, .inl rfl⟩
  | writing e =>
    simp only [alike.put]
    exact .inr ⟨_, g, _, _, rfl, rfl, .inl rfl⟩
  | leaving a =>
    dsimp only
    cases g.table.get? v.key with
    | none => exact .inr ⟨_, g, s, s', rfl, rfl, .inr ⟨rfl, rfl⟩⟩
    | some gate => exact .inr ⟨_, _, s, s', rfl, rfl, .inr ⟨rfl, rfl⟩⟩
  | opening gate a => exact .inr ⟨_, _, s, s', rfl, rfl, .inr ⟨rfl, rfl⟩⟩
  | finished a => exact .inl ⟨rfl, rfl⟩

theorem Visit.steps_alike (alike : d.Alike s s') (now : Instant) (n : Nat) (v : Visit)
    (g : Gates) : ∃ v' g' t t', v.steps d now n ⟨s, g⟩ = (v', ⟨t, g'⟩) ∧
      v.steps d now n ⟨s', g⟩ = (v', ⟨t', g'⟩) ∧ Parallel s s' t t' := by
  induction n generalizing v g with
  | zero => exact ⟨v, g, s, s', rfl, rfl, .inr ⟨rfl, rfl⟩⟩
  | succ n ih =>
    rw [steps, steps]
    rcases v.step_alike alike now g with ⟨stuck, stuck'⟩ | ⟨v', g', t, t', moved, moved', same⟩
    · rw [stuck, stuck']
      exact ⟨v, g, s, s', rfl, rfl, .inr ⟨rfl, rfl⟩⟩
    · rw [moved, moved']
      rcases same with rfl | ⟨rfl, rfl⟩
      · exact ⟨_, _, _, _, rfl, rfl, .inl rfl⟩
      · exact ih v' g'

theorem alone_alike (alike : d.Alike s s') (now : Instant) (v : Visit) (g : Gates) :
    ∃ a g' t t', alone d now v ⟨s, g⟩ = (a, ⟨t, g'⟩) ∧ alone d now v ⟨s', g⟩ = (a, ⟨t', g'⟩) ∧
      Parallel s s' t t' := by
  obtain ⟨v', g', t, t', settled, settled', same⟩ :=
    v.steps_alike alike (v.deadline.getD now) 8 g
  refine ⟨v'.answer?.getD (.error (.stalled v'.key d.id)), g', t, t', ?_, ?_, same⟩
  · rw [alone, Visit.settle, settled]
  · rw [alone, Visit.settle, settled']

theorem perform_alike {d : Clocked σ} {now : Instant} (alike : (d now).Alike s s') (c : Call)
    (g : Gates) : ∃ a g' t t', (store d now).perform c ⟨s, g⟩ = (a, ⟨t, g'⟩) ∧
      (store d now).perform c ⟨s', g⟩ = (a, ⟨t', g'⟩) ∧ Parallel s s' t t' := by
  cases c with
  | size =>
    simp only [Store.perform, store, onBelow, alike.size]
    exact ⟨_, _, _, _, rfl, rfl, .inl rfl⟩
  | contains k =>
    simp only [Store.perform, store, onBelow, alike.contains k]
    exact ⟨_, _, _, _, rfl, rfl, .inl rfl⟩
  | clear =>
    simp only [Store.perform, store, onBelow, alike.clear]
    exact ⟨_, _, _, _, rfl, rfl, .inl rfl⟩
  | get k =>
    obtain ⟨a, g', t, t', read, read', same⟩ :=
      alone_alike alike now (.read (d now).id now k g.timeout) g
    refine ⟨a.map .entry, g', t, t', ?_, ?_, same⟩
    · simp only [Store.perform, store, get, read]
    · simp only [Store.perform, store, get, read']
  | put k e =>
    obtain ⟨a, g', t, t', wrote, wrote', same⟩ := alone_alike alike now (.write k e) g
    refine ⟨(a.map fun _ => ()).map fun _ => .done, g', t, t', ?_, ?_, same⟩
    · simp only [Store.perform, store, put, wrote]
    · simp only [Store.perform, store, put, wrote']
  | remove k =>
    obtain ⟨a, g', t, t', left, left', same⟩ := alone_alike alike now (.giveUp k) g
    refine ⟨a.map .entry, g', t, t', ?_, ?_, same⟩
    · simp only [Store.perform, store, remove, left]
    · simp only [Store.perform, store, remove, left']

theorem below_perform_put {d : Clocked σ} {now : Instant} {s t : σ} {g g' : Gates} {k : Key}
    {e : Entry} {a : Answer Reply}
    (performed : (store d now).perform (.put k e) ⟨s, g⟩ = (a, ⟨t, g'⟩)) :
    t = ((d now).put k e s).2 := by
  have below := put_below (d now) now k e ⟨s, g⟩
  rw [← below]
  exact (congrArg (fun r => r.2.below) performed).symm

theorem turn_of_perform {timeout : Option Time.Duration} {limits : Soft.Limits} {id : String}
    {maxEntries : Option Nat} {now : Instant} {s t : Soft Memory} {g g' : Gates} {c : Call}
    {a : Answer Reply}
    (performed : (store (Shape.soft limits (.memory id maxEntries)).store now).perform c ⟨s, g⟩ =
      (a, ⟨t, g'⟩)) :
    (Shape.blocking timeout (.soft limits (.memory id maxEntries))).turn now
      (⟨s, g⟩ : Blocking (Soft Memory)) (.call c) = (Soft.turnOf (.call c) a s t, ⟨t, g'⟩) :=
  congrArg (fun r : Answer Reply × Blocking (Soft Memory) =>
    (Soft.turnOf (.call c) r.1 s r.2.below, r.2)) performed

/-- Soft layers that are twins below gates that are the same. -/
structure Twins (timeout : Option Time.Duration) (s s' : Blocking (Soft Memory)) : Prop where
  below : Soft.Twins s.below s'.below
  gates : s.gates = s'.gates
  timeout : s.gates.timeout = timeout.bind Time.Duration.positive?

theorem Visit.Step.consistent {limits : Soft.Limits} {id : String} {maxEntries : Option Nat}
    {now : Instant} {v v' : Visit} {s s' : Blocking (Soft Memory)}
    (step : Visit.Step (Soft.store limits (Memory.store id maxEntries)) now v s v' s')
    (hs : s.below.Consistent) : s'.below.Consistent := by
  cases step with
  | reads => exact hs.get v.key
  | writes => exact hs.put v.key _
  | enters | meets | wakes | expires | takesOut | strays | opens => exact hs

theorem Parallel.twins {s s' t t' : Soft Memory} (same : Parallel s s' t t')
    (twins : Soft.Twins s s') (left : t.Consistent) : Soft.Twins t t' := by
  rcases same with rfl | ⟨rfl, rfl⟩
  · exact left.twins
  · exact twins

theorem turn_twins {timeout : Option Time.Duration} {s s' : Soft Memory} {g : Gates}
    (soft : Soft.Twins s s') (limits : Soft.Limits) (id : String) (maxEntries : Option Nat)
    (wait : g.timeout = timeout.bind Time.Duration.positive?) (now : Instant) (o : Operation) :
    let gated := Shape.blocking timeout (.soft limits (.memory id maxEntries))
    let r := gated.turn now (⟨s, g⟩ : Blocking (Soft Memory)) o
    let r' := gated.turn now (⟨s', g⟩ : Blocking (Soft Memory)) o
    r.1 = r'.1 ∧ Twins timeout r.2 r'.2 := by
  intro gated r r'
  cases o with
  | reclaimUnretained =>
    obtain ⟨turns, after⟩ := soft.turn limits id maxEntries now .reclaimUnretained
    exact ⟨turns, after, rfl, wait⟩
  | call c =>
    have alike : ((Shape.soft limits (.memory id maxEntries)).store now).Alike s s' :=
      soft.alike limits id maxEntries
    obtain ⟨a, g', t, t', performed, performed', same⟩ := perform_alike alike c g
    have acts := perform_acts (s := ⟨s, g⟩) soft.left timeout limits id maxEntries now (.call c)
    have result : gated.perform now (⟨s, g⟩ : Blocking (Soft Memory)) (.call c) = (a, ⟨t, g'⟩) :=
      performed
    have turns : Soft.turnOf (.call c) a s t = Soft.turnOf (.call c) a s' t' := by
      refine soft.turnOf a ?_ fun reclaims => nomatch reclaims
      rintro k e ⟨⟩
      rw [below_perform_put performed, below_perform_put performed', alike.put]
    simp only [r, r', gated, turn_of_perform performed, turn_of_perform performed']
    rw [result] at acts
    exact ⟨turns, same.twins soft (acts.1.consistent soft.left), rfl, acts.2.trans wait⟩

end Blocking

/-! ## Chains -/

/-- What the next step of a visit does below the gates, or without any. -/
def Blocking.Visit.errand (gated : Bool) (v : Visit) : Option Call :=
  match v.phase with
  | .entering | .waiting _ => if gated then none else some (.get v.key)
  | .reading => some (.get v.key)
  | .writing e => some (.put v.key e)
  | .leaving _ | .opening _ _ => if gated then none else some (.remove v.key)
  | .finished _ => none

namespace Shape

/-- What a caller's next step comes to below the gates. -/
def errand : (s : Shape) → Instant → Visit → s.State → Option Turn
  | blocking _ b, now, v, (st : Blocking b.State) =>
    (v.errand true).map fun c => (b.turn now st.below (.call c)).1
  | s, now, v, st => (v.errand false).map fun c => (s.turn now st (.call c)).1

/-- States that come to the same whatever is done, though one of them may have been asked for keys
that the other was not asked for. -/
structure Settles (s : Shape) (R : s.State → s.State → Prop) : Prop where
  turn : ∀ {a b} now o, R a b →
    (s.turn now a o).1 = (s.turn now b o).1 ∧ R (s.turn now a o).2 (s.turn now b o).2
  looked : ∀ {a b} now k, R a b → R ((s.store now).contains k a).2 b
  visitor : ∀ {a b} now k, R a b → s.visitor now k a = s.visitor now k b
  errand : ∀ {a b} now v, R a b → s.errand now v a = s.errand now v b
  step : ∀ {a b} now v, R a b → (s.step now v a = none ∧ s.step now v b = none) ∨
    ∃ v' a' b', s.step now v a = some (v', a') ∧ s.step now v b = some (v', b') ∧ R a' b'

theorem soft_settles (limits : Soft.Limits) (id : String) (maxEntries : Option Nat) :
    (soft limits (memory id maxEntries)).Settles fun s s' : Soft Memory => Soft.Twins s s' where
  turn now o twins := twins.turn limits id maxEntries now o
  looked _ k twins := twins.looked id maxEntries k
  visitor _ _ _ := rfl
  errand now v twins := by
    refine Option.map_congr ?_
    intro c _
    exact (twins.turn limits id maxEntries now (.call c)).1
  step {a b} now v twins := by
    have alike : ((soft limits (memory id maxEntries)).store now).Alike a b :=
      twins.alike limits id maxEntries
    have after (c : Call) : Soft.Twins
        (((soft limits (memory id maxEntries)).store now).perform c b).2
        (((soft limits (memory id maxEntries)).store now).perform c b).2 :=
      Soft.Consistent.twins (twins.right.operate (.call c))
    unfold Shape.step
    dsimp only
    cases v.phase with
    | entering | waiting | reading =>
      simp only [alike.get]
      exact .inr ⟨_, _, _, rfl, rfl, after (.get v.key)⟩
    | writing e =>
      simp only [alike.put]
      exact .inr ⟨_, _, _, rfl, rfl, after (.put v.key e)⟩
    | leaving | opening =>
      simp only [alike.remove]
      exact .inr ⟨_, _, _, rfl, rfl, after (.remove v.key)⟩
    | finished => exact .inl ⟨rfl, rfl⟩

theorem gated_settles (timeout : Option Time.Duration) (limits : Soft.Limits) (id : String)
    (maxEntries : Option Nat) :
    (blocking timeout (soft limits (memory id maxEntries))).Settles
      fun s s' : Blocking (Soft Memory) => Blocking.Twins timeout s s' where
  turn {s s'} now o twins := by
    obtain ⟨below, gates⟩ := s
    obtain ⟨below', gates'⟩ := s'
    obtain ⟨soft, rfl, wait⟩ := twins
    exact Blocking.turn_twins soft limits id maxEntries wait now o
  looked _ k twins := ⟨twins.below.looked id maxEntries k, twins.gates, twins.timeout⟩
  visitor now k twins := by
    show Visit.read id now k _ = Visit.read id now k _
    rw [twins.gates]
  errand now v twins := by
    refine Option.map_congr ?_
    intro c _
    exact (twins.below.turn limits id maxEntries now (.call c)).1
  step {s s'} now v twins := by
    obtain ⟨below, gates⟩ := s
    obtain ⟨below', gates'⟩ := s'
    obtain ⟨soft, rfl, wait⟩ := twins
    have alike := soft.alike limits id maxEntries
    rcases v.step_alike alike now gates with stuck | ⟨v', g', t, t', moved, moved', same⟩
    · exact .inl stuck
    · have step := Visit.step_cases moved
      refine .inr ⟨v', _, _, moved, moved', ?_⟩
      exact ⟨same.twins soft (step.consistent soft.left), rfl, step.timeout.trans wait⟩

end Shape

/-! ## Callers -/

/-- What has come of an event. -/
structure Outcome where
  /-- What was done, with its answer and the keys that were given up for it. -/
  turn : Option Turn := none
  /-- The answer that a caller has taken. -/
  taken : Option (Answer (Option Entry)) := none

/-- Any number of callers on a chain, each on its way through the gates or elsewhere. -/
structure Party (ι : Type) (s : Shape) where
  chain : s.State
  visit : ι → Option Visit := fun _ => none

namespace Party

inductive Event (ι : Type) where
  /-- Something is done from beginning to end before anybody else moves. -/
  | does (now : Instant) (o : Operation)
  | read (i : ι) (k : Key) (now : Instant)
  | write (i : ι) (k : Key) (e : Entry)
  | giveUp (i : ι) (k : Key)
  | step (i : ι) (now : Instant)
  | collect (i : ι)

variable {s : Shape} {R : s.State → s.State → Prop}

def start (s : Shape) : Party ι s := { chain := s.initial }

variable [DecidableEq ι] {w w' : Party ι s}

/-- Whoever is busy begins nothing else. -/
def begin (i : ι) (v : Visit) (w : Party ι s) : Party ι s :=
  match w.visit i with
  | none => { w with visit := Function.update w.visit i (some v) }
  | some _ => w

def act (w : Party ι s) : Event ι → Outcome × Party ι s
  | .does now o =>
    let (t, chain) := s.turn now w.chain o
    ({ turn := some t }, { w with chain })
  | .read i k now => ({}, w.begin i (s.visitor now k w.chain))
  | .write i k e => ({}, w.begin i (.write k e))
  | .giveUp i k => ({}, w.begin i (.giveUp k))
  | .step i now =>
    match w.visit i with
    | none => ({}, w)
    | some v =>
      match s.step now v w.chain with
      | none => ({}, w)
      | some (v', chain) =>
        ({ turn := s.errand now v w.chain },
          { chain, visit := Function.update w.visit i (some v') })
  | .collect i =>
    match (w.visit i).bind Visit.answer? with
    | none => ({}, w)
    | some a => ({ taken := some a }, { w with visit := Function.update w.visit i none })

/-- What comes of each event, and what is left after the last. -/
def play (w : Party ι s) : List (Event ι) → List Outcome × Party ι s
  | [] => ([], w)
  | e :: es =>
    let (out, w) := w.act e
    let (outs, w) := w.play es
    (out :: outs, w)

structure Twins (R : s.State → s.State → Prop) (w w' : Party ι s) : Prop where
  chain : R w.chain w'.chain
  visit : w.visit = w'.visit

theorem Twins.begin (twins : Twins R w w') (i : ι) (v : Visit) :
    Twins R (w.begin i v) (w'.begin i v) := by
  unfold Party.begin
  rw [twins.visit]
  split
  · exact ⟨twins.chain, rfl⟩
  · exact ⟨twins.chain, twins.visit⟩

theorem Twins.act (twins : Twins R w w') (settles : s.Settles R) (e : Event ι) :
    (w.act e).1 = (w'.act e).1 ∧ Twins R (w.act e).2 (w'.act e).2 := by
  cases e with
  | does now o =>
    obtain ⟨turns, after⟩ := settles.turn now o twins.chain
    refine ⟨?_, after, twins.visit⟩
    simp only [Party.act, turns]
  | read i k now =>
    refine ⟨rfl, ?_⟩
    simp only [Party.act, settles.visitor now k twins.chain]
    exact twins.begin i _
  | write i k e => exact ⟨rfl, twins.begin i _⟩
  | giveUp i k => exact ⟨rfl, twins.begin i _⟩
  | step i now =>
    simp only [Party.act, twins.visit]
    split
    · exact ⟨rfl, twins⟩
    · rename_i v _
      rw [settles.errand now v twins.chain]
      rcases settles.step now v twins.chain with
        ⟨stuck, stuck'⟩ | ⟨v', a, b, moved, moved', after⟩
      · rw [stuck, stuck']
        exact ⟨rfl, twins⟩
      · rw [moved, moved']
        exact ⟨rfl, after, rfl⟩
  | collect i =>
    simp only [Party.act, twins.visit]
    cases (w'.visit i).bind Visit.answer? with
    | none => exact ⟨rfl, twins⟩
    | some a => exact ⟨rfl, twins.chain, rfl⟩

/-- Somebody asks whether a key is held. -/
def Event.asks (q : Instant × Key) : Event ι := .does q.1 (.call (.contains q.2))

/-- A run, in which keys may be asked for besides, each at some time. -/
abbrev Script (ι : Type) := List (Event ι ⊕ Instant × Key)

namespace Script

/-- All that is done. -/
def whole (script : Script ι) : List (Event ι) := script.map (Sum.elim id .asks)

/-- What is done if nobody asks besides. -/
def plain (script : Script ι) : List (Event ι) := script.filterMap Sum.getLeft?

/-- What has come of the plain run. -/
def outcomes (script : Script ι) (outs : List Outcome) : List Outcome :=
  (script.zip outs).filterMap fun (l, out) => l.getLeft?.map fun _ => out

end Script

theorem Twins.play (twins : Twins R w w') (settles : s.Settles R) (script : Script ι) :
    Script.outcomes script (w.play (Script.whole script)).1 =
        (w'.play (Script.plain script)).1 ∧
      Twins R (w.play (Script.whole script)).2 (w'.play (Script.plain script)).2 := by
  induction script generalizing w w' with
  | nil => exact ⟨rfl, twins⟩
  | cons l script ih =>
    cases l with
    | inl e =>
      obtain ⟨out, after⟩ := twins.act settles e
      obtain ⟨outs, last⟩ := ih after
      refine ⟨?_, last⟩
      exact congrArg₂ List.cons out outs
    | inr q =>
      exact ih (w := (w.act (.asks q)).2) ⟨settles.looked q.1 q.2 twins.chain, twins.visit⟩

end Party

/-! ## Built chains -/

namespace Shape

/-- How many keys the uppermost soft layer has reclaimed. -/
def reclaimedTotal : (s : Shape) → s.State → Nat
  | memory _ _, _ => 0
  | probe b, (st : Probe b.State) => b.reclaimedTotal st.below
  | soft .., (st : Soft _) => st.books.reclaimedTotal
  | blocking _ b, (st : Blocking b.State) => b.reclaimedTotal st.below

def gates? : (s : Shape) → s.State → Option Blocking.Gates
  | blocking .., (st : Blocking _) => some st.gates
  | _, _ => none

/-- The hits, misses and evictions of the memory, and how many keys have been reclaimed. -/
def counts (s : Shape) (st : s.State) : Nat × Nat × Nat × Nat :=
  ((s.leaf st).hits, (s.leaf st).misses, (s.leaf st).evictions, s.reclaimedTotal st)

end Shape

namespace Settings

variable [DecidableEq ι]

open Party (Script)

/-- After any run of any number of callers on a chain that settings build, a key is said to be
held just if a read at its open gate would find it that came at the same time, unless its wait at
the gates would then end after all that the clock can show, for every such read fails. And if
anybody asks for keys besides, at whatever moments of the run, nothing else comes out differently:
neither what is done, its answers and the keys that are evicted or reclaimed for it, nor the answers
that the callers take, nor where they have got to, nor the gates, nor the counts of hits, misses,
evictions and reclaimed keys. -/
theorem contains_unseen (settings : Settings) (script : Script ι) :
    let shape := settings.shape
    let r := (Party.start shape).play script.whole
    let plain := (Party.start shape).play script.plain
    let st := r.2.chain
    (∀ now k, ∃ held, ((shape.store now).contains k st).1 = .ok held ∧
      (shape.isLocked st k = false → settings.isTimed now = true →
        ∃ e, ((shape.store now).get k st).1 = .ok e ∧ e.isSome = held)) ∧
    (∀ now, settings.isTimed now = false → ∀ k, ∃ t, settings.blockingTimeout = some t ∧
      ((shape.store now).get k st).1 = .error (.deadline k settings.id t)) ∧
    Script.outcomes script r.1 = plain.1 ∧ r.2.visit = plain.2.visit ∧
      shape.gates? st = shape.gates? plain.2.chain ∧
      shape.counts st = shape.counts plain.2.chain := by
  cases hb : settings.blocking with
  | false =>
    rw [shape_of_soft hb]
    intro shape r plain st
    have settles := Shape.soft_settles settings.limits settings.id settings.maxEntries
    have start : Party.Twins (s := shape) (fun s s' : Soft Memory => Soft.Twins s s')
        (Party.start shape : Party ι shape) (Party.start shape) :=
      ⟨Soft.start_consistent.twins, rfl⟩
    obtain ⟨outs, twins⟩ := start.play settles script
    refine ⟨?_, ?_, outs, twins.visit, rfl, twins.chain.counts⟩
    · intro now k
      obtain ⟨e, found, held⟩ := Soft.get_of_contains settings.limits settings.id
        settings.maxEntries k st
      exact ⟨e.isSome, held, fun _ _ => ⟨e, found, rfl⟩⟩
    · intro now untimed
      cases hb.symm.trans (blocking_of_untimed untimed)
  | true =>
    rw [shape_of_gated hb]
    intro shape r plain st
    have settles := Shape.gated_settles settings.blockingTimeout settings.limits settings.id
      settings.maxEntries
    have start : Party.Twins (s := shape)
        (fun s s' : Blocking (Soft Memory) => Blocking.Twins settings.blockingTimeout s s')
        (Party.start shape : Party ι shape) (Party.start shape) :=
      ⟨⟨Soft.start_consistent.twins, rfl, rfl⟩, rfl⟩
    obtain ⟨outs, twins⟩ := start.play settles script
    refine ⟨?_, ?_, outs, twins.visit, congrArg some twins.chain.gates, twins.chain.below.counts⟩
    · intro now k
      obtain ⟨e, found, held⟩ := Soft.get_of_contains settings.limits settings.id
        settings.maxEntries k st.below
      refine ⟨e.isSome, held, fun free timed => ⟨e, ?_, rfl⟩⟩
      have passed := Blocking.get_of_open (d := Soft.store settings.limits
        (Memory.store settings.id settings.maxEntries)) free
        ((isTimed_eq hb twins.chain.timeout now).trans timed)
      exact passed.1.trans found
    · intro now untimed k
      exact get_of_gates (d := Soft.store settings.limits
        (Memory.store settings.id settings.maxEntries)) hb twins.chain.timeout untimed k

/-- A key is held and its gate is open, but a read of it fails, whenever it comes, at a wait that
would outlast the clock, though there is nothing to wait for. -/
theorem get_of_held_fails :
    let wait : Time.Duration := .ofSeconds 18446744073709551615
    let settings : Settings := { id := "users", blockingTimeout := some wait, memoryBudget := none }
    let shape := settings.shape
    ∀ before now, let st := (shape.live [(before, .call (.put ⟨"a"⟩ .knownAbsent))]).2
      shape.isLocked st ⟨"a"⟩ = false ∧ ((shape.store now).contains ⟨"a"⟩ st).1 = .ok true ∧
        ((shape.store now).get ⟨"a"⟩ st).1 = .error (.deadline ⟨"a"⟩ "users" wait) := by
  intro wait settings shape before now st
  have late : Instant.secondsBound * 1000000000 ≤ now.nanoseconds + wait.nanoseconds :=
    Nat.le_trans (by decide) (Nat.le_add_left ..)
  have untimed : settings.isTimed now = false := isTimed_of_late rfl rfl late
  obtain ⟨t, given, fails⟩ :=
    get_of_untimed settings [(before, .call (.put ⟨"a"⟩ .knownAbsent))] ⟨"a"⟩ untimed
  obtain rfl := Option.some.inj given
  exact ⟨rfl, by with_unfolding_all rfl, fails⟩

end Settings
end DataTier.Cache
