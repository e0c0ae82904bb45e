import DataTier.Proofs.Cache.Room

/-! A soft layer that never has to reclaim anything is not seen from either side. The memory below
counts its reads, stamps its slots and drops the oldest of them as if it were alone: the layer asks
it for its size and for single keys, which leaves no trace in it, and has nothing removed from it
(`run_as_alone`). -/

namespace DataTier.Cache.Soft

variable {σ : Type} {limits : Limits} {maxEntries : Option Nat} {id : String} {s : Soft Memory}
  {k : Key} {e : Entry} {budget : Nat}

/-! ## Weights -/

/-- What is tracked after a write, before the budget is looked at. -/
def weightAfter (limits : Limits) (d : Store σ) (k : Key) (e : Entry) (s : Soft σ) : Nat :=
  (put { limits with budget := none } d k e s).2.books.totalWeight

/-- The call is not a write that takes what is tracked over the budget. -/
def fits (budget : Nat) (limits : Limits) (d : Store σ) (s : Soft σ) : Call → Bool
  | .put k e => weightAfter limits d k e s ≤ budget
  | _ => true

/-- No write of a run takes what is tracked over the budget. -/
def allFit (budget : Nat) (limits : Limits) (d : Store σ) : List Call → Soft σ → Bool
  | [], _ => true
  | c :: cs, s =>
    fits budget limits d s c && allFit budget limits d cs ((store limits d).perform c s).2

/-! ## One call -/

/-- A call has come to the same as at the memory alone, and nothing has been reclaimed. -/
structure Unseen (s s' : Soft Memory) (r : Answer Reply) (m : Answer Reply × Memory) : Prop where
  answer : r = m.1
  below : s'.below = m.2
  level : Level s'.below s'.books
  total : s'.books.reclaimedTotal = s.books.reclaimedTotal

theorem Level.get_unseen (level : Level s.below s.books) (limits : Limits) (id : String)
    (maxEntries : Option Nat) (k : Key) :
    Unseen s ((store limits (Memory.store id maxEntries)).perform (.get k) s).2
      ((store limits (Memory.store id maxEntries)).perform (.get k) s).1
      ((Memory.store id maxEntries).perform (.get k) s.below) := by
  have read := get_eq limits id maxEntries k s
  rw [drained_of_idle level.drained] at read
  simp only [Store.perform, store, read]
  refine ⟨?_, below_noteRead .., ⟨level.noteRead limits k, ?_⟩, reclaimedTotal_noteRead ..⟩
  · rw [← Memory.get_fst]
    rfl
  · exact (reclaimed_noteRead ..).trans level.drained

theorem Level.put_unseen (level : Level s.below s.books) (id : String)
    (light : ∀ budget, limits.budget = some budget →
      fits budget limits (Memory.store id maxEntries) s (.put k e) = true) :
    Unseen s ((store limits (Memory.store id maxEntries)).perform (.put k e) s).2
      ((store limits (Memory.store id maxEntries)).perform (.put k e) s).1
      ((Memory.store id maxEntries).perform (.put k e) s.below) := by
  have idle := drained_of_idle level.drained
  have covers := level.put maxEntries k e
  obtain ⟨b, reconciled, after⟩ := covers.reconcile id maxEntries
  have total := reclaimedTotal_reconcile (Memory.store id maxEntries)
    ⟨s.below.put maxEntries k e, s.books.track k e.weight⟩
  rw [reconciled] at total
  -- with a budget and without one the same is tracked until the budget is looked at
  have written (limits : Limits) : Soft.put limits (Memory.store id maxEntries) k e s =
      (.ok (), enforce limits ⟨s.below.put maxEntries k e, b⟩) := by
    rw [← idle] at reconciled
    rw [put_eq limits reconciled, idle]
  have within (budget : Nat) (hb : limits.budget = some budget) : b.totalWeight ≤ budget := by
    have weight := of_decide_eq_true (light budget hb)
    rw [weightAfter, written] at weight
    exact weight
  simp only [Store.perform, store, written, enforce_of_light within]
  exact ⟨rfl, rfl, after, total⟩

theorem Level.perform_unseen (level : Level s.below s.books) (id : String) (c : Call)
    (light : ∀ budget, limits.budget = some budget →
      fits budget limits (Memory.store id maxEntries) s c = true) :
    Unseen s ((store limits (Memory.store id maxEntries)).perform c s).2
      ((store limits (Memory.store id maxEntries)).perform c s).1
      ((Memory.store id maxEntries).perform c s.below) := by
  have idle := drained_of_idle level.drained
  cases c with
  | get k => exact level.get_unseen limits id maxEntries k
  | put k e => exact level.put_unseen id light
  | size =>
    simp only [Store.perform, store, Soft.size, afterDrain_eq, idle]
    exact ⟨rfl, rfl, level, rfl⟩
  | contains k =>
    simp only [Store.perform, store, Soft.contains, afterDrain_eq, idle]
    exact ⟨rfl, rfl, level, rfl⟩
  | remove k =>
    simp only [Store.perform, store, Soft.remove, afterDrain_eq, idle]
    exact ⟨rfl, rfl, ⟨level.remove k, level.drained⟩, rfl⟩
  | clear =>
    have bare : Level s.below { s.books with retained := [] } :=
      ⟨level.toAgrees.retaining [], level.drained⟩
    have idle := drained_of_idle (s := ⟨s.below, { s.books with retained := [] }⟩) bare.drained
    simp only [Store.perform, store, Soft.clear, afterDrain_eq, idle]
    exact ⟨rfl, rfl, ⟨bare.clear, level.drained⟩, rfl⟩

/-! ## Runs -/

theorem Level.run_unseen (level : Level s.below s.books) (id : String) {cs : List Call}
    (light : ∀ budget, limits.budget = some budget →
      allFit budget limits (Memory.store id maxEntries) cs s = true) :
    let r := (store limits (Memory.store id maxEntries)).run cs s
    r.1 = ((Memory.store id maxEntries).run cs s.below).1 ∧
      r.2.below = ((Memory.store id maxEntries).run cs s.below).2 ∧
      Level r.2.below r.2.books ∧ r.2.books.reclaimedTotal = s.books.reclaimedTotal := by
  induction cs generalizing s with
  | nil => exact ⟨rfl, rfl, level, rfl⟩
  | cons c cs ih =>
    have each (budget : Nat) (hb : limits.budget = some budget) :
        fits budget limits (Memory.store id maxEntries) s c = true ∧
          allFit budget limits (Memory.store id maxEntries) cs
            ((store limits (Memory.store id maxEntries)).perform c s).2 = true := by
      rw [← Bool.and_eq_true]
      exact light budget hb
    have unseen := level.perform_unseen id c fun budget hb => (each budget hb).1
    obtain ⟨answers, below, after, total⟩ := ih unseen.level fun budget hb => (each budget hb).2
    rw [unseen.below] at answers below
    refine ⟨?_, below, after, total.trans unseen.total⟩
    simp only [Store.run, answers, unseen.answer]

/-- Over a memory of its own, a soft layer without a budget answers each of a run of calls as the
memory would alone, and leaves it as it would be alone: with the same entries, the same stamps,
which say what it will drop next, and the same counts of hits, misses and evictions. So does a soft
layer with a budget that no write of the run takes what is tracked over; what it tracks is what
the memory holds, and it has reclaimed nothing. -/
theorem run_as_alone (limits : Limits) (id : String) (maxEntries : Option Nat) (cs : List Call)
    (light : ∀ budget, limits.budget = some budget →
      allFit budget limits (Memory.store id maxEntries) cs ⟨{}, {}⟩ = true) :
    let r := (store limits (Memory.store id maxEntries)).run cs ⟨{}, {}⟩
    let alone := (Memory.store id maxEntries).run cs {}
    r.1 = alone.1 ∧ r.2.below = alone.2 ∧
      (∀ k, k ∈ r.2.books.tracked.keys ↔ alone.2.holds k = true) ∧
      r.2.books.totalWeight = (r.2.books.tracked.keys.map alone.2.weightOf).sum ∧
      r.2.books.reclaimedTotal = 0 := by
  intro r alone
  have start : Level (⟨{}, {}⟩ : Soft Memory).below (⟨{}, {}⟩ : Soft Memory).books :=
    ⟨start_consistent, rfl⟩
  obtain ⟨answers, below, level, total⟩ := start.run_unseen id light
  rw [below] at level
  exact ⟨answers, below, fun _ => level.mem_tracked_iff, level.totalWeight_eq, total⟩

/-- Each of two entries fills the budget, and the first is removed before the second comes. -/
theorem run_as_alone_filled :
    let a : Key := ⟨"a"⟩
    let b : Key := ⟨"b"⟩
    let cs : List Call :=
      [.put a (.found .null), .get a, .get b, .remove a, .put b (.found .null), .contains a]
    (∀ budget, (⟨1, some 4⟩ : Limits).budget = some budget →
      allFit budget ⟨1, some 4⟩ (Memory.store "users" (some 1)) cs ⟨{}, {}⟩ = true) ∧
      ((store ⟨1, some 4⟩ (Memory.store "users" (some 1))).run cs ⟨{}, {}⟩).2.below =
        ((Memory.store "users" (some 1)).run cs {}).2 ∧
      ((Memory.store "users" (some 1)).run cs {}).2.hits = 1 ∧
      ((Memory.store "users" (some 1)).run cs {}).2.misses = 1 := by
  intro a b cs
  have light : ∀ budget, (⟨1, some 4⟩ : Limits).budget = some budget →
      allFit budget ⟨1, some 4⟩ (Memory.store "users" (some 1)) cs ⟨{}, {}⟩ = true := by
    rintro budget ⟨⟩
    decide +kernel
  have counts : ((Memory.store "users" (some 1)).run cs {}).2.hits = 1 ∧
      ((Memory.store "users" (some 1)).run cs {}).2.misses = 1 := by decide +kernel
  exact ⟨light, (run_as_alone ⟨1, some 4⟩ "users" (some 1) cs light).2.1, counts⟩

end DataTier.Cache.Soft
