import DataTier.Cache.Bank
import DataTier.Cache.Coordinator
import DataTier.Proofs.Cache.Markers

/-! A session on several stores that share nothing is a unit of work on each of them by itself.
What is asked of one store, through whichever handle, together with every commit and rollback
that comes after the store was first touched, makes up the requests of its unit of work; its
answers and the state of its store do not depend on what is done to the others, which of them
fail, or in which order they are committed. -/

namespace DataTier.Cache

open Time (Instant)

/-! ## First failures -/

namespace Store

variable {α : Type} {answer : α → Answer Unit} {l : List α}

theorem mem_of_firstFailure {rs : List (Answer Reply)} {e : Error}
    (h : firstFailure rs = .error e) : .error e ∈ rs := by
  induction rs with
  | nil => cases h
  | cons r rs ih =>
    cases r with
    | error e' =>
      cases h
      exact List.mem_cons_self
    | ok a => exact List.mem_cons_of_mem _ (ih h)

/-- The first failure of a number of commits. -/
def firstOfAll (answer : α → Answer Unit) (l : List α) : Answer Unit :=
  firstFailure (l.map fun a => (answer a).map fun _ => .done)

theorem firstOfAll_cons (answer : α → Answer Unit) (a : α) (l : List α) :
    firstOfAll answer (a :: l) = if (answer a).isOk then firstOfAll answer l else answer a := by
  rw [firstOfAll, List.map_cons]
  cases answer a <;> rfl

theorem firstOfAll_congr {answer' : α → Answer Unit} (h : ∀ a ∈ l, answer a = answer' a) :
    firstOfAll answer l = firstOfAll answer' l :=
  congrArg firstFailure (List.map_congr_left fun a ha => by rw [h a ha])

theorem firstOfAll_map {β : Type} (g : β → α) (l : List β) :
    firstOfAll answer (l.map g) = firstOfAll (fun b => answer (g b)) l := by
  rw [firstOfAll, List.map_map]
  rfl

theorem error_mem_iff {e : Error} : .error e ∈ (l.map fun a => (answer a).map fun _ => Reply.done) ↔
    ∃ a ∈ l, answer a = .error e := by
  rw [List.mem_map]
  refine exists_congr fun a => and_congr_right fun _ => ?_
  cases answer a <;> simp [Except.map]

theorem firstOfAll_eq_ok_iff : firstOfAll answer l = .ok () ↔ ∀ a ∈ l, answer a = .ok () := by
  rw [firstOfAll, firstFailure_eq_ok_iff]
  simp only [error_mem_iff, not_exists, not_and]
  refine ⟨fun none a ha => ?_, fun all e a ha fails => ?_⟩
  · cases own : answer a with
    | error e => exact absurd own (none e a ha)
    | ok => rfl
  · rw [all a ha] at fails
    cases fails

theorem exists_of_firstOfAll {e : Error} (h : firstOfAll answer l = .error e) :
    ∃ a ∈ l, answer a = .error e := error_mem_iff.mp (mem_of_firstFailure h)

end Store

/-! ## Stores that share nothing -/

/-- Stores on parts of one state, each of which can be replaced without the others. -/
structure Family (ι ω : Type) where
  State : ι → Type
  store : (i : ι) → Clocked (State i)
  part : (i : ι) → ω → State i
  replace : (i : ι) → ω → State i → ω
  part_replace : ∀ i w s, part i (replace i w s) = s
  part_replace_of_ne : ∀ i j w s, j ≠ i → part j (replace i w s) = part j w

namespace Family

variable {ι ω α : Type} {f : Family ι ω} {i j : ι} {w : ω}

/-- A store of the family, on the state of all. -/
def on (f : Family ι ω) (now : Instant) (i : ι) : Store ω :=
  (f.store i).within (f.part i) (f.replace i) now

/-- One store has come to the state `s`, all others are as they were. -/
structure Becomes (f : Family ι ω) (i : ι) (w w' : ω) (s : f.State i) : Prop where
  own : f.part i w' = s
  others : ∀ j, j ≠ i → f.part j w' = f.part j w

theorem perform_on (f : Family ι ω) (now : Instant) (i : ι) (c : Call) (w : ω) :
    ((f.on now i).perform c w).1 = ((f.store i now).perform c (f.part i w)).1 ∧
      f.Becomes i w ((f.on now i).perform c w).2 ((f.store i now).perform c (f.part i w)).2 := by
  cases c <;> exact ⟨rfl, f.part_replace i w _, fun j other => f.part_replace_of_ne i j w _ other⟩

theorem run_on (f : Family ι ω) (now : Instant) (i : ι) (cs : List Call) (w : ω) :
    ((f.on now i).run cs w).1 = ((f.store i now).run cs (f.part i w)).1 ∧
      f.Becomes i w ((f.on now i).run cs w).2 ((f.store i now).run cs (f.part i w)).2 := by
  induction cs generalizing w with
  | nil => exact ⟨rfl, rfl, fun _ _ => rfl⟩
  | cons c cs ih =>
    obtain ⟨reply, own, others⟩ := f.perform_on now i c w
    obtain ⟨replies, ownRest, othersRest⟩ := ih ((f.on now i).perform c w).2
    rw [own] at replies ownRest
    refine ⟨?_, ownRest, fun j other => (othersRest j other).trans (others j other)⟩
    simp only [Store.run, reply, replies]

theorem get_on (f : Family ι ω) (now : Instant) (i : ι) (k : Key) (u : UnitOfWork) (w : ω) :
    (u.get (f.on now i) k w).1 = (u.get (f.store i now) k (f.part i w)).1 ∧
      (u.get (f.on now i) k w).2.1 = (u.get (f.store i now) k (f.part i w)).2.1 ∧
      f.Becomes i w (u.get (f.on now i) k w).2.2 (u.get (f.store i now) k (f.part i w)).2.2 :=
  ⟨rfl, rfl, f.part_replace i w _, fun j other => f.part_replace_of_ne i j w _ other⟩

theorem commit_on (f : Family ι ω) (now : Instant) (i : ι) (u : UnitOfWork) (w : ω) :
    (u.commit (f.on now i) w).1 = (u.commit (f.store i now) (f.part i w)).1 ∧
      f.Becomes i w (u.commit (f.on now i) w).2.2 (u.commit (f.store i now) (f.part i w)).2.2 :=
  (f.run_on now i u.commitPlan w).imp_left (congrArg Store.firstFailure)

theorem rollback_on (f : Family ι ω) (now : Instant) (i : ι) (u : UnitOfWork) (w : ω) :
    f.Becomes i w (u.rollback (f.on now i) w).2 (u.rollback (f.store i now) (f.part i w)).2 :=
  (f.run_on now i u.rollbackPlan w).2

/-- When something is done to each store once, it is done as if to each of them alone. -/
theorem part_foldl [DecidableEq ι] {g : ω → ι × UnitOfWork → ω}
    {h : (i : ι) → UnitOfWork → f.State i → f.State i}
    (becomes : ∀ e w, f.Becomes e.1 w (g w e) (h e.1 e.2 (f.part e.1 w)))
    {t : Table ι UnitOfWork} (nodup : t.keys.Nodup) (w : ω) (i : ι) :
    f.part i (t.foldl g w) = (t.get? i).elim (f.part i w) fun u => h i u (f.part i w) := by
  induction t generalizing w with
  | nil => rfl
  | cons e t ih =>
    obtain ⟨j, u⟩ := e
    obtain ⟨first, rest⟩ := List.nodup_cons.mp nodup
    obtain ⟨own, others⟩ := becomes (j, u) w
    rw [List.foldl_cons, ih rest, Table.get?]
    by_cases same : j = i
    · subst same
      have gone : Table.get? t j = none := Table.get?_eq_none_iff.mpr first
      simp [gone, own]
    · simp [same, others i (Ne.symm same)]

end Family

/-- The chains of a bank share nothing, whatever their names are. -/
def Bank.part : (ss : List Shape) → (i : Fin ss.length) → Bank ss → (ss.get i).State
  | _ :: _, ⟨0, _⟩, st => st.1
  | _ :: ss, ⟨i + 1, h⟩, st => part ss ⟨i, Nat.lt_of_succ_lt_succ h⟩ st.2

def Bank.replace : (ss : List Shape) → (i : Fin ss.length) → Bank ss → (ss.get i).State → Bank ss
  | _ :: _, ⟨0, _⟩, st, s => (s, st.2)
  | _ :: ss, ⟨i + 1, h⟩, st, s => (st.1, replace ss ⟨i, Nat.lt_of_succ_lt_succ h⟩ st.2 s)

theorem Bank.part_replace : ∀ ss i (st : Bank ss) s, part ss i (replace ss i st s) = s
  | _ :: _, ⟨0, _⟩, _, _ => rfl
  | _ :: ss, ⟨i + 1, h⟩, st, s => part_replace ss ⟨i, Nat.lt_of_succ_lt_succ h⟩ st.2 s

theorem Bank.part_replace_of_ne : ∀ ss i j (st : Bank ss) s, j ≠ i →
    part ss j (replace ss i st s) = part ss j st
  | _ :: _, ⟨0, _⟩, ⟨0, _⟩, _, _, other => absurd rfl other
  | _ :: _, ⟨0, _⟩, ⟨_ + 1, _⟩, _, _, _ => rfl
  | _ :: _, ⟨_ + 1, _⟩, ⟨0, _⟩, _, _, _ => rfl
  | _ :: ss, ⟨i + 1, hi⟩, ⟨j + 1, hj⟩, st, s, other =>
    part_replace_of_ne ss ⟨i, Nat.lt_of_succ_lt_succ hi⟩ ⟨j, Nat.lt_of_succ_lt_succ hj⟩ st.2 s
      fun same => other (Fin.ext (congrArg (· + 1) (Fin.mk.inj same)))

def Bank.family (ss : List Shape) : Family (Fin ss.length) (Bank ss) where
  State i := (ss.get i).State
  store i := (ss.get i).store
  part := part ss
  replace := replace ss
  part_replace := part_replace ss
  part_replace_of_ne := part_replace_of_ne ss

theorem Bank.on_family (now : Instant) : ∀ ss i, (family ss).on now i = store ss i now
  | _ :: _, ⟨0, _⟩ => rfl
  | _ :: ss, ⟨i + 1, h⟩ =>
    congrArg (fun d : Store (Bank ss) => d.within Prod.snd fun p st => (p.1, st))
      (on_family now ss ⟨i, Nat.lt_of_succ_lt_succ h⟩)

/-! ## Sessions -/

namespace Coordinator

variable {ι ω η : Type} [DecidableEq ι]

/-- An order in which the stores may come up. -/
structure Order (ι : Type) where
  of : Table ι UnitOfWork → Table ι UnitOfWork
  perm : ∀ t, (of t).Perm t

/-- What is asked of a session. Several handles may stand for one store. -/
inductive Request (f : Family ι ω) (η : Type) where
  | get (h : η) (k : Key)
  | put (h : η) (k : Key) (e : Entry)
  | clear (h : η)
  /-- Asks for the unit of work, and nothing of it. -/
  | touch (h : η)
  | commit (order : Order ι)
  | rollback (order : Order ι)
  /-- Others change a store, or what will fail there. -/
  | below (i : ι) (change : f.State i → f.State i)

variable {f : Family ι ω}

def act (f : Family ι ω) (handle : η → ι) (now : Instant) (x : Coordinator ι × ω) :
    Request f η → Coordinator ι × ω
  | .get h k => (x.1.get (f.on now) (handle h) k x.2).2
  | .put h k e => (x.1.put (handle h) k e, x.2)
  | .clear h => (x.1.clear (handle h), x.2)
  | .touch h => (x.1.touch (handle h), x.2)
  | .commit order => (commit (f.on now) ⟨order.of x.1.units⟩ x.2).2
  | .rollback order => rollback (f.on now) ⟨order.of x.1.units⟩ x.2
  | .below i change => (x.1, f.replace i x.2 (change (f.part i x.2)))

/-- Each request comes at a reading of the clock. -/
def run (f : Family ι ω) (handle : η → ι) (x : Coordinator ι × ω)
    (rs : List (Instant × Request f η)) : Coordinator ι × ω :=
  rs.foldl (fun x r => act f handle r.1 x r.2) x

namespace Request

def touches (handle : η → ι) (i : ι) : Request f η → Bool
  | .get h _ | .put h _ _ | .clear h | .touch h => handle h = i
  | _ => false

/-- What the request is to the unit of work on one store. -/
def on? (handle : η → ι) (i : ι) (touched : Bool) :
    Request f η → Option (UnitOfWork.Request (f.State i))
  | .get h k => if handle h = i then some (.get k) else none
  | .put h k e => if handle h = i then some (.put k e) else none
  | .clear h => if handle h = i then some .clear else none
  | .touch _ => none
  | .commit _ => if touched then some .commit else none
  | .rollback _ => if touched then some .rollback else none
  | .below j change => if same : j = i then some (.below (same ▸ change)) else none

end Request

/-- The requests that reach one store. -/
def project (handle : η → ι) (i : ι) : Bool → List (Instant × Request f η) →
    List (Instant × UnitOfWork.Request (f.State i))
  | _, [] => []
  | touched, (now, r) :: rs =>
    ((r.on? handle i touched).map (now, ·)).toList ++
      project handle i (touched || r.touches handle i) rs

/-! ## The end of all units -/

section

variable {t : Table ι UnitOfWork} {w : ω} {i : ι}

/-- All units of work are over. -/
def Over (t : Table ι UnitOfWork) : Table ι UnitOfWork := t.keys.map fun i => (i, {})

omit [DecidableEq ι] in
theorem keys_over (t : Table ι UnitOfWork) : (Over t).keys = t.keys := by
  simp [Over, Table.keys]

theorem unit_over (t : Table ι UnitOfWork) (i : ι) : unit ⟨Over t⟩ i = {} := by
  rw [unit, Over, Table.get?_map_const]
  split <;> rfl

omit [DecidableEq ι] in
theorem commitEach_eq (stores : ι → Store ω) (t : Table ι UnitOfWork) (w : ω) :
    (commitEach stores t w).2 =
      (Over t, t.foldl (fun w e => (e.2.commit (stores e.1) w).2.2) w) := by
  induction t generalizing w with
  | nil => rfl
  | cons e t ih => simp [commitEach, ih, Over, Table.keys, UnitOfWork.commit]

omit [DecidableEq ι] in
theorem rollbackEach_eq (stores : ι → Store ω) (t : Table ι UnitOfWork) (w : ω) :
    rollbackEach stores t w =
      (Over t, t.foldl (fun w e => (e.2.rollback (stores e.1) w).2) w) := by
  induction t generalizing w with
  | nil => rfl
  | cons e t ih => simp [rollbackEach, ih, Over, Table.keys, UnitOfWork.rollback]

omit [DecidableEq ι] in
/-- The answer is the first failure among those that each store gives by itself. -/
theorem commitEach_answer (nodup : t.keys.Nodup) (now : Instant) (w : ω) :
    (commitEach (f.on now) t w).1 =
      Store.firstOfAll (fun e => (e.2.commit (f.store e.1 now) (f.part e.1 w)).1) t := by
  induction t generalizing w with
  | nil => rfl
  | cons e t ih =>
    obtain ⟨j, u⟩ := e
    obtain ⟨first, rest⟩ := List.nodup_cons.mp nodup
    obtain ⟨answer, becomes⟩ := f.commit_on now j u w
    -- the stores that come later are still as they were
    have later : ∀ e ∈ t, f.part e.1 (u.commit (f.on now j) w).2.2 = f.part e.1 w := by
      intro e he
      exact becomes.others e.1 fun same => first (List.mem_map.mpr ⟨e, he, same⟩)
    rw [Store.firstOfAll_cons]
    simp only [commitEach, ih rest, answer]
    rw [Store.firstOfAll_congr fun e he => by rw [later e he]]

end

/-! ## One step, and a run -/

/-- The session has for a store what its unit of work would have alone. -/
structure Agrees (f : Family ι ω) (i : ι) (touched : Bool) (x : Coordinator ι × ω)
    (c : UnitOfWork.Course (f.State i)) : Prop where
  unit : x.1.unit i = c.unit
  part : f.part i x.2 = c.below
  keys : i ∈ x.1.units.keys ↔ touched = true
  nodup : x.1.units.keys.Nodup

namespace Agrees

variable {i j : ι} {touched : Bool} {x : Coordinator ι × ω} {c c' : UnitOfWork.Course (f.State i)}
  {u : UnitOfWork} {w : ω}

/-- What is done through a handle concerns the unit of work of its store, and no other. -/
theorem through (h : Agrees f i touched x c)
    (own : j = i → u = c'.unit ∧ f.part i w = c'.below)
    (others : j ≠ i → f.part i w = f.part i x.2) :
    Agrees f i (touched || decide (j = i)) (⟨x.1.units.set j u⟩, w) (if j = i then c' else c) := by
  have nodup := Table.nodup_keys_set h.nodup j u
  by_cases same : j = i
  · subst same
    obtain ⟨unit, part⟩ := own rfl
    refine ⟨?_, ?_, ?_, nodup⟩
    · simpa [Coordinator.unit] using unit
    · simpa using part
    · simp [Table.mem_keys_set]
  · refine ⟨?_, ?_, ?_, nodup⟩
    · simpa [Coordinator.unit, Table.get?_set, same] using h.unit
    · simpa [same] using (others same).trans h.part
    · simpa [Table.mem_keys_set, same, Ne.symm same] using h.keys

theorem perm (h : Agrees f i touched x c) (order : Order ι) :
    Agrees f i touched (⟨order.of x.1.units⟩, x.2) c where
  unit := by
    rw [← h.unit, Coordinator.unit, Coordinator.unit,
      Table.get?_perm (order.perm _).symm h.nodup]
  part := h.part
  keys := ((order.perm x.1.units).map Prod.fst).mem_iff.trans h.keys
  nodup := ((order.perm x.1.units).map Prod.fst).nodup_iff.mpr h.nodup

/-- The session has a unit of work for a store just if it has touched it. -/
theorem look (h : Agrees f i touched x c) :
    x.1.units.get? i = if touched then some c.unit else none := by
  have keys := h.keys
  rw [Table.mem_keys_iff_get?] at keys
  cases touched with
  | true =>
    obtain ⟨u, look⟩ := keys.mpr rfl
    have unit := h.unit
    rw [Coordinator.unit, look, Option.getD_some] at unit
    simp [look, unit]
  | false =>
    have none (u : UnitOfWork) : x.1.units.get? i ≠ some u := fun look =>
      Bool.false_ne_true (keys.mp ⟨u, look⟩)
    simpa using Option.eq_none_iff_forall_ne_some.mpr none

theorem finish (h : Agrees f i touched x c) {g : ω → ι × UnitOfWork → ω}
    {e : (i : ι) → UnitOfWork → f.State i → f.State i}
    (becomes : ∀ a w, f.Becomes a.1 w (g w a) (e a.1 a.2 (f.part a.1 w)))
    (unit : c'.unit = {}) (below : c'.below = e i c.unit c.below) :
    Agrees f i touched (⟨Over x.1.units⟩, x.1.units.foldl g x.2) (if touched then c' else c) where
  unit := by
    rw [unit_over]
    cases touched with
    | true => exact unit.symm
    | false =>
      have none := h.look
      have fresh := h.unit
      rw [Coordinator.unit, none] at fresh
      exact fresh
  part := by
    rw [Family.part_foldl becomes h.nodup, h.look]
    cases touched with
    | true => exact (congrArg (e i c.unit) h.part).trans below.symm
    | false => exact h.part
  keys := by
    rw [keys_over]
    exact h.keys
  nodup := by
    rw [keys_over]
    exact h.nodup

theorem commit (h : Agrees f i touched x c) (now : Instant) :
    Agrees f i touched (commit (f.on now) x.1 x.2).2
      (if touched then c.request (f.store i now) .commit else c) := by
  simp only [Coordinator.commit, commitEach_eq]
  exact h.finish (e := fun i u s => (u.commit (f.store i now) s).2.2)
    (fun a w => (f.commit_on now a.1 a.2 w).2) rfl rfl

theorem rollback (h : Agrees f i touched x c) (now : Instant) :
    Agrees f i touched (rollback (f.on now) x.1 x.2)
      (if touched then c.request (f.store i now) .rollback else c) := by
  simp only [Coordinator.rollback, rollbackEach_eq]
  exact h.finish (e := fun i u s => (u.rollback (f.store i now) s).2)
    (fun a w => f.rollback_on now a.1 a.2 w) rfl rfl

/-- One request of the session is one, or none, of the unit of work. -/
theorem act (h : Agrees f i touched x c) (handle : η → ι) (now : Instant) (r : Request f η) :
    Agrees f i (touched || r.touches handle i) (act f handle now x r)
      (c.run (f.store i) ((r.on? handle i touched).map (now, ·)).toList) := by
  have reaches (p : Prop) [Decidable p] (r : UnitOfWork.Request (f.State i)) :
      c.run (f.store i) ((if p then some r else none).map (now, ·)).toList =
        if p then c.request (f.store i now) r else c := by
    split <;> rfl
  cases r with
  | get a k =>
    obtain ⟨-, unit, becomes⟩ := f.get_on now (handle a) k (x.1.unit (handle a)) x.2
    simp only [Request.touches, Request.on?, reaches]
    refine h.through (fun same => ?_) fun other => becomes.others i (Ne.symm other)
    subst same
    have own := becomes.own
    simp only [h.unit, h.part] at unit own
    refine ⟨?_, own⟩
    rw [h.unit]
    exact unit
  | put a k e =>
    simp only [Request.touches, Request.on?, reaches]
    refine h.through (fun same => ⟨?_, h.part⟩) fun _ => rfl
    rw [same, h.unit]
    rfl
  | clear a =>
    simp only [Request.touches, Request.on?, reaches]
    refine h.through (fun same => ⟨?_, h.part⟩) fun _ => rfl
    rw [same, h.unit]
    rfl
  | touch a =>
    have touches : Agrees f i (touched || decide (handle a = i)) (x.1.touch (handle a), x.2)
        (if handle a = i then c else c) :=
      h.through (fun same => ⟨by rw [same, h.unit], h.part⟩) fun _ => rfl
    rw [ite_self] at touches
    exact touches
  | commit order =>
    simp only [Request.touches, Request.on?, reaches, Bool.or_false]
    exact (h.perm order).commit now
  | rollback order =>
    simp only [Request.touches, Request.on?, reaches, Bool.or_false]
    exact (h.perm order).rollback now
  | below j change =>
    simp only [Request.touches, Request.on?, Bool.or_false]
    by_cases same : j = i
    · subst same
      simp only [dite_true]
      refine ⟨h.unit, ?_, h.keys, h.nodup⟩
      exact (f.part_replace j x.2 _).trans (congrArg change h.part)
    · simp only [same, dite_false]
      refine ⟨h.unit, ?_, h.keys, h.nodup⟩
      exact (f.part_replace_of_ne j i x.2 _ (Ne.symm same)).trans h.part

theorem run (h : Agrees f i touched x c) (handle : η → ι) (rs : List (Instant × Request f η)) :
    Agrees f i (touched || rs.any (·.2.touches handle i)) (run f handle x rs)
      (c.run (f.store i) (project handle i touched rs)) := by
  induction rs generalizing x c touched with
  | nil =>
    rw [List.any_nil, Bool.or_false]
    exact h
  | cons r rs ih =>
    have rest := ih (h.act handle r.1 r.2)
    rw [List.any_cons, ← Bool.or_assoc, project, UnitOfWork.Course.run, List.foldl_append]
    exact rest

theorem start (f : Family ι ω) (i : ι) (w : ω) :
    Agrees f i false ({}, w) { below := f.part i w } where
  unit := rfl
  part := rfl
  keys := by simp [Table.keys]
  nodup := List.nodup_nil

/-- A unit of the session, and the store it is for. -/
theorem of_mem (h : Agrees f i touched x c) (hu : (i, u) ∈ x.1.units) :
    u = c.unit ∧ f.part i x.2 = c.below := by
  have look := (Table.mem_iff_get? h.nodup).mp hu
  rw [← h.unit, Coordinator.unit, look]
  exact ⟨rfl, h.part⟩

end Agrees

/-- The answer to a commit, from what the units of work would answer alone. -/
theorem commit_answer {touched : ι → Bool} {x : Coordinator ι × ω}
    {solo : (i : ι) → UnitOfWork.Course (f.State i)}
    (agrees : ∀ i, Agrees f i (touched i) x (solo i)) (now : Instant) :
    (commit (f.on now) x.1 x.2).1 = Store.firstOfAll
      (fun i => ((solo i).unit.commit (f.store i now) (solo i).below).1) x.1.units.keys := by
  have nodup : x.1.units.keys.Nodup := by
    cases units : x.1.units with
    | nil => exact List.nodup_nil
    | cons e t =>
      rw [← units]
      exact (agrees e.1).nodup
  refine (commitEach_answer nodup now x.2).trans ?_
  rw [Table.keys, Store.firstOfAll_map]
  refine Store.firstOfAll_congr fun e he => ?_
  obtain ⟨unit, part⟩ := (agrees e.1).of_mem he
  rw [unit, part]

/-- Whatever is asked of a session, through whichever handles, in whichever order its stores come
up at the end of its units and whatever fails: for each store it has the unit of work and the
content, and gives the answers, of one unit of work there that is asked what reaches the store.
A commit commits every store that was touched, and fails just if one of them does, with a failure
of one of them. -/
theorem run_product (f : Family ι ω) (handle : η → ι) (w : ω)
    (rs : List (Instant × Request f η)) (now : Instant) :
    let x := run f handle ({}, w) rs
    let solo (i : ι) := UnitOfWork.Course.run (f.store i) { below := f.part i w }
      (project handle i false rs)
    (∀ i, x.1.unit i = (solo i).unit ∧ f.part i x.2 = (solo i).below ∧
      (i ∈ x.1.units.keys ↔ ∃ r ∈ rs, r.2.touches handle i = true)) ∧
    (∀ a k, (x.1.get (f.on now) (handle a) k x.2).1 =
      ((solo (handle a)).unit.get (f.store (handle a) now) k (solo (handle a)).below).1) ∧
    ∀ order : Order ι,
      let committed := commit (f.on now) ⟨order.of x.1.units⟩ x.2
      let alone (i : ι) := (solo i).unit.commit (f.store i now) (solo i).below
      (∀ i, f.part i committed.2.2 =
        if i ∈ x.1.units.keys then (alone i).2.2 else (solo i).below) ∧
      (committed.1 = .ok () ↔ ∀ i ∈ x.1.units.keys, (alone i).1 = .ok ()) ∧
      ∀ e, committed.1 = .error e → ∃ i ∈ x.1.units.keys, (alone i).1 = .error e := by
  intro x solo
  have agrees (i : ι) : Agrees f i (rs.any (·.2.touches handle i)) x (solo i) :=
    (Agrees.start f i w).run handle rs
  refine ⟨fun i => ⟨(agrees i).unit, (agrees i).part, ?_⟩, fun a k => ?_, fun order => ?_⟩
  · rw [(agrees i).keys, List.any_eq_true]
  · rw [← (agrees (handle a)).unit, ← (agrees (handle a)).part]
    exact (f.get_on ..).1
  · intro committed alone
    have ordered (i : ι) := (agrees i).perm order
    have answer : committed.1 = _ := commit_answer ordered now
    have keys (i : ι) : i ∈ (order.of x.1.units).keys ↔ i ∈ x.1.units.keys :=
      ((order.perm _).map Prod.fst).mem_iff
    refine ⟨fun i => ?_, ?_, fun e h => ?_⟩
    · refine ((ordered i).commit now).part.trans ?_
      simp only [(agrees i).keys]
      split <;> rfl
    · rw [answer, Store.firstOfAll_eq_ok_iff]
      simp only [keys]
      rfl
    · rw [answer] at h
      obtain ⟨i, hi, fails⟩ := Store.exists_of_firstOfAll h
      exact ⟨i, (keys i).mp hi, fails⟩

end Coordinator
end DataTier.Cache
