import DataTier.Proofs.Cache.Plans
import DataTier.Cache.Memory
import Mathlib.Data.List.TakeWhile

/-! Which keys a commit marks as known to be absent, told from what was asked of the unit of
work. What it has missed counts from its last commit or rollback; what it has written counts
from its last clearing, if that is later. So a key that was missed, written and cleared is
marked as absent. -/

namespace DataTier.Cache.UnitOfWork

open Time (Instant)

/-! ## The course of a unit of work -/

inductive Request (σ : Type) where
  | get (k : Key)
  | put (k : Key) (e : Entry)
  | remove (k : Key)
  | clear
  | commit
  | rollback
  /-- Others change the store below. -/
  | below (f : σ → σ)

inductive Event where
  /-- The store below has given an answer to a read. -/
  | read (k : Key) (a : Answer (Option Entry))
  | wrote (k : Key) (e : Entry)
  | cleared
  | ended

structure Course (σ : Type) where
  unit : UnitOfWork := {}
  below : σ
  /-- The latest first. -/
  events : List Event := []

namespace Event

def ends : Event → Bool
  | ended => true
  | _ => false

def clears : Event → Bool
  | cleared => true
  | _ => false

def write? (k : Key) : Event → Option Entry
  | wrote l e => if l = k then some e else none
  | _ => none

end Event

def sinceEnd (es : List Event) : List Event := es.takeWhile fun e => !e.ends

/-- Since the last clearing or ending. -/
def sinceClear (es : List Event) : List Event := (sinceEnd es).takeWhile fun e => !e.clears

def lastWrite? (k : Key) (es : List Event) : Option Entry := es.findSome? (Event.write? k)

theorem lastWrite?_eq_none_iff {k : Key} {es : List Event} :
    lastWrite? k es = none ↔ ∀ e, .wrote k e ∉ es := by
  rw [lastWrite?, List.findSome?_eq_none_iff]
  constructor
  · intro h e hm
    simpa [Event.write?] using h _ hm
  · intro h x hm
    cases x with
    | wrote l e =>
      refine if_neg fun same => h e ?_
      rw [← same]
      exact hm
    | read | cleared | ended => rfl

theorem wrote_of_lastWrite? {k : Key} {e : Entry} {es : List Event}
    (h : lastWrite? k es = some e) : .wrote k e ∈ es := by
  obtain ⟨x, hm, hx⟩ := List.exists_of_findSome?_eq_some h
  cases x with
  | wrote l f =>
    rw [Event.write?] at hx
    split at hx
    · rename_i same
      cases hx
      exact same ▸ hm
    · cases hx
  | read | cleared | ended => cases hx

theorem sinceClear_eq {es : List Event} (h : .cleared ∉ sinceEnd es) :
    sinceClear es = sinceEnd es := by
  refine List.takeWhile_eq_self_iff.mpr fun x hx => ?_
  cases x with
  | cleared => exact absurd hx h
  | read | wrote | ended => rfl

/-- What the unit of work keeps is what has been asked of it. -/
structure Told (u : UnitOfWork) (es : List Event) : Prop where
  nodup : u.pending.keys.Nodup
  pending : ∀ k, u.pending.get? k = lastWrite? k (sinceClear es)
  missed : ∀ k, k ∈ u.missed ↔ .read k (.ok none) ∈ sinceEnd es

namespace Told

variable {u : UnitOfWork} {es : List Event}

theorem read (h : Told u es) (k : Key) (a : Answer (Option Entry)) :
    Told (u.learn k a).2 (.read k a :: es) where
  nodup := by
    rw [pending_learn]
    exact h.nodup
  pending l := by
    rw [pending_learn]
    exact h.pending l
  missed l := by
    have since : sinceEnd (.read k a :: es) = .read k a :: sinceEnd es := rfl
    rw [since, List.mem_cons, ← h.missed l]
    rcases a with _ | _ | _
    · simp [learn]
    · simp [learn, mem_missed_note]
    · simp [learn]

theorem put (h : Told u es) (k : Key) (e : Entry) : Told (u.put k e) (.wrote k e :: es) where
  nodup := Table.nodup_keys_set h.nodup _ _
  pending l := by
    have since : sinceClear (.wrote k e :: es) = .wrote k e :: sinceClear es := rfl
    rw [since, UnitOfWork.put, Table.get?_set, h.pending l]
    simp only [lastWrite?, List.findSome?_cons, Event.write?]
    split <;> rfl
  missed l := by
    have since : sinceEnd (.wrote k e :: es) = .wrote k e :: sinceEnd es := rfl
    rw [since, List.mem_cons, ← h.missed l]
    simp [UnitOfWork.put]

/-- A clearing leaves what was missed, and nothing else. -/
theorem clear (h : Told u es) : Told u.clear (.cleared :: es) where
  nodup := List.nodup_nil
  pending _ := rfl
  missed l := by
    have since : sinceEnd (.cleared :: es) = .cleared :: sinceEnd es := rfl
    rw [since, List.mem_cons, missed_clear, ← h.missed l]
    simp

theorem fresh (none_since : sinceEnd es = []) : Told {} es where
  nodup := List.nodup_nil
  pending _ := by
    rw [sinceClear, none_since]
    rfl
  missed _ := by
    rw [none_since]
    exact iff_of_false List.not_mem_nil List.not_mem_nil

end Told

/-! ## What a commit marks -/

namespace Course

variable {σ : Type} {c : Course σ}

def request (d : Store σ) (c : Course σ) : Request σ → Course σ
  | .get k =>
    let (_, unit, below) := c.unit.get d k c.below
    { unit, below, events := .read k (d.get k c.below).1 :: c.events }
  | .put k e => { c with unit := c.unit.put k e, events := .wrote k e :: c.events }
  | .remove k => { c with unit := (c.unit.remove k).2 }
  | .clear => { c with unit := c.unit.clear, events := .cleared :: c.events }
  | .commit =>
    let (_, unit, below) := c.unit.commit d c.below
    { unit, below, events := .ended :: c.events }
  | .rollback =>
    let (unit, below) := c.unit.rollback d c.below
    { unit, below, events := .ended :: c.events }
  | .below f => { c with below := f c.below }

/-- Each request comes at a reading of the clock. -/
def run (d : Clocked σ) (c : Course σ) (rs : List (Instant × Request σ)) : Course σ :=
  rs.foldl (fun c r => c.request (d r.1) r.2) c

theorem request_told {d : Store σ} (h : Told c.unit c.events) (r : Request σ) :
    Told (c.request d r).unit (c.request d r).events := by
  cases r with
  | get k => exact h.read k _
  | put k e => exact h.put k e
  | clear => exact h.clear
  | remove k | below f => exact h
  | commit | rollback => exact Told.fresh rfl

theorem run_told {d : Clocked σ} (h : Told c.unit c.events) (rs : List (Instant × Request σ)) :
    Told (c.run d rs).unit (c.run d rs).events := by
  induction rs generalizing c with
  | nil => exact h
  | cons r rs ih => exact ih (request_told h r.2)

/-- Every commit, after whatever has been asked of the unit of work, marks a key as known to be
absent just if it was last written as absent, or missed and not written. Where the unit of work
has not written the marker itself it has missed the key, and has found no row for it since its
last clearing; if it was not cleared, not at all. -/
theorem commit_marks (d : Clocked σ) (below : σ) (rs : List (Instant × Request σ)) (now : Instant)
    (k : Key) :
    let c := run d { below } rs
    let marked := .put k .knownAbsent ∈ c.unit.commitCalls (d now) c.below
    (marked ↔ lastWrite? k (sinceClear c.events) = some .knownAbsent ∨
      .read k (.ok none) ∈ sinceEnd c.events ∧ lastWrite? k (sinceClear c.events) = none) ∧
    (marked → .wrote k .knownAbsent ∉ sinceEnd c.events →
      .read k (.ok none) ∈ sinceEnd c.events ∧
      (∀ v, .wrote k (.found v) ∉ sinceClear c.events) ∧
      (.cleared ∉ sinceEnd c.events → ∀ v, .wrote k (.found v) ∉ sinceEnd c.events)) := by
  intro c marked
  have told : Told c.unit c.events := run_told (Told.fresh rfl) rs
  have iff : marked ↔ lastWrite? k (sinceClear c.events) = some .knownAbsent ∨
      .read k (.ok none) ∈ sinceEnd c.events ∧ lastWrite? k (sinceClear c.events) = none := by
    have plan : .put k .knownAbsent ∈ c.unit.commitPlan ↔ _ := put_mem_commitPlan_iff told.nodup
    rw [told.pending k, told.missed k, and_iff_right rfl,
      ← commitCalls_eq (d now) c.unit c.below] at plan
    exact plan
  refine ⟨iff, fun marks own => ?_⟩
  -- a marker that the unit of work has not written itself can only stand for a miss
  rcases iff.mp marks with written | ⟨missed, unwritten⟩
  · exact absurd ((List.takeWhile_sublist _).mem (wrote_of_lastWrite? written)) own
  · have never := lastWrite?_eq_none_iff.mp unwritten
    refine ⟨missed, fun v => never (.found v), fun uncleared v => ?_⟩
    rw [← sinceClear_eq uncleared]
    exact never (.found v)

/-- The row was missed, found and written; a clearing makes the commit mark it as absent. -/
theorem cleared_row_marked :
    let k : Key := ⟨"k"⟩
    let d := Memory.store "users" none
    let rs : List (Request Memory) := [.get k, .put k (.found (.number (.whole 1))), .clear]
    ∀ now, let c := run (fun _ => d) { below := {} } (rs.map (now, ·))
      c.events = [.cleared, .wrote k (.found (.number (.whole 1))), .read k (.ok none)] ∧
        c.unit.commitCalls d c.below = [.clear, .put k .knownAbsent] ∧
        Memory.entry? (c.request d .commit).below k = some .knownAbsent :=
  fun _ => ⟨rfl, rfl, rfl⟩

end Course

end DataTier.Cache.UnitOfWork
