import DataTier.Cache.Shape
import DataTier.Proofs.Cache.Agreement
import Mathlib.Data.List.Dedup

/-! The history of a chain, the latest turn first: each operation with its answer and with the
keys that the chain has given up on its own. What a key should stand for, how long it has been
idle and whether a late hit protects it is read off the history alone; when the operations are
begun is not part of it. -/

namespace DataTier.Cache

open Soft (Operation)
open Time (Instant)

/-! ## Turns -/

structure Turn where
  operation : Operation
  answer : Answer Reply
  /-- The keys that the memory has dropped to make room. -/
  evicted : List Key
  /-- The keys that the soft layer has given up. -/
  reclaimed : List Key

namespace Turn

variable {t : Turn} {k : Key} {e : Entry}

/-- The key of a write. -/
def key? (t : Turn) : Option Key :=
  match t.operation with
  | .call (.put k _) => some k
  | _ => none

/-- What is written for the key, if anything is. -/
def written? (t : Turn) (k : Key) : Option Entry :=
  match t.operation with
  | .call (.put j e) => if j = k then some e else none
  | _ => none

/-- The key of a read that found something. -/
def hit? (t : Turn) : Option Key :=
  match t.operation, t.answer with
  | .call (.get k), .ok (.entry (some _)) => some k
  | _, _ => none

def uses (t : Turn) (k : Key) : Bool := t.hit? = some k || t.key? = some k

/-- Whether the key is not held any more. Gates keep a removal from what is below them. -/
def loses (gated : Bool) (t : Turn) (k : Key) : Bool :=
  (match t.operation with
    | .call .clear => true
    | .call (.remove j) => !gated && j = k
    | _ => false) || k ∈ t.evicted || k ∈ t.reclaimed

theorem key?_of_written (h : t.written? k = some e) : t.key? = some k := by
  unfold written? at h
  unfold key?
  split at h
  · rename_i j f put
    split at h
    · rename_i same
      rw [same]
    · cases h
  · cases h

end Turn

/-! ## What a history says -/

namespace History

variable {gated : Bool} {n : Nat} {h : List Turn} {t : Turn} {j k : Key} {e : Entry}

/-- The entry that was written last, if the key has not been lost since. -/
def latest? (gated : Bool) : List Turn → Key → Option Entry
  | [], _ => none
  | t :: h, k => if t.loses gated k then none else (t.written? k).or (latest? gated h k)

/-- How many turns ago the key was written or hit. -/
def idle (h : List Turn) (k : Key) : Nat := h.findIdx (·.uses k)

/-- The keys that have an entry. -/
def kept (gated : Bool) (h : List Turn) : List Key :=
  (h.filterMap Turn.key?).dedup.filter fun k => (latest? gated h k).isSome

def weight (gated : Bool) (h : List Turn) : Nat :=
  ((kept gated h).map fun k => (latest? gated h k).elim 0 Entry.weight).sum

/-- All other keys that are kept have been used later. -/
def LeastRecent (gated : Bool) (h : List Turn) (k : Key) : Prop :=
  k ∈ kept gated h ∧ ∀ j ∈ kept gated h, j ≠ k → idle h j < idle h k

/-- One of the last `n` hits was for the key, which has not been lost since. -/
def Protected (gated : Bool) (n : Nat) (h : List Turn) (k : Key) : Prop :=
  ∃ later t earlier, h = later ++ t :: earlier ∧ t.hit? = some k ∧
    (later.filterMap Turn.hit?).length < n ∧ ∀ u ∈ later, u.loses gated k = false

theorem latest?_of_loses (lost : t.loses gated k = true) : latest? gated (t :: h) k = none :=
  if_pos lost

theorem latest?_of_keeps (keeps : t.loses gated k = false) :
    latest? gated (t :: h) k = (t.written? k).or (latest? gated h k) := by
  rw [latest?, keeps, if_neg Bool.false_ne_true]

theorem mem_kept : k ∈ kept gated h ↔ ∃ e, latest? gated h k = some e := by
  rw [kept, List.mem_filter, List.mem_dedup, Option.isSome_iff_exists, and_iff_right_iff_imp]
  rintro ⟨e, held⟩
  induction h with
  | nil => cases held
  | cons t h ih =>
    rw [latest?] at held
    split at held
    · cases held
    · rw [Option.or_eq_some_iff] at held
      rcases held with written | ⟨_, held⟩
      · exact List.mem_filterMap.mpr ⟨t, List.mem_cons_self, Turn.key?_of_written written⟩
      · obtain ⟨u, hu, key⟩ := List.mem_filterMap.mp (ih held)
        exact List.mem_filterMap.mpr ⟨u, List.mem_cons_of_mem t hu, key⟩

theorem nodup_kept (gated : Bool) (h : List Turn) : (kept gated h).Nodup :=
  (List.nodup_dedup _).filter _

theorem idle_of_uses (used : t.uses k = true) : idle (t :: h) k = 0 := by
  simp [idle, List.findIdx_cons, used]

theorem idle_of_not_uses (unused : t.uses k = false) : idle (t :: h) k = idle h k + 1 := by
  simp [idle, List.findIdx_cons, unused]

end History

/-! ## Chains -/

/-- What an operation has come to in a chain, by what the memory held and what was waiting to be
removed from it before and after. -/
def Turn.of (o : Operation) (a : Answer Reply) (m m' : Memory) (queue queue' : List Key) :
    Turn where
  operation := o
  answer := a
  evicted :=
    match o with
    | .call (.put _ _) => m.slots.keys.filter fun k => k ∉ queue && !m'.holds k
    | _ => []
  reclaimed :=
    match o with
    | .call (.put _ _) => queue'
    | .reclaimUnretained => queue'.filter (· ∉ queue)
    | .call _ => []

namespace Shape

/-- The memory at the bottom. -/
def leaf : (s : Shape) → s.State → Memory
  | memory _ _, (m : Memory) => m
  | probe b, (st : Probe b.State) => b.leaf st.below
  | soft _ b, (st : Soft b.State) => b.leaf st.below
  | blocking _ b, (st : Blocking b.State) => b.leaf st.below

/-- The keys that the uppermost soft layer has given up and not removed yet. -/
def queue : (s : Shape) → s.State → List Key
  | memory _ _, _ => []
  | probe b, (st : Probe b.State) => b.queue st.below
  | soft .., (st : Soft _) => st.books.reclaimed
  | blocking _ b, (st : Blocking b.State) => b.queue st.below

/-- Whether a read of the key has to wait at the top of the chain. -/
def isLocked : (s : Shape) → s.State → Key → Bool
  | blocking .., (st : Blocking _), k => st.gates.isLocked k
  | _, _, _ => false

/-- Reclaims what the uppermost soft layer does not retain. -/
def reclaimUnretained : (s : Shape) → s.State → Nat × s.State
  | memory _ _, m => (0, m)
  | probe b, (st : Probe b.State) =>
    let (n, below) := b.reclaimUnretained st.below
    (n, ({ st with below } : Probe b.State))
  | soft .., (st : Soft _) => Soft.reclaimUnretained st
  | blocking _ b, (st : Blocking b.State) =>
    let (n, below) := b.reclaimUnretained st.below
    (n, ({ st with below } : Blocking b.State))

def perform (s : Shape) (now : Instant) (st : s.State) : Operation → Answer Reply × s.State
  | .call c => (s.store now).perform c st
  | .reclaimUnretained => ((s.reclaimUnretained st).map (fun n => .ok (.count n)) id)

def turn (s : Shape) (now : Instant) (st : s.State) (o : Operation) : Turn × s.State :=
  let (a, st') := s.perform now st o
  (.of o a (s.leaf st) (s.leaf st') (s.queue st) (s.queue st'), st')

/-- The history of a new chain, and the state after it. Each operation is begun at a reading of
the clock. -/
def live (s : Shape) (os : List (Instant × Operation)) : List Turn × s.State :=
  os.foldl (fun (h, st) (now, o) => let (t, st') := s.turn now st o; (t :: h, st')) ([], s.initial)

end Shape
end DataTier.Cache
