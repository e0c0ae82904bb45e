import DataTier.Proofs.Cache.History
import DataTier.Proofs.Cache.Memory
import DataTier.Proofs.Cache.Visit

/-! What is so of every entry that is written is so of every entry that a chain holds, and of
every entry that is read from it. Layers pass entries on and drop them; they make up none and
give none to another key. -/

namespace DataTier.Cache

variable {σ : Type} {P : Key → Entry → Prop} {H : σ → Prop}

/-- The answer to a read has no entry of which `P` is not so. -/
def Finds (P : Key → Entry → Prop) (k : Key) (a : Answer (Option Entry)) : Prop :=
  ∀ e, a = .ok (some e) → P k e

@[simp] theorem finds_error (k : Key) (e : Error) : Finds P k (.error e) := by simp [Finds]

@[simp] theorem finds_none (k : Key) : Finds P k (.ok none) := by simp [Finds]

/-- Where `P` is so of what is written, it is so of what is read, and `H` is kept. -/
structure Store.Keeps (d : Store σ) (P : Key → Entry → Prop) (H : σ → Prop) : Prop where
  size : ∀ s, H s → H (d.size s).2
  get : ∀ k s, H s → Finds P k (d.get k s).1 ∧ H (d.get k s).2
  put : ∀ k e s, P k e → H s → H (d.put k e s).2
  contains : ∀ k s, H s → H (d.contains k s).2
  remove : ∀ k s, H s → Finds P k (d.remove k s).1 ∧ H (d.remove k s).2
  clear : ∀ s, H s → H (d.clear s).2

/-! ## Layers -/

namespace Memory

def Holds (P : Key → Entry → Prop) (m : Memory) : Prop := ∀ k e, m.entry? k = some e → P k e

theorem keeps (P : Key → Entry → Prop) (id : String) (maxEntries : Option Nat) :
    (store id maxEntries).Keeps P (Holds P) where
  size m h := h
  get k m h := by
    refine ⟨fun e found => ?_, fun j e held => ?_⟩
    · refine h k e ?_
      rw [← get_fst]
      exact Except.ok.inj found
    · have same : entry? (m.get k).2 j = some e := held
      rw [entry?_get] at same
      exact h j e same
  put k e m written h := by
    intro j f held
    have now : entry? (m.put maxEntries k e) j = some f := held
    by_cases same : k = j
    · subst same
      rw [entry?_put_self, Option.some.injEq] at now
      exact now ▸ written
    · exact h j f (entry?_of_put now same)
  contains k m h := h
  remove k m h := by
    refine ⟨fun e found => h k e (Except.ok.inj found), fun j e held => ?_⟩
    have now : entry? (m.remove k).2 j = some e := held
    rw [entry?_remove] at now
    split at now
    · cases now
    · exact h j e now
  clear m h := fun k e held => nomatch held

end Memory

namespace Probe

variable {d : Store σ}

theorem pass_keeps {α : Type} {Q : Answer α → Prop} (c : CallKind) (k : Option Key)
    {f : σ → Answer α × σ} (hf : ∀ s, H s → Q (f s).1 ∧ H (f s).2) (hq : ∀ e, Q (.error e))
    {p : Probe σ} (h : H p.below) : Q (pass c k f p).1 ∧ H (pass c k f p).2.below := by
  unfold pass
  dsimp only
  split
  · exact ⟨hq _, h⟩
  · exact hf p.below h

theorem pass_kept {α : Type} (c : CallKind) (k : Option Key) {f : σ → Answer α × σ}
    (hf : ∀ s, H s → H (f s).2) {p : Probe σ} (h : H p.below) : H (pass c k f p).2.below :=
  (pass_keeps (Q := fun _ => True) c k (fun s hs => ⟨trivial, hf s hs⟩) (fun _ => trivial) h).2

theorem keeps (h : d.Keeps P H) : (store d).Keeps P fun p => H p.below where
  size _ := pass_kept .size none h.size
  get k _ := pass_keeps .get (some k) (h.get k) fun _ => finds_error _ _
  put k e _ written := pass_kept .put (some k) fun s => h.put k e s written
  contains k _ := pass_kept .get (some k) fun s hs => (h.get k s hs).2
  remove k _ := pass_keeps .remove (some k) (h.remove k) fun _ => finds_error _ _
  clear _ := pass_kept .clear none h.clear

end Probe

namespace Soft

variable {d : Store σ} {α : Type} {limits : Limits}

theorem drain_keeps (h : d.Keeps P H) (ks : List Key) {s : Soft σ} (hs : H s.below) :
    H (drain d ks s).2.below := by
  induction ks generalizing s with
  | nil => exact hs
  | cons k ks ih =>
    have removed := (h.remove k s.below hs).2
    rw [drain]
    split <;> rename_i below remove <;> rw [remove] at removed
    · exact removed
    · exact ih removed

theorem afterDrain_keeps (h : d.Keeps P H) {Q : Answer α → Prop}
    {f : Soft σ → Answer α × Soft σ} (hf : ∀ s, H s.below → Q (f s).1 ∧ H (f s).2.below)
    (hq : ∀ e, Q (.error e)) {s : Soft σ} (hs : H s.below) :
    Q (afterDrain d f s).1 ∧ H (afterDrain d f s).2.below := by
  have drained := drain_keeps h s.books.reclaimed hs
  unfold afterDrain
  split <;> rename_i drain <;> rw [drain] at drained
  · exact ⟨hq _, drained⟩
  · exact hf _ drained

theorem forgetEvicted_keeps (h : d.Keeps P H) (held : Nat) (ks : List Key) {s : Soft σ}
    (hs : H s.below) : H (forgetEvicted d held ks s).2.below := by
  induction ks generalizing s with
  | nil => exact hs
  | cons k ks ih =>
    have asked := h.contains k s.below hs
    rw [forgetEvicted]
    split
    · exact hs
    · split <;> rename_i contains <;> rw [contains] at asked
      · exact asked
      · exact ih asked
      · exact ih asked

theorem reconcile_keeps (h : d.Keeps P H) {s : Soft σ} (hs : H s.below) :
    H (reconcile d s).2.below := by
  have counted := h.size s.below hs
  unfold reconcile
  split <;> rename_i size <;> rw [size] at counted
  · exact counted
  · exact forgetEvicted_keeps h _ _ counted

theorem afterDrain_kept (h : d.Keeps P H) {f : Soft σ → Answer α × Soft σ}
    (hf : ∀ s, H s.below → H (f s).2.below) {s : Soft σ} (hs : H s.below) :
    H (afterDrain d f s).2.below :=
  (afterDrain_keeps (Q := fun _ => True) h (fun s hs => ⟨trivial, hf s hs⟩)
    (fun _ => trivial) hs).2

theorem keeps (limits : Limits) (h : d.Keeps P H) :
    (store limits d).Keeps P fun s => H s.below where
  size _ := afterDrain_kept h fun s => h.size s.below
  get k _ := by
    refine afterDrain_keeps h (fun s hs => ?_) fun _ => finds_error _ _
    obtain ⟨finds, kept⟩ := h.get k s.below hs
    refine ⟨finds, ?_⟩
    rw [below_noteRead]
    exact kept
  put k e _ written := by
    refine afterDrain_kept h fun s hs => ?_
    have kept := h.put k e s.below written hs
    split <;> rename_i put <;> rw [put] at kept
    · exact kept
    · have level := reconcile_keeps h (s := ⟨_, s.books.track k e.weight⟩) kept
      split <;> rename_i reconcile <;> rw [reconcile] at level
      · exact level
      · rw [below_enforce]
        exact level
  contains k _ := afterDrain_kept h fun s => h.contains k s.below
  remove k _ := afterDrain_keeps h (fun s => h.remove k s.below) fun _ => finds_error _ _
  clear s hs := afterDrain_kept h (fun s => h.clear s.below)
    (s := { s with books := { s.books with retained := [] } }) hs

end Soft

namespace Blocking

variable {d : Store σ} {now : Time.Instant} {v v' : Visit} {s s' : Blocking σ}

/-- What a visit is to write, or has found. -/
def Visit.Tells (P : Key → Entry → Prop) (v : Visit) : Prop :=
  match v.phase with
  | .writing e => P v.key e
  | .leaving a | .opening _ a | .finished a => Finds P v.key a
  | .entering | .waiting _ | .reading => True

theorem finds_written {α : Type} (k : Key) (a : Answer α) : Finds P k (a.map fun _ => none) := by
  cases a <;> simp [Except.map]

theorem Visit.Step.keeps (h : d.Keeps P H) (step : v.Step d now s v' s') (tells : v.Tells P)
    (hs : H s.below) : v'.Tells P ∧ H s'.below := by
  cases step with
  | enters | meets | wakes => exact ⟨trivial, hs⟩
  | expires => exact ⟨finds_error _ _, hs⟩
  | reads phase =>
    obtain ⟨finds, kept⟩ := h.get v.key s.below hs
    refine ⟨?_, kept⟩
    rcases answer : (d.get v.key s.below).1 with _ | _ | _ <;> rw [answer] at finds <;> exact finds
  | writes phase =>
    simp only [Visit.Tells, phase] at tells
    exact ⟨finds_written _ _, h.put _ _ _ tells hs⟩
  | takesOut phase | opens phase =>
    simp only [Visit.Tells, phase] at tells
    exact ⟨tells, hs⟩
  | strays => exact ⟨finds_error _ _, hs⟩

theorem Visit.Served.keeps {s s' : σ} (h : d.Keeps P H) (served : v.Served d s v' s')
    (tells : v.Tells P) (hs : H s) : v'.Tells P ∧ H s' := by
  cases served with
  | reads => exact h.get v.key s hs
  | writes phase =>
    simp only [Visit.Tells, phase] at tells
    exact ⟨finds_written _ _, h.put _ _ _ tells hs⟩
  | removes => exact h.remove v.key s hs

theorem Visit.Tells.answer (tells : v.Tells P) {a : Answer (Option Entry)}
    (h : v.answer? = some a) : Finds P v.key a := by
  unfold Visit.answer? at h
  split at h
  · rename_i phase
    cases h
    simpa only [Visit.Tells, phase] using tells
  · cases h

theorem alone_keeps (h : d.Keeps P H) (now : Time.Instant) (tells : v.Tells P)
    (hs : H s.below) : Finds P v.key (alone d now v s).1 ∧ H (alone d now v s).2.below := by
  obtain ⟨key, told, kept⟩ := Visit.steps_invariant (v.deadline.getD now) (d := d)
    (I := fun u s => u.key = v.key ∧ u.Tells P ∧ H s.below)
    (fun step ⟨same, tells, hs⟩ => ⟨step.key.trans same, step.keeps h tells hs⟩) 8
    ⟨rfl, tells, hs⟩
  rw [alone, Visit.settle]
  refine ⟨?_, kept⟩
  dsimp only
  cases answer : (v.steps d (v.deadline.getD now) 8 s).1.answer? with
  | none => exact finds_error _ _
  | some a => exact key ▸ told.answer answer

theorem Visit.read_tells (id : String) (now : Time.Instant) (k : Key)
    (timeout : Option Time.Duration) : (Visit.read id now k timeout).Tells P ∧
      (Visit.read id now k timeout).key = k := by
  unfold Visit.read
  split
  · exact ⟨trivial, rfl⟩
  · split
    · exact ⟨finds_error _ _, rfl⟩
    · exact ⟨trivial, rfl⟩

theorem keeps {d : Clocked σ} (h : ∀ now, (d now).Keeps P H) (now : Time.Instant) :
    (store d now).Keeps P fun s => H s.below where
  size s hs := (h now).size s.below hs
  get k s hs := by
    obtain ⟨tells, key⟩ := Visit.read_tells (P := P) (d now).id now k s.gates.timeout
    have found := alone_keeps (h now) now tells hs
    rw [key] at found
    exact found
  put k e s written hs := (alone_keeps (h now) now (v := .write k e) written hs).2
  contains k s hs := (h now).contains k s.below hs
  remove k s hs := alone_keeps (h now) now (v := .giveUp k) (finds_none k) hs
  clear s hs := (h now).clear s.below hs

end Blocking

/-! ## Chains -/

namespace Shape

open Blocking (Visit)

/-- Whatever layers a chain has: what is so of all entries that are written is so of all that are
read, and of all that are held. -/
theorem keeps (P : Key → Entry → Prop) :
    (s : Shape) → (now : Time.Instant) → (s.store now).Keeps P fun st => (s.leaf st).Holds P
  | memory id maxEntries => fun _ => Memory.keeps P id maxEntries
  | probe below => fun now => Probe.keeps (keeps P below now)
  | soft limits below => fun now => Soft.keeps limits (keeps P below now)
  | blocking _ below => Blocking.keeps (keeps P below)

theorem step_keeps {s : Shape} {now : Time.Instant} {v v' : Visit} {st st' : s.State}
    (step : s.step now v st = some (v', st')) (tells : v.Tells P) (holds : (s.leaf st).Holds P) :
    v'.Tells P ∧ (s.leaf st').Holds P := by
  cases s with
  | blocking _ below => exact (Visit.step_cases step).keeps (keeps P below now) tells holds
  | memory | probe | soft =>
    have kept := (served_of_step rfl step).keeps (keeps P _ now) tells holds
    exact kept

theorem visitor_tells (s : Shape) (now : Time.Instant) (k : Key) (st : s.State) :
    (s.visitor now k st).Tells P ∧ (s.visitor now k st).key = k := by
  cases s <;> simp only [visitor] <;> exact Visit.read_tells _ now k _

theorem initial_holds : (s : Shape) → (s.leaf s.initial).Holds P
  | memory _ _ => fun _ _ held => nomatch held
  | probe below | soft _ below | blocking _ below => initial_holds below

end Shape
end DataTier.Cache
