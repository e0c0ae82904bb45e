import DataTier.Proofs.Cache.Looking
import DataTier.Proofs.Cache.Product
import DataTier.Proofs.Cache.Unlocking

/-! A unit of work that has a gated chain to itself. Its own misses close all the gates there are
(`Owns`), and a gate does not know who has closed it. So the unit of work waits for nobody but
itself, and that just when it reads a key again that it has missed (`get_waits_iff`). Each read
has a reading of the clock of its own, and a read whose wait the clock cannot show the end of then
comes to no gate: it has failed before. -/

namespace DataTier.Cache

open Time (Instant)

variable {ι σ : Type}

namespace Blocking

/-! ## Gates in the table -/

namespace Gates

variable {g : Gates} {k : Key}

/-- Every gate in the table is still to be opened, and is that of one key. -/
structure Sealed (g : Gates) : Prop where
  shut : ∀ k gate, g.table.get? k = some gate → g.isShut gate = true
  given : ∀ k gate, g.table.get? k = some gate → gate < g.next
  apart : ∀ j k gate, g.table.get? j = some gate → g.table.get? k = some gate → j = k

theorem isLocked_of_empty (empty : g.table = []) (k : Key) : g.isLocked k = false := by
  rw [isLocked, empty]
  rfl

theorem sealed_of_empty (empty : g.table = []) : g.Sealed := by
  have none (k : Key) (gate : Nat) : g.table.get? k ≠ some gate := by simp [empty]
  exact ⟨fun k gate look => absurd look (none k gate), fun k gate look => absurd look (none k gate),
    fun j _ gate look _ => absurd look (none j gate)⟩

theorem Sealed.close (h : g.Sealed) (k : Key) : (g.close k).Sealed := by
  have look_close {j : Key} {gate : Nat} (look : (g.close k).table.get? j = some gate) :
      (k = j ∧ gate = g.next) ∨ (k ≠ j ∧ g.table.get? j = some gate) := by
    rw [Gates.close, Table.get?_set] at look
    split at look
    · rename_i same
      exact .inl ⟨same, (Option.some.inj look).symm⟩
    · rename_i other
      exact .inr ⟨other, look⟩
  refine ⟨fun j gate look => ?_, fun j gate look => ?_, fun i j gate lookI lookJ => ?_⟩
  · rw [isShut_close, Bool.or_eq_true, decide_eq_true_eq]
    exact (look_close look).imp And.right fun old => h.shut j gate old.2
  · show gate < g.next + 1
    rcases look_close look with ⟨_, rfl⟩ | ⟨_, old⟩
    · exact Nat.lt_succ_self _
    · exact Nat.lt_succ_of_lt (h.given j gate old)
  · -- the number of the new gate has not been given to any other
    rcases look_close lookI with ⟨rfl, rfl⟩ | ⟨_, oldI⟩ <;>
      rcases look_close lookJ with ⟨rfl, new⟩ | ⟨_, oldJ⟩
    · rfl
    · exact absurd (h.given j _ oldJ) (Nat.lt_irrefl _)
    · exact absurd (h.given i _ (new ▸ oldI)) (Nat.lt_irrefl _)
    · exact h.apart i j gate oldI oldJ

theorem Sealed.unlock (h : g.Sealed) (k : Key) : (g.unlock k).Sealed := by
  have look_unlock {j : Key} {gate : Nat} (look : (g.unlock k).table.get? j = some gate) :
      k ≠ j ∧ g.table.get? j = some gate := by
    rw [table_unlock, Table.get?_erase] at look
    split at look
    · cases look
    · rename_i other
      exact ⟨other, look⟩
  have next : (g.unlock k).next = g.next := by
    unfold Gates.unlock
    split <;> rfl
  refine ⟨fun j gate look => ?_, fun j gate look => ?_, fun i j gate lookI lookJ => ?_⟩
  · obtain ⟨other, old⟩ := look_unlock look
    have shut := h.shut j gate old
    rw [isShut, decide_eq_true_eq] at shut ⊢
    exact mem_shut_unlock.mpr ⟨shut, fun own => other (h.apart k j gate own old)⟩
  · rw [next]
    exact h.given j gate (look_unlock look).2
  · exact h.apart i j gate (look_unlock lookI).2 (look_unlock lookJ).2

theorem Sealed.unlockAll (h : g.Sealed) (ks : List Key) : (g.unlockAll ks).Sealed :=
  List.foldlRecOn ks (motive := Sealed) _ h fun _ kept k _ => kept.unlock k

theorem timeout_unlockAll (ks : List Key) (g : Gates) :
    (g.unlockAll ks).timeout = g.timeout := by
  refine List.foldlRecOn ks (motive := fun g' : Gates => g'.timeout = g.timeout) _ rfl ?_
  intro g' same k _
  refine Eq.trans ?_ same
  unfold unlock
  split <;> rfl

/-- A gate that has just been closed is taken out and opened again. -/
theorem unlock_close (k : Key) (g : Gates) :
    (g.close k).unlock k = ((g.close k).takeOut k).release g.next := by
  rw [unlock, show (g.close k).table.get? k = some g.next from Table.get?_set_self ..]

end Gates

/-! ## Reads -/

variable {d : Store σ} {s : Blocking σ} {now : Instant} {k : Key} {gate : Nat}

theorem sealed_get (h : s.gates.Sealed) (d : Store σ) (now : Instant) (k : Key) :
    (get d now k s).2.gates.Sealed := by
  rcases get_cases d now k s with ⟨e, fails⟩ | ⟨free, timed⟩
  · rw [fails]
    exact h
  · rw [get_gates free timed]
    split
    · exact h.close k
    · rw [← Gates.unlock_close]
      exact (h.close k).unlock k

/-- What comes of a wait that nobody ends. -/
def inVain (timeout : Option Time.Duration) (k : Key) (id : String) : Error :=
  timeout.elim (.stalled k id) (.lockTimeout k id)

theorem get_of_shut (d : Store σ) (look : s.gates.table.get? k = some gate)
    (shut : s.gates.isShut gate = true) (timed : s.gates.isTimed now = true) :
    (get d now k s).1 = .error (inVain s.gates.timeout k d.id) := by
  cases wait : s.gates.timeout with
  | none =>
    simp [get, wait, Visit.read, alone, Visit.settle, Visit.steps, Visit.step, Visit.answer?,
      Visit.hasExpired, look, shut, inVain]
  | some t =>
    rw [Gates.isTimed, wait, Option.all_some, Option.isSome_iff_exists] at timed
    obtain ⟨deadline, ends⟩ := timed
    simp [get, wait, Visit.read, ends, alone, Visit.settle, Visit.steps, Visit.step,
      Visit.answer?, Visit.hasExpired, Visit.expire, Time.Instant.reached, look, shut, inVain]

end Blocking

/-! ## A unit of work by itself -/

namespace UnitOfWork

open Blocking (store inVain)

variable {d : Clocked σ} {now : Instant} {start : Blocking σ} {c c' : Course (Blocking σ)}
  {ks : List Key}

/-- Others do something. -/
def Request.meddles : Request σ → Bool
  | .below _ => true
  | _ => false

/-- No key is locked but those that the unit of work has missed, and their gates are shut. -/
structure Owns (start : Blocking σ) (c : Course (Blocking σ)) : Prop where
  keyed : Keyed start c
  gates : c.below.gates.Sealed
  timeout : c.below.gates.timeout = start.gates.timeout

theorem Owns.isTimed (h : Owns start c) (now : Instant) :
    c.below.gates.isTimed now = start.gates.isTimed now := by
  rw [Blocking.Gates.isTimed, h.timeout]
  rfl

theorem owns_of_empty (empty : start.gates.table = []) : Owns start { below := start } where
  keyed := ⟨fun _ => (or_iff_left List.not_mem_nil).symm,
    fun _ none => absurd none List.not_mem_nil⟩
  gates := Blocking.Gates.sealed_of_empty empty
  timeout := rfl

theorem Owns.get (h : Owns start c) (k : Key) :
    Owns start (c.request (store d now) (.get k)) where
  keyed := h.keyed.get k
  gates := Blocking.sealed_get h.gates (d now) now k
  timeout := (Blocking.alone_timeout ..).trans h.timeout

/-- Where all its gates are opened, a unit of work is over. -/
theorem Owns.ended (h : Owns start c) (empty : start.gates.table = []) (fresh : c'.unit = {})
    (gates : c'.below.gates = c.below.gates.unlockAll ks) (all : ∀ k ∈ c.unit.missed, k ∈ ks) :
    Owns start c' where
  keyed := by
    have free := Blocking.Gates.isLocked_of_empty empty
    refine ⟨fun k => ?_, fun k _ => free k⟩
    rw [gates, fresh, Blocking.Gates.isLocked_unlockAll, h.keyed.locked k, free k]
    refine iff_of_false ?_ ?_
    · rintro ⟨before | missed, other⟩
      · cases before
      · exact other (all k missed)
    · rintro (before | missed)
      · cases before
      · cases missed
  gates := gates ▸ h.gates.unlockAll ks
  timeout := by
    rw [gates, Blocking.Gates.timeout_unlockAll]
    exact h.timeout

theorem Owns.request (h : Owns start c) (empty : start.gates.table = [])
    {r : Request (Blocking σ)} (own : r.meddles = false) :
    Owns start (c.request (store d now) r) := by
  cases r with
  | get k => exact h.get k
  | put | remove | clear => exact ⟨⟨h.keyed.locked, h.keyed.free⟩, h.gates, h.timeout⟩
  | commit =>
    refine h.ended empty rfl (Blocking.commit_gates d now c.unit c.below) ?_
    intro k missed
    exact mem_pending_unwritten.mpr (.inl missed)
  | rollback =>
    exact h.ended empty rfl (Blocking.rollback_gates d now c.unit c.below) fun _ => id
  | below => cases own

theorem Owns.run (h : Owns start c) (empty : start.gates.table = [])
    {rs : List (Instant × Request (Blocking σ))} (own : ∀ r ∈ rs, r.2.meddles = false) :
    Owns start (c.run (store d) rs) := by
  induction rs generalizing c with
  | nil => exact h
  | cons r rs ih =>
    have first : Owns start (c.request (store d r.1) r.2) :=
      h.request empty (own r List.mem_cons_self)
    exact ih first fun r hr => own r (List.mem_cons_of_mem _ hr)

/-- A key is locked just if the unit of work has missed it, and then its gate is shut. -/
theorem Owns.look (h : Owns start c) (empty : start.gates.table = []) (k : Key) :
    (k ∈ c.unit.missed ∧ ∃ gate, c.below.gates.table.get? k = some gate ∧
      c.below.gates.isShut gate = true) ∨
    (k ∉ c.unit.missed ∧ c.below.gates.isLocked k = false) := by
  have locked := h.keyed.locked k
  rw [Blocking.Gates.isLocked_of_empty empty] at locked
  cases look : c.below.gates.table.get? k with
  | none =>
    have free := Blocking.Gates.isLocked_eq_false_iff.mpr look
    refine .inr ⟨fun missed => ?_, free⟩
    exact Bool.eq_false_iff.mp free (locked.mpr (.inr missed))
  | some gate =>
    have taken := Blocking.Gates.isLocked_iff.mpr ⟨gate, look⟩
    refine .inl ⟨?_, gate, rfl, h.gates.shut k gate look⟩
    exact (locked.mp taken).resolve_left Bool.false_ne_true

theorem get_of_error {d : Store σ} {u : UnitOfWork} {s : σ} {k : Key} {e : Error}
    (fails : (d.get k s).1 = .error e) : (u.get d k s).1 = .error e := by
  simp [UnitOfWork.get, fails, learn]

end UnitOfWork

/-! ## Answers without a wait -/

/-- A wait has ended in this failure. -/
def Error.endsWait : Error → Bool
  | .lockTimeout .. | .stalled .. => true
  | _ => false

def Prompt {α : Type} (a : Answer α) : Prop := ∀ e, a = .error e → e.endsWait = false

theorem prompt_ok {α : Type} (a : α) : Prompt (.ok a) := fun _ fails => nomatch fails

theorem prompt_error {α : Type} {e : Error} (h : e.endsWait = false) :
    Prompt (.error e : Answer α) := by
  intro e' same
  cases same
  exact h

/-- Neither reads nor removals wait for anybody. -/
structure Store.Prompt (d : Store σ) : Prop where
  get : ∀ k s, Cache.Prompt (d.get k s).1
  remove : ∀ k s, Cache.Prompt (d.remove k s).1

theorem Probe.pass_prompt {α : Type} (c : CallKind) (k : Option Key) {f : σ → Answer α × σ}
    (hf : ∀ s, Prompt (f s).1) (p : Probe σ) : Prompt (pass c k f p).1 := by
  unfold pass
  dsimp only
  split
  · exact prompt_error rfl
  · exact hf p.below

namespace Soft

variable {d : Store σ}

theorem drain_prompt (h : d.Prompt) (ks : List Key) (s : Soft σ) : Prompt (drain d ks s).1 := by
  induction ks generalizing s with
  | nil => exact prompt_ok ()
  | cons k ks ih =>
    have removed := h.remove k s.below
    rw [drain]
    split <;> rename_i remove <;> rw [remove] at removed
    · exact prompt_error (removed _ rfl)
    · exact ih _

theorem afterDrain_prompt {α : Type} (h : d.Prompt) {f : Soft σ → Answer α × Soft σ}
    (hf : ∀ s, Prompt (f s).1) (s : Soft σ) : Prompt (afterDrain d f s).1 := by
  have drained := drain_prompt h s.books.reclaimed s
  unfold afterDrain
  split <;> rename_i drain <;> rw [drain] at drained
  · exact prompt_error (drained _ rfl)
  · exact hf _

end Soft

theorem UnitOfWork.prompt_learn {a : Answer (Option Entry)} (h : Prompt a) (u : UnitOfWork)
    (k : Key) : Prompt (u.learn k a).1 := by
  rcases a with e | _ | _
  · exact prompt_error (h e rfl)
  · exact prompt_ok _
  · exact prompt_ok _

/-! ## Chains -/

namespace Shape

open Blocking (Visit inVain)
open UnitOfWork (Course sinceEnd Told)

def isGateless : Shape → Bool
  | memory _ _ => true
  | probe below | soft _ below => below.isGateless
  | blocking .. => false

theorem prompt (now : Instant) : (s : Shape) → s.isGateless = true → (s.store now).Prompt
  | memory _ _, _ => ⟨fun _ _ => prompt_ok _, fun _ _ => prompt_ok _⟩
  | probe below, flat =>
    have h := prompt now below flat
    ⟨fun k => Probe.pass_prompt .get k (h.get k), fun k => Probe.pass_prompt .remove k (h.remove k)⟩
  | soft _ below, flat =>
    have h := prompt now below flat
    ⟨fun k => Soft.afterDrain_prompt h fun s => h.get k s.below,
      fun k => Soft.afterDrain_prompt h fun s => h.remove k s.below⟩

theorem drop_zero (s : Shape) : s.drop 0 = s := by cases s <;> rfl

theorem focus_zero (s : Shape) : s.focus 0 = some s.store := by cases s <;> rfl

/-- A chain has its name at all times. -/
theorem store_id : (s : Shape) → (now : Instant) → (s.store now).id = s.store.id
  | memory _ _, _ => rfl
  | probe below, now | soft _ below, now | blocking _ below, now => store_id below now

/-- Who comes to read the key now comes to a gate that is shut. -/
def waits (s : Shape) (now : Instant) (k : Key) (st : s.State) : Prop :=
  ∃ v st' gate, s.step now (s.visitor now k st) st = some (v, st') ∧
    v.phase = .waiting gate ∧ (s.gates? st').any (·.isShut gate) = true

variable {timeout : Option Time.Duration} {below : Shape} {now : Instant} {k : Key} {gate : Nat}

theorem waits_of_shut {st : Blocking below.State} (look : st.gates.table.get? k = some gate)
    (shut : st.gates.isShut gate = true) (timed : st.gates.isTimed now = true) :
    (blocking timeout below).waits now k st := by
  rcases Visit.read_cases below.store.id now k st.gates with ⟨_, deadline, enters⟩ | ⟨untimed, _⟩
  · refine ⟨{ key := k, phase := .waiting gate, timeout := st.gates.timeout, deadline }, st, gate,
      ?_, rfl, shut⟩
    show Visit.step (below.store now) now (.read below.store.id now k st.gates.timeout) st = _
    rw [enters]
    simp only [Visit.step, look]
    rfl
  · rw [timed] at untimed
    cases untimed

/-- Who comes to a gate has found the key locked, and the end of the wait in sight. -/
theorem locked_of_waits {st : Blocking below.State}
    (waits : (blocking timeout below).waits now k st) :
    st.gates.isLocked k = true ∧ st.gates.isTimed now = true := by
  obtain ⟨v, st', gate, moved, waiting, _⟩ := waits
  have moved : Visit.step (below.store now) now (.read below.store.id now k st.gates.timeout) st =
    some (v, st') := moved
  rcases Visit.read_cases below.store.id now k st.gates with
    ⟨timed, deadline, enters⟩ | ⟨_, t, _, fails⟩
  · rw [enters] at moved
    cases Visit.step_cases moved with
    | meets _ locked => exact ⟨Blocking.Gates.isLocked_iff.mpr ⟨_, locked⟩, timed⟩
    | enters => cases waiting
    | wakes phase | expires phase | reads phase | writes phase | takesOut phase | strays phase
    | opens phase => cases phase
  · rw [fails] at moved
    cases moved

/-- A unit of work has a chain to itself. -/
theorem course_waits (s : Shape) {st : s.State} {g : Blocking.Gates} (here : s.gates? st = some g)
    (empty : g.table = []) (flat : (s.drop 1).isGateless = true)
    {rs : List (Instant × UnitOfWork.Request s.State)} (own : ∀ r ∈ rs, r.2.meddles = false)
    (now : Instant) (k : Key) :
    let c := Course.run s.store { below := st } rs
    let missed : Prop := .read k (.ok none) ∈ sinceEnd c.events
    let answer := (c.unit.get (s.store now) k c.below).1
    (s.waits now k c.below ↔ missed ∧ g.isTimed now = true) ∧
    (missed → g.isTimed now = true → answer = .error (inVain g.timeout k s.store.id)) ∧
    (¬(missed ∧ g.isTimed now = true) → Prompt answer) ∧
    (¬missed → g.isTimed now = true →
      ∃ d, s.focus 1 = some d ∧ answer = (c.unit.get (d now) k c.below).1) ∧
    (g.isTimed now = false → ∃ t, g.timeout = some t ∧
      answer = .error (.deadline k s.store.id t)) := by
  cases s with
  | memory | probe | soft => cases here
  | blocking timeout below =>
    cases here
    rw [drop, drop_zero] at flat
    intro c missed answer
    have owns : UnitOfWork.Owns st c := (UnitOfWork.owns_of_empty empty).run empty own
    have told : Told c.unit c.events := Course.run_told (Told.fresh rfl) rs
    have fails (untimed : Blocking.Gates.isTimed st.gates now = false) :
        ∃ t, st.gates.timeout = some t ∧ answer = .error (.deadline k below.store.id t) := by
      obtain ⟨t, wait, fails⟩ :=
        Blocking.get_of_untimed (below.store now) k ((owns.isTimed now).trans untimed)
      rw [store_id] at fails
      exact ⟨t, owns.timeout.symm.trans wait, UnitOfWork.get_of_error (congrArg Prod.fst fails)⟩
    have prompt (untimed : Blocking.Gates.isTimed st.gates now = false) : Prompt answer := by
      obtain ⟨t, _, fails⟩ := fails untimed
      rw [fails]
      exact prompt_error rfl
    rcases owns.look empty k with ⟨own, gate, look, shut⟩ | ⟨none, free⟩
    · have before : missed := (told.missed k).mp own
      refine ⟨⟨fun waits => ⟨before, ?_⟩, fun ⟨_, timed⟩ => ?_⟩, fun _ timed => ?_, fun late => ?_,
        fun never => absurd before never, fails⟩
      · exact (owns.isTimed now).symm.trans (locked_of_waits waits).2
      · exact waits_of_shut look shut ((owns.isTimed now).trans timed)
      · have fails := Blocking.get_of_shut (below.store now) look shut
          ((owns.isTimed now).trans timed)
        rw [owns.timeout, store_id] at fails
        exact UnitOfWork.get_of_error fails
      · exact prompt (Bool.eq_false_iff.mpr fun timed => late ⟨before, timed⟩)
    · have never : ¬missed := fun before => none ((told.missed k).mpr before)
      have passes (timed : Blocking.Gates.isTimed st.gates now = true) :
          answer = (c.unit.learn k ((below.store now).get k c.below.below).1).1 := by
        rw [← (Blocking.get_of_open free ((owns.isTimed now).trans timed)).1]
        rfl
      have focus : (blocking timeout below).focus 1 = some
          (below.store.within Blocking.below fun p st => { p with below := st }) := by
        rw [Shape.focus, focus_zero]
        rfl
      refine ⟨iff_of_false (fun waits => ?_) fun before => never before.1,
        fun before => absurd before never, fun _ => ?_,
        fun _ timed => ⟨_, focus, passes timed⟩, fails⟩
      · exact Bool.eq_false_iff.mp free (locked_of_waits waits).1
      · cases timed : Blocking.Gates.isTimed st.gates now with
        | true =>
          rw [passes timed]
          exact UnitOfWork.prompt_learn ((below.prompt now flat).get k _) c.unit k
        | false => exact prompt timed

/-- Chains that share nothing. -/
def family [DecidableEq ι] (shapes : ι → Shape) : Family ι ((i : ι) → (shapes i).State) where
  State i := (shapes i).State
  store i := (shapes i).store
  part i w := w i
  replace i w s := Function.update w i s
  part_replace _ _ _ := Function.update_self ..
  part_replace_of_ne _ _ _ _ other := Function.update_of_ne other ..

end Shape

/-! ## Sessions -/

namespace Coordinator

open Shape (family)
open UnitOfWork (Course sinceEnd)
open Blocking (Gates inVain)

variable {η ω : Type} [DecidableEq ι] {f : Family ι ω} {handle : η → ι} {i : ι}

/-- Others change the store. -/
def Request.meddles (i : ι) : Request f η → Bool
  | .below j _ => j = i
  | _ => false

theorem project_own {rs : List (Instant × Request f η)}
    (own : ∀ r ∈ rs, r.2.meddles i = false) (touched : Bool) :
    ∀ r ∈ project handle i touched rs, r.2.meddles = false := by
  induction rs generalizing touched with
  | nil => exact fun _ none => absurd none List.not_mem_nil
  | cons r rs ih =>
    intro q reaches
    rw [project, List.mem_append, Option.mem_toList, Option.map_eq_some_iff] at reaches
    rcases reaches with ⟨p, first, rfl⟩ | later
    · have ownFirst := own r List.mem_cons_self
      obtain ⟨now, r⟩ := r
      cases r with
      | below j change =>
        have other : j ≠ i := of_decide_eq_false ownFirst
        simp [Request.on?, other] at first
      | touch => cases first
      | get | put | clear | commit | rollback =>
        simp only [Request.on?, Option.ite_none_right_eq_some, Option.some.injEq] at first
        obtain ⟨_, rfl⟩ := first
        rfl
    · exact ih (fun r hr => own r (List.mem_cons_of_mem _ hr)) _ q later

/-- A session has a chain to itself that has gates on top and none below, of which no gate is closed
at first. Whatever it has asked of this and of other chains, and whenever, and at whatever reading
of the clock it reads a key now: it has to wait at a gate of the chain just if it has missed the
key there since its last commit or rollback and the clock can show now when the wait would be over,
and then it waits until its time is up, or without end. No other read waits or fails like one that
has waited. It has the answer from below the gates, unless the clock cannot show when a wait that
began now would be over, for then the read fails. -/
theorem get_waits_iff (shapes : ι → Shape) (handle : η → ι) (w : (i : ι) → (shapes i).State)
    (rs : List (Instant × Request (family shapes) η)) (i : ι) (g : Gates)
    (gated : (shapes i).gates? (w i) = some g) (empty : g.table = [])
    (flat : ((shapes i).drop 1).isGateless = true) (own : ∀ r ∈ rs, r.2.meddles i = false)
    (now : Instant) (k : Key) :
    let f := family shapes
    let x := run f handle ({}, w) rs
    let c := Course.run (f.store i) { below := w i } (project handle i false rs)
    let missed : Prop := .read k (.ok none) ∈ sinceEnd c.events
    let answer := (x.1.get (f.on now) i k x.2).1
    x.1.unit i = c.unit ∧ x.2 i = c.below ∧
    ((shapes i).waits now k (x.2 i) ↔ missed ∧ g.isTimed now = true) ∧
    (missed → g.isTimed now = true →
      answer = .error (inVain g.timeout k (shapes i).store.id)) ∧
    (¬(missed ∧ g.isTimed now = true) → Prompt answer) ∧
    (¬missed → g.isTimed now = true →
      ∃ d, (shapes i).focus 1 = some d ∧ answer = ((x.1.unit i).get (d now) k (x.2 i)).1) ∧
    (g.isTimed now = false → ∃ t, g.timeout = some t ∧
      answer = .error (.deadline k (shapes i).store.id t)) := by
  intro f x c missed answer
  have agrees : Agrees f i (rs.any (·.2.touches handle i)) x c :=
    (Agrees.start f i w).run handle rs
  have below : x.2 i = c.below := agrees.part
  have same : answer = (c.unit.get (f.store i now) k c.below).1 := by
    rw [← agrees.unit, ← agrees.part]
    exact (f.get_on now i k _ _).1
  have alone : ∀ r ∈ project handle i false rs, r.2.meddles = false := project_own own false
  have waits := (shapes i).course_waits gated empty flat alone now k
  rw [same, below, agrees.unit]
  exact ⟨rfl, rfl, waits⟩

/-- A key that was missed before the rollback is read without a wait. One that was missed after it
is not, but for a reading of the clock at which the end of the wait cannot be shown any more. -/
theorem get_waits_since_rollback :
    let a : Key := ⟨"a"⟩
    let b : Key := ⟨"b"⟩
    let wait : Time.Duration := .ofSeconds 9223372036854774808
    let shapes : Bool → Shape
      | true => .blocking (some wait) (.memory "users" none)
      | false => .memory "rows" none
    let w : (i : Bool) → (shapes i).State := fun i => (shapes i).initial
    let g : Gates := Gates.setTimeout {} wait
    let rs : List (Instant × Request (family shapes) Bool) :=
      [(⟨1⟩, .get true a), (⟨2⟩, .get false a), (⟨3⟩, .below false id),
        (⟨4⟩, .rollback ⟨id, fun _ => .refl _⟩), (⟨5⟩, .get true b)]
    let x := run (family shapes) id ({}, w) rs
    let early : Instant := ⟨500 * 1000000000⟩
    let late : Instant := ⟨1500 * 1000000000⟩
    (shapes true).gates? (w true) = some g ∧ g.table = [] ∧
      ((shapes true).drop 1).isGateless = true ∧ (∀ r ∈ rs, r.2.meddles true = false) ∧
      g.isTimed early = true ∧ g.isTimed late = false ∧
      ¬(shapes true).waits early a (x.2 true) ∧
      Prompt (x.1.get ((family shapes).on early) true a x.2).1 ∧
      (shapes true).waits early b (x.2 true) ∧
      (x.1.get ((family shapes).on early) true b x.2).1 = .error (.lockTimeout b "users" wait) ∧
      ¬(shapes true).waits late b (x.2 true) ∧
      (x.1.get ((family shapes).on late) true b x.2).1 = .error (.deadline b "users" wait) := by
  have told :
      let s : Shape := .blocking (some (.ofSeconds 9223372036854774808)) (.memory "users" none)
      sinceEnd (Course.run s.store { below := s.initial }
        [(⟨1⟩, .get ⟨"a"⟩), (⟨4⟩, .rollback), (⟨5⟩, .get ⟨"b"⟩)]).events =
        [.read ⟨"b"⟩ (.ok none)] := by rfl
  intro a b wait shapes w g rs x early late
  have own : ∀ r ∈ rs, r.2.meddles true = false := by
    simp [rs, Request.meddles]
  have inTime : g.isTimed early = true := by decide
  have tooLate : g.isTimed late = false := by decide
  obtain ⟨-, -, waitsA, -, promptA, -⟩ :=
    get_waits_iff shapes id w rs true g rfl rfl rfl own early a
  obtain ⟨-, -, waitsB, failsB, -⟩ :=
    get_waits_iff shapes id w rs true g rfl rfl rfl own early b
  obtain ⟨-, -, waitsLate, -, -, -, failsLate⟩ :=
    get_waits_iff shapes id w rs true g rfl rfl rfl own late b
  have since : sinceEnd (Course.run ((family shapes).store true) { below := w true }
      (project id true false rs)).events = [.read b (.ok none)] := told
  have missedB : UnitOfWork.Event.read b (.ok none) ∈ [UnitOfWork.Event.read b (.ok none)] :=
    List.mem_singleton_self _
  have unmissedA : UnitOfWork.Event.read a (.ok none) ∉ [UnitOfWork.Event.read b (.ok none)] := by
    simp [a, b]
  rw [← since] at missedB unmissedA
  obtain ⟨t, ends, fails⟩ := failsLate tooLate
  cases ends
  exact ⟨rfl, rfl, rfl, own, inTime, tooLate, fun waits => unmissedA (waitsA.mp waits).1,
    promptA fun before => unmissedA before.1, waitsB.mpr ⟨missedB, inTime⟩,
    (failsB missedB inTime).trans rfl,
    fun waits => Bool.false_ne_true (tooLate.symm.trans (waitsLate.mp waits).2), fails⟩

/-- A session is kept at the gate that its own miss has closed. -/
theorem get_of_own_miss_fails :
    let a : Key := ⟨"a"⟩
    let wait : Time.Duration := .ofMilliseconds 20
    let settings : Settings := { id := "users", blockingTimeout := some wait, memoryBudget := none }
    let shapes : Unit → Shape := fun _ => settings.shape
    let w : (i : Unit) → (shapes i).State := fun i => (shapes i).initial
    let x := run (family shapes) id ({}, w) [(⟨1⟩, .get () a)]
    (shapes ()).gates? (w ()) = some (Gates.setTimeout {} wait) ∧
      (shapes ()).waits ⟨2⟩ a (x.2 ()) ∧
      (x.1.get ((family shapes).on ⟨2⟩) () a x.2).1 = .error (.lockTimeout a "users" wait) := by
  refine ⟨rfl, @Shape.waits_of_shut _ _ _ _ 0 _ ?look ?shut ?timed, ?fails⟩ <;> rfl

end Coordinator
end DataTier.Cache
