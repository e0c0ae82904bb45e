import DataTier.Proofs.Cache.Sessions
import DataTier.Proofs.Cache.Unlocking
import Mathlib.Data.List.Induction

/-! What the others see of a rollback. It gives up the keys that its unit of work has missed.
With gates on top of the chain that opens gates and nothing more. Without gates the keys are
taken from the chain, and an entry that another unit of work has written since the miss is
lost. -/

namespace DataTier.Cache

open History

/-! ## What a read comes to -/

/-- With all gates open. -/
def Blocking.bare {σ : Type} (s : Blocking σ) : Blocking σ :=
  { s with gates := { s.gates with table := [], shut := [] } }

namespace Shape

/-- With all gates on top of the chain open. -/
def unlocked : (s : Shape) → s.State → s.State
  | blocking _ b, st => Blocking.bare (σ := b.State) st
  | _, st => st

/-- What a new unit of work would read for a key now, closed gates aside. -/
def sight (s : Shape) (now : Time.Instant) (st : s.State) (k : Key) : Answer (Option Entry) :=
  (UnitOfWork.get (s.store now) k {} (s.unlocked st)).1

end Shape

namespace Soft

variable {gated : Bool} {limits : Limits} {maxEntries : Option Nat} {s s' : Soft Memory}
  {j k : Key} {e : Entry}

def shown (s : Soft Memory) (k : Key) : Option Entry := s.drained.below.entry? k

theorem shown_eq (s : Soft Memory) (k : Key) :
    s.shown k = if k ∈ s.books.reclaimed then none else s.below.entry? k := by
  rw [shown, Memory.entry?, get?_drained]
  split <;> rfl

theorem held_of_shown (h : s.shown k = some e) : s.below.entry? k = some e := by
  rw [shown_eq] at h
  split at h
  · cases h
  · exact h

theorem shown_of_level {m : Memory} {b : Books} (drained : b.reclaimed = []) (k : Key) :
    shown ⟨m, b⟩ k = m.entry? k := by
  rw [shown_eq, drained, if_neg List.not_mem_nil]

/-- Nothing but a write brings a key an entry. -/
theorem Acts.shown {o : Operation} {a : Answer Reply} (acts : Acts gated limits maxEntries s o a s')
    (h : s'.shown k = some e) : s.shown k = some e ∨ o = .call (.put k e) := by
  have held := held_of_shown h
  cases acts with
  | counts | looks => exact .inl held
  | reads j =>
    rw [below_noteRead, Memory.entry?_get] at held
    exact .inl held
  | fails | passes => exact .inl h
  | writes j f a forgets level =>
    rw [below_enforce] at held
    by_cases same : j = k
    · subst same
      rw [Memory.entry?_put_self, Option.some.injEq] at held
      exact .inr (by rw [held])
    · exact .inl (Memory.entry?_of_put held same)
  | removes j =>
    rw [Memory.entry?_remove] at held
    split at held
    · cases held
    · exact .inl held
  | clears => cases held
  | reclaims =>
    have queue : s.reclaimUnretained.2.books.reclaimed =
        s.books.reclaimed ++ s.books.unretained := Books.reclaimed_reclaimAll ..
    rw [shown_eq, queue] at h
    split at h
    · cases h
    · rename_i waits
      have free : k ∉ s.books.reclaimed := fun hk => waits (List.mem_append_left _ hk)
      rw [shown_eq, if_neg free]
      exact .inl h

section

variable (limits : Limits) (id : String) (maxEntries : Option Nat)

theorem sight_eq (now : Time.Instant) (s : Soft Memory) (k : Key) :
    (Shape.soft limits (.memory id maxEntries)).sight now s k = .ok (s.shown k) := by
  show (UnitOfWork.learn k (get limits (Memory.store id maxEntries) k s).1 {}).1 = _
  rw [get_eq, shown]
  cases s.drained.below.entry? k <;> rfl

theorem shown_perform (hs : s.Consistent) (c : Call)
    (h : (((store limits (Memory.store id maxEntries)).perform c s).2).shown k = some e) :
    s.shown k = some e ∨ c = .put k e :=
  ((perform_acts hs limits id maxEntries .start (.call c)).shown h).imp_right Operation.call.inj

theorem shown_remove (s : Soft Memory) (j k : Key) :
    (remove (Memory.store id maxEntries) j s).2.shown k = if j = k then none else s.shown k := by
  rw [remove, afterDrain_eq]
  show shown ⟨(s.drained.below.remove j).2, s.drained.books.untrack j⟩ k = _
  rw [shown_of_level rfl, Memory.entry?_remove]
  rfl

/-- The keys that are given up one after the other are all gone. -/
theorem shown_run_removes (ks : List Key) (s : Soft Memory) (k : Key) :
    (((store limits (Memory.store id maxEntries)).run (ks.map .remove) s).2).shown k =
      if k ∈ ks then none else s.shown k := by
  induction ks generalizing s with
  | nil => simp [Store.run]
  | cons j ks ih =>
    have rest := ih (remove (Memory.store id maxEntries) j s).2
    refine rest.trans ?_
    rw [shown_remove]
    by_cases same : j = k
    · simp [same]
    · simp [same, Ne.symm same]

end

end Soft

namespace Blocking

variable {σ : Type} {d : Store σ} {k : Key} {s s' : Blocking σ}

theorem bare_remove (d : Store σ) (now : Time.Instant) (k : Key) (s : Blocking σ) :
    (remove d now k s).2.bare = s.bare := by
  cases look : s.gates.table.get? k <;>
    simp [remove, alone, Visit.giveUp, Visit.settle, Visit.steps, Visit.step, bare, look,
      Gates.takeOut, Gates.release]

theorem bare_run_removes (d : Clocked σ) (now : Time.Instant) (ks : List Key) (s : Blocking σ) :
    ((store d now).run (ks.map .remove) s).2.bare = s.bare := by
  induction ks generalizing s with
  | nil => rfl
  | cons k ks ih => exact (ih (remove (d now) now k s).2).trans (bare_remove (d now) now k s)

namespace Visit

variable {v v' : Visit} {now : Time.Instant}

/-- Nothing is left to be done but to open the gate. -/
def isLeaving (v : Visit) : Bool :=
  match v.phase with
  | .leaving _ | .opening _ _ | .finished _ => true
  | _ => false

/-- The key that is about to get an entry. -/
def writes? (v : Visit) : Option Key :=
  match v.phase with
  | .writing _ => some v.key
  | _ => none

theorem Step.bare (step : v.Step d now s v' s') (leaving : v.isLeaving = true) :
    s'.bare = s.bare := by
  cases step with
  | takesOut | strays | opens => rfl
  | enters phase | meets phase | wakes phase | expires phase | reads phase | writes phase =>
    simp [isLeaving, phase] at leaving

/-- The key that is about to be given up. -/
def givesUp? (v : Visit) : Option Key :=
  match v.phase with
  | .leaving _ | .opening _ _ => some v.key
  | _ => none

theorem writes?_of_leaving (leaving : v.isLeaving = true) : v.writes? = none := by
  unfold isLeaving at leaving
  unfold writes?
  split at leaving <;> simp_all

end Visit
end Blocking

namespace Shape

open Blocking (Visit)

variable {s : Shape} {now : Time.Instant} {v v' : Visit} {st st' : s.State}

theorem leaving_of_step (h : s.step now v st = some (v', st')) (leaving : v.isLeaving = true) :
    v'.isLeaving = true := by
  cases s with
  | blocking =>
    cases Visit.step_cases h with
    | takesOut | strays | opens => rfl
    | enters phase | meets phase | wakes phase | expires phase | reads phase | writes phase =>
      simp [Visit.isLeaving, phase] at leaving
  | memory | probe | soft => cases served_of_step rfl h <;> rfl

theorem writes?_of_step (h : s.step now v st = some (v', st')) : v'.writes? = none := by
  cases s with
  | blocking b below =>
    cases Visit.step_cases h with
    | reads =>
      rcases ((below.store now).get v.key (Blocking.below st)).1 with _ | _ | _ <;> rfl
    | enters | meets | wakes | expires | writes | takesOut | strays | opens => rfl
  | memory | probe | soft => cases served_of_step rfl h <;> rfl

theorem writes?_visitor (s : Shape) (now : Time.Instant) (k : Key) (st : s.State) :
    (s.visitor now k st).writes? = none := by
  have reader (id : String) (timeout : Option Time.Duration) :
      (Visit.read id now k timeout).writes? = none := by
    unfold Visit.read
    split
    · rfl
    · split <;> rfl
  cases s <;> simp only [visitor, reader]

end Shape

/-! ## Sessions -/

namespace Task

/-- The key that is about to get an entry. -/
def writes? (t : Task) : Option Key := t.visit?.bind Blocking.Visit.writes?

/-- The key that a rollback is about to give up. -/
def givesUp? : Task → Option Key
  | .ending false call _ => call.bind Blocking.Visit.givesUp?
  | _ => none

theorem givesUp?_of_undoes {t : Task} (undoes : t.undoes = true) :
    t.givesUp? = t.visit?.bind Blocking.Visit.givesUp? := by
  unfold Task.undoes at undoes
  split at undoes
  · rfl
  · cases undoes

end Task

namespace Session

/-- A read writes nothing, and a rollback gives up keys only. What is to end is not part of a
unit of work any more. -/
def Sound (x : Session) : Prop :=
  match x.task with
  | .idle => True
  | .reading v => v.writes? = none
  | .ending commits call rest => x.unit = {} ∧
      (commits = false → (∀ v ∈ call, v.isLeaving = true) ∧ ∀ e ∈ rest, e.2 = none)

/-- The key was missed, and has been neither written down nor given up. -/
def Lacks (x : Session) (k : Key) : Prop :=
  match x.task with
  | .idle => k ∈ x.unit.missed
  | .reading v => k ∈ x.unit.missed ∨ v.key = k ∧ v.answer? = some (.ok none)
  | .ending true _ _ => False
  | .ending false call rest => call.bind Blocking.Visit.givesUp? = some k ∨ k ∈ rest.map Prod.fst

theorem Sound.not_writes {x : Session} {k : Key} (sound : x.Sound) (lacks : x.Lacks k) :
    x.task.writes? = none := by
  unfold Sound at sound
  unfold Lacks at lacks
  cases task : x.task with
  | idle => rfl
  | reading v =>
    rw [task] at sound
    exact sound
  | ending commits call rest =>
    rw [task] at sound lacks
    cases commits with
    | true => exact lacks.elim
    | false =>
      cases call with
      | none => rfl
      | some v => exact Blocking.Visit.writes?_of_leaving ((sound.2 rfl).1 v rfl)

theorem Sound.leaving {x : Session} (sound : x.Sound) (undoes : x.task.undoes = true)
    {v : Blocking.Visit} (visit : x.task.visit? = some v) : v.isLeaving = true := by
  unfold Sound at sound
  cases task : x.task with
  | idle | reading =>
    rw [task] at undoes
    cases undoes
  | ending commits call rest =>
    rw [task] at sound undoes visit
    cases commits with
    | true => cases undoes
    | false => exact (sound.2 rfl).1 v visit

end Session

namespace Sessions

open Blocking (Visit)

variable {ι : Type} [DecidableEq ι] {s : Shape} {w : Sessions ι s} {i j : ι} {x : Session}

@[simp] theorem session_assign : (w.assign i x).session i = x := Function.update_self ..

theorem session_assign_of_ne (h : j ≠ i) : (w.assign i x).session j = w.session j :=
  Function.update_of_ne h ..

theorem forall_assign {P : ι → Session → Prop} (rest : ∀ j, P j (w.session j)) (own : P i x)
    (j : ι) : P j ((w.assign i x).session j) := by
  by_cases same : j = i
  · subst same
    rw [session_assign]
    exact own
  · rw [session_assign_of_ne same]
    exact rest j

theorem sound_assign (rest : ∀ j, (w.session j).Sound) (own : x.Sound) (j : ι) :
    ((w.assign i x).session j).Sound := forall_assign (P := fun _ => Session.Sound) rest own j

theorem lacks_assign {k : Key} {p : Prop} (own : x.Lacks k → (w.session i).Lacks k ∨ p) (j : ι) :
    ((w.assign i x).session j).Lacks k → (w.session j).Lacks k ∨ p :=
  forall_assign (P := fun j x => x.Lacks k → (w.session j).Lacks k ∨ p) (fun _ => .inl) own j

/-- Whether the event belongs to a rollback. -/
def undoes (w : Sessions ι s) : Event ι → Bool
  | .rollback _ => true
  | .next i _ | .step i _ | .collect i => (w.session i).task.undoes
  | _ => false

/-- The key that a rollback gives up in the event. -/
def givesUp? (w : Sessions ι s) : Event ι → Option Key
  | .step i _ => (w.session i).task.givesUp?
  | _ => none

theorem sound_act (h : ∀ j, (w.session j).Sound) (e : Event ι) (j : ι) :
    ((w.act e).session j).Sound := by
  have moved := act_moves w e
  revert j
  generalize w.act e = w' at moved
  cases moved with
  | stays => exact h
  | reads => exact sound_assign h (s.writes?_visitor ..)
  | edits e idle =>
    refine sound_assign h ?_
    simp [Session.Sound, idle]
  | commits => exact sound_assign h ⟨rfl, by simp⟩
  | @rollsBack i =>
    refine sound_assign h ⟨rfl, fun _ => ⟨by simp, fun e he => ?_⟩⟩
    simp [UnitOfWork.rollbackPlan, Blocking.settlements, Blocking.settlement?] at he
    obtain ⟨k, _, rfl⟩ := he
    rfl
  | @begins i n commits rest k e task look =>
    have old := h i
    simp only [Session.Sound, task] at old
    refine sound_assign h ⟨old.1, fun undone => ⟨?_, ?_⟩⟩
    · have parted : e = none := (old.2 undone).2 (k, e) (List.mem_of_getElem? look)
      simp [parted, Blocking.Visit.giveUp, Blocking.Visit.isLeaving]
    · exact fun e he => (old.2 undone).2 e (List.mem_of_mem_eraseIdx he)
  | ends => exact sound_assign h trivial
  | @steps i now v v' chain visit step =>
    have old := h i
    refine sound_assign h ?_
    cases task : (w.session i).task with
    | idle =>
      rw [task] at visit
      cases visit
    | reading u => exact Shape.writes?_of_step step
    | ending commits call rest =>
      rw [task] at visit
      simp only [Session.Sound, task] at old
      refine ⟨old.1, fun undone => ⟨fun u hu => ?_, (old.2 undone).2⟩⟩
      cases hu
      exact Shape.leaving_of_step step ((old.2 undone).1 v visit)
  | learns => exact sound_assign h trivial
  | @settles i commits v rest task answered =>
    have old := h i
    simp only [Session.Sound, task] at old
    exact sound_assign h
      ⟨old.1, fun undone => ⟨by simp, (old.2 undone).2⟩⟩

theorem sound_run (es : List (Event ι)) (h : ∀ j, (w.session j).Sound) (j : ι) :
    ((w.run es).session j).Sound := by
  induction es generalizing w with
  | nil => exact h j
  | cons e es ih => exact ih (sound_act h e)

/-! ## A rollback, event by event -/

theorem chain_act_of_undoes {e : Event ι} (undoes : w.undoes e = true)
    (other : ∀ i now, e ≠ .step i now) : (w.act e).chain = w.chain := by
  have moved := act_moves w e
  generalize w.act e = w' at moved
  cases moved with
  | reads | commits => cases undoes
  | steps => exact absurd rfl (other _ _)
  | stays | edits | rollsBack | begins | ends | learns | settles => rfl

/-- With gates on top a rollback does nothing to what they do not hide. -/
theorem bare_act_of_undoes {timeout : Option Time.Duration} {below : Shape}
    {w : Sessions ι (.blocking timeout below)} (h : ∀ j, (w.session j).Sound) {e : Event ι}
    (undoes : w.undoes e = true) :
    Blocking.bare (σ := below.State) (w.act e).chain = Blocking.bare (σ := below.State) w.chain := by
  have moved := act_moves w e
  generalize w.act e = w' at moved
  cases moved with
  | reads | commits => cases undoes
  | @steps i now v v' chain visit step =>
    exact (Blocking.Visit.step_cases step).bare ((h i).leaving undoes visit)
  | stays | edits | rollsBack | begins | ends | learns | settles => rfl

/-- Without gates it takes from the chain the key that it gives up. -/
theorem shown_act_of_undoes {limits : Soft.Limits} {id : String} {maxEntries : Option Nat}
    {w : Sessions ι (.soft limits (.memory id maxEntries))} (h : ∀ j, (w.session j).Sound)
    {e : Event ι} (undoes : w.undoes e = true) (k : Key) :
    Soft.shown (w.act e).chain k = if w.givesUp? e = some k then none else Soft.shown w.chain k := by
  cases e with
  | get | put | clear | commit => cases undoes
  | rollback | next | collect =>
    rw [chain_act_of_undoes undoes fun _ _ => by simp]
    rfl
  | step i now =>
    have undoing : (w.session i).task.undoes = true := undoes
    have givenUp := Task.givesUp?_of_undoes undoing
    cases visit : (w.session i).task.visit? with
    | none => simp [act, givesUp?, givenUp, visit]
    | some v =>
      have leaving := (h i).leaving undoing visit
      have own : w.givesUp? (.step i now) = v.givesUp? := by simp [givesUp?, givenUp, visit]
      rw [own]
      rcases Shape.step_cases (s := .soft limits (.memory id maxEntries)) rfl now v w.chain with
        ⟨stuck, a, phase⟩ | ⟨v', chain, stepped, served⟩
      · have stays : w.act (.step i now) = w := by simp only [act, visit, stuck]
        simp [stays, Blocking.Visit.givesUp?, phase]
      · have next : (w.act (.step i now)).chain = chain := by
          simp only [act, visit, stepped]
          rfl
        rw [next]
        cases served with
        | reads phase =>
          rcases phase with phase | phase | ⟨gate, phase⟩ <;>
            simp [Blocking.Visit.isLeaving, phase] at leaving
        | writes phase => simp [Blocking.Visit.isLeaving, phase] at leaving
        | removes phase =>
          have key : v.givesUp? = some v.key := by
            rcases phase with ⟨a, phase⟩ | ⟨gate, a, phase⟩ <;>
              simp [Blocking.Visit.givesUp?, phase]
          simp only [key, Option.some.injEq]
          exact Soft.shown_remove ..

/-! ## What a rollback finds -/

section

variable {limits : Soft.Limits} {id : String} {maxEntries : Option Nat}
  {w : Sessions ι (.soft limits (.memory id maxEntries))} {k : Key} {e : Entry}

/-- An event comes to at most one operation of the chain. -/
theorem chain_act (w : Sessions ι (.soft limits (.memory id maxEntries))) (e : Event ι) :
    (w.act e).chain = w.chain ∨ ∃ c, (w.act e).chain =
        ((Soft.store limits (Memory.store id maxEntries)).perform c w.chain).2 ∧
        ∀ k x, c = .put k x → ∃ i now, e = .step i now ∧ (w.session i).task.writes? = some k := by
  have moved := act_moves w e
  generalize w.act e = w' at moved
  cases moved with
  | stays | reads | edits | rollsBack | begins | ends | learns | settles => exact .inl rfl
  | @commits i idle =>
    simp only [commit]
    split
    · exact .inr ⟨.clear, rfl, by simp⟩
    · exact .inl rfl
  | @steps i now v v' chain visit step =>
    refine .inr ?_
    cases Shape.served_of_step rfl step with
    | reads => exact ⟨.get v.key, rfl, by simp⟩
    | removes => exact ⟨.remove v.key, rfl, by simp⟩
    | @writes x phase =>
      refine ⟨.put v.key x, rfl, fun k y put => ⟨i, now, rfl, ?_⟩⟩
      cases put
      simp [Task.writes?, visit, Blocking.Visit.writes?, phase]

theorem consistent_act (h : Soft.Consistent w.chain) (e : Event ι) :
    Soft.Consistent (w.act e).chain := by
  rcases chain_act w e with same | ⟨c, next, _⟩
  · exact same ▸ h
  · exact next ▸ (Soft.perform_acts h limits id maxEntries .start (.call c)).consistent h

theorem shown_act (h : Soft.Consistent w.chain) (event : Event ι)
    (shown : Soft.shown (w.act event).chain k = some e) : Soft.shown w.chain k = some e ∨
      ∃ i now, event = .step i now ∧ (w.session i).task.writes? = some k := by
  rcases chain_act w event with same | ⟨c, next, writes⟩
  · exact .inl (same ▸ shown)
  · rw [next] at shown
    exact (Soft.shown_perform limits id maxEntries h c shown).imp_right (writes k e)

/-- A read that misses a key, or a removal, leaves nothing there. -/
theorem shown_served {d : Store (Soft Memory)}
    (hd : d = Soft.store limits (Memory.store id maxEntries)) {v v' : Visit} {s s' : Soft Memory}
    (hs : s.Consistent) (served : v.Served d s v' s') (reader : v.writes? = none)
    (answer : v'.answer? = some (.ok none)) : s'.shown v.key = none := by
  subst hd
  cases served with
  | reads =>
    by_contra held
    obtain ⟨e, held⟩ := Option.ne_none_iff_exists'.mp held
    rcases Soft.shown_perform limits id maxEntries hs (.get v.key) held with old | put
    · have found : (Soft.get limits (Memory.store id maxEntries) v.key s).1 = .ok none :=
        Option.some.inj answer
      rw [Soft.get_eq] at found
      have none : s.shown v.key = none := Except.ok.inj found
      rw [old] at none
      cases none
    · cases put
  | writes phase => simp [Visit.writes?, phase] at reader
  | removes => exact (Soft.shown_remove ..).trans (if_pos rfl)

theorem lacks_proceed {d : Store (Soft Memory)}
    (hd : d = Soft.store limits (Memory.store id maxEntries)) {x : Session} (sound : x.Sound)
    {v v' : Visit} (visit : x.task.visit? = some v) {s s' : Soft Memory} (hs : s.Consistent)
    (served : v.Served d s v' s') (lacks : { x with task := x.task.proceed v' }.Lacks k) :
    x.Lacks k ∨ s'.shown k = none := by
  cases task : x.task with
  | idle =>
    rw [task] at visit
    cases visit
  | reading u =>
    rw [task] at visit
    cases visit
    simp only [Session.Sound, task] at sound
    simp only [Session.Lacks, task, Task.proceed] at lacks ⊢
    rcases lacks with missed | ⟨key, answer⟩
    · exact .inl (.inl missed)
    · rw [← key, served.key]
      exact .inr (shown_served hd hs served sound answer)
  | ending commits call rest =>
    cases commits with
    | true => simp [Session.Lacks, task, Task.proceed] at lacks
    | false =>
      simp only [Session.Lacks, task, Task.proceed] at lacks ⊢
      rcases lacks with call | rest
      · cases served <;> simp [Visit.givesUp?] at call
      · exact .inl (.inr rest)

/-- What a session has missed reads none when it is missed. -/
theorem lacks_act (h : Soft.Consistent w.chain) (sound : ∀ j, (w.session j).Sound)
    (event : Event ι) : ∀ i, ((w.act event).session i).Lacks k →
      (w.session i).Lacks k ∨ Soft.shown (w.act event).chain k = none := by
  have moved := act_moves w event
  generalize w.act event = w' at moved
  cases moved with
  | stays => exact fun i lacks => .inl lacks
  | @reads i j now idle =>
    refine lacks_assign fun lacks => .inl ?_
    simpa [Session.Lacks, idle, Shape.visitor, Visit.read, Visit.answer?] using lacks
  | edits event idle missed =>
    refine lacks_assign fun lacks => .inl ?_
    simpa [Session.Lacks, idle, missed] using lacks
  | commits => exact lacks_assign False.elim
  | rollsBack idle =>
    refine lacks_assign fun lacks => .inl ?_
    simpa [Session.Lacks, idle, Blocking.keys_settlements_rollbackPlan] using lacks
  | @begins i n commits rest j x task look =>
    refine lacks_assign fun lacks => .inl ?_
    cases commits with
    | true => exact lacks.elim
    | false =>
      simp only [Session.Lacks, task]
      refine .inr ?_
      rcases lacks with call | rest
      · cases x with
        | none =>
          cases call
          exact List.mem_map_of_mem (List.mem_of_getElem? look)
        | some x => cases call
      · obtain ⟨e, he, rfl⟩ := List.mem_map.mp rest
        exact List.mem_map_of_mem (List.mem_of_mem_eraseIdx he)
  | @ends i n commits task =>
    refine lacks_assign fun lacks => ?_
    have ended := sound i
    simp only [Session.Sound, task] at ended
    simp [Session.Lacks, ended.1] at lacks
  | @steps i now v v' chain visit step =>
    exact lacks_assign (lacks_proceed rfl (sound i) visit h (Shape.served_of_step rfl step))
  | @learns i v a task answer =>
    refine lacks_assign fun lacks => .inl ?_
    simp only [Session.Lacks, task] at lacks ⊢
    rcases a with _ | _ | _
    · exact .inl lacks
    · refine ((UnitOfWork.mem_missed_note ..).mp lacks).symm.imp_right fun same => ⟨same.symm, answer⟩
    · exact .inl lacks
  | @settles i commits v rest task answered =>
    refine lacks_assign fun lacks => .inl ?_
    cases commits with
    | true => exact lacks.elim
    | false =>
      simp only [Session.Lacks, task]
      exact .inr (by simpa [Session.Lacks] using lacks)

end

/-- Another session has come to write the key since this one missed it. -/
def Rewritten (s : Shape) (es : List (Event ι)) (i : ι) (k : Key) : Prop :=
  ∃ earlier j now later, es = earlier ++ .step j now :: later ∧ j ≠ i ∧
    let w := run (start s) earlier
    (w.session j).task.writes? = some k ∧ (w.session i).Lacks k

theorem Rewritten.snoc {es : List (Event ι)} {k : Key} (h : Rewritten s es i k) (e : Event ι) :
    Rewritten s (es ++ [e]) i k := by
  obtain ⟨earlier, j, now, later, rfl, rest⟩ := h
  exact ⟨earlier, j, now, later ++ [e], by simp, rest⟩

omit [DecidableEq ι] in
theorem start_sound (s : Shape) (j : ι) : ((start s : Sessions ι s).session j).Sound := trivial

theorem run_snoc (w : Sessions ι s) (es : List (Event ι)) (e : Event ι) :
    w.run (es ++ [e]) = (w.run es).act e := by simp [run]

/-- A key that has been missed reads none until somebody else writes it. -/
theorem shown_of_lacks (limits : Soft.Limits) (id : String) (maxEntries : Option Nat)
    (es : List (Event ι)) :
    let s := Shape.soft limits (.memory id maxEntries)
    let w := run (start s) es
    Soft.Consistent w.chain ∧
      ∀ i k, (w.session i).Lacks k → Soft.shown w.chain k = none ∨ Rewritten s es i k := by
  intro s
  induction es using List.reverseRecOn with
  | nil =>
    refine ⟨Soft.start_consistent, fun i k lacks => ?_⟩
    exact absurd lacks List.not_mem_nil
  | append_singleton es e ih =>
    obtain ⟨consistent, kept⟩ := ih
    have sound := sound_run (w := start s) es (start_sound s)
    rw [run_snoc]
    refine ⟨consistent_act consistent e, fun i k lacks => ?_⟩
    rcases lacks_act consistent sound e i lacks with lacked | none
    · rcases kept i k lacked with none | rewritten
      · by_contra! h
        obtain ⟨x, shown⟩ := Option.ne_none_iff_exists'.mp h.1
        rcases shown_act consistent e shown with old | ⟨j, now, rfl, writes⟩
        · rw [none] at old
          cases old
        · refine h.2 ⟨es, j, now, [], rfl, fun same => ?_, writes, lacked⟩
          subst same
          rw [(sound j).not_writes lacked] at writes
          cases writes
      · exact .inr (rewritten.snoc e)
    · exact .inl none

/-- A rollback of a chain with gates leaves whatever a unit of work would read as it is, event by
event and as a whole, whatever else is under way. Without gates it makes the keys that it gives
up read none, and nothing else; where that takes an entry away, another unit of work has written
it since the miss. -/
theorem rollback_sight (settings : Settings) (es : List (Event ι)) (now : Time.Instant) :
    let s := settings.shape
    let w := run (start s) es
    (∀ e k, w.undoes e = true → s.sight now (w.act e).chain k =
      if settings.blocking = false ∧ w.givesUp? e = some k then .ok none
      else s.sight now w.chain k) ∧
    (∀ i before k, let u := (w.session i).unit
      s.sight now (u.rollback (s.store before) w.chain).2 k =
        if settings.blocking = false ∧ k ∈ u.missed then .ok none else s.sight now w.chain k) ∧
    (∀ i k, settings.blocking = false → (w.session i).Lacks k →
      s.sight now w.chain k ≠ .ok none → Rewritten s es i k) := by
  cases hb : settings.blocking with
  | true =>
    rw [Settings.shape_of_gated hb]
    intro s w
    have sound := sound_run (w := start s) es (start_sound s)
    let d : Clocked (Soft Memory) := fun _ =>
      Soft.store settings.limits (Memory.store settings.id settings.maxEntries)
    -- what is read depends on what no event of a rollback touches
    have blind (st st' : Blocking (Soft Memory)) (h : st.bare = st'.bare) (k : Key) :
        s.sight now st k = s.sight now st' k :=
      congrArg (fun st => (UnitOfWork.get (Blocking.store d now) k {} st).1) h
    refine ⟨fun e k undoes => ?_, fun i before k => ?_, by simp⟩
    · refine (blind _ w.chain (bare_act_of_undoes sound undoes) k).trans ?_
      simp
    · have opened := Blocking.bare_run_removes d before (w.session i).unit.missed w.chain
      refine (blind _ _ opened k).trans ?_
      simp
  | false =>
    rw [Settings.shape_of_soft hb]
    intro s w
    have sound := sound_run (w := start s) es (start_sound s)
    have lost := (shown_of_lacks settings.limits settings.id settings.maxEntries es).2
    have seen (st : Soft Memory) (k : Key) : s.sight now st k = .ok (st.shown k) :=
      Soft.sight_eq ..
    refine ⟨fun e k undoes => ?_, fun i before k => ?_, fun i k _ lacks found => ?_⟩
    · refine (seen _ k).trans ((congrArg Except.ok (shown_act_of_undoes sound undoes k)).trans ?_)
      change Except.ok (if w.givesUp? e = some k then none else Soft.shown w.chain k) = _
      by_cases given : w.givesUp? e = some k
      · simp [given]
      · simpa [given] using (seen w.chain k).symm
    · have gone := Soft.shown_run_removes settings.limits settings.id settings.maxEntries
        (w.session i).unit.missed w.chain k
      refine (seen _ k).trans ((congrArg Except.ok gone).trans ?_)
      by_cases missed : k ∈ (w.session i).unit.missed
      · simp [missed]
      · simpa [missed] using (seen w.chain k).symm
    · refine (lost i k lacks).resolve_left fun none => found ?_
      exact (seen w.chain k).trans (congrArg Except.ok none)

/-- Unit 0 misses a key, unit 1 writes it and commits, and then unit 0 rolls back. -/
theorem written_row_lost :
    let settings : Settings := { id := "users", blocking := false, memoryBudget := none }
    let k : Key := ⟨"k"⟩
    let e : Entry := .found (.number (.whole 1))
    let s := settings.shape
    let w : Sessions Nat s := run (start s)
      [.get 0 k .start, .step 0 .start, .collect 0, .get 1 k .start, .step 1 .start, .collect 1,
        .put 1 k e, .commit 1 .start, .next 1 0, .step 1 .start, .collect 1, .next 1 0]
    let rolledBack := w.run [.rollback 0, .next 0 0, .step 0 .start, .collect 0, .next 0 0]
    (s.sight .start w.chain k).map Option.isSome = .ok true ∧
      (s.sight .start rolledBack.chain k).map Option.isSome = .ok false := by
  decide +kernel

end Sessions
end DataTier.Cache
