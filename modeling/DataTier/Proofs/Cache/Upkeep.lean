import DataTier.Proofs.Cache.Agreement
import Mathlib.Logic.Relation

/-! What a soft layer does to the store below it and what it enters for it in its books, one call
at a time. Whatever that store answers, each operation comes down to a number of such steps
(`steps_of_carryOut`), so a run of operations keeps what each of the steps keeps
(`carryOutAll_keeps`). -/

namespace DataTier.Cache.Soft

open Relation (ReflTransGen)

variable {σ α : Type} {d : Store σ} {limits : Limits} {s s' : Soft σ} {b : Books} {k : Key}
  {e : Entry}

/-! ## Operations over any store -/

def carryOut (limits : Limits) (d : Store σ) (s : Soft σ) : Operation → Soft σ
  | .call c => ((store limits d).perform c s).2
  | .reclaimUnretained => s.reclaimUnretained.2

def carryOutAll (limits : Limits) (d : Store σ) (s : Soft σ) (os : List Operation) : Soft σ :=
  os.foldl (carryOut limits d) s

theorem run_eq (limits : Limits) (d : Store Memory) (s : Soft Memory) (os : List Operation) :
    run limits d s os = carryOutAll limits d s os := by
  have same : operate limits d = carryOut limits d := by
    funext s o
    cases o <;> rfl
  rw [run, same]
  rfl

/-! ## Steps -/

/-- A call of the store below with what is entered for it, or an entry without a call. -/
inductive Step (limits : Limits) (d : Store σ) (s : Soft σ) : Soft σ → Prop
  /-- The first key of the queue leaves it, whether it could be removed or not. -/
  | removes (k : Key) (ks : List Key) (queue : s.books.reclaimed = k :: ks) :
      Step limits d s ⟨(d.remove k s.below).2, { s.books with reclaimed := ks }⟩
  | counts : Step limits d s ⟨(d.size s.below).2, s.books⟩
  | looks (k : Key) : Step limits d s ⟨(d.contains k s.below).2, s.books⟩
  | forgets (k : Key) (gone : (d.contains k s.below).1 = .ok false) :
      Step limits d s ⟨(d.contains k s.below).2, s.books.forget k⟩
  | reads (k : Key) (idle : s.books.reclaimed = []) :
      Step limits d s (noteRead limits k (d.get k s.below).1 ⟨(d.get k s.below).2, s.books⟩)
  | writes (k : Key) (e : Entry) (idle : s.books.reclaimed = [])
      (done : (d.put k e s.below).1 = .ok ()) :
      Step limits d s ⟨(d.put k e s.below).2, s.books.track k e.weight⟩
  | fails (k : Key) (e : Entry) {error : Error} (refused : (d.put k e s.below).1 = .error error) :
      Step limits d s ⟨(d.put k e s.below).2, s.books⟩
  | drops (k : Key) (idle : s.books.reclaimed = []) :
      Step limits d s ⟨(d.remove k s.below).2, s.books.untrack k⟩
  | clears (idle : s.books.reclaimed = []) (bare : s.books.retained = []) :
      Step limits d s ⟨(d.clear s.below).2, s.books.clear⟩
  | reclaims (k : Key) (tracked : k ∈ s.books.tracked.keys) (free : k ∉ s.books.retained) :
      Step limits d s ⟨s.below, s.books.reclaim k⟩
  | unprotects : Step limits d s ⟨s.below, { s.books with retained := [] }⟩

theorem Step.nodup (step : Step limits d s s') (nodup : s.books.tracked.keys.Nodup) :
    s'.books.tracked.keys.Nodup := by
  cases step with
  | removes | counts | looks | fails | unprotects => exact nodup
  | forgets k | drops k | reclaims k => exact Table.nodup_keys_erase nodup k
  | writes k => exact Table.nodup_keys_set nodup k _
  | clears => exact .nil
  | reads k =>
    unfold noteRead
    split
    · exact nodup
    · exact Table.nodup_keys_erase nodup k
    · unfold Books.touch
      dsimp only
      split
      · exact Table.nodup_keys_set nodup k _
      · exact Table.nodup_keys_set nodup k _

/-! ## Operations as steps -/

theorem kept_by_steps {P : Soft σ → Prop} (kept : ∀ s s', P s → Step limits d s s' → P s')
    (steps : ReflTransGen (Step limits d) s s') (start : P s) : P s' := by
  induction steps with
  | refl => exact start
  | tail _ step so => exact kept _ _ so step

theorem nodup_of_steps (steps : ReflTransGen (Step limits d) s s')
    (nodup : s.books.tracked.keys.Nodup) : s'.books.tracked.keys.Nodup :=
  kept_by_steps (P := fun s => s.books.tracked.keys.Nodup) (fun _ _ nodup step => step.nodup nodup)
    steps nodup

theorem steps_of_drain (limits : Limits) (d : Store σ) {ks : List Key}
    (queue : s.books.reclaimed = ks) :
    ReflTransGen (Step limits d) s (drain d ks s).2 ∧
      ((drain d ks s).1 = .ok () → (drain d ks s).2.books.reclaimed = []) := by
  induction ks generalizing s with
  | nil => exact ⟨.refl, fun _ => queue⟩
  | cons k ks ih =>
    have step : Step limits d s ⟨(d.remove k s.below).2, { s.books with reclaimed := ks }⟩ :=
      .removes k ks queue
    rw [drain]
    split <;> rename_i below removed <;> rw [removed] at step
    · exact ⟨.single step, fun ok => nomatch ok⟩
    · obtain ⟨steps, drained⟩ := ih (s := ⟨below, { s.books with reclaimed := ks }⟩) rfl
      exact ⟨.head step steps, drained⟩

theorem retained_drain (d : Store σ) (ks : List Key) (s : Soft σ) :
    (drain d ks s).2.books.retained = s.books.retained := by
  induction ks generalizing s with
  | nil => rfl
  | cons k ks ih =>
    rw [drain]
    split
    · rfl
    · exact ih _

/-- After a drain that goes through, nothing waits to be removed. -/
theorem steps_of_afterDrain {f : Soft σ → Answer α × Soft σ} (s : Soft σ)
    (hf : ∀ s', ReflTransGen (Step limits d) s s' → s'.books.reclaimed = [] →
      s'.books.retained = s.books.retained → ReflTransGen (Step limits d) s' (f s').2) :
    ReflTransGen (Step limits d) s (afterDrain d f s).2 := by
  obtain ⟨steps, drained⟩ := steps_of_drain (s := s) limits d rfl
  have retained := retained_drain d s.books.reclaimed s
  rw [afterDrain]
  split <;> rename_i s' drain <;> rw [drain] at steps drained retained
  · exact steps
  · exact steps.trans (hf s' steps (drained rfl) retained)

theorem steps_of_forgetEvicted (held : Nat) (ks : List Key) (s : Soft σ) :
    ReflTransGen (Step limits d) s (forgetEvicted d held ks s).2 := by
  induction ks generalizing s with
  | nil => exact .refl
  | cons k ks ih =>
    rw [forgetEvicted]
    split
    · exact .refl
    · have looks : Step limits d s ⟨(d.contains k s.below).2, s.books⟩ := .looks k
      split <;> rename_i below asked
      · rw [asked] at looks
        exact .single looks
      · rw [asked] at looks
        exact .head looks (ih _)
      · have forgets : Step limits d s ⟨(d.contains k s.below).2, s.books.forget k⟩ :=
          .forgets k (congrArg Prod.fst asked)
        rw [asked] at forgets
        exact .head forgets (ih _)

theorem steps_of_reconcile (limits : Limits) (d : Store σ) (s : Soft σ) :
    ReflTransGen (Step limits d) s (reconcile d s).2 := by
  have step : Step limits d s ⟨(d.size s.below).2, s.books⟩ := .counts
  rw [reconcile]
  split <;> rename_i below counted <;> rw [counted] at step
  · exact .single step
  · exact .head step (steps_of_forgetEvicted _ _ _)

theorem steps_of_reclaimAll {ks : List Key} (below : σ) (once : ks.Nodup)
    (tracked : ∀ k ∈ ks, k ∈ b.tracked.keys) (free : ∀ k ∈ ks, k ∉ b.retained) :
    ReflTransGen (Step limits d) ⟨below, b⟩ ⟨below, b.reclaimAll ks⟩ := by
  induction ks generalizing b with
  | nil => exact .refl
  | cons k ks ih =>
    obtain ⟨first, rest⟩ := List.nodup_cons.mp once
    have step : Step limits d ⟨below, b⟩ ⟨below, b.reclaim k⟩ :=
      .reclaims k (tracked k List.mem_cons_self) (free k List.mem_cons_self)
    refine .head step (ih rest ?_ fun j hj => free j (List.mem_cons_of_mem k hj))
    intro j hj
    have other : j ≠ k := fun same => first (same ▸ hj)
    exact Books.mem_tracked_untrack.mpr ⟨tracked j (List.mem_cons_of_mem k hj), other⟩

theorem steps_of_enforce (nodup : s.books.tracked.keys.Nodup) :
    ReflTransGen (Step limits d) s (enforce limits s) := by
  unfold enforce
  split
  · exact .refl
  · rename_i budget _
    obtain ⟨n, shed⟩ :=
      Books.shed_eq_reclaimAll budget (s.books.oldestFirst.filter (· ∉ s.books.retained)) s.books
    have part : ((s.books.oldestFirst.filter (· ∉ s.books.retained)).take n).Sublist
        s.books.oldestFirst := (List.take_sublist _ _).trans List.filter_sublist
    rw [Books.enforceBudget, shed]
    refine steps_of_reclaimAll s.below ((Books.nodup_oldestFirst nodup).sublist part) ?_ ?_
    · intro k hk
      exact Books.mem_oldestFirst.mp (part.mem hk)
    · intro k hk
      exact of_decide_eq_true (List.mem_filter.mp (List.mem_of_mem_take hk)).2

theorem steps_of_put (nodup : s.books.tracked.keys.Nodup) (k : Key) (e : Entry) :
    ReflTransGen (Step limits d) s (put limits d k e s).2 := by
  refine steps_of_afterDrain s ?_
  intro s' drained idle _
  split <;> rename_i below written
  · have fails : Step limits d s' ⟨(d.put k e s'.below).2, s'.books⟩ :=
      .fails k e (congrArg Prod.fst written)
    rw [written] at fails
    exact .single fails
  · have writes : Step limits d s' ⟨(d.put k e s'.below).2, s'.books.track k e.weight⟩ :=
      .writes k e idle (congrArg Prod.fst written)
    rw [written] at writes
    have reconciles := steps_of_reconcile limits d
      ⟨below, s'.books.track k e.weight⟩
    split <;> rename_i s'' reconciled <;> rw [reconciled] at reconciles
    · exact .head writes reconciles
    · have steps := ReflTransGen.head writes reconciles
      exact steps.trans (steps_of_enforce (nodup_of_steps (drained.trans steps) nodup))

theorem steps_of_carryOut (limits : Limits) (d : Store σ) (nodup : s.books.tracked.keys.Nodup)
    (o : Operation) : ReflTransGen (Step limits d) s (carryOut limits d s o) := by
  cases o with
  | reclaimUnretained =>
    refine steps_of_reclaimAll s.below (nodup.filter _) ?_ ?_
    · intro k hk
      exact List.mem_of_mem_filter hk
    · intro k hk
      exact of_decide_eq_true (List.mem_filter.mp hk).2
  | call c =>
    cases c with
    | size =>
      show ReflTransGen (Step limits d) s (size d s).2
      exact steps_of_afterDrain s fun _ _ _ _ => .single .counts
    | contains k =>
      show ReflTransGen (Step limits d) s (contains d k s).2
      exact steps_of_afterDrain s fun _ _ _ _ => .single (.looks k)
    | get k =>
      show ReflTransGen (Step limits d) s (get limits d k s).2
      exact steps_of_afterDrain s fun _ _ idle _ => .single (.reads k idle)
    | put k e => exact steps_of_put nodup k e
    | remove k =>
      show ReflTransGen (Step limits d) s (remove d k s).2
      exact steps_of_afterDrain s fun _ _ idle _ => .single (.drops k idle)
    | clear =>
      show ReflTransGen (Step limits d) s (clear d s).2
      refine .head .unprotects (steps_of_afterDrain _ ?_)
      intro s' _ idle bare
      exact .single (.clears idle bare)

/-- What is so at first, and is kept by each step, is so after every run of operations. -/
theorem carryOutAll_keeps {P : Soft σ → Prop} (nodup : s.books.tracked.keys.Nodup) (start : P s)
    (kept : ∀ s s', P s → Step limits d s s' → P s') (os : List Operation) :
    P (carryOutAll limits d s os) := by
  induction os generalizing s with
  | nil => exact start
  | cons o os ih =>
    have steps := steps_of_carryOut limits d nodup o
    exact ih (nodup_of_steps steps nodup) (kept_by_steps kept steps start)

/-! ## Stamps -/

theorem Books.Dated.noteRead (dated : b.Dated) (limits : Limits) (k : Key)
    (a : Answer (Option Entry)) (below : σ) : (noteRead limits k a ⟨below, b⟩).books.Dated := by
  rcases a with _ | _ | e
  · exact dated
  · exact dated.untrack k
  · exact dated.touch k e.weight

theorem Step.dated (step : Step limits d s s') (dated : s.books.Dated) : s'.books.Dated := by
  cases step with
  | removes | counts | looks | fails | unprotects => exact dated
  | forgets k | drops k | reclaims k => exact dated.untrack k
  | writes k e => exact dated.track k e.weight
  | clears => exact .nil _ _
  | reads k => exact dated.noteRead limits k _ _

/-- The tracked keys have been touched last at different times, whatever the store below does. -/
theorem carryOutAll_dated (limits : Limits) (d : Store σ) (start : σ) (os : List Operation) :
    (carryOutAll limits d ⟨start, {}⟩ os).books.Dated :=
  carryOutAll_keeps (s := ⟨start, {}⟩) (P := fun s => s.books.Dated) .nil (.nil _ _)
    (fun _ _ dated step => step.dated dated) os

end DataTier.Cache.Soft
