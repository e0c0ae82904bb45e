import DataTier.Proofs.Cache.Sight

/-! Which keys a soft layer retains, whatever the store below does, however often its calls fail
and whatever others do to it. Only a hit makes a key retained, and a clearing lets all of them go.
A retained key is tracked, but for one that was removed, or missed by a read, and has been neither
written nor found since: it keeps the place that its entry had (`retained_untracked_iff`). -/

namespace DataTier.Cache

variable {σ : Type}

/-! ## Journals -/

namespace Journal

def hits (k : Key) : Call × Answer Reply → Bool
  | (.get j, .ok (.entry (some _))) => j = k
  | _ => false

/-- The key is no longer to be there, or is not. -/
def drops (k : Key) : Call × Answer Reply → Bool
  | (.remove j, _) => j = k
  | (.get j, .ok (.entry none)) => j = k
  | _ => false

/-- Whether the key was removed or missed, and has been neither written nor found since. -/
def dropped (k : Key) : Journal → Bool
  | [] => false
  | call :: earlier => drops k call || !finds k call && dropped k earlier

end Journal

namespace Soft

variable {d : Store σ} {limits : Limits} {s s' s'' : Soft (σ × Journal)} {b : Books} {j k : Key}

/-! ## Runs in company -/

inductive Event (σ : Type) where
  | does (o : Operation)
  /-- Others change the store below. -/
  | below (f : σ → σ)

def act (limits : Limits) (d : Store σ) (s : Soft (σ × Journal)) :
    Event σ → Soft (σ × Journal)
  | .does o => carryOut limits d.journaled s o
  | .below f => { s with below := (f s.below.1, s.below.2) }

def actAll (limits : Limits) (d : Store σ) (s : Soft (σ × Journal)) (es : List (Event σ)) :
    Soft (σ × Journal) := es.foldl (act limits d) s

/-- What holds at first, is kept by each step and does not depend on what is below holds in
company as well. -/
theorem actAll_keeps {P : Soft (σ × Journal) → Prop} (nodup : s.books.tracked.keys.Nodup)
    (start : P s) (kept : ∀ s s', P s → Step limits d.journaled s s' → P s')
    (below : ∀ s (f : σ → σ), P s → P { s with below := (f s.below.1, s.below.2) })
    (es : List (Event σ)) : P (actAll limits d s es) := by
  induction es generalizing s with
  | nil => exact start
  | cons e es ih =>
    cases e with
    | does o =>
      have steps := steps_of_carryOut limits d.journaled nodup o
      exact ih (nodup_of_steps steps nodup) (kept_by_steps kept steps start)
    | below f => exact ih nodup (below s f start)

/-! ## Retained keys -/

/-- The retained keys that are not tracked are those that were dropped. -/
structure Protects (limits : Limits) (s : Soft (σ × Journal)) : Prop where
  lined : s.books.Lined
  few : s.books.retained.length ≤ limits.retentionSize
  untracked : ∀ k ∈ s.books.retained,
    k ∉ s.books.tracked.keys ↔ Journal.dropped k s.below.2 = true

theorem Books.mem_tracked_touch {w : Nat} :
    j ∈ (b.touch k w).tracked.keys ↔ j = k ∨ j ∈ b.tracked.keys := by
  unfold Books.touch
  dsimp only
  split
  · exact Table.mem_keys_set ..
  · exact Table.mem_keys_set ..

theorem Books.retained_touch (k : Key) (w : Nat) (b : Books) :
    (b.touch k w).retained = b.retained := by
  obtain ⟨_, _, _, touched⟩ := Books.touch_eq k w b
  rw [touched]

/-- A call that neither finds keys nor drops any. -/
theorem Protects.quiet {call : Call × Answer Reply} (protects : Protects limits s)
    (written : s'.below.2 = call :: s.below.2) (lined : s'.books.Lined)
    (mute : ∀ k, Journal.drops k call = false ∧ Journal.finds k call = false)
    (fewer : s'.books.retained.Sublist s.books.retained)
    (same : ∀ k ∈ s'.books.retained, k ∈ s'.books.tracked.keys ↔ k ∈ s.books.tracked.keys) :
    Protects limits s' := by
  refine ⟨lined, Nat.le_trans fewer.length_le protects.few, ?_⟩
  intro k retained
  rw [same k retained, protects.untracked k (fewer.subset retained), written, Journal.dropped,
    (mute k).1, (mute k).2]
  simp

/-- The key is dropped, and not tracked any more. -/
theorem Protects.drop {call : Call × Answer Reply} (protects : Protects limits s)
    (written : s'.below.2 = call :: s.below.2) (lined : s'.books.Lined)
    (drops : ∀ j, Journal.drops j call = decide (k = j))
    (mute : ∀ j, Journal.finds j call = false)
    (retained : s'.books.retained = s.books.retained)
    (untracked : k ∉ s'.books.tracked.keys)
    (rest : ∀ j, j ≠ k → (j ∈ s'.books.tracked.keys ↔ j ∈ s.books.tracked.keys)) :
    Protects limits s' := by
  refine ⟨lined, retained ▸ protects.few, ?_⟩
  intro j mem
  rw [retained] at mem
  rw [written, Journal.dropped, drops j, mute j]
  by_cases same : k = j
  · subst same
    simp [untracked]
  · rw [rest j (Ne.symm same), protects.untracked j mem]
    simp [same]

/-- The key is found or written, and tracked from now on. -/
theorem Protects.find {call : Call × Answer Reply} (protects : Protects limits s)
    (written : s'.below.2 = call :: s.below.2) (lined : s'.books.Lined)
    (mute : ∀ j, Journal.drops j call = false)
    (finds : ∀ j, Journal.finds j call = decide (k = j))
    (few : s'.books.retained.length ≤ limits.retentionSize)
    (retained : ∀ j ∈ s'.books.retained, j = k ∨ j ∈ s.books.retained)
    (tracked : ∀ j, j ∈ s'.books.tracked.keys ↔ j = k ∨ j ∈ s.books.tracked.keys) :
    Protects limits s' := by
  refine ⟨lined, few, ?_⟩
  intro j mem
  rw [written, Journal.dropped, mute j, finds j, tracked j]
  by_cases same : k = j
  · subst same
    simp
  · have before := (retained j mem).resolve_left (Ne.symm same)
    rw [or_iff_right (Ne.symm same), protects.untracked j before]
    simp [same]

theorem Protects.read (protects : Protects limits s) (idle : s.books.reclaimed = []) (k : Key) :
    Protects limits (noteRead limits k (d.journaled.get k s.below).1
      ⟨(d.journaled.get k s.below).2, s.books⟩) := by
  have lined : (noteRead limits k (d.journaled.get k s.below).1
      ⟨(d.journaled.get k s.below).2, s.books⟩).books.Lined :=
    .of_idle ((reclaimed_noteRead ..).trans idle)
  rcases answer : (d.journaled.get k s.below).1 with e | _ | e <;> rw [answer] at lined <;>
    have written := Store.journal_get answer
  · exact protects.quiet written lined (fun _ => ⟨rfl, rfl⟩) (.refl _) fun _ _ => Iff.rfl
  · refine protects.drop written lined (fun _ => rfl) (fun _ => rfl) rfl ?_ ?_
    · exact fun tracked => (Books.mem_tracked_untrack.mp tracked).2 rfl
    · intro j other
      exact Books.mem_tracked_untrack.trans (and_iff_left other)
  · refine protects.find written lined (fun _ => rfl) (fun _ => rfl) (List.length_take_le _ _) ?_
      fun _ => Books.mem_tracked_touch
    intro j mem
    have front := List.mem_of_mem_take mem
    rwa [List.mem_cons, Books.retained_touch] at front

theorem Step.protects (step : Step limits d.journaled s s') (protects : Protects limits s) :
    Protects limits s' := by
  have lined := step.lined protects.lined
  cases step with
  | counts | looks =>
    exact protects.quiet rfl lined (fun _ => ⟨rfl, rfl⟩) (.refl _) fun _ _ => Iff.rfl
  | forgets k =>
    refine protects.quiet rfl lined (fun _ => ⟨rfl, rfl⟩) List.filter_sublist ?_
    intro j mem
    have other : j ≠ k := of_decide_eq_true (List.mem_filter.mp mem).2
    exact Books.mem_tracked_untrack.trans (and_iff_left other)
  | @fails k e error refused =>
    have written := Store.journal_put refused
    exact protects.quiet written lined (fun _ => ⟨rfl, rfl⟩) (.refl _) fun _ _ => Iff.rfl
  | reads k idle => exact protects.read idle k
  | writes k e _ done =>
    have written := Store.journal_put done
    exact protects.find written lined (fun _ => rfl) (fun _ => rfl) protects.few
      (fun _ mem => .inr mem) fun _ => Table.mem_keys_set ..
  | removes k ks queue =>
    -- a key that waits to be removed is not tracked
    have untracked := protects.lined.apart k (queue ▸ List.mem_cons_self)
    exact protects.drop rfl lined (fun _ => rfl) (fun _ => rfl) rfl untracked fun _ _ => Iff.rfl
  | drops k =>
    refine protects.drop rfl lined (fun _ => rfl) (fun _ => rfl) rfl ?_ ?_
    · exact fun tracked => (Books.mem_tracked_untrack.mp tracked).2 rfl
    · intro j other
      exact Books.mem_tracked_untrack.trans (and_iff_left other)
  | clears _ bare =>
    refine ⟨lined, protects.few, ?_⟩
    intro k mem
    rw [show s.books.clear.retained = [] from bare] at mem
    cases mem
  | reclaims k _ free =>
    refine ⟨lined, protects.few, ?_⟩
    intro j mem
    have other : j ≠ k := fun same => free (same ▸ mem)
    have tracked : j ∈ (s.books.untrack k).tracked.keys ↔ j ∈ s.books.tracked.keys :=
      Books.mem_tracked_untrack.trans (and_iff_left other)
    exact (not_congr tracked).trans (protects.untracked j mem)
  | unprotects =>
    refine ⟨lined, Nat.zero_le _, ?_⟩
    intro k mem
    cases mem

/-! ## How keys come to be retained -/

/-- Since then the journal has been continued, and no key has come to be retained but by a hit. -/
def Continues (s s' : Soft (σ × Journal)) : Prop :=
  ∃ new, s'.below.2 = new ++ s.below.2 ∧
    ∀ k ∈ s'.books.retained, k ∈ s.books.retained ∨ ∃ call ∈ new, Journal.hits k call = true

theorem Continues.of_subset (new : Journal) (written : s'.below.2 = new ++ s.below.2)
    (subset : s'.books.retained ⊆ s.books.retained) : Continues s s' :=
  ⟨new, written, fun _ mem => .inl (subset mem)⟩

theorem Continues.trans (first : Continues s s') (second : Continues s' s'') :
    Continues s s'' := by
  obtain ⟨new, written, retained⟩ := first
  obtain ⟨new', written', retained'⟩ := second
  refine ⟨new' ++ new, by rw [written', written, List.append_assoc], ?_⟩
  intro k mem
  rcases retained' k mem with before | ⟨call, made, hit⟩
  · rcases retained k before with start | ⟨call, made, hit⟩
    · exact .inl start
    · exact .inr ⟨call, List.mem_append_right _ made, hit⟩
  · exact .inr ⟨call, List.mem_append_left _ made, hit⟩

theorem Continues.read (s : Soft (σ × Journal)) (limits : Limits) (d : Store σ) (k : Key) :
    Continues s (noteRead limits k (d.journaled.get k s.below).1
      ⟨(d.journaled.get k s.below).2, s.books⟩) := by
  rcases answer : (d.journaled.get k s.below).1 with e | _ | e <;>
    have written := Store.journal_get answer
  · exact .of_subset [_] written (List.Subset.refl _)
  · exact .of_subset [_] written (List.Subset.refl _)
  · refine ⟨[_], written, ?_⟩
    intro j mem
    have front := List.mem_of_mem_take mem
    rw [List.mem_cons, Books.retained_touch] at front
    rcases front with rfl | before
    · exact .inr ⟨_, List.mem_singleton_self _, decide_eq_true rfl⟩
    · exact .inl before

theorem Step.continues (step : Step limits d.journaled s s') : Continues s s' := by
  cases step with
  | removes | counts | looks | fails | writes | drops | clears =>
    exact .of_subset [_] rfl (List.Subset.refl _)
  | forgets => exact .of_subset [_] rfl List.filter_sublist.subset
  | reclaims => exact .of_subset [] rfl (List.Subset.refl _)
  | unprotects => exact .of_subset [] rfl (List.nil_subset _)
  | reads k => exact .read s limits d k

theorem actAll_continues (nodup : s.books.tracked.keys.Nodup) (es : List (Event σ)) :
    Continues s (actAll limits d s es) := by
  refine actAll_keeps (P := Continues s) nodup (.of_subset [] rfl (List.Subset.refl _)) ?_ ?_ es
  · exact fun _ _ before step => before.trans step.continues
  · exact fun _ _ before => before.trans (.of_subset [] rfl (List.Subset.refl _))

/-! ## What leaves them as they are -/

/-- A drain does not change which keys are retained. -/
theorem afterDrain_cases {τ α : Type} (d : Store τ) (f : Soft τ → Answer α × Soft τ) (s : Soft τ) :
    ∃ s', s'.books.retained = s.books.retained ∧
      ((∃ e, afterDrain d f s = (.error e, s')) ∨ afterDrain d f s = f s') := by
  have drained := retained_drain d s.books.reclaimed s
  rw [afterDrain]
  split <;> rename_i s' drain <;> rw [drain] at drained
  · exact ⟨s', drained, .inl ⟨_, rfl⟩⟩
  · exact ⟨s', drained, .inr rfl⟩

theorem retained_clear {τ : Type} (d : Store τ) (s : Soft τ) :
    (clear d s).2.books.retained = [] := by
  obtain ⟨s', bare, ⟨e, fails⟩ | clears⟩ := afterDrain_cases d
    (fun s => ((d.clear s.below).1, ⟨(d.clear s.below).2, s.books.clear⟩))
    { s with books := { s.books with retained := [] } }
  · exact (congrArg (fun r => r.2.books.retained) fails).trans bare
  · exact (congrArg (fun r => r.2.books.retained) clears).trans bare

theorem retained_remove {τ : Type} (d : Store τ) (k : Key) (s : Soft τ) :
    (remove d k s).2.books.retained = s.books.retained := by
  obtain ⟨s', same, ⟨e, fails⟩ | removes⟩ := afterDrain_cases d
    (fun s => ((d.remove k s.below).1, ⟨(d.remove k s.below).2, s.books.untrack k⟩)) s
  · exact (congrArg (fun r => r.2.books.retained) fails).trans same
  · exact (congrArg (fun r => r.2.books.retained) removes).trans same

theorem retained_get_of_miss {τ : Type} {d : Store τ} {s : Soft τ}
    (miss : (get limits d k s).1 = .ok none) :
    (get limits d k s).2.books.retained = s.books.retained := by
  obtain ⟨s', same, ⟨e, fails⟩ | reads⟩ := afterDrain_cases d
    (fun s => ((d.get k s.below).1,
      noteRead limits k (d.get k s.below).1 { s with below := (d.get k s.below).2 })) s
  · exact (congrArg (fun r => r.2.books.retained) fails).trans same
  · have missed : (d.get k s'.below).1 = .ok none := (congrArg Prod.fst reads).symm.trans miss
    rw [missed] at reads
    exact (congrArg (fun r => r.2.books.retained) reads).trans same

/-! ## Runs -/

/-- Whatever the store below answers, and whatever others do to it: no more keys are retained than
there is room for, and of these just those are not tracked that have been dropped, by a removal or
by a read that missed them, and neither written nor found since. So a key that is forgotten,
reclaimed or cleared is not retained any more. From any moment on only a hit makes a key retained,
and until then it can be reclaimed as long as it is tracked. A clearing leaves no key retained, a
removal and a read that misses leave all of them retained. -/
theorem retained_untracked_iff (limits : Limits) (d : Store σ) (start : σ)
    (es : List (Event σ)) :
    let s := actAll limits d ⟨(start, []), {}⟩ es
    let layer := store limits d.journaled
    s.books.retained.length ≤ limits.retentionSize ∧
    (∀ k ∈ s.books.retained,
      k ∉ s.books.tracked.keys ↔ Journal.dropped k s.below.2 = true) ∧
    (∀ es', let s' := actAll limits d s es'
      ∃ new, s'.below.2 = new ++ s.below.2 ∧
        (∀ k ∈ s'.books.retained,
          k ∈ s.books.retained ∨ ∃ call ∈ new, Journal.hits k call = true) ∧
        ∀ k, k ∉ s.books.retained → (∀ call ∈ new, Journal.hits k call = false) →
          (k ∈ s'.books.unretained ↔ k ∈ s'.books.tracked.keys)) ∧
    (layer.clear s).2.books.retained = [] ∧
    ∀ k, (layer.remove k s).2.books.retained = s.books.retained ∧
      ((layer.get k s).1 = .ok none → (layer.get k s).2.books.retained = s.books.retained) := by
  intro s layer
  have kept : Protects limits s ∧ s.books.tracked.keys.Nodup := by
    refine actAll_keeps (s := ⟨(start, []), {}⟩)
      (P := fun s => Protects limits s ∧ s.books.tracked.keys.Nodup) .nil ?_ ?_ ?_ es
    · exact ⟨⟨.of_idle rfl, Nat.zero_le _, fun k mem => nomatch mem⟩, .nil⟩
    · intro s s' kept step
      exact ⟨step.protects kept.1, step.nodup kept.2⟩
    · intro s f kept
      exact ⟨⟨kept.1.lined, kept.1.few, kept.1.untracked⟩, kept.2⟩
  obtain ⟨protects, nodup⟩ := kept
  refine ⟨protects.few, protects.untracked, ?_, retained_clear _ s, ?_⟩
  · intro es' s'
    have continues : Continues s s' := actAll_continues nodup es'
    obtain ⟨new, written, retained⟩ := continues
    refine ⟨new, written, retained, ?_⟩
    intro k free unread
    rw [Books.unretained, List.mem_filter, decide_eq_true_eq, and_iff_left_iff_imp]
    intro _ mem
    rcases retained k mem with before | ⟨call, made, hit⟩
    · exact free before
    · cases hit.symm.trans (unread call made)
  · intro k
    exact ⟨retained_remove _ k s, retained_get_of_miss⟩

/-- A key that was read is removed and written again: though its new entry has not been read, it
cannot be reclaimed. -/
theorem unread_key_retained :
    let d := Memory.store "users" none
    let a : Key := ⟨"a"⟩
    let e : Entry := .found (.number (.whole 1))
    let s := carryOutAll ⟨1, none⟩ d ⟨{}, {}⟩ [.call (.put a e), .call (.get a), .call (.remove a)]
    let s' := carryOut ⟨1, none⟩ d s (.call (.put a e))
    (a ∈ s.books.retained ∧ a ∉ s.books.tracked.keys) ∧ a ∈ s'.books.tracked.keys ∧
      s'.reclaimUnretained.1 = 0 := by
  decide +kernel

end Soft
end DataTier.Cache
