import DataTier.Proofs.Cache.Retention

/-! The books of a soft layer by themselves, over a store that may do anything: fail its calls,
contradict itself, be changed by others behind the layer's back. The total is kept up one entry at
a time, and calls that fail end an operation anywhere between two entries; still it is what the
tracked keys weigh together after every step (`Step.sound`), so nothing is ever taken from it that
is not part of it (`total_is_exact`). -/

namespace DataTier.Cache.Soft

open Relation (ReflTransGen)

variable {σ : Type} {d : Store σ} {limits : Limits} {s s' : Soft σ} {b : Books} {i j k : Key}

/-! ## Totals -/

/-- No key weighs more than the tracked keys do together. -/
theorem Books.Sound.weightOf_le (sound : b.Sound) (k : Key) : b.weightOf k ≤ b.totalWeight := by
  have without := Table.sumOf_erase (k := k) Tracked.weight sound.nodup
  rw [Books.weightOf_eq, sound.total]
  omega

theorem Books.Sound.noteRead (sound : b.Sound) (limits : Limits) (k : Key)
    (a : Answer (Option Entry)) (below : σ) : (noteRead limits k a ⟨below, b⟩).books.Sound := by
  rcases a with _ | _ | e
  · exact sound
  · exact sound.untrack k
  · have touched := sound.touch k e.weight
    exact ⟨touched.nodup, touched.total⟩

theorem Step.sound (step : Step limits d s s') (sound : s.books.Sound) : s'.books.Sound := by
  cases step with
  | counts | looks | fails => exact sound
  | removes | unprotects => exact ⟨sound.nodup, sound.total⟩
  | forgets k | reclaims k =>
    have rest := sound.untrack k
    exact ⟨rest.nodup, rest.total⟩
  | drops k => exact sound.untrack k
  | writes k e => exact sound.track k e.weight
  | clears => exact ⟨.nil, rfl⟩
  | reads k => exact sound.noteRead limits k _ _

/-! ## Order -/

theorem Books.touchedAt_eq {t : Tracked} (sound : b.Sound) (mem : (k, t) ∈ b.tracked) :
    b.touchedAt k = t.lastTouched := by
  rw [Books.touchedAt, (Table.mem_iff_get? sound.nodup).mp mem]
  rfl

theorem Books.Dated.eq_of_stamp {t u : Tracked} (dated : b.Dated) (hj : (j, t) ∈ b.tracked)
    (hk : (k, u) ∈ b.tracked) (same : t.lastTouched = u.lastTouched) : j = k :=
  congrArg Prod.fst (List.inj_on_of_nodup_map dated.stamps hj hk same)

/-- The tracked keys can be put in the order of their stamps in one way only. -/
theorem Books.Dated.oldestFirst_unique (dated : b.Dated) (sound : b.Sound) {ks : List Key}
    (perm : ks.Perm b.tracked.keys)
    (sorted : ks.Pairwise fun i j => b.touchedAt i ≤ b.touchedAt j) : ks = b.oldestFirst := by
  have all : b.oldestFirst.Perm b.tracked.keys := (List.mergeSort_perm _ _).map Prod.fst
  have ranked : b.oldestFirst.Pairwise fun i j => b.touchedAt i ≤ b.touchedAt j :=
    dated.oldestFirst_pairwise.imp Nat.le_of_lt
  refine List.Perm.eq_of_pairwise ?_ sorted ranked (perm.trans all.symm)
  intro i j hi hj le ge
  obtain ⟨t, look⟩ := Table.mem_keys_iff_get?.mp (perm.mem_iff.mp hi)
  obtain ⟨u, look'⟩ := Table.mem_keys_iff_get?.mp (all.mem_iff.mp hj)
  have mem := (Table.mem_iff_get? sound.nodup).mpr look
  have mem' := (Table.mem_iff_get? sound.nodup).mpr look'
  have same := Nat.le_antisymm le ge
  rw [Books.touchedAt_eq sound mem, Books.touchedAt_eq sound mem'] at same
  exact dated.eq_of_stamp mem mem' same

/-! ## Runs -/

theorem actAll_sound (limits : Limits) (d : Store σ) (start : σ) (es : List (Event σ)) :
    (actAll limits d ⟨(start, []), {}⟩ es).books.Sound := by
  refine actAll_keeps (s := ⟨(start, []), {}⟩) (P := fun s => s.books.Sound) .nil
    ⟨.nil, rfl⟩ ?_ ?_ es
  · intro s s' sound step
    exact step.sound sound
  · intro s f sound
    exact sound

theorem actAll_dated (limits : Limits) (d : Store σ) (start : σ) (es : List (Event σ)) :
    (actAll limits d ⟨(start, []), {}⟩ es).books.Dated := by
  refine actAll_keeps (s := ⟨(start, []), {}⟩) (P := fun s => s.books.Dated) .nil
    (.nil _ _) ?_ ?_ es
  · intro s s' dated step
    exact step.dated dated
  · intro s f dated
    exact dated

/-- Whatever the store below answers, however often its calls fail and whatever others do to it
between the operations: after each operation the total is the sum of what the tracked keys weigh,
each of them once. No two of them have been touched last at one time, so that there is one order in
which the oldest comes first. Each operation is made up of steps that enter one thing in the books
at a time. The total is that sum before each of them too, so no key weighs more than it, and the
weight of any may be taken away. -/
theorem total_is_exact (limits : Limits) (d : Store σ) (start : σ) (es : List (Event σ)) :
    let s := actAll limits d ⟨(start, []), {}⟩ es
    s.books.tracked.keys.Nodup ∧
    s.books.totalWeight = (s.books.tracked.map fun e => e.2.weight).sum ∧
    (∀ j k t u, (j, t) ∈ s.books.tracked → (k, u) ∈ s.books.tracked →
      t.lastTouched = u.lastTouched → j = k) ∧
    (∀ ks : List Key, ks.Perm s.books.tracked.keys →
      ks.Pairwise (fun i j => s.books.touchedAt i ≤ s.books.touchedAt j) →
      ks = s.books.oldestFirst) ∧
    (∀ o, ReflTransGen (Step limits d.journaled) s (carryOut limits d.journaled s o)) ∧
    ∀ s', ReflTransGen (Step limits d.journaled) s s' →
      s'.books.totalWeight = (s'.books.tracked.map fun e => e.2.weight).sum ∧
      ∀ k, s'.books.weightOf k ≤ s'.books.totalWeight := by
  intro s
  have sound : s.books.Sound := actAll_sound limits d start es
  have dated : s.books.Dated := actAll_dated limits d start es
  refine ⟨sound.nodup, sound.total, ?_, ?_, ?_, ?_⟩
  · intro j k t u hj hk same
    exact dated.eq_of_stamp hj hk same
  · intro ks perm sorted
    exact dated.oldestFirst_unique sound perm sorted
  · intro o
    exact steps_of_carryOut limits d.journaled sound.nodup o
  · intro s' steps
    have kept : s'.books.Sound := by
      refine kept_by_steps (P := fun s => s.books.Sound) ?_ steps sound
      intro s s' sound step
      exact step.sound sound
    exact ⟨kept.total, fun k => kept.weightOf_le k⟩

end DataTier.Cache.Soft
