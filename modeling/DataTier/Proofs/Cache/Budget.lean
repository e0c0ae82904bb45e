import DataTier.Proofs.Cache.Chain
import DataTier.Proofs.Cache.Upkeep

/-! What a write through a soft layer reclaims from the memory below. It may take the keys that
the memory holds and that are not retained, the one touched longest ago first; it takes the first
few of them that are enough, and no more (`put_reclaims_least`). -/

namespace DataTier.Cache

/-- What the entries weigh, but for those of these keys. -/
def Memory.weightWithout (m : Memory) (ks : List Key) : Nat :=
  ((m.slots.keys.filter (· ∉ ks)).map m.weightOf).sum

namespace Soft

variable {m : Memory} {b b' : Books} {s : Soft Memory} {budget : Nat} {k : Key} {e : Entry}
  {before ks ls : List Key}

/-- The keys that are held and not retained, the one touched longest ago first. -/
def reclaimable (m : Memory) (b : Books) (retained : List Key) : List Key :=
  b.oldestFirst.filter fun k => k ∉ retained && m.holds k

/-- Without these keys the memory is within the budget, or has only retained ones. -/
def Suffices (budget : Nat) (m : Memory) (retained ks : List Key) : Prop :=
  m.weightWithout ks ≤ budget ∨ ∀ k, m.holds k = true → k ∉ ks → k ∈ retained

/-! ## What may be reclaimed -/

/-- The keys among which the books choose. -/
def Books.candidates (b : Books) : List Key := b.oldestFirst.filter (· ∉ b.retained)

/-- Forgetting leaves the keys that are held in their order. -/
theorem Forgets.oldestFirst_eq (forgets : Forgets m b b') (level : Level m b') (dated : b.Dated) :
    b'.oldestFirst = b.oldestFirst.filter fun k => m.holds k := by
  have nodup : b.tracked.keys.Nodup := Table.Dated.keys dated
  have perm : b'.tracked.Perm (b.tracked.filter fun e => m.holds e.1) := by
    refine (List.perm_ext_iff_of_nodup (level.books.nodup.of_map _)
      ((nodup.of_map _).filter _)).mpr ?_
    rintro ⟨k, t⟩
    rw [List.mem_filter, Table.mem_iff_get? level.books.nodup, Table.mem_iff_get? nodup]
    by_cases held : m.holds k = true
    · rw [forgets.tracked k (.inr held), and_iff_left held]
    · have out := Table.get?_eq_none_iff.mpr (mt level.mem_tracked_iff.mp held)
      rw [out]
      exact iff_of_false (fun look => nomatch look) fun look => held look.2
  have ranked : b'.tracked.ranked Tracked.lastTouched =
      (b.tracked.ranked Tracked.lastTouched).filter fun e => m.holds e.1 :=
    ((Table.Dated.thin dated List.filter_sublist).ranked_congr perm).trans
      (Table.Dated.ranked_filter dated _)
  calc b'.oldestFirst = Table.keys ((b.tracked.ranked Tracked.lastTouched).filter _) :=
        congrArg Table.keys ranked
    _ = b.oldestFirst.filter fun k => m.holds k := List.filter_map.symm

theorem Forgets.candidates_eq (forgets : Forgets m b b') (level : Level m b') (dated : b.Dated) :
    b'.candidates = reclaimable m b b'.retained := by
  rw [Books.candidates, forgets.oldestFirst_eq level dated, List.filter_filter]
  rfl

theorem Level.mem_candidates (level : Level m b) :
    k ∈ b.candidates ↔ m.holds k = true ∧ k ∉ b.retained := by
  rw [Books.candidates, List.mem_filter, Books.mem_oldestFirst, level.mem_tracked_iff,
    decide_eq_true_eq]

theorem Level.nodup_candidates (level : Level m b) : b.candidates.Nodup :=
  (Books.nodup_oldestFirst level.books.nodup).filter _

/-! ## What has to be reclaimed -/

theorem Level.agrees_reclaimAll (level : Level m b) (part : ks <+: b.candidates) :
    Agrees m (b.reclaimAll ks) := by
  refine level.toAgrees.reclaimAll (level.nodup_candidates.sublist part.sublist) ?_
  intro k hk
  exact Books.mem_oldestFirst.mp (List.mem_of_mem_filter (part.mem hk))

theorem Level.totalWeight_reclaimAll (level : Level m b) (part : ks <+: b.candidates) :
    (b.reclaimAll ks).totalWeight = m.weightWithout ks := by
  have agrees := level.agrees_reclaimAll part
  have perm : (b.reclaimAll ks).tracked.keys.Perm (m.slots.keys.filter (· ∉ ks)) := by
    refine (List.perm_ext_iff_of_nodup agrees.books.nodup (level.slots.filter _)).mpr ?_
    intro j
    rw [Books.mem_tracked_reclaimAll, List.mem_filter, level.mem_tracked_iff, Memory.mem_keys_iff,
      decide_eq_true_eq]
  rw [agrees.totalWeight_eq, (perm.map _).sum_nat]
  rfl

/-- It is enough to be within the budget, or to have taken all. -/
theorem Level.suffices_iff (level : Level m b) (part : ks <+: b.candidates) :
    Suffices budget m b.retained ks ↔
      (b.reclaimAll ks).totalWeight ≤ budget ∨ ks = b.candidates := by
  rw [Suffices, level.totalWeight_reclaimAll part]
  refine or_congr_right ⟨?_, ?_⟩
  · intro safe
    obtain ⟨rest, split⟩ := part
    cases rest with
    | nil => rwa [List.append_nil] at split
    | cons k rest =>
      -- the next candidate is neither taken nor retained
      have next : k ∈ b.candidates := by simp [← split]
      obtain ⟨held, free⟩ := level.mem_candidates.mp next
      have once := level.nodup_candidates
      rw [← split] at once
      have left : k ∉ ks := fun hk => List.disjoint_of_nodup_append once hk List.mem_cons_self
      exact absurd (safe k held left) free
  · rintro rfl k held left
    by_contra free
    exact left (level.mem_candidates.mpr ⟨held, free⟩)

/-- The budget is enforced by the first few of the candidates, just enough of them. -/
theorem Level.enforceBudget_eq (level : Level m b) (budget : Nat) :
    ∃ ks, b.enforceBudget budget = b.reclaimAll ks ∧ ks <+: b.candidates ∧
      Suffices budget m b.retained ks ∧
      ∀ ls, ls <+: b.candidates → Suffices budget m b.retained ls → ks <+: ls := by
  obtain ⟨n, shed, exceeds⟩ := Books.shed_over budget b.candidates b
  have part : b.candidates.take n <+: b.candidates := List.take_prefix n _
  refine ⟨b.candidates.take n, shed, part, ?_, ?_⟩
  · refine (level.suffices_iff part).mpr ((Books.shed_within budget b.candidates b).imp ?_ ?_)
    · intro within
      rw [← shed]
      exact within
    · intro all
      have queue := congrArg Books.reclaimed (shed.symm.trans all)
      rwa [level.reclaimed_reclaimAll, level.reclaimed_reclaimAll] at queue
  · intro ls first enough
    refine List.prefix_of_prefix_length_le part first (Nat.le_of_not_lt ?_)
    intro fewer
    have start : (b.candidates.take n).take ls.length = ls :=
      (List.prefix_iff_eq_take.mp (List.prefix_of_prefix_length_le first part fewer.le)).symm
    have heavy := exceeds ls.length fewer
    rw [start] at heavy
    rcases (level.suffices_iff first).mp enough with light | rfl
    · exact absurd light (Nat.not_le_of_lt heavy)
    · exact absurd part.length_le (Nat.not_le_of_lt fewer)

/-! ## The key written -/

/-- The key tracked last is the last to be reclaimed. -/
theorem reclaimable_track (dated : b.Dated) (weight : Nat) (held : m.holds k = true)
    (free : k ∉ ks) :
    ∃ before, k ∉ before ∧ reclaimable m (b.track k weight) ks = before ++ [k] := by
  refine ⟨(b.oldestFirst.filter (· ≠ k)).filter fun j => j ∉ ks && m.holds j, ?_, ?_⟩
  · intro mem
    exact of_decide_eq_true (List.mem_filter.mp (List.mem_of_mem_filter mem)).2 rfl
  · rw [reclaimable, dated.oldestFirst_track, List.filter_append,
      List.filter_cons_of_pos (by rw [decide_eq_true free, held]; rfl), List.filter_nil]

/-- Taking out one more key takes no more than its own weight. -/
theorem Agrees.totalWeight_le (agrees : Agrees m b) (held : m.entry? k = some e)
    (tracked : k ∈ b.tracked.keys) :
    b.totalWeight ≤ e.weight + (b.reclaim k).totalWeight := by
  obtain ⟨t, look⟩ := Table.mem_keys_iff_get?.mp tracked
  have weight : b.weightOf k = e.weight := by
    have own := agrees.weights k t look
    rw [held] at own
    rw [Books.weightOf_eq, look]
    exact (Option.some.inj own).symm
  have less : (b.reclaim k).totalWeight = b.totalWeight - b.weightOf k := rfl
  omega

/-- If the key written goes, all other candidates have gone before it, and it would have been over
the budget with those that are left. -/
theorem Level.written_reclaimed (level : Level m b) (held : m.entry? k = some e)
    (last : before ++ [k] = b.candidates) (part : ks <+: b.candidates)
    (least : ∀ ls, ls <+: b.candidates → Suffices budget m b.retained ls → ks <+: ls)
    (gone : k ∈ ks) : ks = b.candidates ∧
      budget < e.weight + (b.reclaimAll ks).totalWeight := by
  have once := level.nodup_candidates
  rw [← last] at once part
  have new : k ∉ before := fun hk =>
    List.disjoint_of_nodup_append once hk (List.mem_singleton_self k)
  have all : ks = before ++ [k] := by
    refine (List.prefix_concat_iff.mp part).resolve_right ?_
    intro earlier
    exact new (earlier.mem gone)
  refine ⟨all.trans last, ?_⟩
  have short : before <+: b.candidates := last ▸ List.prefix_append before [k]
  have heavy : budget < (b.reclaimAll before).totalWeight := by
    by_contra light
    have enough : Suffices budget m b.retained before :=
      (level.suffices_iff short).mpr (.inl (Nat.le_of_not_lt light))
    exact new ((least before short enough).mem gone)
  have tracked : k ∈ (b.reclaimAll before).tracked.keys := by
    refine (Books.mem_tracked_reclaimAll before).mpr ⟨?_, new⟩
    exact level.mem_tracked_iff.mpr (Memory.holds_iff.mpr ⟨e, held⟩)
  have less := (level.agrees_reclaimAll short).totalWeight_le held tracked
  have taken : (b.reclaimAll before).reclaim k = b.reclaimAll ks := by
    rw [all, Books.reclaimAll, Books.reclaimAll, List.foldl_append]
    rfl
  rw [taken] at less
  exact Nat.lt_of_lt_of_le heavy less

/-- What a write has reclaimed, `touched` being the books right after the key was entered, and `b`
the books in the end. -/
structure Reclaims (budget : Nat) (k : Key) (e : Entry) (m : Memory) (touched b : Books) :
    Prop where
  counted : b.reclaimedTotal = touched.reclaimedTotal + b.reclaimed.length
  /-- What is tracked is within the budget, or retained. -/
  within : b.totalWeight ≤ budget ∨ ∀ j ∈ b.tracked.keys, j ∈ b.retained
  ordered : (reclaimable m touched b.retained).Pairwise fun i j =>
    touched.touchedAt i < touched.touchedAt j
  first : b.reclaimed <+: reclaimable m touched b.retained
  enough : Suffices budget m b.retained b.reclaimed
  least : ∀ ks, ks <+: reclaimable m touched b.retained → Suffices budget m b.retained ks →
    b.reclaimed <+: ks
  /-- No key goes that was retained before the write or is now. -/
  free : ∀ j ∈ b.reclaimed, j ∉ touched.retained ∧ j ∉ b.retained
  /-- The key written goes only if the retained keys leave too little room for it. -/
  written : k ∈ b.reclaimed → budget <
    e.weight + Table.sumOf Tracked.weight (b.tracked.filter fun t => t.1 ∈ b.retained)

theorem Level.within_of_suffices (level : Level m b) (part : ks <+: b.candidates)
    (enough : Suffices budget m b.retained ks) :
    (b.reclaimAll ks).totalWeight ≤ budget ∨
      ∀ j ∈ (b.reclaimAll ks).tracked.keys, j ∈ b.retained := by
  rw [level.totalWeight_reclaimAll part]
  refine enough.imp_right ?_
  intro safe j hj
  obtain ⟨tracked, left⟩ := (Books.mem_tracked_reclaimAll ks).mp hj
  exact safe j (level.mem_tracked_iff.mp tracked) left

theorem Level.reclaims {touched : Books} (level : Level m b) (dated : s.books.Dated)
    (held : m.entry? k = some e) (entered : touched = s.books.track k e.weight)
    (forgets : Forgets m touched b) (total : b.reclaimedTotal = touched.reclaimedTotal)
    (budget : Nat) : Reclaims budget k e m touched (b.enforceBudget budget) := by
  have touchedDated : touched.Dated := entered ▸ dated.track k e.weight
  have choice := forgets.candidates_eq level touchedDated
  obtain ⟨ks, enforced, part, enough, least⟩ := level.enforceBudget_eq budget
  have retained := Books.retained_reclaimAll ks b
  have reclaimed := level.reclaimed_reclaimAll ks
  rw [enforced]
  constructor
  case counted => rw [reclaimed, Books.reclaimedTotal_reclaimAll, total]
  case within =>
    rw [retained]
    exact level.within_of_suffices part enough
  case ordered => exact touchedDated.oldestFirst_pairwise.sublist List.filter_sublist
  case first =>
    rw [reclaimed, retained, ← choice]
    exact part
  case enough =>
    rw [reclaimed, retained]
    exact enough
  case least =>
    rw [reclaimed, retained, ← choice]
    exact least
  case free =>
    rw [reclaimed, retained]
    intro j hj
    obtain ⟨there, free⟩ := level.mem_candidates.mp (part.mem hj)
    exact ⟨fun old => free (forgets.mem_retained there old), free⟩
  case written =>
    rw [reclaimed, retained]
    intro gone
    have free := (level.mem_candidates.mp (part.mem gone)).2
    obtain ⟨before, -, last⟩ :=
      reclaimable_track dated e.weight (Memory.holds_iff.mpr ⟨e, held⟩) free
    rw [← entered, ← choice] at last
    obtain ⟨all, heavy⟩ := level.written_reclaimed held last.symm part least gone
    -- all that is left is retained
    have kept : (b.reclaimAll ks).tracked.filter (fun t => t.1 ∈ b.retained) =
        (b.reclaimAll ks).tracked := by
      refine List.filter_eq_self.mpr ?_
      intro t ht
      obtain ⟨tracked, left⟩ :=
        (Books.mem_tracked_reclaimAll ks).mp (List.mem_map_of_mem (f := Prod.fst) ht)
      by_contra unretained
      rw [all] at left
      exact left (level.mem_candidates.mpr
        ⟨level.mem_tracked_iff.mp tracked, of_decide_eq_false (Bool.not_eq_true _ ▸ unretained)⟩)
    rw [kept, ← (level.agrees_reclaimAll part).books.total]
    exact heavy

/-- Every write through a soft layer with a budget goes through. After it what is tracked is
within the budget, or retained; the keys that it has reclaimed are the first few of those that are
held and not retained, in the order in which they were touched last, and no fewer are enough. None
of them is retained. The key written is one of them only if it would be over the budget with the
retained keys alone. -/
theorem put_reclaims_least (retentionSize budget : Nat) (id : String) (maxEntries : Option Nat)
    (os : List Operation) (k : Key) (e : Entry) :
    let limits : Limits := ⟨retentionSize, some budget⟩
    let d := Memory.store id maxEntries
    let s := run limits d ⟨{}, {}⟩ os
    let s' := (put limits d k e s).2
    (put limits d k e s).1 = .ok () ∧
      Reclaims budget k e s'.below (s.books.track k e.weight) s'.books := by
  intro limits d s s'
  have hs : s.Consistent := start_consistent.run os
  have dated : s.books.Dated := by
    have kept := carryOutAll_dated limits d {} os
    rwa [← run_eq] at kept
  obtain ⟨b, forgets, level, total, written⟩ := put_forgets hs limits id maxEntries k e
  refine ⟨congrArg Prod.fst written, ?_⟩
  rw [show s' = _ from congrArg Prod.snd written]
  -- the keys removed first had been reclaimed before, so they are not tracked
  have forgets : Forgets (s.drained.below.put maxEntries k e) (s.books.track k e.weight) b :=
    ⟨forgets.tracked, forgets.retained⟩
  exact level.reclaims (s := s) dated (Memory.entry?_put_self maxEntries k e _) rfl forgets total
    budget

end Soft
end DataTier.Cache
