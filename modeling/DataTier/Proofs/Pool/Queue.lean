import DataTier.Pool.Queue
import Mathlib.Data.List.Nodup

/-! Who is asleep in a queue, and who has been told to go on. A notice for one reaches a
sleeper if there is one (`Asleep`), and the number of those that have received one (`owed`)
grows by it; a caller that leaves takes no notice for one along, and neither does one that goes on
because its time is up. -/

namespace DataTier.Pool.Queue

variable {κ : Type}

/-- Some caller has no notice. -/
def Asleep (q : Queue κ) : Prop := ∃ w ∈ q.waiters, w.notice = none

/-- How many callers have a notice for one and have not gone on. -/
def owed (q : Queue κ) : Nat := q.waiters.countP (·.notice = some .forOne)

def callers (q : Queue κ) : List κ := q.waiters.map (·.caller)

/-! ## Notices -/

theorem notifyFirst_none {ws : List (Waiter κ)} (h : notifyFirst ws = none) :
    ∀ w ∈ ws, w.notice ≠ none := by
  induction ws with
  | nil => intro w hw; cases hw
  | cons v vs ih =>
    simp only [notifyFirst] at h
    split at h
    · rename_i hv
      intro w hw
      rcases List.mem_cons.mp hw with rfl | hw
      · exact Option.isSome_iff_ne_none.mp hv
      · exact ih (Option.map_eq_none_iff.mp h) w hw
    · cases h

theorem notifyFirst_some {ws ws' : List (Waiter κ)} (h : notifyFirst ws = some ws') :
    ws'.map (·.caller) = ws.map (·.caller) ∧ (∃ w ∈ ws, w.notice = none) ∧
      ws'.countP (·.notice = some .forOne) = ws.countP (·.notice = some .forOne) + 1 := by
  induction ws generalizing ws' with
  | nil => cases h
  | cons v vs ih =>
    simp only [notifyFirst] at h
    split at h
    · obtain ⟨vs', hvs, rfl⟩ := Option.map_eq_some_iff.mp h
      obtain ⟨hc, ⟨w, hw, hn⟩, ho⟩ := ih hvs
      refine ⟨by rw [List.map_cons, List.map_cons, hc], ⟨w, List.mem_cons_of_mem _ hw, hn⟩, ?_⟩
      rw [List.countP_cons, List.countP_cons, ho]
      omega
    · rename_i hv
      have none : v.notice = none := by simpa using hv
      cases h
      refine ⟨?_, ⟨v, List.mem_cons_self, none⟩, ?_⟩
      · simp [Waiter.notify, none]
      · simp [Waiter.notify, none]

theorem callers_notifyOne (q : Queue κ) : q.notifyOne.callers = q.callers := by
  unfold notifyOne
  split
  · rename_i ws h
    exact (notifyFirst_some h).1
  · rfl

/-- Who is asleep after a notice for one is so because another has received it. -/
theorem asleep_of_notifyOne {q : Queue κ} (h : q.notifyOne.Asleep) :
    q.Asleep ∧ q.notifyOne.owed = q.owed + 1 := by
  unfold notifyOne at h ⊢
  split at h <;> rename_i hf
  · obtain ⟨_, hs, ho⟩ := notifyFirst_some hf
    exact ⟨hs, ho⟩
  · obtain ⟨w, hw, hn⟩ := h
    exact absurd hn (notifyFirst_none hf w hw)

theorem not_asleep_of_kept_notifyOne {q : Queue κ} (h : q.kept = true → ¬q.Asleep)
    (hk : q.notifyOne.kept = true) : ¬q.notifyOne.Asleep := by
  intro hs
  obtain ⟨asleep, _⟩ := asleep_of_notifyOne hs
  unfold notifyOne at hk hs
  split at hk <;> rename_i hf <;> rw [hf] at hs
  · exact h hk asleep
  · obtain ⟨w, hw, hn⟩ := hs
    exact notifyFirst_none hf w hw hn

theorem not_asleep_notifyAll (q : Queue κ) : ¬q.notifyAll.Asleep := by
  rintro ⟨w, hw, hn⟩
  obtain ⟨v, _, rfl⟩ := List.mem_map.mp hw
  unfold Waiter.notify at hn
  split at hn
  · rename_i hv
    rw [hn] at hv
    cases hv
  · cases hn

/-! ## Coming and going -/

theorem callers_join (w : Waiter κ) (q : Queue κ) :
    (q.join w).callers = q.callers ++ [w.caller] := by
  unfold join
  split
  · simp only [callers, List.map_append, List.map_singleton, Waiter.notify]
    split <;> rfl
  · simp only [callers, List.map_append, List.map_singleton]

theorem kept_join (w : Waiter κ) (q : Queue κ) : (q.join w).kept = false := by
  unfold join
  split
  · rfl
  · rename_i h
    simpa using h

variable [DecidableEq κ] {caller : κ} {q : Queue κ}

theorem remove_of_waiter?_none (h : q.waiter? caller = none) : q.remove caller = q := by
  have all : q.waiters.filter (·.caller ≠ caller) = q.waiters := by
    refine List.filter_eq_self.mpr fun w hw => ?_
    simpa using List.find?_eq_none.mp h w hw
  unfold remove
  rw [all]

theorem remove_perm {w : Waiter κ} (hq : q.callers.Nodup) (h : q.waiter? caller = some w) :
    w.caller = caller ∧ q.waiters.Perm (w :: (q.remove caller).waiters) := by
  obtain ⟨ws, kept⟩ := q
  refine ⟨by simpa using List.find?_some h, ?_⟩
  simp only [callers, waiter?, remove] at hq h ⊢
  induction ws with
  | nil => cases h
  | cons v vs ih =>
    obtain ⟨hv, hvs⟩ := List.nodup_cons.mp hq
    by_cases hc : v.caller = caller
    · have e : v = w := by simpa [List.find?_cons, hc] using h
      have other : ∀ u ∈ vs, u.caller ≠ caller := fun u hu e =>
        hv (List.mem_map.mpr ⟨u, hu, e.trans hc.symm⟩)
      have rest : vs.filter (·.caller ≠ caller) = vs :=
        List.filter_eq_self.mpr fun u hu => decide_eq_true (other u hu)
      rw [List.filter_cons_of_neg (by simpa using hc), rest, e]
    · have found : vs.find? (·.caller = caller) = some w := by
        simpa [List.find?_cons, hc] using h
      rw [List.filter_cons_of_pos (by simpa using hc)]
      exact ((ih hvs found).cons v).trans (.swap w v _)

theorem asleep_of_remove (h : (q.remove caller).Asleep) : q.Asleep := by
  obtain ⟨w, hw, hn⟩ := h
  exact ⟨w, (List.mem_filter.mp hw).1, hn⟩

theorem owed_remove {w : Waiter κ} (hq : q.callers.Nodup) (h : q.waiter? caller = some w) :
    q.owed = (q.remove caller).owed + if w.notice = some .forOne then 1 else 0 := by
  unfold owed
  rw [(remove_perm hq h).2.countP_eq, List.countP_cons]
  simp only [decide_eq_true_eq]

theorem callers_remove (caller : κ) (q : Queue κ) :
    (q.remove caller).callers = q.callers.filter (· ≠ caller) := by
  simp only [callers, remove, List.filter_map]
  rfl

theorem callers_leave (caller : κ) (q : Queue κ) :
    (q.leave caller).callers = q.callers.filter (· ≠ caller) := by
  unfold leave
  dsimp only
  split
  · rw [callers_notifyOne, callers_remove]
  · exact callers_remove caller q

/-- A caller that leaves takes no notice for one along that another could use. -/
theorem asleep_of_leave (hq : q.callers.Nodup) (h : (q.leave caller).Asleep) :
    q.Asleep ∧ q.owed ≤ (q.leave caller).owed := by
  unfold leave at h ⊢
  dsimp only at h ⊢
  cases hw : q.waiter? caller with
  | none =>
    rw [hw, remove_of_waiter?_none hw] at h
    rw [remove_of_waiter?_none hw]
    exact ⟨h, Nat.le_refl _⟩
  | some w =>
    have left := owed_remove hq hw
    rw [hw, Option.bind_some] at h
    rw [Option.bind_some]
    split at h <;> rename_i hn
    · obtain ⟨rest, more⟩ := asleep_of_notifyOne h
      rw [if_pos hn] at left
      exact ⟨asleep_of_remove rest, by omega⟩
    · rw [if_neg fun e => hn (e.trans rfl)] at left
      exact ⟨asleep_of_remove h, by omega⟩

theorem not_asleep_of_kept_leave (hk : q.kept = true → ¬q.Asleep)
    (h : (q.leave caller).kept = true) : ¬(q.leave caller).Asleep := by
  have rest : (q.remove caller).kept = true → ¬(q.remove caller).Asleep :=
    fun hr ha => hk hr (asleep_of_remove ha)
  unfold leave at h ⊢
  dsimp only at h ⊢
  split at h
  · exact not_asleep_of_kept_notifyOne rest h
  · exact rest h

/-! ## Going on -/

theorem callers_goOn (caller : κ) (q : Queue κ) :
    (q.goOn caller).callers = (q.remove caller).callers := by
  unfold goOn
  split
  · rw [callers_leave, callers_remove]
  · rfl

/-- A caller that goes on takes at most its own notice along. -/
theorem asleep_of_goOn {w : Waiter κ} (hq : q.callers.Nodup) (hw : q.waiter? caller = some w)
    (h : (q.goOn caller).Asleep) : q.Asleep ∧ q.owed ≤ (q.goOn caller).owed + 1 := by
  unfold goOn at h ⊢
  split at h
  · rename_i late
    obtain ⟨asleep, kept⟩ := asleep_of_leave hq h
    rw [if_pos late]
    exact ⟨asleep, Nat.le_succ_of_le kept⟩
  · rename_i inTime
    have left := owed_remove hq hw
    rw [if_neg inTime]
    refine ⟨asleep_of_remove h, ?_⟩
    split at left <;> omega

theorem not_asleep_of_kept_goOn (hk : q.kept = true → ¬q.Asleep)
    (h : (q.goOn caller).kept = true) : ¬(q.goOn caller).Asleep := by
  unfold goOn at h ⊢
  split at h
  · rename_i late
    rw [if_pos late]
    exact not_asleep_of_kept_leave hk h
  · rename_i inTime
    rw [if_neg inTime]
    exact fun asleep => hk h (asleep_of_remove asleep)

/-- Who finds its time to be up keeps its place, and its notice if it gets one. -/
theorem map_expire {α : Type} (f : Waiter κ → α)
    (blind : ∀ w, f { w with expired := true } = f w) (caller : κ) (q : Queue κ) :
    (q.expire caller).waiters.map f = q.waiters.map f := by
  rw [expire, List.map_map]
  refine List.map_congr_left fun w _ => ?_
  simp only [Function.comp_apply]
  split
  · exact blind w
  · rfl

theorem callers_expire (caller : κ) (q : Queue κ) : (q.expire caller).callers = q.callers :=
  map_expire _ (fun _ => rfl) caller q

theorem notices_expire (caller : κ) (q : Queue κ) :
    (q.expire caller).waiters.map (·.notice) = q.waiters.map (·.notice) :=
  map_expire _ (fun _ => rfl) caller q

theorem asleep_iff_mem_notices {κ : Type} (q : Queue κ) :
    q.Asleep ↔ none ∈ q.waiters.map (·.notice) := by
  rw [List.mem_map, Asleep]

theorem asleep_expire_iff : (q.expire caller).Asleep ↔ q.Asleep := by
  rw [asleep_iff_mem_notices, notices_expire, ← asleep_iff_mem_notices]

theorem owed_expire (caller : κ) (q : Queue κ) : (q.expire caller).owed = q.owed := by
  have counted (ws : List (Waiter κ)) : ws.countP (·.notice = some .forOne) =
      (ws.map (·.notice)).countP (· = some .forOne) := by
    rw [List.countP_map]
    rfl
  rw [owed, owed, counted, counted, notices_expire]

end DataTier.Pool.Queue
