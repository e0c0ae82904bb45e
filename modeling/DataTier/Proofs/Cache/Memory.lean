import DataTier.Cache.Memory
import DataTier.Proofs.Table

/-! What the operations of a memory do to its entries. A read changes none, a removal one; a
write may evict another key, the one with the oldest stamp, and leaves the others as they
are. -/

namespace DataTier.Cache.Memory

variable {m : Memory} {j k : Key} {e f : Entry} {maxEntries : Option Nat}

theorem mem_keys_iff : k ∈ m.slots.keys ↔ m.holds k = true := Table.mem_keys_iff ..

theorem holds_iff : m.holds k = true ↔ ∃ e, m.entry? k = some e := by
  rw [← Option.isSome_iff_exists, entry?, Option.isSome_map]
  rfl

/-- What the entry of a key weighs, if there is one. -/
def weightOf (m : Memory) (k : Key) : Nat := (m.entry? k).elim 0 Entry.weight

theorem get_fst (k : Key) (m : Memory) : (m.get k).1 = m.entry? k := by
  unfold get entry?
  dsimp only
  split <;> rename_i look <;> simp only [tick] at look <;> rw [look] <;> rfl

theorem entry?_get (j k : Key) (m : Memory) : entry? (m.get k).2 j = m.entry? j := by
  unfold get entry?
  dsimp only
  split
  · rfl
  · rename_i slot look
    simp only [tick] at look ⊢
    rw [Table.get?_set]
    split
    · rename_i same
      rw [← same, look]
      rfl
    · rfl

theorem nodup_get (h : m.slots.keys.Nodup) (k : Key) : (m.get k).2.slots.keys.Nodup := by
  unfold get
  dsimp only
  split
  · exact h
  · exact Table.nodup_keys_set h _ _

theorem entry?_remove (j k : Key) (m : Memory) :
    entry? (m.remove k).2 j = if k = j then none else m.entry? j := by
  simp only [remove, entry?, Table.get?_erase]
  split <;> rfl

theorem holds_remove (j k : Key) (m : Memory) :
    (m.remove k).2.holds j = true ↔ k ≠ j ∧ m.holds j = true := by
  simp only [holds_iff, entry?_remove]
  split <;> simp [*]

theorem entry?_of_evict (h : m.evictLeastRecent.entry? j = some e) : m.entry? j = some e := by
  unfold evictLeastRecent at h
  split at h
  · exact h
  · simp only [Table.get?_erase, entry?] at h
    split at h
    · cases h
    · exact h

theorem nodup_evict (h : m.slots.keys.Nodup) : m.evictLeastRecent.slots.keys.Nodup := by
  unfold evictLeastRecent
  split
  · exact h
  · exact Table.nodup_keys_erase h _

theorem entry?_put_self (maxEntries : Option Nat) (k : Key) (e : Entry) (m : Memory) :
    entry? (m.put maxEntries k e) k = some e := by
  simp [put, entry?]

theorem entry?_put (unbounded : bound? maxEntries = none) (j k : Key) (e : Entry) (m : Memory) :
    entry? (m.put maxEntries k e) j = if k = j then some e else m.entry? j := by
  have room : m.tick.makeRoom maxEntries k = m.tick := by
    simp [makeRoom, isFull, unbounded]
  simp only [put, room, entry?, Table.get?_set]
  split <;> rfl

/-- A write may evict another key; it does not change its entry. -/
theorem entry?_of_put (h : entry? (m.put maxEntries k e) j = some f) (other : k ≠ j) :
    m.entry? j = some f := by
  simp only [put, entry?, Table.get?_set, if_neg other] at h
  unfold makeRoom at h
  split at h
  · exact entry?_of_evict (m := m.tick) h
  · exact h

theorem nodup_put (h : m.slots.keys.Nodup) : (m.put maxEntries k e).slots.keys.Nodup := by
  refine Table.nodup_keys_set ?_ _ _
  unfold makeRoom
  split
  · exact nodup_evict (m := m.tick) h
  · exact h

/-! ## Stamps -/

theorem get?_get (j k : Key) (m : Memory) : (m.get k).2.slots.get? j =
    if k = j then (m.slots.get? j).map fun s => { s with lastAccessed := m.clock + 1 }
    else m.slots.get? j := by
  unfold get
  dsimp only
  split <;> rename_i look <;> simp only [tick] at look ⊢
  · split
    · rename_i same
      rw [← same, look, Option.map_none]
    · rfl
  · rw [Table.get?_set]
    split
    · rename_i same
      rw [← same, look, Option.map_some]
    · rfl

theorem get_clock (k : Key) (m : Memory) : (m.get k).2.clock = m.clock + 1 := by
  unfold get
  dsimp only
  split <;> rfl

theorem get?_put_self (maxEntries : Option Nat) (k : Key) (e : Entry) (m : Memory) :
    (m.put maxEntries k e).slots.get? k = some ⟨e, m.clock + 1⟩ := by
  have stamp : (m.tick.makeRoom maxEntries k).clock = m.clock + 1 := makeRoom_clock ..
  simp [put, stamp]

/-- A write leaves every other slot as it is or evicts it. -/
theorem get?_of_put {slot : Slot} (look : (m.put maxEntries k e).slots.get? j = some slot)
    (other : k ≠ j) : m.slots.get? j = some slot := by
  simp only [put, Table.get?_set, if_neg other] at look
  unfold makeRoom evictLeastRecent at look
  split at look
  · split at look
    · exact look
    · rw [Table.get?_erase] at look
      split at look
      · cases look
      · exact look
  · exact look

theorem leastRecent?_eq_none {t : Table Key Slot} : leastRecent? t = none ↔ t = [] := by
  constructor
  · intro none
    cases t with
    | nil => rfl
    | cons e t =>
      rw [leastRecent?] at none
      split at none
      · cases none
      · split at none <;> cases none
  · rintro rfl
    rfl

theorem leastRecent?_spec {t : Table Key Slot} {n : Nat} (h : leastRecent? t = some (k, n)) :
    (∃ slot, (k, slot) ∈ t ∧ slot.lastAccessed = n) ∧ ∀ e ∈ t, n ≤ e.2.lastAccessed := by
  induction t generalizing k n with
  | nil => cases h
  | cons e t ih =>
    obtain ⟨j, slot⟩ := e
    rw [leastRecent?] at h
    split at h
    · rename_i last
      obtain ⟨rfl, rfl⟩ := Prod.mk.inj (Option.some.inj h)
      obtain rfl := leastRecent?_eq_none.mp last
      exact ⟨⟨slot, List.mem_cons_self, rfl⟩, by simp⟩
    · rename_i i m rest
      obtain ⟨⟨slot', mem, stamp⟩, least⟩ := ih rest
      split at h <;> rename_i le <;> obtain ⟨rfl, rfl⟩ := Prod.mk.inj (Option.some.inj h)
      · refine ⟨⟨slot, List.mem_cons_self, rfl⟩, fun e he => ?_⟩
        rcases List.mem_cons.mp he with rfl | he
        · exact Nat.le_refl _
        · exact Nat.le_trans le (least e he)
      · refine ⟨⟨slot', List.mem_cons_of_mem _ mem, stamp⟩, fun e he => ?_⟩
        rcases List.mem_cons.mp he with rfl | he
        · exact Nat.le_of_not_le le
        · exact least e he

/-- Only a new key in a full memory drives another one out, and that is one whose stamp is the
oldest. -/
theorem evicted_of_put (nodup : m.slots.keys.Nodup) (held : m.holds j = true)
    (gone : (m.put maxEntries k e).holds j = false) : m.holds k = false ∧
      (∃ n, bound? maxEntries = some n ∧ n ≤ m.size) ∧ ∃ slot, m.slots.get? j = some slot ∧
        ∀ i u, m.slots.get? i = some u → slot.lastAccessed ≤ u.lastAccessed := by
  have other : k ≠ j := by
    rintro rfl
    simp [holds, Table.has, get?_put_self] at gone
  simp only [holds, Table.has, put, Table.get?_set, if_neg other] at gone
  unfold makeRoom at gone
  split at gone
  · rename_i room
    obtain ⟨new, full⟩ : m.holds k = false ∧ m.isFull maxEntries = true := by
      rw [Bool.and_eq_true, Bool.not_eq_true'] at room
      exact room
    have bounded : ∃ n, bound? maxEntries = some n ∧ n ≤ m.size := by
      unfold isFull at full
      split at full
      · cases full
      · exact ⟨_, ‹_›, of_decide_eq_true full⟩
    refine ⟨new, bounded, ?_⟩
    unfold evictLeastRecent at gone
    split at gone
    · rw [holds, Table.has] at held
      exact absurd held (Bool.eq_false_iff.mp gone)
    · rename_i v n least
      obtain ⟨⟨slot, mem, stamp⟩, oldest⟩ := leastRecent?_spec least
      rw [Table.get?_erase] at gone
      split at gone
      · rename_i same
        subst same
        refine ⟨slot, (Table.mem_iff_get? nodup).mp mem, fun i u look => ?_⟩
        exact stamp ▸ oldest (i, u) ((Table.mem_iff_get? nodup).mpr look)
      · exact absurd held (Bool.eq_false_iff.mp gone)
  · exact absurd held (Bool.eq_false_iff.mp gone)

end DataTier.Cache.Memory
