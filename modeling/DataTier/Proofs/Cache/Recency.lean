import DataTier.Proofs.Cache.Memory
import DataTier.Proofs.Ranking

/-! A memory is a list of entries in the order of their last uses. The list (`Lru`) has no clock
and no stamps: what is used goes to its end, and a new key takes the place of its head. A memory
stamps its slots and searches for the oldest stamp, and answers as the list does. -/

namespace DataTier.Cache

variable {k : Key} {e : Entry}

/-! ## The list -/

structure Lru where
  /-- The least recently used first. -/
  rows : Table Key Entry := []
  hits : Nat := 0
  misses : Nat := 0
  evictions : Nat := 0

namespace Lru

def use (k : Key) (e : Entry) (l : Lru) : Lru := { l with rows := l.rows.erase k ++ [(k, e)] }

def get (k : Key) (l : Lru) : Option Entry × Lru :=
  match l.rows.get? k with
  | none => (none, { l with misses := l.misses + 1 })
  | some e => (some e, { l.use k e with hits := l.hits + 1 })

/-- Whether there are just as many rows as there may be; a capacity of zero is none. -/
def isFull (capacity : Option Nat) (l : Lru) : Bool :=
  capacity.any fun n => 1 ≤ n && l.rows.length = n

def dropHead (l : Lru) : Lru := { l with rows := l.rows.tail, evictions := l.evictions + 1 }

/-- Only a new key needs room. -/
def makeRoom (capacity : Option Nat) (k : Key) (l : Lru) : Lru :=
  if !l.rows.has k && l.isFull capacity then l.dropHead else l

def put (capacity : Option Nat) (k : Key) (e : Entry) (l : Lru) : Lru :=
  (l.makeRoom capacity k).use k e

def store (id : String) (capacity : Option Nat) : Store Lru where
  id := id
  size l := (.ok l.rows.length, l)
  get k l := let (e, l) := l.get k; (.ok e, l)
  put k e l := (.ok (), l.put capacity k e)
  contains k l := (.ok (l.rows.has k), l)
  remove k l := (.ok (l.rows.get? k), { l with rows := l.rows.erase k })
  clear l := (.ok (), { l with rows := [] })

end Lru

/-! ## The memory as a list -/

namespace Memory

variable {m : Memory} {maxEntries : Option Nat}

/-- The entries in the order of their stamps, and the counters. -/
def toLru (m : Memory) : Lru where
  rows := (m.slots.ranked Slot.lastAccessed).mapValues Slot.entry
  hits := m.hits
  misses := m.misses
  evictions := m.evictions

/-- All slots have stamps of their own, and there are no more slots than there may be. -/
structure Orderly (maxEntries : Option Nat) (m : Memory) : Prop where
  dated : m.slots.Dated Slot.lastAccessed m.clock
  bounded : ∀ n, bound? maxEntries = some n → m.size ≤ n

theorem get?_toLru (h : m.slots.Dated Slot.lastAccessed m.clock) (k : Key) :
    m.toLru.rows.get? k = m.entry? k := by
  have look := Table.get?_perm (Table.ranked_perm Slot.lastAccessed m.slots).symm h.keys k
  rw [toLru, Table.get?_mapValues, ← look]
  rfl

theorem has_toLru (h : m.slots.Dated Slot.lastAccessed m.clock) (k : Key) :
    m.toLru.rows.has k = m.holds k := by
  rw [Table.has, get?_toLru h, entry?, Option.isSome_map]
  rfl

theorem length_toLru (m : Memory) : m.toLru.rows.length = m.size := by
  rw [toLru, Table.length_mapValues, (Table.ranked_perm _ _).length_eq]
  rfl

theorem rows_of_empty (empty : m.slots = []) : m.toLru.rows = [] := by
  rw [toLru, empty, Table.ranked, List.mergeSort_nil]
  rfl

theorem erase_toLru (h : m.slots.Dated Slot.lastAccessed m.clock) (k : Key) :
    m.toLru.rows.erase k = ((m.slots.erase k).ranked Slot.lastAccessed).mapValues Slot.entry := by
  rw [toLru, Table.erase_mapValues, h.ranked_erase]

/-- A slot with a new stamp comes last. -/
theorem rows_set (h : m.slots.Dated Slot.lastAccessed m.clock) (slot : Slot)
    (fresh : slot.lastAccessed = m.clock + 1) (k : Key) :
    ((m.slots.set k slot).ranked Slot.lastAccessed).mapValues Slot.entry =
      m.toLru.rows.erase k ++ [(k, slot.entry)] := by
  rw [h.ranked_set k fresh, Table.mapValues, List.map_append, List.map_singleton, toLru,
    Table.erase_mapValues]
  rfl

/-! ## Operations -/

theorem get_of_miss (miss : m.slots.get? k = none) :
    m.get k = (none, { m.tick with misses := m.misses + 1 }) := by
  simp only [get, tick, miss]

theorem get_of_hit {slot : Slot} (hit : m.slots.get? k = some slot) :
    m.get k = (some slot.entry, { m.tick with
      slots := m.slots.set k { slot with lastAccessed := m.clock + 1 }, hits := m.hits + 1 }) := by
  simp only [get, tick, hit]

theorem get_toLru (h : m.slots.Dated Slot.lastAccessed m.clock) (k : Key) :
    m.toLru.get k = ((m.get k).1, (m.get k).2.toLru) := by
  have look : m.toLru.rows.get? k = (m.slots.get? k).map Slot.entry := get?_toLru h k
  cases found : m.slots.get? k with
  | none =>
    rw [found, Option.map_none] at look
    simp only [Lru.get, look, get_of_miss found]
    rfl
  | some slot =>
    rw [found, Option.map_some] at look
    have rows := rows_set h { slot with lastAccessed := m.clock + 1 } rfl k
    simp only [Lru.get, look, get_of_hit found]
    exact congrArg (fun rows => (some slot.entry, { m.toLru with rows, hits := m.hits + 1 }))
      rows.symm

theorem makeRoom_tick (maxEntries : Option Nat) (k : Key) (m : Memory) :
    m.tick.makeRoom maxEntries k = (m.makeRoom maxEntries k).tick := by
  have evict : m.tick.evictLeastRecent = m.evictLeastRecent.tick := by
    simp only [evictLeastRecent, tick]
    split <;> rfl
  have same : (!m.tick.holds k && m.tick.isFull maxEntries) =
      (!m.holds k && m.isFull maxEntries) := rfl
  rw [makeRoom, makeRoom, same, evict]
  split <;> rfl

/-- The slot that a memory searches for when it is to drop one, if it has any. -/
theorem evict_cases (h : m.slots.Dated Slot.lastAccessed m.clock) (some : 0 < m.size) :
    ∃ v slot, m.slots.get? v = .some slot ∧
      (∀ j u, m.slots.get? j = .some u → j ≠ v → slot.lastAccessed < u.lastAccessed) ∧
      m.evictLeastRecent =
        { m with slots := m.slots.erase v, evictions := m.evictions + 1 } ∧
      m.slots.ranked Slot.lastAccessed =
        (v, slot) :: (m.slots.erase v).ranked Slot.lastAccessed := by
  cases found : leastRecent? m.slots with
  | none =>
    rw [size, leastRecent?_eq_none.mp found] at some
    exact absurd some (Nat.lt_irrefl 0)
  | some r =>
    obtain ⟨v, n⟩ := r
    obtain ⟨⟨slot, mem, rfl⟩, least⟩ := leastRecent?_spec found
    have look := (Table.mem_iff_get? h.keys).mp mem
    refine ⟨v, slot, look, ?_, ?_, h.ranked_cons look least⟩
    · intro j u hj other
      have mem' := (Table.mem_iff_get? h.keys).mpr hj
      refine Nat.lt_of_le_of_ne (least _ mem') ?_
      intro same
      exact other (congrArg Prod.fst (List.inj_on_of_nodup_map h.stamps mem' mem same.symm))
    · rw [evictLeastRecent, found]

theorem bound?_eq_some_iff {n : Nat} : bound? maxEntries = some n ↔ maxEntries = some n ∧ 0 < n := by
  rw [bound?, Option.filter_eq_some_iff, decide_eq_true_eq]

theorem isFull_iff : m.isFull maxEntries = true ↔ ∃ n, bound? maxEntries = some n ∧ n ≤ m.size := by
  unfold isFull
  split <;> rename_i bound <;> simp [bound]

/-- Room is made for a new key just when the list makes it. -/
theorem isFull_toLru (h : Orderly maxEntries m) :
    m.toLru.isFull maxEntries = m.isFull maxEntries := by
  rw [Bool.eq_iff_iff, isFull_iff, Lru.isFull, length_toLru, Option.any_eq_true]
  simp only [bound?_eq_some_iff, Bool.and_eq_true, decide_eq_true_eq, and_assoc]
  refine exists_congr fun n => and_congr_right fun bound => and_congr_right fun positive => ?_
  have few := h.bounded n (bound?_eq_some_iff.mpr ⟨bound, positive⟩)
  exact ⟨Nat.le_of_eq ∘ Eq.symm, Nat.le_antisymm few⟩

theorem makeRoom_of_full (new : m.holds k = false) (full : m.isFull maxEntries = true) :
    m.makeRoom maxEntries k = m.evictLeastRecent := by
  rw [makeRoom, new, full]
  rfl

theorem makeRoom_of_room (room : m.holds k = true ∨ m.isFull maxEntries = false) :
    m.makeRoom maxEntries k = m := by
  refine if_neg ?_
  rcases room with old | room
  · simp [old]
  · simp [room]

theorem size_pos_of_full (full : m.isFull maxEntries = true) : 0 < m.size := by
  obtain ⟨n, bound, few⟩ := isFull_iff.mp full
  exact Nat.lt_of_lt_of_le (bound?_eq_some_iff.mp bound).2 few

theorem makeRoom_cases (maxEntries : Option Nat) (k : Key) (m : Memory) :
    m.holds k = false ∧ m.isFull maxEntries = true ∨
      m.holds k = true ∨ m.isFull maxEntries = false := by
  cases m.holds k <;> cases m.isFull maxEntries <;> simp

theorem makeRoom_toLru (h : Orderly maxEntries m) (k : Key) :
    m.toLru.makeRoom maxEntries k = (m.makeRoom maxEntries k).toLru := by
  rw [Lru.makeRoom, has_toLru h.dated, isFull_toLru h]
  rcases makeRoom_cases maxEntries k m with ⟨new, full⟩ | room
  · obtain ⟨v, slot, _, _, evict, ranked⟩ := evict_cases h.dated (size_pos_of_full full)
    have rows : m.toLru.rows.tail = ((m.slots.erase v).ranked Slot.lastAccessed).mapValues
        Slot.entry := by
      rw [toLru, ranked]
      rfl
    rw [makeRoom_of_full new full, evict, if_pos (by simp [new, full]), Lru.dropHead, rows]
    rfl
  · rw [makeRoom_of_room room, if_neg]
    rcases room with old | room
    · simp [old]
    · simp [room]

theorem makeRoom_dated (h : m.slots.Dated Slot.lastAccessed m.clock) (maxEntries : Option Nat)
    (k : Key) : (m.makeRoom maxEntries k).slots.Dated Slot.lastAccessed m.clock := by
  unfold makeRoom evictLeastRecent
  split
  · split
    · exact h
    · exact h.erase _
  · exact h

/-- A write makes room and then puts its entry last. -/
theorem put_eq (maxEntries : Option Nat) (k : Key) (e : Entry) (m : Memory) :
    m.put maxEntries k e = { (m.makeRoom maxEntries k).tick with
      slots := (m.makeRoom maxEntries k).slots.set k ⟨e, m.clock + 1⟩ } := by
  have clock : (m.makeRoom maxEntries k).tick.clock = m.clock + 1 :=
    congrArg (· + 1) (makeRoom_clock maxEntries k m)
  rw [put, makeRoom_tick]
  dsimp only
  rw [clock]
  rfl

theorem put_toLru (h : Orderly maxEntries m) (k : Key) (e : Entry) :
    m.toLru.put maxEntries k e = (m.put maxEntries k e).toLru := by
  have dated : (m.makeRoom maxEntries k).slots.Dated Slot.lastAccessed
      (m.makeRoom maxEntries k).clock := by
    rw [makeRoom_clock]
    exact makeRoom_dated h.dated maxEntries k
  have rows := rows_set dated ⟨e, m.clock + 1⟩
    (congrArg (· + 1) (makeRoom_clock maxEntries k m).symm) k
  rw [put_eq, Lru.put, makeRoom_toLru h]
  exact congrArg (fun rows => { (m.makeRoom maxEntries k).toLru with rows }) rows.symm

/-! ## Orderly memories -/

theorem size_set_le (m : Memory) (k : Key) (slot : Slot) :
    (m.slots.set k slot).length ≤ m.size + 1 ∧
      (m.holds k = true → (m.slots.set k slot).length = m.size) := by
  have keys := congrArg List.length (Table.keys_set m.slots k slot)
  rw [Table.keys, List.length_map] at keys
  rw [keys]
  split
  · rename_i old
    simp [Table.keys, size]
  · rename_i new
    refine ⟨by simp [Table.keys, size], ?_⟩
    intro old
    exact absurd (mem_keys_iff.mpr old) new

/-- After room has been made there is a place for the key. -/
theorem makeRoom_bounded (h : Orderly maxEntries m) {n : Nat} (bound : bound? maxEntries = some n)
    (k : Key) : (m.makeRoom maxEntries k).size < n ∨
      (m.makeRoom maxEntries k).holds k = true ∧ (m.makeRoom maxEntries k).size ≤ n := by
  have few := h.bounded n bound
  rcases makeRoom_cases maxEntries k m with ⟨new, full⟩ | room
  · have pos := size_pos_of_full full
    obtain ⟨v, slot, look, _, evict, _⟩ := evict_cases h.dated pos
    have left := Table.length_erase_of_mem h.dated.keys (Table.mem_keys_iff_get?.mpr ⟨slot, look⟩)
    rw [makeRoom_of_full new full, evict]
    exact .inl (Nat.lt_of_lt_of_le (Nat.lt_of_succ_le (Nat.le_of_eq left)) few)
  · rw [makeRoom_of_room room]
    rcases room with old | room
    · exact .inr ⟨old, few⟩
    · refine .inl (Nat.lt_of_not_le fun many => ?_)
      have full := isFull_iff.mpr ⟨n, bound, many⟩
      rw [room] at full
      cases full

theorem Orderly.get (h : Orderly maxEntries m) (k : Key) : Orderly maxEntries (m.get k).2 := by
  cases found : m.slots.get? k with
  | none =>
    rw [get_of_miss found]
    exact ⟨h.dated.wait (Nat.le_succ _), h.bounded⟩
  | some slot =>
    have held : m.holds k = true := by
      rw [holds, Table.has, found]
      rfl
    rw [get_of_hit found]
    refine ⟨h.dated.set k rfl, ?_⟩
    intro n bound
    exact Nat.le_trans (Nat.le_of_eq ((size_set_le m k _).2 held)) (h.bounded n bound)

theorem Orderly.put (h : Orderly maxEntries m) (k : Key) (e : Entry) :
    Orderly maxEntries (m.put maxEntries k e) := by
  rw [put_eq]
  have clock := makeRoom_clock maxEntries k m
  constructor
  · rw [tick, clock]
    exact (makeRoom_dated h.dated maxEntries k).set k rfl
  · intro n bound
    have size := size_set_le (m.makeRoom maxEntries k) k ⟨e, m.clock + 1⟩
    rcases makeRoom_bounded h bound k with few | ⟨old, few⟩
    · exact Nat.le_trans size.1 few
    · exact Nat.le_trans (Nat.le_of_eq (size.2 old)) few

theorem Orderly.remove (h : Orderly maxEntries m) (k : Key) :
    Orderly maxEntries (m.remove k).2 := by
  refine ⟨h.dated.erase k, ?_⟩
  intro n bound
  have fewer : (m.slots.erase k).length ≤ m.slots.length := by
    rw [Table.erase_eq_filter]
    exact List.length_filter_le _ _
  exact Nat.le_trans fewer (h.bounded n bound)

theorem orderly_of_empty (maxEntries : Option Nat) (empty : m.slots = []) :
    Orderly maxEntries m := by
  constructor
  · rw [empty]
    exact .nil _ _
  · intro n _
    rw [size, empty]
    exact Nat.zero_le n

/-! ## Runs -/

theorem perform_orderly (id : String) (h : Orderly maxEntries m) (c : Call) :
    Orderly maxEntries ((store id maxEntries).perform c m).2 := by
  cases c with
  | size | contains => exact h
  | get k => exact h.get k
  | put k e => exact h.put k e
  | remove k => exact h.remove k
  | clear => exact orderly_of_empty maxEntries rfl

/-- The list answers as the memory does, and stands for it again. -/
theorem perform_toLru (id : String) (h : Orderly maxEntries m) (c : Call) :
    (Lru.store id maxEntries).perform c m.toLru =
      (((store id maxEntries).perform c m).1, ((store id maxEntries).perform c m).2.toLru) := by
  cases c with
  | size => simp only [Store.perform, Lru.store, store, length_toLru]
  | contains k => simp only [Store.perform, Lru.store, store, has_toLru h.dated]
  | get k => simp only [Store.perform, Lru.store, store, get_toLru h.dated]
  | put k e => simp only [Store.perform, Lru.store, store, put_toLru h]
  | remove k =>
    simp only [Store.perform, Lru.store, store, remove, get?_toLru h.dated, erase_toLru h.dated]
    rfl
  | clear =>
    have rows : m.clear.toLru.rows = [] := rows_of_empty rfl
    exact congrArg (fun rows => (Except.ok Reply.done, { m.toLru with rows })) rows.symm

theorem run_toLru (id : String) (h : Orderly maxEntries m) (cs : List Call) :
    (Lru.store id maxEntries).run cs m.toLru =
        (((store id maxEntries).run cs m).1, ((store id maxEntries).run cs m).2.toLru) ∧
      Orderly maxEntries ((store id maxEntries).run cs m).2 := by
  induction cs generalizing m with
  | nil => exact ⟨rfl, h⟩
  | cons c cs ih =>
    obtain ⟨same, orderly⟩ := ih (perform_orderly id h c)
    simp only [Store.run, perform_toLru id h c, same]
    exact ⟨trivial, orderly⟩

/-- A new key in a full memory drives out one other key, and there is no doubt which: its stamp
is before the stamps of all others. -/
theorem put_of_full (h : Orderly maxEntries m) (new : m.holds k = false)
    (full : m.isFull maxEntries = true) (e : Entry) :
    ∃ v slot, m.slots.get? v = some slot ∧
      (∀ j u, m.slots.get? j = some u → j ≠ v → slot.lastAccessed < u.lastAccessed) ∧
      (m.put maxEntries k e).evictions = m.evictions + 1 ∧
      ∀ j, (m.put maxEntries k e).holds j = true ↔ j = k ∨ m.holds j = true ∧ j ≠ v := by
  obtain ⟨v, slot, look, oldest, evict, _⟩ := evict_cases h.dated (size_pos_of_full full)
  refine ⟨v, slot, look, oldest, ?_, ?_⟩
  · rw [put_eq, makeRoom_of_full new full, evict]
    rfl
  · intro j
    rw [put_eq, makeRoom_of_full new full, evict, ← mem_keys_iff, ← mem_keys_iff]
    simp only [Table.mem_keys_set, Table.keys_erase, List.mem_filter, decide_eq_true_eq]

/-- A write that has room drives nothing out. -/
theorem put_of_room (room : m.holds k = true ∨ m.isFull maxEntries = false) (e : Entry) :
    (m.put maxEntries k e).evictions = m.evictions ∧
      ∀ j, (m.put maxEntries k e).holds j = true ↔ j = k ∨ m.holds j = true := by
  rw [put_eq, makeRoom_of_room room]
  refine ⟨rfl, ?_⟩
  intro j
  rw [← mem_keys_iff, ← mem_keys_iff]
  exact Table.mem_keys_set j k _

/-- Whatever is asked of a memory from the start on, it answers as the list does, and what it
has then is what the list has: the same entries in the same order, and as many hits, misses and
evictions. It never has more entries than its bound. No two of its stamps are the same, and a
write of a new key into a full memory drives out the one key with the oldest; all other writes
drive out none. -/
theorem answers_as_list (id : String) (capacity : Option Nat) (cs : List Call) :
    let m := (store id capacity).run cs {}
    let l := (Lru.store id capacity).run cs {}
    m.1 = l.1 ∧ m.2.toLru = l.2 ∧
    (∀ n, capacity = some n → 0 < n → m.2.size ≤ n) ∧
    (∀ j k u v, m.2.slots.get? j = some u → m.2.slots.get? k = some v →
      u.lastAccessed = v.lastAccessed → j = k) ∧
    ∀ k e, (m.2.holds k = false → m.2.isFull capacity = true →
        ∃ v slot, m.2.slots.get? v = some slot ∧
          (∀ j u, m.2.slots.get? j = some u → j ≠ v → slot.lastAccessed < u.lastAccessed) ∧
          (m.2.put capacity k e).evictions = m.2.evictions + 1 ∧
          ∀ j, (m.2.put capacity k e).holds j = true ↔ j = k ∨ m.2.holds j = true ∧ j ≠ v) ∧
      (m.2.holds k = true ∨ m.2.isFull capacity = false →
        (m.2.put capacity k e).evictions = m.2.evictions ∧
        ∀ j, (m.2.put capacity k e).holds j = true ↔ j = k ∨ m.2.holds j = true) := by
  intro m l
  have start : ({} : Memory).toLru = {} := by
    have rows : ({} : Memory).toLru.rows = [] := rows_of_empty rfl
    exact congrArg (fun rows => ({ rows } : Lru)) rows
  obtain ⟨same, orderly⟩ := run_toLru id (orderly_of_empty capacity (m := {}) rfl) cs
  rw [start] at same
  refine ⟨(congrArg Prod.fst same).symm, (congrArg Prod.snd same).symm, ?_, ?_, ?_⟩
  · intro n bound positive
    exact orderly.bounded n (bound?_eq_some_iff.mpr ⟨bound, positive⟩)
  · intro j k u v hj hk stamp
    have mem := (Table.mem_iff_get? orderly.dated.keys).mpr hj
    have mem' := (Table.mem_iff_get? orderly.dated.keys).mpr hk
    exact congrArg Prod.fst (List.inj_on_of_nodup_map orderly.dated.stamps mem mem' stamp)
  · intro k e
    exact ⟨fun new full => put_of_full orderly new full e, fun room => put_of_room room e⟩

end Memory
end DataTier.Cache
