import DataTier.Proofs.Cache.Room
import DataTier.Proofs.Cache.Visit

/-! One flight for one key. Over a store with room for all that is written to it, a read that has
passed the gate finds what has been written for the key, or misses the key and keeps its gate
until it is written (`Step.keeps_reads`, `Step.keeps_writes`). Nobody else's gate is touched on
the way (`Passes`). -/

namespace DataTier.Cache.Blocking

variable {ι σ : Type} {i : ι} {k : Key} {g g' : Gates} {guards guards' : Prop}

/-! ## Gates -/

/-- The gates change for one key only, and for somebody who guards it before or afterwards. -/
structure Passes (guards guards' : Prop) (k : Key) (g g' : Gates) : Prop where
  mine : guards' → g'.isLocked k = true ∧ (guards ∨ g.isLocked k = false)
  others : ∀ l, g.isLocked l = true → g'.isLocked l = true ∨ guards ∧ l = k

namespace Passes

theorem stay (table : g'.table = g.table) (locked : guards → g.isLocked k = true)
    (keeps : guards' → guards) : Passes guards guards' k g g' where
  mine now := ⟨by rw [Gates.isLocked, table]; exact locked (keeps now), .inl (keeps now)⟩
  others l now := .inl (by rw [Gates.isLocked, table]; exact now)

theorem close (free : g.table.get? k = none) : Passes guards guards' k g (g.close k) where
  mine _ := ⟨by simp [Gates.isLocked_close], .inr (by simp [Gates.isLocked, Table.has, free])⟩
  others l now := .inl (by simp [Gates.isLocked_close, now])

theorem takeOut (now : guards) (later : ¬guards') : Passes guards guards' k g (g.takeOut k) where
  mine guarded := (later guarded).elim
  others l locked := by
    by_cases same : l = k
    · exact .inr ⟨now, same⟩
    · exact .inl (by simp [Gates.isLocked_takeOut, locked, Ne.symm same])

end Passes

/-! ## Visits -/

/-- Past the gate, and not out again. -/
def Phase.Inside : Phase → Prop
  | .reading | .writing _ | .leaving _ => True
  | .entering | .waiting _ | .opening .. | .finished _ => False

/-- The entry of a write is not below yet. -/
def Phase.isWriting : Phase → Bool
  | .writing _ => true
  | _ => false

theorem Phase.inside_of_isWriting {p : Phase} (h : p.isWriting = true) : p.Inside := by
  cases p with
  | writing => trivial
  | entering | waiting | reading | leaving | opening | finished => cases h

/-- A read keeps its gate also when it is over, if it has missed. -/
def Visit.Guards (v : Visit) : Prop := v.phase.Inside ∨ v.answer? = some (.ok none)

/-- What is known of a read, where `S` are the entries that have been written. -/
def Phase.Reads (S : Finset ι) (value : ι → Entry) (i : ι) : Phase → Prop
  | .entering | .waiting _ | .reading => True
  | .leaving a | .opening _ a => i ∈ S ∧ a = .ok (some (value i))
  | .finished a => (i ∈ S ∧ a = .ok (some (value i))) ∨ (i ∉ S ∧ a = .ok none)
  | .writing _ => False

/-- What is known of a write. -/
def Phase.Writes (S : Finset ι) (value : ι → Entry) (i : ι) : Phase → Prop
  | .writing e => i ∉ S ∧ e = value i
  | .leaving a | .opening _ a | .finished a => i ∈ S ∧ a = .ok none
  | .entering | .waiting _ | .reading => False

section

variable [DecidableEq ι] {S : Finset ι} {value : ι → Entry} {j : ι} {v : Visit}

/-- Other entries may be written meanwhile, and so may this one if the read keeps no gate. -/
theorem Visit.reads_insert (known : v.phase.Reads S value i) (apart : v.Guards → i ≠ j) :
    v.phase.Reads (insert j S) value i := by
  cases phase : v.phase <;> rw [phase] at known
  case entering | waiting | reading => trivial
  case writing => exact known
  case leaving | opening => exact ⟨Finset.mem_insert_of_mem known.1, known.2⟩
  case finished =>
    rcases known with ⟨old, hit⟩ | ⟨new, rfl⟩
    · exact .inl ⟨Finset.mem_insert_of_mem old, hit⟩
    · have guards : v.Guards := .inr (by rw [answer?, phase])
      exact .inr ⟨fun mem => (Finset.mem_insert.mp mem).elim (apart guards) new, rfl⟩

theorem Visit.writes_insert (known : v.phase.Writes S value i) (apart : v.phase.Inside → i ≠ j) :
    v.phase.Writes (insert j S) value i := by
  cases phase : v.phase <;> rw [phase] at known apart
  case entering | waiting | reading => exact known
  case leaving | opening | finished => exact ⟨Finset.mem_insert_of_mem known.1, known.2⟩
  case writing =>
    exact ⟨fun mem => (Finset.mem_insert.mp mem).elim (apart trivial) known.1, known.2⟩

end

/-- Whoever comes to read is before the gate, unless the clock cannot show the end of a wait. -/
theorem Visit.read_starts (S : Finset ι) (value : ι → Entry) (i : ι) (id : String)
    (now : Time.Instant) (k : Key) (timeout : Option Time.Duration) :
    let v := Visit.read id now k timeout
    (∃ e, v.answer? = some (.error e)) ∨ v.key = k ∧ v.phase.Reads S value i ∧ ¬v.Guards := by
  have outside (v : Visit) (phase : v.phase = .entering) : ¬v.Guards := by
    simp [Guards, answer?, phase, Phase.Inside]
  unfold Visit.read
  split
  · exact .inr ⟨rfl, trivial, outside _ rfl⟩
  · split
    · exact .inl ⟨_, rfl⟩
    · exact .inr ⟨rfl, trivial, outside _ rfl⟩

namespace Visit.Step

variable [DecidableEq ι] {room S : Finset ι} {key : ι → Key} {value : ι → Entry}
  {stores : Finset ι → σ → Prop} {d : Store σ} {now : Time.Instant} {v v' : Visit}
  {s s' : Blocking σ}

/-- A read waits too long, or goes on. -/
theorem keeps_reads (step : v.Step d now s v' s') (roomy : d.Roomy room key value stores)
    (inside : S ⊆ room) (hi : i ∈ room) (same : v.key = key i) (stored : stores S s.below)
    (locked : v.Guards → s.gates.isLocked (key i) = true) (known : v.phase.Reads S value i) :
    (∃ e, v'.answer? = some (.error e)) ∨
      v'.phase.Reads S value i ∧ stores S s'.below ∧
        Passes v.Guards v'.Guards (key i) s.gates s'.gates := by
  cases step with
  | enters phase free => exact .inr ⟨trivial, stored, same ▸ .close free⟩
  | meets phase | wakes phase =>
    refine .inr ⟨trivial, stored, .stay rfl locked fun guards => ?_⟩
    rcases guards with inside | missed
    · exact inside.elim
    · cases missed
  | expires => exact .inl ⟨_, rfl⟩
  | reads phase =>
    obtain ⟨answer, kept⟩ := roomy.get inside hi stored
    rw [same, answer]
    refine .inr ⟨?_, kept, .stay rfl locked fun _ => .inl (phase ▸ trivial)⟩
    by_cases written : i ∈ S
    · rw [if_pos written]
      exact ⟨written, rfl⟩
    · rw [if_neg written]
      exact .inr ⟨written, rfl⟩
  | writes phase =>
    rw [phase] at known
    exact known.elim
  | takesOut phase =>
    rw [phase] at known
    refine .inr ⟨known, stored, same ▸ .takeOut (.inl (phase ▸ trivial)) fun guards => ?_⟩
    rcases guards with inside | missed
    · exact inside
    · cases missed
  | strays phase free =>
    have shut := locked (.inl (phase ▸ trivial))
    rw [Gates.isLocked, Table.has, ← same, free] at shut
    cases shut
  | @opens gate a phase =>
    rw [phase] at known
    refine .inr ⟨.inl known, stored, .stay rfl locked fun guards => ?_⟩
    rcases guards with inside | missed
    · exact inside.elim
    · have none := known.2.symm.trans (Option.some.inj missed)
      cases none

/-- A write always goes on, and writes once. -/
theorem keeps_writes (step : v.Step d now s v' s') (roomy : d.Roomy room key value stores)
    (inside : S ⊆ room) (hi : i ∈ room) (same : v.key = key i) (stored : stores S s.below)
    (locked : v.phase.Inside → s.gates.isLocked (key i) = true)
    (known : v.phase.Writes S value i) :
    Passes v.phase.Inside v'.phase.Inside (key i) s.gates s'.gates ∧ v'.phase.isWriting = false ∧
      (if v.phase.isWriting then
        i ∉ S ∧ v'.phase.Writes (insert i S) value i ∧ stores (insert i S) s'.below
      else v'.phase.Writes S value i ∧ stores S s'.below) := by
  cases step with
  | enters phase | meets phase | wakes phase | expires phase | reads phase =>
    rw [phase] at known
    exact known.elim
  | writes phase =>
    rw [phase] at known
    obtain ⟨fresh, rfl⟩ := known
    obtain ⟨answer, kept⟩ := roomy.put inside hi stored
    rw [same, answer, phase]
    exact ⟨.stay rfl (phase ▸ locked) id, rfl, fresh, ⟨Finset.mem_insert_self i S, rfl⟩, kept⟩
  | takesOut phase =>
    rw [phase] at known ⊢
    exact ⟨same ▸ .takeOut trivial id, rfl, known, stored⟩
  | strays phase free =>
    have shut := locked (phase ▸ trivial)
    rw [Gates.isLocked, Table.has, ← same, free] at shut
    cases shut
  | opens phase =>
    rw [phase] at known ⊢
    exact ⟨.stay rfl (phase ▸ locked) False.elim, rfl, known, stored⟩

end Visit.Step
end DataTier.Cache.Blocking
