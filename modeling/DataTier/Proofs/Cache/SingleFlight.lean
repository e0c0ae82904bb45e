import DataTier.Cache.Memory
import DataTier.Cache.Soft
import DataTier.Cache.Blocking
import DataTier.Proofs.Cache.Order
import Mathlib.Data.Set.Card

/-! Single flight. Where clients settle only keys that they owe, a key is in the hands of one
of them at most: inside a read past its gate, or between a miss and the call that settles the
key. The locked keys are those in somebody's hands, and no gate is missing when a call wants
to take it out. -/

namespace DataTier.Cache.Blocking

variable {ι σ : Type}

namespace Crowd

variable {d : Store σ} {id : String} {w : Crowd ι σ}

theorem Orderly.mem_held_iff (h : w.Orderly id) (obedient : w.strays = []) {i : ι} {k : Key} :
    k ∈ (w.clients i).held ↔ w.Keeps i k :=
  ((h.fits i).kept k (by rw [obedient]; exact List.not_mem_nil)).1

theorem Orderly.lockedKeys_eq (h : w.Orderly id) (obedient : w.strays = []) :
    w.shared.gates.lockedKeys = {k | ∃ i, k ∈ (w.clients i).held}.ncard := by
  have locked : {k | ∃ i, k ∈ (w.clients i).held} = ↑w.shared.gates.table.keys.toFinset := by
    ext k
    rw [Set.mem_ofPred_eq, Finset.mem_coe, List.mem_toFinset, mem_keys_table_iff h.gates]
    exact exists_congr fun i => h.mem_held_iff obedient
  rw [locked, Set.ncard_coe_finset, List.toFinset_card_of_nodup h.gates.nodup, Table.keys,
    List.length_map, Gates.lockedKeys]

theorem Orderly.failedInCall_of_invalidRelease (h : w.Orderly id) (obedient : w.strays = [])
    {i : ι} {k l : Key} {cache : String} {earlier : List (Deed ι)}
    (hm : .answered i k (.error (.invalidRelease l cache)) :: earlier <:+ w.log) :
    FailedInCall i (.invalidRelease l cache) earlier := by
  rcases h.answers i k _ earlier hm with ⟨t, e⟩ | ⟨t, e⟩ | below | ⟨_, stray⟩
  · cases e
  · cases e
  · exact below
  · rw [obedient] at stray
    cases stray

variable [DecidableEq ι]

/-- At any moment of any run of clients who settle only what they owe, no two of them have one
key in hand, nor does one have it twice; the locked keys are as many as the keys in hand; and
a call that answers that a gate was released which nobody held has itself been told so by the
layer below. -/
theorem single_flight (d : Store σ) (below : σ) (timeout : Option Time.Duration)
    (ms : List (Move ι σ)) :
    let w : Crowd ι σ := (start below timeout).run d ms
    w.strays = [] →
      (∀ i j k, k ∈ (w.clients i).held → k ∈ (w.clients j).held → i = j) ∧
      (∀ i, (w.clients i).held.Nodup) ∧
      w.shared.gates.lockedKeys = {k | ∃ i, k ∈ (w.clients i).held}.ncard ∧
      (∀ i k l cache earlier,
        .answered i k (.error (.invalidRelease l cache)) :: earlier <:+ w.log →
        FailedInCall i (.invalidRelease l cache) earlier) := by
  intro w obedient
  have h : w.Orderly d.id := (start_orderly below timeout d.id).run ms
  refine ⟨fun i j k hi hj => ?_, fun i => ?_, h.lockedKeys_eq obedient, ?_⟩
  · exact ((h.mem_held_iff obedient).mp hi).eq ((h.mem_held_iff obedient).mp hj) h.gates
  · refine List.nodup_iff_count_le_one.mpr fun k => ((h.fits i).kept k ?_).2
    rw [obedient]
    exact List.not_mem_nil
  · exact fun i k l cache earlier hm => h.failedInCall_of_invalidRelease obedient hm

/-- The second client has waited for the first one's entry and is past the gate with it. -/
theorem single_flight_waiter :
    let k : Key := ⟨"k"⟩
    let d := Memory.store "users" none
    let ms : List (Move Nat Memory) :=
      [.read 0 k .start, .step 0 .start, .read 1 k .start, .step 1 .start, .step 0 .start,
        .collect 0, .settle 0 k (some .knownAbsent), .step 0 .start, .step 0 .start,
        .step 1 .start, .step 0 .start, .step 1 .start, .step 1 .start, .step 1 .start]
    (run d (start {} none) ms).strays = [] ∧ k ∈ ((run d (start {} none) ms).clients 1).held ∧
      k ∉ ((run d (start {} none) ms).clients 0).held := by
  intro k d ms
  have obedient : (run d (start {} none) ms).strays = [] := by decide +kernel
  have inside : k ∈ ((run d (start {} none) ms).clients 1).held := by decide +kernel
  obtain ⟨sole, -⟩ := single_flight d {} none ms obedient
  exact ⟨obedient, inside, fun other => absurd (sole 1 0 k inside other) (by decide)⟩

/-- The limits of single flight. The layer below may have gates of its own: what a soft layer
between the two has reclaimed is removed there at a gate that nobody has closed, and the read of
another key fails. And a read that has taken its gate out of the table, but has not opened it
yet, is still under way when the next one has passed a gate of its own. -/
theorem single_flight_limits :
    let a : Key := ⟨"a"⟩
    let b : Key := ⟨"b"⟩
    let d := Soft.store ⟨0, some 0⟩ (Blocking.store (fun _ => Memory.store "users" none) .start)
    let v : Crowd Nat (Soft (Blocking Memory)) := (start ⟨⟨{}, {}⟩, {}⟩ none).run d
      [.read 0 a .start, .step 0 .start, .step 0 .start, .collect 0,
        .settle 0 a (some (.found (.number (.whole 1)))), .step 0 .start, .step 0 .start,
        .step 0 .start, .collect 0,
        .read 0 b .start, .step 0 .start, .step 0 .start, .step 0 .start, .step 0 .start,
        .collect 0]
    let w : Crowd Nat Memory := (start {} none).run (Memory.store "users" none)
      [.read 0 a .start, .step 0 .start, .step 0 .start, .collect 0,
        .settle 0 a (some .knownAbsent), .step 0 .start, .step 0 .start, .step 0 .start,
        .collect 0,
        .read 0 a .start, .step 0 .start, .step 0 .start, .step 0 .start,
        .read 1 a .start, .step 1 .start]
    (v.strays = [] ∧ v.log.head? = some (.answered 0 b (.error (.invalidRelease a "users")))) ∧
      w.strays = [] ∧
      (w.clients 0).activity =
        .reading { key := a, phase := .opening 1 (.ok (some .knownAbsent)) } ∧
      (w.clients 1).activity = .reading { key := a, phase := .reading } :=
  ⟨⟨by decide +kernel, by with_unfolding_all rfl⟩, by decide +kernel, rfl, rfl⟩

end Crowd

end DataTier.Cache.Blocking
