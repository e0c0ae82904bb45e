import DataTier.Cache.Key
import DataTier.Proofs.Digest.Framing

/-! Which parts a key stands for. The stream that is hashed into a key gives back its parts, how
many there are and where each of them ends, whatever bytes they hold; so two keys are equal for
different parts only if SHA-256 has one digest for two different streams. -/

namespace DataTier.Cache.Key

open Digest

/-! ## Streams -/

/-- A part whose length its field can hold. -/
def FitsField (bytes : List UInt8) : Prop := bytes.length < Nat.pow 2 64

theorem FitsField.lt_bound {bytes : List UInt8} (h : FitsField bytes) :
    bytes.length < fieldBound 8 := h

theorem framing : Framing framePart FitsField where
  nonempty bytes empty := by
    have length := congrArg List.length empty
    simp [framePart] at length
  ends {a b r s} ha hb same := by
    rw [framePart, framePart, List.append_assoc, List.append_assoc] at same
    obtain ⟨fields, rest⟩ := List.append_inj same (by simp)
    exact List.append_inj rest (littleEndian_inj ha.lt_bound hb.lt_bound fields)

theorem stream_injective {ps qs : List (List UInt8)} (hp : ∀ p ∈ ps, FitsField p)
    (hq : ∀ q ∈ qs, FitsField q) (same : stream ps = stream qs) : ps = qs :=
  framing.flatMap_inj hp hq same

/-! ## Keys -/

/-- A key shows its digest whatever number stands before it. -/
theorem digest_of_ofParts {ps qs : List (List UInt8)} (same : ofParts ps = ofParts qs) :
    Sha256.hexDigest (stream ps) = Sha256.hexDigest (stream qs) := by
  have text := congrArg String.toList (Key.mk.inj same)
  simp only [String.toList_append] at text
  have width (message : List UInt8) : (Sha256.hexDigest message).toList.length = 64 := by
    rw [String.length_toList, Sha256.length_hexDigest]
  exact String.toList_injective (List.append_inj_right' text ((width _).trans (width _).symm))

/-- What is added to a key: bytes, or a data value, which stands for its one-line text. -/
inductive Part where
  | bytes (content : List UInt8)
  | value (v : Json)

def Part.content : Part → List UInt8
  | bytes content => content
  | value v => partOf v

/-- The hashed streams of two lists of parts are equal just where the parts have the same bytes,
one by one; and so are the keys, unless the two streams are a collision. -/
theorem keys_tell_parts_apart (ps qs : List Part) (hp : ∀ p ∈ ps, FitsField p.content)
    (hq : ∀ q ∈ qs, FitsField q.content) :
    let xs := ps.map Part.content
    let ys := qs.map Part.content
    (stream xs = stream ys ↔ xs = ys) ∧
      ((Sha256.hash (stream xs) = Sha256.hash (stream ys) → stream xs = stream ys) →
        (ofParts xs = ofParts ys ↔ xs = ys)) := by
  intro xs ys
  have hx : ∀ x ∈ xs, FitsField x := List.forall_mem_map.mpr hp
  have hy : ∀ y ∈ ys, FitsField y := List.forall_mem_map.mpr hq
  refine ⟨⟨stream_injective hx hy, congrArg stream⟩, fun apart => ⟨fun same => ?_, congrArg ofParts⟩⟩
  exact stream_injective hx hy (apart (Sha256.hexDigest_eq_iff.mp (digest_of_ofParts same)))

/-- A single part that looks like the frame of the byte one, and that byte behind nothing. -/
theorem keys_tell_parts_apart_framed :
    let ps : List Part := [.bytes [1, 0, 0, 0, 0, 0, 0, 0, 0x31]]
    let qs : List Part := [.bytes [], .value (.nat 1)]
    let xs := ps.map Part.content
    let ys := qs.map Part.content
    (∀ p ∈ ps, FitsField p.content) ∧ (∀ q ∈ qs, FitsField q.content) ∧
      (Sha256.hash (stream xs) = Sha256.hash (stream ys) → stream xs = stream ys) ∧
      ofParts xs ≠ ofParts ys := by
  intro ps qs xs ys
  have hp : ∀ p ∈ ps, FitsField p.content := by
    simp [ps, Part.content, FitsField]
  have hq : ∀ q ∈ qs, FitsField q.content := by
    unfold FitsField
    decide +kernel
  have apart : Sha256.hash (stream xs) = Sha256.hash (stream ys) → stream xs = stream ys := by
    decide +kernel
  have differ : xs ≠ ys := by decide +kernel
  exact ⟨hp, hq, apart, fun same => differ (((keys_tell_parts_apart ps qs hp hq).2 apart).mp same)⟩

end DataTier.Cache.Key
