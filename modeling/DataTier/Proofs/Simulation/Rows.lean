import DataTier.Proofs.Cache.KeyParts
import DataTier.Simulation.Rows

/-! Which row a key stands for. What is hashed into a key tells its parts, and a row's part tells
its number, so two rows have the same key only if SHA-256 has the same digest for two different
streams. -/

namespace DataTier

namespace Cache.Key

/-- The length that stands before a part has a width of its own. -/
theorem framePart_injective {a b : List UInt8} (h : framePart a = framePart b) : a = b :=
  (List.append_inj h (by simp)).2

theorem stream_pair {p a b : List UInt8} (h : stream [p, a] = stream [p, b]) : a = b := by
  simp only [stream, List.flatMap_cons, List.flatMap_nil, List.append_nil] at h
  exact framePart_injective (List.append_cancel_left h)

end Cache.Key

/-! ## Rows -/

namespace Simulation

open Cache Digest

theorem compact_nat_injective {a b : Nat} (h : (Json.nat a).compact = (Json.nat b).compact) :
    a = b := by
  have digits : toString a = toString b := h
  have number := congrArg (fun s => Nat.ofDigitChars 10 s.toList 0) digits
  simpa [Nat.toString_eq_ofList_toDigits] using number

/-- The parts of a row's key. -/
def rowParts (id : Nat) : List (List UInt8) :=
  [textBytes "select_row_by_id", Key.partOf (.nat id)]

theorem stream_rowParts {a b : Nat} (h : Key.stream (rowParts a) = Key.stream (rowParts b)) :
    a = b :=
  compact_nat_injective (textBytes_injective (Key.stream_pair h))

/-- The hash tells the rows below a bound apart. -/
def DigestsDiffer (rows : Nat) : Prop :=
  ∀ a < rows, ∀ b < rows, Sha256.hexDigest (Key.stream (rowParts a)) =
    Sha256.hexDigest (Key.stream (rowParts b)) →
      Key.stream (rowParts a) = Key.stream (rowParts b)

theorem DigestsDiffer.rowKey {rows a b : Nat} (h : DigestsDiffer rows) (ha : a < rows)
    (hb : b < rows) (same : rowKey a = rowKey b) : a = b := by
  have keys : Key.ofParts (rowParts a) = Key.ofParts (rowParts b) := same
  exact stream_rowParts (h a ha b hb (Key.digest_of_ofParts keys))

end Simulation
end DataTier
