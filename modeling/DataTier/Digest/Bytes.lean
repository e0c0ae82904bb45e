/-! Numbers as bytes, in either order, and the bytes of a text. A number keeps its low
bytes only, so a field of `width` bytes tells apart all numbers below `256 ^ width`. -/

namespace DataTier.Digest

/-- The least significant byte first. -/
def littleEndian : Nat → Nat → List UInt8
  | 0, _ => []
  | width + 1, n => n.toUInt8 :: littleEndian width (n / 256)

def bigEndian (width n : Nat) : List UInt8 := (littleEndian width n).reverse

def textBytes (s : String) : List UInt8 := s.toUTF8.toList

@[simp] theorem littleEndian_length (width n : Nat) : (littleEndian width n).length = width := by
  induction width generalizing n with
  | zero => rfl
  | succ width ih => simp [littleEndian, ih]

@[simp] theorem bigEndian_length (width n : Nat) : (bigEndian width n).length = width := by
  simp [bigEndian]

end DataTier.Digest
