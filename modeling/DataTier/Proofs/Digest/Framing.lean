import DataTier.Digest.Sha256
import Mathlib.Data.List.Basic

/-! What can be read back from bytes: a number below the bound of its field, a text, and the items
of a stream of frames, as long as the frame of each can be told from all that follows it
(`Framing.flatMap_inj`). From its digits a hash can be read back. -/

namespace DataTier.Digest

/-! ## Numbers -/

/-- Numbers below this are told apart in a field of so many bytes. -/
def fieldBound (width : Nat) : Nat := Nat.pow 256 width

theorem fieldBound_succ (width : Nat) : fieldBound (width + 1) = fieldBound width * 256 :=
  rfl

theorem littleEndian_inj {width a b : Nat} (ha : a < fieldBound width) (hb : b < fieldBound width)
    (same : littleEndian width a = littleEndian width b) : a = b := by
  induction width generalizing a b with
  | zero =>
    exact (Nat.lt_one_iff.mp ha).trans (Nat.lt_one_iff.mp hb).symm
  | succ width ih =>
    rw [littleEndian, littleEndian, List.cons.injEq] at same
    rw [fieldBound_succ] at ha hb
    have low : a % 256 = b % 256 := by simpa using congrArg UInt8.toNat same.1
    have high : a / 256 = b / 256 :=
      ih (Nat.div_lt_of_lt_mul (by omega)) (Nat.div_lt_of_lt_mul (by omega)) same.2
    omega

theorem bigEndian_inj {width a b : Nat} (ha : a < fieldBound width) (hb : b < fieldBound width)
    (same : bigEndian width a = bigEndian width b) : a = b :=
  littleEndian_inj ha hb (List.reverse_injective same)

/-! ## Texts -/

theorem toList_loop (bytes : ByteArray) (i : Nat) (acc : List UInt8) :
    ByteArray.toList.loop bytes i acc = acc.reverse ++ bytes.data.toList.drop i := by
  fun_induction ByteArray.toList.loop bytes i acc with
  | case1 i acc inside ih =>
    have bound : i < bytes.data.toList.length := by simpa using inside
    have byte : bytes.get! i = bytes.data.toList[i] := by
      rw [Array.getElem_toList]
      exact getElem!_pos bytes.data i (by simpa using inside)
    rw [ih, List.drop_eq_getElem_cons bound, byte]
    simp
  | case2 i acc past =>
    have out : bytes.data.toList.length ≤ i := by simpa using past
    simp [List.drop_eq_nil_of_le out]

theorem textBytes_eq (s : String) : textBytes s = s.toByteArray.data.toList := by
  rw [textBytes, ByteArray.toList, toList_loop, List.reverse_nil, List.nil_append, List.drop_zero,
    String.toUTF8_eq_toByteArray]

theorem textBytes_injective {s t : String} (h : textBytes s = textBytes t) : s = t := by
  rw [textBytes_eq, textBytes_eq] at h
  exact String.toByteArray_inj.mp (ByteArray.ext (Array.ext' h))

theorem length_textBytes (s : String) : (textBytes s).length = s.utf8ByteSize := by
  rw [textBytes_eq, Array.length_toList]
  rfl

/-! ## Frames -/

variable {α : Type} {frame : α → List UInt8} {fits : α → Prop}

/-- The frame of an item that fits ends where it ends, whatever comes behind it. -/
structure Framing (frame : α → List UInt8) (fits : α → Prop) : Prop where
  nonempty : ∀ a, frame a ≠ []
  ends : ∀ {a b r s}, fits a → fits b → frame a ++ r = frame b ++ s → a = b ∧ r = s

theorem Framing.flatMap_inj (h : Framing frame fits) {as bs : List α} (ha : ∀ a ∈ as, fits a)
    (hb : ∀ b ∈ bs, fits b) (same : as.flatMap frame = bs.flatMap frame) : as = bs := by
  induction as generalizing bs with
  | nil =>
    cases bs with
    | nil => rfl
    | cons b bs =>
      rw [List.flatMap_nil, List.flatMap_cons] at same
      exact absurd (List.append_eq_nil_iff.mp same.symm).1 (h.nonempty b)
  | cons a as ih =>
    cases bs with
    | nil =>
      rw [List.flatMap_nil, List.flatMap_cons] at same
      exact absurd (List.append_eq_nil_iff.mp same).1 (h.nonempty a)
    | cons b bs =>
      rw [List.flatMap_cons, List.flatMap_cons] at same
      obtain ⟨rfl, rest⟩ := h.ends (ha a List.mem_cons_self) (hb b List.mem_cons_self) same
      rw [ih (fun x hx => ha x (List.mem_cons_of_mem a hx))
        (fun x hx => hb x (List.mem_cons_of_mem a hx)) rest]

end DataTier.Digest

/-! ## Digits of a hash -/

namespace DataTier.Text

theorem hexValue?_hexDigit {n : Nat} (h : n < 16) : hexValue? (hexDigit n) = some n := by
  have all : ∀ k : Fin 16, hexValue? (hexDigit k) = some k.val := by decide
  exact all ⟨n, h⟩

theorem bytesOfHexDigits?_flatMap (bytes : List UInt8) :
    bytesOfHexDigits? (bytes.flatMap hexOfByte) = some bytes := by
  induction bytes with
  | nil => rfl
  | cons b bytes ih =>
    have small := b.toNat_lt
    have whole : (16 * (b.toNat / 16) + b.toNat % 16).toUInt8 = b := by
      rw [Nat.div_add_mod]
      exact UInt8.ofNat_toNat
    have high : b.toNat / 16 < 16 := by omega
    have low : b.toNat % 16 < 16 := by omega
    simp only [List.flatMap_cons, hexOfByte, List.cons_append, List.nil_append, bytesOfHexDigits?,
      hexValue?_hexDigit high, hexValue?_hexDigit low, ih, Option.pure_def, Option.bind_eq_bind,
      Option.bind_some, whole]

theorem bytesOfHex?_hexOfBytes (bytes : List UInt8) :
    bytesOfHex? (hexOfBytes bytes) = some bytes := by
  rw [bytesOfHex?, hexOfBytes, String.toList_ofList, bytesOfHexDigits?_flatMap]

theorem hexOfBytes_injective {as bs : List UInt8} (same : hexOfBytes as = hexOfBytes bs) :
    as = bs := by
  have read := congrArg bytesOfHex? same
  rw [bytesOfHex?_hexOfBytes, bytesOfHex?_hexOfBytes] at read
  exact Option.some.inj read

theorem length_flatMap_hexOfByte (bytes : List UInt8) :
    (bytes.flatMap hexOfByte).length = 2 * bytes.length := by
  induction bytes with
  | nil => rfl
  | cons b bytes ih =>
    rw [List.flatMap_cons, List.length_append, ih, List.length_cons, hexOfByte]
    simp only [List.length_cons, List.length_nil]
    omega

end DataTier.Text

namespace DataTier.Digest.Sha256

theorem length_hexDigest (message : List UInt8) : (hexDigest message).length = 64 := by
  rw [hexDigest, Text.hexOfBytes, String.length_ofList, Text.length_flatMap_hexOfByte, hash_length]

theorem hexDigest_eq_iff {m n : List UInt8} : hexDigest m = hexDigest n ↔ hash m = hash n :=
  ⟨Text.hexOfBytes_injective, fun same => congrArg Text.hexOfBytes same⟩

end DataTier.Digest.Sha256
