/-! Bytes written as two lower-case hexadecimal digits each, the high half first. -/

namespace DataTier.Text

def hexDigit (n : Nat) : Char := Nat.digitChar n

def hexOfByte (b : UInt8) : List Char := [hexDigit (b.toNat / 16), hexDigit (b.toNat % 16)]

def hexOfBytes (bytes : List UInt8) : String := String.ofList (bytes.flatMap hexOfByte)

def hexValue? (c : Char) : Option Nat :=
  if '0' ≤ c ∧ c ≤ '9' then some (c.toNat - 48)
  else if 'a' ≤ c ∧ c ≤ 'f' then some (c.toNat - 87)
  else if 'A' ≤ c ∧ c ≤ 'F' then some (c.toNat - 55)
  else none

def bytesOfHexDigits? : List Char → Option (List UInt8)
  | [] => some []
  | [_] => none
  | hi :: lo :: rest => do
    let h ← hexValue? hi
    let l ← hexValue? lo
    let bytes ← bytesOfHexDigits? rest
    return (16 * h + l).toUInt8 :: bytes

def bytesOfHex? (s : String) : Option (List UInt8) := bytesOfHexDigits? s.toList

/-- A number in lower-case hexadecimal without leading zeros. -/
def hexOfNat (n : Nat) : String := String.ofList (Nat.toDigits 16 n)

end DataTier.Text
