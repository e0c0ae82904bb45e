import DataTier.Digest.Sha256
import DataTier.Source.Credentials

/-! The identity of an endpoint together with the credentials used on it: the hash of a
byte stream that holds the three parts in turn, each after its length. A part that is
absent has a length no text reaches. -/

namespace DataTier.Source

structure Fingerprint where
  hex : String
  deriving DecidableEq, Repr

namespace Fingerprint

/-- The length field of an absent part. -/
def absentLength : Nat := Nat.pow 2 64 - 1

def framePart : Option (List UInt8) → List UInt8
  | none => Digest.bigEndian 8 absentLength
  | some bytes => Digest.bigEndian 8 bytes.length ++ bytes

def parts (url : String) (c : Credentials) : List (Option (List UInt8)) :=
  [some (Digest.textBytes url), c.username.map Digest.textBytes, c.password.map Digest.textBytes]

def stream (url : String) (c : Credentials) : List UInt8 := (parts url c).flatMap framePart

def of (url : String) (c : Credentials) : Fingerprint :=
  ⟨Digest.Sha256.hexDigest (stream url c)⟩

/-- The leading digits, enough to tell fingerprints apart by eye. -/
def short (f : Fingerprint) : String := String.ofList (f.hex.toList.take 12)

def render (f : Fingerprint) : String := "Fingerprint(" ++ f.short ++ ")"

end DataTier.Source.Fingerprint
