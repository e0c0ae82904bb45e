import DataTier.Digest.Sha256
import DataTier.Json.Writer

/-! Cache keys. A key is built from the parts that identify a query: it holds their number
and the hash of a byte stream in which each part follows its length, so parts do not run
together. -/

namespace DataTier.Cache

structure Key where
  text : String
  deriving DecidableEq, Repr

namespace Key

def framePart (bytes : List UInt8) : List UInt8 := Digest.littleEndian 8 bytes.length ++ bytes

def stream (parts : List (List UInt8)) : List UInt8 := parts.flatMap framePart

def ofParts (parts : List (List UInt8)) : Key :=
  ⟨toString parts.length ++ ":" ++ Digest.Sha256.hexDigest (stream parts)⟩

/-- A data value takes part by its one-line text. -/
def partOf (v : Json) : List UInt8 := Digest.textBytes v.compact

def render (k : Key) : String := "CacheKey(" ++ k.text ++ ")"

def le (a b : Key) : Bool := !(b.text < a.text)

/-- In order, each key once. -/
def sort (keys : List Key) : List Key := (keys.mergeSort le).eraseDups

end DataTier.Cache.Key
