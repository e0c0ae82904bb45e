import DataTier.Decimal.Text
import DataTier.Json.Basic
import DataTier.Text.Quoted

/-! Why a value does not have the form asked of it: it is of another kind, out of range,
too short or too long, or lacks a field. -/

namespace DataTier.Schema

/-- What was found in place of the expected form. -/
inductive Found where
  | null
  | bool (b : Bool)
  | number (n : Number)
  | text (s : String)
  | sequence
  | map
  deriving DecidableEq, Repr

inductive Mismatch where
  | kind (found : Found) (expected : String)
  | range (n : Int) (expected : String)
  | length (n : Nat) (expected : String)
  | missing (field : String)
  deriving DecidableEq, Repr

def quoteName (s : String) : String := String.ofList ('\x60' :: s.toList ++ ['\x60'])

def Found.render (style : Decimal.Style) : Found → String
  | .null => "null"
  | .bool b => "boolean " ++ quoteName (if b then "true" else "false")
  | .number (.whole n) => "integer " ++ quoteName (toString n)
  | .number (.binary bits) => "floating point " ++ quoteName (style.render bits)
  | .text s => "string " ++ Text.Quoted.encode s
  | .sequence => "sequence"
  | .map => "map"

/-- Data formats differ in how they write binary numbers, and in nothing else here. -/
def Mismatch.message (style : Decimal.Style) : Mismatch → String
  | .kind found expected => "invalid type: " ++ found.render style ++ ", expected " ++ expected
  | .range n expected =>
    "invalid value: " ++ (Found.number (.whole n)).render style ++ ", expected " ++ expected
  | .length n expected => "invalid length " ++ toString n ++ ", expected " ++ expected
  | .missing field => "missing field " ++ quoteName field

def Found.ofJson : Json → Found
  | .null => .null
  | .bool b => .bool b
  | .number n => .number n
  | .text s => .text s
  | .array _ => .sequence
  | .object _ => .map

end DataTier.Schema
