import DataTier.Schema.Mismatch

/-! Decoders hold a data value against a form and give it back in that form, or say where
it first fails. A sequence is read in order, an object in the order of its names; fields
that no form asks for are dropped. -/

namespace DataTier.Json

open Schema

abbrev Decoder := Json → Except Mismatch Json

namespace Decoder

def any : Decoder := .ok

def mismatch (expected : String) (v : Json) : Except Mismatch Json :=
  .error (.kind (.ofJson v) expected)

/-- A whole number from `low` up to, but not including, `high`. -/
def whole (low high : Int) (expected : String) : Decoder
  | .number (.whole n) =>
    if low ≤ n ∧ n < high then .ok (.number (.whole n)) else .error (.range n expected)
  | v => mismatch expected v

def unsigned8 : Decoder := whole 0 (Nat.pow 2 8) "u8"

def unsigned32 : Decoder := whole 0 (Nat.pow 2 32) "u32"

def signed64 : Decoder := whole (-Nat.pow 2 63) (Nat.pow 2 63) "i64"

def boolean : Decoder
  | .bool b => .ok (.bool b)
  | v => mismatch "a boolean" v

def text : Decoder
  | .text s => .ok (.text s)
  | v => mismatch "a string" v

def optional (d : Decoder) : Decoder
  | .null => .ok .null
  | v => d v

def list (d : Decoder) : Decoder
  | .array items => (items.mapM d).map .array
  | v => mismatch "a sequence" v

/-- A record may also be given as the sequence of its fields. -/
structure Form where
  name : String
  fields : List (String × Decoder)

def decodeItems : List (String × Decoder) → List Json → Except Mismatch (List (String × Json))
  | (n, d) :: fields, v :: items => do return (n, ← d v) :: (← decodeItems fields items)
  | _, _ => .ok []

def decodeMembers (fields : List (String × Decoder)) :
    List (String × Json) → Except Mismatch (List (String × Json))
  | [] => .ok []
  | (n, v) :: members => do
    match fields.lookup n with
    | some d => return (n, ← d v) :: (← decodeMembers fields members)
    | none => decodeMembers fields members

def record (f : Form) : Decoder
  | .array items => do
    let decoded ← decodeItems f.fields items
    if items.length < f.fields.length then
      .error (.length items.length
        ("struct " ++ f.name ++ " with " ++ toString f.fields.length ++ " elements"))
    else if f.fields.length < items.length then
      .error (.length items.length "fewer elements in array")
    else return .ofMembers decoded
  | .object members => do
    let decoded ← decodeMembers f.fields members
    match f.fields.find? fun field => (decoded.lookup field.1).isNone with
    | some (n, _) => .error (.missing n)
    | none => return .ofMembers decoded
  | v => mismatch ("struct " ++ f.name) v

end DataTier.Json.Decoder
