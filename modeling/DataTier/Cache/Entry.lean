import DataTier.Cache.Error
import DataTier.Json.Decoder

/-! What a cache holds for a key: a value that was found, or the knowledge that there is
none. Either counts as a hit. -/

namespace DataTier.Cache

inductive Entry where
  | found (value : Json)
  | knownAbsent
  deriving Repr

namespace Entry

def isAbsent : Entry → Bool
  | .found _ => false
  | .knownAbsent => true

def value? : Entry → Option Json
  | .found v => some v
  | .knownAbsent => none

/-- The bytes of the value's one-line text. -/
def weight : Entry → Nat
  | .found v => v.compact.utf8ByteSize
  | .knownAbsent => 0

def decode (d : Json.Decoder) : Entry → Except Error (Option Json)
  | .found v =>
    match d v with
    | .ok w => .ok (some w)
    | .error m => .error (.conversion (.form m))
  | .knownAbsent => .ok none

def same : Entry → Entry → Bool
  | .found a, .found b => a.same b
  | .knownAbsent, .knownAbsent => true
  | _, _ => false

end Entry

/-- A table is a data value if all its keys are texts. -/
def valueOfTable (rows : List (Json × Json)) : Except Error Json := do
  let members ← rows.mapM fun (k, v) =>
    match k with
    | .text s => .ok (s, v)
    | _ => .error (.conversion .memberName)
  return .ofMembers members

end DataTier.Cache
