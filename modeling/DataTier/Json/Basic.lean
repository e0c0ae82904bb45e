import DataTier.Decimal.Shortest

/-! Data values. Whole numbers and binary fractions are different numbers even where they
stand for the same real; the members of an object are in the order of their names, each
name once. -/

namespace DataTier

inductive Number where
  /-- A whole number from `-2 ^ 63` to `2 ^ 64 - 1`. -/
  | whole (n : Int)
  /-- A finite binary number of sixty-four bits, by its bits. -/
  | binary (bits : UInt64)
  deriving DecidableEq, Repr

inductive Json where
  | null
  | bool (b : Bool)
  | number (n : Number)
  | text (s : String)
  | array (items : List Json)
  | object (members : List (String × Json))
  deriving Repr

/-- The two zeros are one value. -/
def Number.same : Number → Number → Bool
  | .whole a, .whole b => a == b
  | .binary a, .binary b => a == b || (Decimal.isZero a && Decimal.isZero b)
  | _, _ => false

namespace Json

mutual

def same : Json → Json → Bool
  | .null, .null => true
  | .bool a, .bool b => a == b
  | .number a, .number b => a.same b
  | .text a, .text b => a == b
  | .array a, .array b => sameItems a b
  | .object a, .object b => sameMembers a b
  | _, _ => false

def sameItems : List Json → List Json → Bool
  | [], [] => true
  | a :: as, b :: bs => same a b && sameItems as bs
  | _, _ => false

def sameMembers : List (String × Json) → List (String × Json) → Bool
  | [], [] => true
  | (m, a) :: as, (n, b) :: bs => m == n && same a b && sameMembers as bs
  | _, _ => false

end

/-- A member of a later value replaces one of the same name. -/
def insert (name : String) (value : Json) : List (String × Json) → List (String × Json)
  | [] => [(name, value)]
  | (n, v) :: rest =>
    if name < n then (name, value) :: (n, v) :: rest
    else if name = n then (n, value) :: rest
    else (n, v) :: insert name value rest

def ofMembers (members : List (String × Json)) : Json :=
  .object (members.foldl (fun acc m => insert m.1 m.2 acc) [])

def nat (n : Nat) : Json := .number (.whole n)

def option {α : Type} (f : α → Json) : Option α → Json
  | none => .null
  | some a => f a

/-- A member that is absent counts as null. -/
def member (name : String) : Json → Json
  | .object members => (members.lookup name).getD .null
  | _ => .null

end DataTier.Json
