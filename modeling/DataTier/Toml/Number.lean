import DataTier.Text.Hex
import DataTier.Toml.Characters

/-! Numbers: whole ones of sixty-four bits with a sign, in four notations, and binary ones.
Single underscores may stand between digits. -/

namespace DataTier.Toml.Number

/-- Digits after a first one, without the underscores between them. -/
def moreDigits (isDigit : Char → Bool) : List Char → List Char × List Char
  | '_' :: c :: r =>
    if isDigit c then
      let (ds, rest) := moreDigits isDigit r
      (c :: ds, rest)
    else ([], '_' :: c :: r)
  | c :: r =>
    if isDigit c then
      let (ds, rest) := moreDigits isDigit r
      (c :: ds, rest)
    else ([], c :: r)
  | [] => ([], [])

def digits? (isDigit : Char → Bool) : List Char → Option (List Char × List Char)
  | c :: r =>
    if isDigit c then
      let (ds, rest) := moreDigits isDigit r
      some (c :: ds, rest)
    else none
  | [] => none

def sign : List Char → Bool × List Char
  | '-' :: r => (true, r)
  | '+' :: r => (false, r)
  | s => (false, s)

/-- A decimal whole number does not start with a zero unless it is zero. -/
def decimalDigits? : List Char → Option (List Char × List Char)
  | '0' :: r => some (['0'], r)
  | s => digits? Char.isDigit s

def isDigitOf (base : Nat) (c : Char) : Bool := (Text.hexValue? c).any (· < base)

def valueOf (base : Nat) (ds : List Char) : Nat :=
  ds.foldl (fun n c => base * n + (Text.hexValue? c).getD 0) 0

/-- The range is that of sixty-four bits with a sign. -/
def signed? (negative : Bool) (n : Nat) : Option Int :=
  if negative then (if n ≤ Nat.pow 2 63 then some (-n) else none)
  else if n < Nat.pow 2 63 then some n else none

def based? (base : Nat) (s : List Char) : Option (Int × List Char) := do
  let (ds, rest) ← digits? (isDigitOf base) s
  return (← signed? false (valueOf base ds), rest)

def whole? : List Char → Option (Int × List Char)
  | '0' :: 'x' :: r => based? 16 r
  | '0' :: 'o' :: r => based? 8 r
  | '0' :: 'b' :: r => based? 2 r
  | s => do
    let (negative, s) := sign s
    let (ds, rest) ← decimalDigits? s
    return (← signed? negative (valueOf 10 ds), rest)

/-- The number nearest to `n * 10 ^ e`; scales far out of range need no computation. -/
def nearest (n : Nat) (e : Int) : Float :=
  let magnitude : Int := (Nat.toDigits 10 n).length + e
  if n = 0 ∨ magnitude < -400 then 0
  else if 400 < magnitude then 1 / 0
  else Float.ofScientific n (e < 0) e.natAbs

def negateIf (negative : Bool) (f : Float) : Float := if negative then -f else f

def exponent? : List Char → Option (Int × List Char)
  | c :: r =>
    if c == 'e' || c == 'E' then do
      let (negative, s) := sign r
      let (ds, rest) ← digits? Char.isDigit s
      let n : Int := valueOf 10 ds
      return (if negative then -n else n, rest)
    else none
  | [] => none

/-- What follows the whole part of a binary number. -/
def fraction? (s : List Char) : Option (List Char × Int × List Char) :=
  match s with
  | '.' :: r => do
    let (ds, rest) ← digits? Char.isDigit r
    match exponent? rest with
    | some (e, rest) => some (ds, e, rest)
    | none => some (ds, 0, rest)
  | s => (exponent? s).map fun (e, rest) => ([], e, rest)

def special? (negative : Bool) : List Char → Option (UInt64 × List Char)
  | 'i' :: 'n' :: 'f' :: r => some ((negateIf negative (1 / 0)).toBits, r)
  | 'n' :: 'a' :: 'n' :: r => some ((0 / 0 : Float).toBits, r)
  | _ => none

/-- A number too large for its range is refused; one too small is the infinite one. -/
def binary? (s : List Char) : Option (UInt64 × List Char) :=
  let (negative, s) := sign s
  let finite : Option (UInt64 × List Char) := do
    let (ds, rest) ← decimalDigits? s
    let (fs, e, rest) ← fraction? rest
    let f := nearest (valueOf 10 (ds ++ fs)) (e - fs.length)
    if f.isInf && !negative then none
    else some ((negateIf negative f).toBits, rest)
  finite.or (special? negative s)

end DataTier.Toml.Number
