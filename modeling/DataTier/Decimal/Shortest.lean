/-! The shortest decimal that reads back as a given binary number. A number of sixty-four
bits stands for an interval of reals; on the decimal grids of one digit, two digits and so
on, the first grid with a point in the interval gives the digits, and of two such points
the one nearer to the number is taken. -/

namespace DataTier.Decimal

/-- The reals that round to one binary number, in units of `2 ^ exponent`. -/
structure Interval where
  low : Nat
  mid : Nat
  high : Nat
  exponent : Int
  /-- The ends themselves round to the number. -/
  closed : Bool

def fractionOf (bits : UInt64) : Nat := bits.toNat % Nat.pow 2 52

def exponentOf (bits : UInt64) : Nat := bits.toNat / Nat.pow 2 52 % Nat.pow 2 11

def isNegative (bits : UInt64) : Bool := bits.toNat / Nat.pow 2 63 == 1

def isFinite (bits : UInt64) : Bool := exponentOf bits != 2047

def isZero (bits : UInt64) : Bool := fractionOf bits == 0 && exponentOf bits == 0

/-- At a power of two the numbers below lie twice as dense as those above. -/
def Interval.ofBits (bits : UInt64) : Interval :=
  let f := fractionOf bits
  let e := exponentOf bits
  let m := if e = 0 then f else f + Nat.pow 2 52
  { low := 4 * m - (if f = 0 ∧ 1 < e then 1 else 2)
    mid := 4 * m
    high := 4 * m + 2
    exponent := (max e 1 : Int) - 1077
    closed := m % 2 = 0 }

/-- The real `digits * 10 ^ exponent`. -/
structure Digits where
  digits : Nat
  exponent : Int
  deriving DecidableEq, Repr

/-- The factor by which a number of units is to be scaled to count steps of `10 ^ t`. -/
def Interval.scale (i : Interval) (t : Int) : Nat × Nat :=
  (Nat.pow 2 i.exponent.toNat * Nat.pow 10 (-t).toNat,
    Nat.pow 2 (-i.exponent).toNat * Nat.pow 10 t.toNat)

/-- Which of two equally near neighbours is taken. -/
inductive Tie where
  | toEven
  | upward
  deriving DecidableEq, Repr

/-- How much is added to the lower of two equally near neighbours. -/
def Tie.step (tie : Tie) (below : Nat) : Nat :=
  match tie with
  | .toEven => below % 2
  | .upward => 1

/-- Of the two neighbours of the number on the grid of `10 ^ t`, the nearer one inside. -/
def Interval.onGrid? (tie : Tie) (i : Interval) (t : Int) : Option Digits :=
  let (num, den) := i.scale t
  let inside (c : Nat) : Bool :=
    if i.closed then i.low * num ≤ c * den && c * den ≤ i.high * num
    else i.low * num < c * den && c * den < i.high * num
  let below := i.mid * num / den
  let rest := i.mid * num % den
  let nearer := if 2 * rest < den then below
    else if 2 * rest > den then below + 1
    else below + tie.step below
  let other := if nearer = below then below + 1 else below
  if inside nearer then some ⟨nearer, t⟩
  else if inside other then some ⟨other, t⟩
  else none

/-- The number of digits before the decimal point, negative for leading zeros after it. -/
def Interval.magnitude (i : Interval) : Int :=
  let (num, den) := i.scale (-400)
  ((Nat.toDigits 10 (i.mid * num / den)).length : Int) - 400

def Digits.normal (d : Digits) : Digits :=
  let kept := (Nat.toDigits 10 d.digits).reverse.dropWhile (· == '0')
  let dropped := (Nat.toDigits 10 d.digits).length - kept.length
  ⟨d.digits / Nat.pow 10 dropped, d.exponent + dropped⟩

/-- Seventeen digits suffice for every number. -/
def shortest (tie : Tie) (bits : UInt64) : Digits :=
  let i := Interval.ofBits bits
  let k := i.magnitude
  let found := (List.range 17).findSome? fun (n : Nat) => i.onGrid? tie (k - (n : Int) - 1)
  (found.getD ⟨0, 0⟩).normal

end DataTier.Decimal
