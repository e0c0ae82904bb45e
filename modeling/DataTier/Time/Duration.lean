import DataTier.Text.Blank

/-! Lengths of time and their two written forms: the one configuration uses, a whole
number with an optional unit, and the one messages use, in the largest unit that
leaves a whole part, without trailing zeros. -/

namespace DataTier.Time

structure Duration where
  nanoseconds : Nat
  deriving DecidableEq, Repr

/-- Written counts, of any unit, and the seconds they come to stay below this. -/
def countBound : Nat := Nat.pow 2 64

namespace Duration

def zero : Duration := ⟨0⟩

def ofMilliseconds (n : Nat) : Duration := ⟨n * 1000000⟩

def ofSeconds (n : Nat) : Duration := ⟨n * 1000000000⟩

def isZero (d : Duration) : Bool := d.nanoseconds == 0

def wholeSeconds (d : Duration) : Nat := d.nanoseconds / 1000000000

def subsecondNanoseconds (d : Duration) : Nat := d.nanoseconds % 1000000000

def wholeMilliseconds (d : Duration) : Nat := d.nanoseconds / 1000000

/-- A zero duration stands for no limit at all. -/
def positive? (d : Duration) : Option Duration := if d.isZero then none else some d

inductive Scale where
  | millisecond
  | second
  | minute
  deriving DecidableEq, Repr

/-- A minute is refused where its seconds leave the range. -/
def Scale.duration? (n : Nat) : Scale → Option Duration
  | .millisecond => some (ofMilliseconds n)
  | .second => some (ofSeconds n)
  | .minute => if n * 60 < countBound then some (ofSeconds (n * 60)) else none

/-- The unit at the end of a text and what stands before it; no unit means seconds. -/
def splitScale (s : List Char) : List Char × Scale :=
  match s.reverse with
  | 's' :: 'm' :: r => (r.reverse, .millisecond)
  | 's' :: r => (r.reverse, .second)
  | 'm' :: r => (r.reverse, .minute)
  | _ => (s, .second)

def digits? (s : List Char) : Option Nat :=
  if s.isEmpty || !s.all Char.isDigit then none else some (Nat.ofDigitChars 10 s 0)

/-- Decimal digits after an optional plus sign, in the range of counts. -/
def count? (s : List Char) : Option Nat := do
  let n ← digits? (match s with | '+' :: r => r | _ => s)
  if n < countBound then some n else none

def parseChars? (s : List Char) : Option Duration := do
  let (count, scale) := splitScale (Text.trim s)
  scale.duration? (← count? (Text.trim count))

def parse? (s : String) : Option Duration := parseChars? s.toList

/-- A fraction of `width` digits, with its point, less the zeros at its end. -/
def fraction (width n : Nat) : List Char :=
  let digits := Nat.toDigits 10 n
  let padded := List.replicate (width - digits.length) '0' ++ digits
  match (padded.reverse.dropWhile (· == '0')).reverse with
  | [] => []
  | kept => '.' :: kept

def render (d : Duration) : String :=
  let n := d.nanoseconds
  let (unit, width, suffix) :=
    if n ≥ 1000000000 then (1000000000, 9, "s")
    else if n ≥ 1000000 then (1000000, 6, "ms")
    else if n ≥ 1000 then (1000, 3, "µs")
    else (1, 0, "ns")
  toString (n / unit) ++ String.ofList (fraction width (n % unit)) ++ suffix

end DataTier.Time.Duration
