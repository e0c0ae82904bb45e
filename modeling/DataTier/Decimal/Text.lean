import DataTier.Decimal.Shortest

/-! How a binary number is written: with the shortest digits that read back, always with a
decimal point or an exponent. The two styles differ in where the exponent begins, and in
which of two equally near decimals they take. -/

namespace DataTier.Decimal

structure Style where
  /-- The point is written in its place if it follows at most the first number of digits and
  is followed by at most the second number of zeros. Without bounds it always is. -/
  bounds : Option (Int × Int)
  tie : Tie

/-- Data text: `1e+16` and `1e-6`, but `1000000000000000.0` and `0.00001`. -/
def dataStyle : Style := ⟨some (16, 4), .toEven⟩

/-- Message text never uses an exponent. -/
def plainStyle : Style := ⟨none, .upward⟩

def zeros (n : Int) : List Char := List.replicate n.toNat '0'

def positional (digits : List Char) (point : Int) : List Char :=
  let n : Int := digits.length
  if point ≤ 0 then '0' :: '.' :: zeros (-point) ++ digits
  else if n ≤ point then digits ++ zeros (point - n) ++ ['.', '0']
  else digits.take point.toNat ++ '.' :: digits.drop point.toNat

/-- The sign of an exponent is written whichever it is, its digits without padding. -/
def exponentText (e : Int) : List Char :=
  (if e < 0 then '-' else '+') :: (toString e.natAbs).toList

def scientific (digits : List Char) (point : Int) : List Char :=
  let fraction := if digits.length = 1 then [] else '.' :: digits.drop 1
  digits.take 1 ++ fraction ++ 'e' :: exponentText (point - 1)

def Style.isPositional (s : Style) (point : Int) : Bool :=
  match s.bounds with
  | none => true
  | some (most, leading) => -leading ≤ point && point ≤ most

def Style.magnitude (s : Style) (bits : UInt64) : List Char :=
  if isZero bits then ['0', '.', '0']
  else
    let d := shortest s.tie bits
    let digits := Nat.toDigits 10 d.digits
    let point := d.exponent + digits.length
    if s.isPositional point then positional digits point else scientific digits point

def Style.render (s : Style) (bits : UInt64) : String :=
  let minus := if isNegative bits then ['-'] else []
  if isFinite bits then String.ofList (minus ++ s.magnitude bits)
  else if fractionOf bits = 0 then String.ofList (minus ++ ['i', 'n', 'f'])
  else "NaN"

end DataTier.Decimal
