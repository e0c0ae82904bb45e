import DataTier.Text.Blank
import DataTier.Toml.Characters

/-! Dates and times, each read into its one written form: the date, a `T` if both are
there, the time with the digits of its fraction up to nine and no zeros at their end, and
the offset. -/

namespace DataTier.Toml.Moment

/-- A number of exactly `width` digits in a range. -/
def field? (width low high : Nat) (s : List Char) : Option (Nat × List Char) :=
  let ds := s.take width
  let n := Nat.ofDigitChars 10 ds 0
  if ds.length = width ∧ ds.all Char.isDigit ∧ low ≤ n ∧ n ≤ high then some (n, s.drop width)
  else none

def padded (width n : Nat) : List Char :=
  let ds := Nat.toDigits 10 n
  List.replicate (width - ds.length) '0' ++ ds

def expect? (c : Char) : List Char → Option (List Char)
  | d :: r => if d = c then some r else none
  | [] => none

def isLeap (year : Nat) : Bool := year % 4 == 0 && (year % 100 != 0 || year % 400 == 0)

def daysIn (year month : Nat) : Nat :=
  if month = 2 then (if isLeap year then 29 else 28)
  else if month ∈ [4, 6, 9, 11] then 30
  else 31

def date? (s : List Char) : Option (List Char × List Char) := do
  let (year, s) ← field? 4 0 9999 s
  let s ← expect? '-' s
  let (month, s) ← field? 2 1 12 s
  let s ← expect? '-' s
  let (day, s) ← field? 2 1 (daysIn year month) s
  return (padded 4 year ++ '-' :: padded 2 month ++ '-' :: padded 2 day, s)

/-- Zeros at the end of a fraction are not written, and no fraction of zeros at all. -/
def fractionText (ds : List Char) : List Char :=
  match ((ds.take 9).reverse.dropWhile (· == '0')).reverse with
  | [] => []
  | kept => '.' :: kept

def secondFraction (s : List Char) : List Char × List Char :=
  match s with
  | '.' :: r =>
    let ds := r.takeWhile Char.isDigit
    if ds.isEmpty then ([], s) else (fractionText ds, r.dropWhile Char.isDigit)
  | s => ([], s)

/-- A minute may have a leap second. -/
def time? (s : List Char) : Option (List Char × List Char) := do
  let (hour, s) ← field? 2 0 23 s
  let s ← expect? ':' s
  let (minute, s) ← field? 2 0 59 s
  let s ← expect? ':' s
  let (second, s) ← field? 2 0 60 s
  let (fraction, s) := secondFraction s
  return (padded 2 hour ++ ':' :: padded 2 minute ++ ':' :: padded 2 second ++ fraction, s)

/-- An offset of nothing has a plus sign. -/
def offset? : List Char → Option (List Char × List Char)
  | 'Z' :: r | 'z' :: r => some (['Z'], r)
  | c :: r =>
    if c == '+' || c == '-' then do
      let (hour, s) ← field? 2 0 23 r
      let s ← expect? ':' s
      let (minute, s) ← field? 2 0 59 s
      let written := if hour = 0 ∧ minute = 0 then '+' else c
      return (written :: padded 2 hour ++ ':' :: padded 2 minute, s)
    else none
  | [] => none

def clock? (s : List Char) : Option (List Char × List Char) := do
  let (time, s) ← time? s
  match offset? s with
  | some (offset, s) => return (time ++ offset, s)
  | none => return (time, s)

/-- Between a date and a time stands a `T` or a space. -/
def read? (s : List Char) : Option (List Char × List Char) :=
  match date? s with
  | none => time? s
  | some (date, rest) =>
    let later := match rest with
      | 'T' :: r | 't' :: r | ' ' :: r => clock? r
      | _ => none
    match later with
    | some (time, rest) => some (date ++ 'T' :: time, rest)
    | none => some (date, rest)

end DataTier.Toml.Moment
