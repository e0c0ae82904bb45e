import DataTier.Json.Basic
import DataTier.Text.Hex

/-! Reading data values from text. A number with a fraction or an exponent, one outside
the range of whole numbers, and a negative zero are binary; their digits are gathered in
sixty-four bits and scaled once by a power of ten. Every reader gives back what it did
not use. -/

namespace DataTier.Json.Reader

def isSpace (c : Char) : Bool := c == ' ' || c == '\t' || c == '\n' || c == '\r'

def skipSpace (s : List Char) : List Char := s.dropWhile isSpace

/-- The digits gathered so far and the power of ten they are to be scaled by. -/
structure Gathered where
  significand : Nat := 0
  exponent : Int := 0
  /-- A digit that no longer fits ends the gathering; those after it count as zeros. -/
  full : Bool := false

def Gathered.push (g : Gathered) (c : Char) (fractional : Bool) : Gathered :=
  let next := g.significand * 10 + (c.toNat - 48)
  if g.full || Nat.pow 2 64 ≤ next then
    { g with full := true, exponent := if fractional then g.exponent else g.exponent + 1 }
  else { g with significand := next, exponent := if fractional then g.exponent - 1 else g.exponent }

def digits (s : List Char) : List Char × List Char := (s.takeWhile Char.isDigit, s.dropWhile Char.isDigit)

/-- Multiplied or divided by one exact or nearest power of ten; powers beyond the range of
numbers are divided out in turn. -/
def scaleWith (f : Float) (e : Int) : Nat → Option Float
  | 0 => some 0
  | steps + 1 =>
    if e.natAbs ≤ 308 then
      let power := Float.ofScientific 1 false e.natAbs
      if 0 ≤ e then
        let g := f * power
        if g.isInf then none else some g
      else some (f / power)
    else if f == 0 then some f
    else if 0 ≤ e then none
    else scaleWith (f / 1e308) (e + 308) steps

def binary (negative : Bool) (g : Gathered) : Option Number := do
  let f ← scaleWith (Float.ofNat g.significand) g.exponent 4
  return .binary (if negative then -f else f).toBits

def exponent? (s : List Char) : Option (Int × List Char) :=
  let (negative, s) := match s with
    | '-' :: r => (true, r)
    | '+' :: r => (false, r)
    | _ => (false, s)
  let (ds, rest) := digits s
  if ds.isEmpty then none
  else
    let n : Int := Nat.ofDigitChars 10 ds 0
    some (if negative then -n else n, rest)

def finish (negative : Bool) (g : Gathered) (s : List Char) : Option (Number × List Char) :=
  match s with
  | c :: r =>
    if c == 'e' || c == 'E' then do
      let (e, rest) ← exponent? r
      return (← binary negative { g with exponent := g.exponent + e }, rest)
    else (binary negative g).map (·, s)
  | [] => (binary negative g).map (·, s)

def whole (negative : Bool) (n : Nat) : Option Number :=
  if !negative then (if n < Nat.pow 2 64 then some (.whole n) else none)
  else if 0 < n ∧ n ≤ Nat.pow 2 63 then some (.whole (-n)) else none

def number? (s : List Char) : Option (Number × List Char) :=
  let (negative, s) := match s with
    | '-' :: r => (true, r)
    | _ => (false, s)
  let (ds, rest) := digits s
  if ds.isEmpty || (ds.length > 1 && ds.head? == some '0') then none
  else
    let g := ds.foldl (fun g c => g.push c false) {}
    match rest with
    | '.' :: r =>
      let (fs, rest) := digits r
      if fs.isEmpty then none else finish negative (fs.foldl (fun g c => g.push c true) g) rest
    | c :: _ =>
      if c == 'e' || c == 'E' then finish negative g rest
      else ((whole negative (Nat.ofDigitChars 10 ds 0)).or (binary negative g)).map (·, rest)
    | [] => ((whole negative (Nat.ofDigitChars 10 ds 0)).or (binary negative g)).map (·, rest)

def unit? : List Char → Option (Nat × List Char)
  | a :: b :: c :: d :: rest => do
    let n ← [a, b, c, d].foldlM (fun n x => (Text.hexValue? x).map (16 * n + ·)) 0
    return (n, rest)
  | _ => none

/-- A code point beyond the basic plane is written as two units. -/
def codePoint? (s : List Char) : Option (Char × List Char) := do
  let (hi, rest) ← unit? s
  if 0xd800 ≤ hi ∧ hi < 0xdc00 then
    match rest with
    | '\\' :: 'u' :: r => do
      let (lo, rest) ← unit? r
      if 0xdc00 ≤ lo ∧ lo < 0xe000 then
        return (Char.ofNat (0x10000 + (hi - 0xd800) * 0x400 + (lo - 0xdc00)), rest)
      else none
    | _ => none
  else if 0xdc00 ≤ hi ∧ hi < 0xe000 then none
  else return (Char.ofNat hi, rest)

def escaped? : List Char → Option (Char × List Char)
  | '"' :: r => some ('"', r)
  | '\\' :: r => some ('\\', r)
  | '/' :: r => some ('/', r)
  | 'b' :: r => some ('\x08', r)
  | 'f' :: r => some ('\x0c', r)
  | 'n' :: r => some ('\n', r)
  | 'r' :: r => some ('\r', r)
  | 't' :: r => some ('\t', r)
  | 'u' :: r => codePoint? r
  | _ => none

/-- What follows an opening quote, with the characters read so far latest first. -/
def text? (acc : List Char) : Nat → List Char → Option (String × List Char)
  | 0, _ => none
  | fuel + 1, s =>
    match s with
    | [] => none
    | '"' :: r => some (String.ofList acc.reverse, r)
    | '\\' :: r => do
      let (c, rest) ← escaped? r
      text? (c :: acc) fuel rest
    | c :: r => if c.toNat < 0x20 then none else text? (c :: acc) fuel r

def keyword? : List Char → Option (Json × List Char)
  | 'n' :: 'u' :: 'l' :: 'l' :: r => some (.null, r)
  | 't' :: 'r' :: 'u' :: 'e' :: r => some (.bool true, r)
  | 'f' :: 'a' :: 'l' :: 's' :: 'e' :: r => some (.bool false, r)
  | _ => none

mutual

def value? : Nat → List Char → Option (Json × List Char)
  | 0, _ => none
  | fuel + 1, s =>
    match skipSpace s with
    | '"' :: r => (text? [] (r.length + 1) r).map fun (t, rest) => (.text t, rest)
    | '[' :: r =>
      match skipSpace r with
      | ']' :: rest => some (.array [], rest)
      | _ => (items? fuel r).map fun (vs, rest) => (.array vs, rest)
    | '\x7b' :: r =>
      match skipSpace r with
      | '\x7d' :: rest => some (.object [], rest)
      | _ => (members? fuel r).map fun (ms, rest) => (ofMembers ms, rest)
    | s => (keyword? s).or ((number? s).map fun (n, rest) => (.number n, rest))

def items? : Nat → List Char → Option (List Json × List Char)
  | 0, _ => none
  | fuel + 1, s => do
    let (v, rest) ← value? fuel s
    match skipSpace rest with
    | ',' :: r => (items? fuel r).map fun (vs, rest) => (v :: vs, rest)
    | ']' :: r => some ([v], r)
    | _ => none

def members? : Nat → List Char → Option (List (String × Json) × List Char)
  | 0, _ => none
  | fuel + 1, s =>
    match skipSpace s with
    | '"' :: r => do
      let (name, rest) ← text? [] (r.length + 1) r
      match skipSpace rest with
      | ':' :: r => do
        let (v, rest) ← value? fuel r
        match skipSpace rest with
        | ',' :: r => (members? fuel r).map fun (ms, rest) => ((name, v) :: ms, rest)
        | '\x7d' :: r => some ([(name, v)], r)
        | _ => none
      | _ => none
    | _ => none

end

end Reader

/-- A whole text; every step of the reader but one consumes a character. -/
def parse? (s : String) : Option Json := do
  let cs := s.toList
  let (v, rest) ← Reader.value? (2 * cs.length + 1) cs
  if (Reader.skipSpace rest).isEmpty then some v else none

end DataTier.Json
