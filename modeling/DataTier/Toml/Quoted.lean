import DataTier.Text.Hex
import DataTier.Toml.Characters

/-! Quoted text in its four forms: between double quotes with escapes or between single
quotes without, on one line or, with the quotes tripled, on several. A multi-line text
drops a line end right after its opening quotes and may end in one or two quotes of its
own. Readers start behind the opening quotes and give back what follows the closing ones. -/

namespace DataTier.Toml.Quoted

/-- A character by its code in `n` hexadecimal digits. -/
def code? (n : Nat) (s : List Char) : Option (Char × List Char) := do
  let digits := s.take n
  let code ← digits.foldlM (fun k c => (Text.hexValue? c).map (16 * k + ·)) 0
  if digits.length = n ∧ code.isValidChar then some (Char.ofNat code, s.drop n) else none

/-- What follows a backslash. -/
def escape? : List Char → Option (Char × List Char)
  | 'b' :: r => some ('\x08', r)
  | 't' :: r => some ('\t', r)
  | 'n' :: r => some ('\n', r)
  | 'f' :: r => some ('\x0c', r)
  | 'r' :: r => some ('\r', r)
  | '"' :: r => some ('"', r)
  | '\\' :: r => some ('\\', r)
  | 'u' :: r => code? 4 r
  | 'U' :: r => code? 8 r
  | _ => none

def basicItem? : List Char → Option (Char × List Char)
  | '\\' :: r => escape? r
  | c :: r => if isBasic c then some (c, r) else none
  | [] => none

def literalItem? : List Char → Option (Char × List Char)
  | c :: r => if isLiteral c then some (c, r) else none
  | [] => none

def close? (quote : Char) (text : List Char) : List Char → Option (List Char × List Char)
  | c :: r => if c = quote then some (text, r) else none
  | [] => none

def basic? (s : List Char) : Option (List Char × List Char) :=
  let (text, rest) := many basicItem? s.length s
  close? '"' text rest

def literal? (s : List Char) : Option (List Char × List Char) :=
  let (text, rest) := many literalItem? s.length s
  close? '\'' text rest

/-- Spaces and the ends of lines. -/
def skipBlank : List Char → List Char
  | '\n' :: r => skipBlank r
  | '\r' :: '\n' :: r => skipBlank r
  | ' ' :: r => skipBlank r
  | '\t' :: r => skipBlank r
  | s => s

/-- One or two quotes that something follows are part of a multi-line text. -/
def innerQuotes? (quote : Char) (s : List Char) : Option (List Char × List Char) :=
  let run := s.takeWhile (· == quote)
  let rest := s.dropWhile (· == quote)
  if 0 < run.length ∧ run.length ≤ 2 ∧ rest ≠ [] then some (run, rest) else none

/-- However lines end, a text holds line feeds. -/
def lineEnd? (s : List Char) : Option (List Char × List Char) :=
  (afterNewline? s).map (['\n'], ·)

/-- A backslash at the end of a line hides all space up to the next character. -/
def continuation? (s : List Char) : Option (List Char × List Char) :=
  (afterNewline? (skipSpace s)).map fun r => ([], skipBlank r)

def multiBasicItem? (s : List Char) : Option (List Char × List Char) :=
  match s with
  | '\\' :: r => (continuation? r).or ((escape? r).map fun (c, rest) => ([c], rest))
  | c :: r =>
    if isBasic c then some ([c], r) else (innerQuotes? '"' s).or (lineEnd? s)
  | [] => none

def multiLiteralItem? (s : List Char) : Option (List Char × List Char) :=
  match s with
  | c :: r => if isLiteral c then some ([c], r) else (innerQuotes? '\'' s).or (lineEnd? s)
  | [] => none

/-- Of the quotes at the end the last three close the text. -/
def closeMulti? (quote : Char) (text : List Char) (s : List Char) :
    Option (List Char × List Char) :=
  let run := (s.takeWhile (· == quote)).length
  if run < 3 then none
  else
    let own := min (run - 3) 2
    some (text ++ List.replicate own quote, s.drop (own + 3))

def multi? (item : List Char → Option (List Char × List Char)) (quote : Char) (s : List Char) :
    Option (List Char × List Char) :=
  let s := (afterNewline? s).getD s
  let (pieces, rest) := many item s.length s
  closeMulti? quote pieces.flatten rest

/-- Text in any of the forms. -/
def text? : List Char → Option (List Char × List Char)
  | '"' :: '"' :: '"' :: r => multi? multiBasicItem? '"' r
  | '"' :: r => basic? r
  | '\'' :: '\'' :: '\'' :: r => multi? multiLiteralItem? '\'' r
  | '\'' :: r => literal? r
  | _ => none

/-! Writing: the plainest form that can hold the text is taken. -/

inductive Form where
  | basic
  | literal
  | multiBasic
  | multiLiteral
  deriving DecidableEq, Repr

/-- The length of the longest run of a quote, `current` of which came just before. -/
def longestRun (quote : Char) (current : Nat) : List Char → Nat
  | [] => current
  | c :: r =>
    if c = quote then longestRun quote (current + 1) r else max current (longestRun quote 0 r)

def needsCode (c : Char) : Bool := isControl c && c != '\t' && c != '\n'

/-- Single quotes are for texts that would need escapes, three quotes for several lines. -/
def Form.of (s : List Char) : Form :=
  let coded := s.any needsCode
  let backslash := s.contains '\\'
  let lines := s.contains '\n'
  let doubles := longestRun '"' 0 s
  let singles := longestRun '\'' 0 s
  if !coded && !backslash && doubles == 0 && !lines then .basic
  else if !coded && singles == 0 && !lines then .literal
  else if !coded && !backslash && doubles ≤ 2 then .multiBasic
  else if !coded && singles ≤ 2 then .multiLiteral
  else if lines then .multiBasic
  else .basic

def hexDigit (n : Nat) : Char := ((Nat.digitChar (n % 16)).toUpper)

/-- Four digits are enough for every control character. -/
def codeOf (c : Char) : List Char :=
  let n := c.toNat
  ['\\', 'u', hexDigit (n / 4096), hexDigit (n / 256), hexDigit (n / 16), hexDigit n]

def escapeOf (lines : Bool) (c : Char) : List Char :=
  if c = '\x08' then ['\\', 'b']
  else if c = '\t' then ['\\', 't']
  else if c = '\n' then (if lines then ['\n'] else ['\\', 'n'])
  else if c = '\x0c' then ['\\', 'f']
  else if c = '\r' then ['\\', 'r']
  else if c = '\\' then ['\\', '\\']
  else if isControl c then codeOf c
  else [c]

/-- Between double quotes; `spare` more of them may stand in a row before one is escaped. -/
def escapeAll (lines : Bool) (most : Nat) : Nat → List Char → List Char
  | _, [] => []
  | spare, c :: r =>
    if c = '"' then
      match spare with
      | 0 => '\\' :: '"' :: escapeAll lines most most r
      | spare + 1 => '"' :: escapeAll lines most spare r
    else escapeOf lines c ++ escapeAll lines most most r

def tripled (quote : Char) (s : List Char) (inner : List Char) : List Char :=
  let quotes := List.replicate 3 quote
  quotes ++ (if s.contains '\n' then ['\n'] else []) ++ inner ++ quotes

def Form.write (s : List Char) : Form → List Char
  | .basic => '"' :: escapeAll false 0 0 s ++ ['"']
  | .literal => '\'' :: s ++ ['\'']
  | .multiBasic => tripled '"' s (escapeAll true 2 2 s)
  | .multiLiteral => tripled '\'' s s

def write (s : List Char) : List Char := (Form.of s).write s

end DataTier.Toml.Quoted
