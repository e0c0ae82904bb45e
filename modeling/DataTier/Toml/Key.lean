import DataTier.Toml.Quoted

/-! Keys, with or without quotes, and paths of keys with dots between them. -/

namespace DataTier.Toml.Key

/-- Paths are shorter than this. -/
def pathBound : Nat := 80

def bare? (s : List Char) : Option (List Char × List Char) :=
  let key := s.takeWhile isBare
  if key.isEmpty then none else some (key, s.dropWhile isBare)

def read? : List Char → Option (List Char × List Char)
  | '"' :: r => Quoted.basic? r
  | '\'' :: r => Quoted.literal? r
  | s => bare? s

/-- Space may stand around every key of a path. -/
def pathIn? : Nat → List Char → Option (List String × List Char)
  | 0, _ => none
  | n + 1, s => do
    let (key, rest) ← read? (skipSpace s)
    match skipSpace rest with
    | '.' :: r => (pathIn? n r).map fun (path, rest) => (String.ofList key :: path, rest)
    | rest => some ([String.ofList key], rest)

/-- A path that is too long ends the reading. -/
def path? (s : List Char) : Option (List String × List Char) := pathIn? (pathBound - 1) s

/-- A line end in a key is no line of text. -/
def needsCode (c : Char) : Bool := isControl c && c != '\t'

def form (s : List Char) : Quoted.Form :=
  let coded := s.any needsCode
  if !coded && !s.contains '\\' && !s.contains '"' then .basic
  else if !coded && !s.contains '\'' then .literal
  else .basic

def write (s : List Char) : List Char :=
  if !s.isEmpty && s.all isBare then s else (form s).write s

def writePath (path : List String) : List Char :=
  (['.'] : List Char).intercalate (path.map fun k => write k.toList)

end DataTier.Toml.Key
