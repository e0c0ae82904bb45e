import DataTier.Toml.Document
import DataTier.Toml.Key
import DataTier.Toml.Moment
import DataTier.Toml.Number

/-! Reading documents. A statement takes a line of its own, but a value in brackets may go
over several. Brackets and braces may be nested so deep and no deeper. -/

namespace DataTier.Toml

def depthBound : Nat := 79

/-- Space, line ends and comments, which may come between the items in brackets. -/
def skipLoose (inComment : Bool) : List Char → Option (List Char)
  | '\n' :: r => skipLoose false r
  | '\r' :: '\n' :: r => skipLoose false r
  | c :: r =>
    if inComment then (if isPlain c then skipLoose true r else none)
    else if c == '#' then skipLoose true r
    else if isSpace c then skipLoose false r
    else some (c :: r)
  | [] => if inComment then none else some []

def keyword? : List Char → Option (Value × List Char)
  | 't' :: 'r' :: 'u' :: 'e' :: r => some (.bool true, r)
  | 'f' :: 'a' :: 'l' :: 's' :: 'e' :: r => some (.bool false, r)
  | _ => none

def number? (s : List Char) : Option (Value × List Char) :=
  ((Moment.read? s).map fun (m, r) => (.moment (String.ofList m), r)).or
    (((Number.binary? s).map fun (b, r) => (.binary b, r)).or
      ((Number.whole? s).map fun (n, r) => (.whole n, r)))

/-- A value that is not made of others. -/
def scalar? : List Char → Option (Value × List Char)
  | [] => none
  | c :: r =>
    if c == '"' || c == '\'' then
      (Quoted.text? (c :: r)).map fun (t, rest) => (.text (String.ofList t), rest)
    else if c == 't' || c == 'f' then keyword? (c :: r)
    else number? (c :: r)

/-- The items after an opening bracket; the last may have a comma behind it. -/
def items? (item? : List Char → Option (Value × List Char)) :
    Nat → List Char → Option (List Value × List Char)
  | 0, _ => none
  | n + 1, s => do
    match ← skipLoose false s with
    | ']' :: r => return ([], r)
    | s =>
      let (v, rest) ← item? s
      match ← skipLoose false rest with
      | ',' :: r =>
        let (vs, rest) ← items? item? n r
        return (v :: vs, rest)
      | ']' :: r => return ([v], r)
      | _ => none

/-- A key, an equals sign and a value, with what follows the value. -/
def assignment? (value? : List Char → Option (Value × List Char)) (s : List Char) :
    Option (Assignment × List Char) := do
  let (path, rest) ← Key.path? s
  let key ← path.getLast?
  match rest with
  | '=' :: r =>
    let (value, rest) ← value? (skipSpace r)
    return ({ path := path.dropLast, key, value }, rest)
  | _ => none

/-- The members of a table between braces, at least one, and no comma behind the last. -/
def members? (value? : List Char → Option (Value × List Char)) :
    Nat → List Char → Option (List Assignment × List Char)
  | 0, _ => none
  | n + 1, s => do
    let (a, rest) ← assignment? value? s
    match skipSpace rest with
    | ',' :: r =>
      let (as, rest) ← members? value? n r
      return (a :: as, rest)
    | '\x7d' :: r => return ([a], r)
    | _ => none

def braces? (value? : List Char → Option (Value × List Char)) (s : List Char) :
    Option (Value × List Char) :=
  match skipSpace s with
  | '\x7d' :: r => (inlineTable? []).map (·, r)
  | r => do
    let (as, rest) ← members? value? (r.length + 1) r
    return (← inlineTable? as, rest)

def value? : Nat → List Char → Option (Value × List Char)
  | 0, s => scalar? s
  | depth + 1, s =>
    match s with
    | '[' :: r => (items? (value? depth) (r.length + 1) r).map fun (vs, rest) => (.array vs, rest)
    | '\x7b' :: r => braces? (value? depth) r
    | s => scalar? s

/-- The rest of a line holds at most a comment. -/
def afterLine? (s : List Char) : Option (List Char) :=
  let rest := match skipSpace s with
    | '#' :: r => r.dropWhile isPlain
    | r => r
  if rest.isEmpty then some [] else afterNewline? rest

def heading? (repeated : Bool) (s : List Char) : Option (Statement × List Char) := do
  let (path, rest) ← Key.path? s
  let key ← path.getLast?
  let rest ← match repeated, rest with
    | true, ']' :: ']' :: r => afterLine? r
    | false, ']' :: r => afterLine? r
    | _, _ => none
  return (.heading { repeated, path := path.dropLast, key }, rest)

def statement? (s : List Char) : Option (Statement × List Char) :=
  match s with
  | '[' :: '[' :: r => heading? true r
  | '[' :: r => heading? false r
  | s => do
    let (a, rest) ← assignment? (value? depthBound) s
    return (.assignment a, ← afterLine? rest)

def statementsIn? : Nat → List Char → Option (List Statement)
  | 0, _ => none
  | n + 1, s =>
    match skipSpace s with
    | [] => some []
    | c :: r =>
      if c == '#' || c == '\n' || c == '\r' then do statementsIn? n (← afterLine? (c :: r))
      else do
        let (st, rest) ← statement? (c :: r)
        return st :: (← statementsIn? n rest)

/-- A mark of the byte order may come first; every statement takes a character at least. -/
def statements? (s : List Char) : Option (List Statement) :=
  let s := match s with
    | '\ufeff' :: r => r
    | s => s
  statementsIn? (s.length + 1) s

def parse? (s : String) : Option (List (String × Value)) := do
  tableOf? (← statements? s.toList)

end DataTier.Toml
