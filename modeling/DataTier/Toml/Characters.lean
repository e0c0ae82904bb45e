/-! The classes of characters that configuration documents are made of. Control characters
other than tabs stand nowhere but at the ends of lines; beyond ASCII every character is
plain. -/

namespace DataTier.Toml

def isSpace (c : Char) : Bool := c == ' ' || c == '\t'

def skipSpace (s : List Char) : List Char := s.dropWhile isSpace

/-- A control character that a document writes as a code. -/
def isControl (c : Char) : Bool := c.toNat < 0x20 || c.toNat == 0x7f

/-- What a comment may hold. -/
def isPlain (c : Char) : Bool := c == '\t' || !isControl c

/-- What stands for itself between double quotes. -/
def isBasic (c : Char) : Bool := isPlain c && c != '"' && c != '\\'

/-- What stands for itself between single quotes, where nothing is escaped. -/
def isLiteral (c : Char) : Bool := isPlain c && c != '\''

/-- What a key without quotes is made of. -/
def isBare (c : Char) : Bool := c.isAlphanum || c == '-' || c == '_'

/-- What follows the end of a line, if one is here. -/
def afterNewline? : List Char → Option (List Char)
  | '\n' :: r => some r
  | '\r' :: '\n' :: r => some r
  | _ => none

/-- Repeats a reader until it fails; the bound is on the number of items. -/
def many {α : Type} (item : List Char → Option (α × List Char)) : Nat → List Char → List α × List Char
  | 0, s => ([], s)
  | n + 1, s =>
    match item s with
    | none => ([], s)
    | some (a, rest) =>
      let (as, rest) := many item n rest
      (a :: as, rest)

end DataTier.Toml
