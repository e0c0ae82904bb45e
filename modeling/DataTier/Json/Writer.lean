import DataTier.Decimal.Text
import DataTier.Json.Basic
import DataTier.Text.Hex

/-! Data values as text, in one line without spaces or indented by two spaces a level.
Only quotes, backslashes and control characters are escaped. -/

namespace DataTier.Json

def escape (c : Char) : String :=
  match c with
  | '"' => "\\\""
  | '\\' => "\\\\"
  | '\n' => "\\n"
  | '\r' => "\\r"
  | '\t' => "\\t"
  | '\x08' => "\\b"
  | '\x0c' => "\\f"
  | c =>
    if c.toNat < 0x20 then String.ofList ("\\u00".toList ++ Text.hexOfByte c.toNat.toUInt8)
    else String.singleton c

def quote (s : String) : String := s.foldl (fun acc c => acc ++ escape c) "\"" ++ "\""

def numberText : Number → String
  | .whole n => toString n
  | .binary bits => Decimal.dataStyle.render bits

mutual

def compact : Json → String
  | .null => "null"
  | .bool b => if b then "true" else "false"
  | .number n => numberText n
  | .text s => quote s
  | .array items => "[" ++ ",".intercalate (compactItems items) ++ "]"
  | .object members => "\x7b" ++ ",".intercalate (compactMembers members) ++ "\x7d"

def compactItems : List Json → List String
  | [] => []
  | v :: rest => compact v :: compactItems rest

def compactMembers : List (String × Json) → List String
  | [] => []
  | (n, v) :: rest => (quote n ++ ":" ++ compact v) :: compactMembers rest

end

def margin (depth : Nat) : String := "\n" ++ String.ofList (List.replicate (2 * depth) ' ')

/-- Brackets around items on lines of their own. -/
def enclose (opening closing : String) (depth : Nat) (items : List String) : String :=
  if items.isEmpty then opening ++ closing
  else opening ++ margin (depth + 1) ++ ("," ++ margin (depth + 1)).intercalate items ++
    margin depth ++ closing

mutual

def indented (depth : Nat) : Json → String
  | .array items => enclose "[" "]" depth (indentedItems depth items)
  | .object members => enclose "\x7b" "\x7d" depth (indentedMembers depth members)
  | v => compact v

def indentedItems (depth : Nat) : List Json → List String
  | [] => []
  | v :: rest => indented (depth + 1) v :: indentedItems depth rest

def indentedMembers (depth : Nat) : List (String × Json) → List String
  | [] => []
  | (n, v) :: rest => (quote n ++ ": " ++ indented (depth + 1) v) :: indentedMembers depth rest

end

def pretty (v : Json) : String := indented 0 v

end DataTier.Json
