import DataTier.Text.Hex
import DataTier.Text.Unprintable

/-! Quoted text, as diagnostics show it: a quote and a backslash are escaped, the usual
control characters have short escapes, and every other character that is not printable
is given by its number. -/

namespace DataTier.Text.Quoted

def escape (c : Char) : String :=
  match c with
  | '\x00' => "\\0"
  | '\t' => "\\t"
  | '\r' => "\\r"
  | '\n' => "\\n"
  | '"' => "\\\""
  | '\\' => "\\\\"
  | c => if isPrintable c then String.singleton c else "\\u\x7b" ++ hexOfNat c.toNat ++ "\x7d"

def encode (s : String) : String := s.foldl (fun acc c => acc ++ escape c) "\"" ++ "\""

end DataTier.Text.Quoted
