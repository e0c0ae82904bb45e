import DataTier.Toml.Document
import DataTier.Toml.Key

/-! Writing documents: a statement a line, and an empty line before every heading but one
at the very beginning. Only text, whole numbers and truth values are written. -/

namespace DataTier.Toml

def Value.write : Value → List Char
  | .text s => Quoted.write s.toList
  | .whole n => (toString n).toList
  | .bool true => "true".toList
  | .bool false => "false".toList
  | _ => []

def Assignment.write (a : Assignment) : List Char :=
  Key.writePath (a.path ++ [a.key]) ++ " = ".toList ++ a.value.write ++ ['\n']

def Heading.write (h : Heading) : List Char :=
  '[' :: Key.writePath (h.path ++ [h.key]) ++ [']', '\n']

def Statement.write : Statement → List Char
  | .assignment a => a.write
  | .heading h => h.write

def Statement.isHeading : Statement → Bool
  | .heading _ => true
  | .assignment _ => false

/-- What comes after the first statement. -/
def writeLater : List Statement → List Char
  | [] => []
  | st :: rest => (if st.isHeading then ['\n'] else []) ++ st.write ++ writeLater rest

def write : List Statement → List Char
  | [] => []
  | st :: rest => st.write ++ writeLater rest

end DataTier.Toml
