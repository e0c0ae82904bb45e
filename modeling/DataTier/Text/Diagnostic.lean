import DataTier.Text.Quoted

/-! How values look in diagnostics: a record is its name and its fields in order, an
optional value says whether it is there, and text is quoted. -/

namespace DataTier.Text.Diagnostic

def text (s : String) : String := Quoted.encode s

def bool (b : Bool) : String := if b then "true" else "false"

def option {α : Type} (render : α → String) : Option α → String
  | none => "None"
  | some a => "Some(" ++ render a ++ ")"

def field (f : String × String) : String := f.1 ++ ": " ++ f.2

def record (name : String) (fields : List (String × String)) : String :=
  name ++ " \x7b " ++ ", ".intercalate (fields.map field) ++ " \x7d"

/-- A record some of whose fields are kept from view. -/
def openRecord (name : String) (fields : List (String × String)) : String :=
  name ++ " \x7b " ++ ", ".intercalate (fields.map field ++ [".."]) ++ " \x7d"

/-- A table of texts in the order it is given. -/
def table (entries : List (String × String)) : String :=
  "\x7b" ++ ", ".intercalate (entries.map fun e => text e.1 ++ ": " ++ text e.2) ++ "\x7d"

end DataTier.Text.Diagnostic
