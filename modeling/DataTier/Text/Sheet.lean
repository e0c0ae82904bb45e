/-! Titled lists of labels and values, one row a line, with the values in a column of
their own. -/

namespace DataTier.Text

structure Sheet where
  title : String
  rows : List (String × String)

namespace Sheet

/-- Values stand behind this many characters. -/
def valueColumn : Nat := 32

def row (r : String × String) : String :=
  " " ++ r.1 ++ String.ofList (List.replicate (valueColumn - 1 - r.1.length) ' ') ++ r.2

def lines (s : Sheet) : List String := ("=== " ++ s.title ++ " ===") :: s.rows.map row

def renderAll (sheets : List Sheet) : String := "\n".intercalate (sheets.flatMap lines)

end DataTier.Text.Sheet
