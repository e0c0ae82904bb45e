/-! The values of configuration documents. The members of a table are in the order in which
they were written. -/

namespace DataTier.Toml

inductive Value where
  | text (s : String)
  | whole (n : Int)
  | binary (bits : UInt64)
  | bool (b : Bool)
  /-- A date, a time or both, in its written form. -/
  | moment (s : String)
  | array (items : List Value)
  | table (members : List (String × Value))
  deriving Repr

namespace Value

/-- The one member of a date or time that is taken for a table. -/
def momentMember : String := "$__toml_private_datetime"

/-- A value that is a table, or may be taken for one. -/
def members? : Value → Option (List (String × Value))
  | .table members => some members
  | .moment s => some [(momentMember, .text s)]
  | _ => none

end DataTier.Toml.Value
