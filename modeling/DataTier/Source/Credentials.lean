import DataTier.Text.Diagnostic

/-! The name and password a connection is opened under. Diagnostics show that a password
is there and nothing else of it. -/

namespace DataTier.Source

structure Credentials where
  username : Option String := none
  password : Option String := none
  deriving DecidableEq, Repr

namespace Credentials

def anonymous : Credentials := {}

def named (username password : String) : Credentials := ⟨some username, some password⟩

def mask : String := "************"

open Text Diagnostic in
def render (c : Credentials) : String :=
  record "Credentials"
    [("username", option text c.username), ("password", option (fun _ => text mask) c.password)]

end DataTier.Source.Credentials
