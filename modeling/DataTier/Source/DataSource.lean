import DataTier.Source.Fingerprint

/-! Where physical connections are opened and how: the endpoint, its credentials, the
properties handed to the driver, and the auto-commit mode of fresh connections. -/

namespace DataTier.Source

structure DataSource where
  url : String
  credentials : Credentials := {}
  /-- In the order of their names, each name once. -/
  properties : List (String × String) := []
  autoCommit : Option Bool := none
  deriving DecidableEq, Repr

namespace DataSource

def fingerprintFor (s : DataSource) (c : Credentials) : Fingerprint := .of s.url c

def fingerprint (s : DataSource) : Fingerprint := s.fingerprintFor s.credentials

open Text Diagnostic in
def render (s : DataSource) : String :=
  record "DataSource"
    [("url", text s.url), ("credentials", s.credentials.render),
      ("properties", table s.properties), ("auto_commit", option bool s.autoCommit)]

end DataTier.Source.DataSource
