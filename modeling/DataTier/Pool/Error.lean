/-! Why a pool or a handle fails its caller. -/

namespace DataTier.Pool

inductive Error where
  | shutDown
  /-- That many connections in a row were bad. -/
  | badConnections (n : Nat)
  | connect (reason : String)
  /-- The handle of that connection no longer stands for a checkout. -/
  | invalidConnection (id : Nat)
  | driver (reason : String)
  deriving DecidableEq, Repr

def Error.message : Error → String
  | .shutDown => "connection pool exhausted: pool has been shut down"
  | .badConnections n =>
    "connection pool exhausted: could not get a good connection after " ++ toString n ++
      " bad connections"
  | .connect reason => "failed to open connection: " ++ reason
  | .invalidConnection id => "connection " ++ toString id ++ " is invalid"
  | .driver reason => "driver error: " ++ reason

end DataTier.Pool
