import DataTier.Pool.Line

/-! The simulated database server. It counts the connections it opened and closed and the
statements it executed, and never fails but on a closed connection. -/

namespace DataTier.Simulation

structure Server where
  /-- Whether each connection is in auto-commit mode, in the order they were opened. -/
  modes : List Bool := []
  opened : Nat := 0
  closedConnections : List Pool.ConnectionId := []
  statements : Nat := 0

namespace Server

def closed (s : Server) : Nat := s.closedConnections.length

def perform (s : Server) (c : Pool.ConnectionId) : Pool.Operation → Pool.Answer × Server
  | .isClosed => (.ok (c ∈ s.closedConnections), s)
  | .autoCommit => (.ok (s.modes.getD (c - 1) true), s)
  | .setAutoCommit enabled => (.ok enabled, { s with modes := s.modes.set (c - 1) enabled })
  | .rollback => (.ok true, s)
  | .execute _ =>
    if c ∈ s.closedConnections then (.error "connection is closed", s)
    else (.ok true, { s with statements := s.statements + 1 })
  | .close =>
    if c ∈ s.closedConnections then (.ok true, s)
    else (.ok true, { s with closedConnections := c :: s.closedConnections })

def answer : Pool.Call → Server → Pool.Answer × Server
  | .open .., s => (.ok true, { s with modes := s.modes ++ [true], opened := s.opened + 1 })
  | .on c op, s => s.perform c op

def driver : Pool.Driver Server := ⟨answer⟩

end DataTier.Simulation.Server
