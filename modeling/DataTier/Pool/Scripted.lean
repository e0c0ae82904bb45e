import DataTier.Pool.Line
import DataTier.Table

/-! A driver that does as it is told. It keeps the state of each connection in memory, and
calls fail while a fault is set for them: one for a single connection, `c1.close`, goes
before one for all of them, `*.close`. A connection with the fault `report_closed` says
that it is closed. -/

namespace DataTier.Pool

structure Scripted where
  faults : Table String String := []
  /-- Whether each connection is in auto-commit mode, in the order they were opened. -/
  modes : List Bool := []
  closed : List ConnectionId := []

namespace Scripted

def everyConnection : String := "*"

def fault? (s : Scripted) (c : ConnectionId) (what : String) : Option String :=
  match s.faults.get? (connectionName c ++ "." ++ what) with
  | some message => some message
  | none => s.faults.get? (everyConnection ++ "." ++ what)

def isClosed (s : Scripted) (c : ConnectionId) : Bool :=
  c ∈ s.closed || (s.fault? c "report_closed").isSome

/-- What an operation does where no fault is in its way. -/
def perform (s : Scripted) (c : ConnectionId) : Operation → Answer × Scripted
  | .isClosed => (.ok (s.isClosed c), s)
  | .autoCommit => (.ok (s.modes.getD (c - 1) true), s)
  | .setAutoCommit enabled => (.ok enabled, { s with modes := s.modes.set (c - 1) enabled })
  | .rollback => (.ok true, s)
  | .execute _ => if c ∈ s.closed then (.error "connection is closed", s) else (.ok true, s)
  | .close => (.ok true, { s with closed := c :: s.closed })

def answer : Call → Scripted → Answer × Scripted
  | .open .., s =>
    match s.faults.get? (everyConnection ++ ".open") with
    | some message => (.error message, s)
    | none => (.ok true, { s with modes := s.modes ++ [true] })
  | .on c op, s =>
    match s.fault? c op.name with
    | some message => (.error message, s)
    | none => s.perform c op

def driver : Driver Scripted := ⟨answer⟩

def setFault (call message : String) (s : Scripted) : Scripted :=
  { s with faults := s.faults.set call message }

def clearFault (call : String) (s : Scripted) : Scripted :=
  { s with faults := s.faults.erase call }

end DataTier.Pool.Scripted
