import DataTier.Source.DataSource

/-! The line to a database driver. A driver answers calls over a state of its own and may
fail any of them; the line numbers the connections it opens, from one on, and keeps every
call with its answer. -/

namespace DataTier.Pool

/-- A physical connection, by its place in the order of successful opens. -/
abbrev ConnectionId := Nat

/-- What can be asked of a connection. -/
inductive Operation where
  | isClosed
  | autoCommit
  | setAutoCommit (enabled : Bool)
  | rollback
  | execute (statement : String)
  | close
  deriving DecidableEq, Repr

inductive Call where
  | «open» (source : Source.DataSource) (credentials : Source.Credentials)
  | on (c : ConnectionId) (op : Operation)
  deriving DecidableEq, Repr

namespace Operation

def name : Operation → String
  | .isClosed => "is_closed"
  | .autoCommit => "auto_commit"
  | .setAutoCommit _ => "set_auto_commit"
  | .rollback => "rollback"
  | .execute _ => "execute"
  | .close => "close"

def arguments : Operation → List String
  | .setAutoCommit enabled => [Text.Diagnostic.bool enabled]
  | .execute statement => [statement]
  | _ => []

/-- The other operations do something, and their answer only says that they did. -/
def isQuestion : Operation → Bool
  | .isClosed | .autoCommit => true
  | _ => false

end Operation

def connectionName (c : ConnectionId) : String := "c" ++ toString c

def Call.render : Call → String
  | .open source credentials =>
    let properties := source.properties.map fun p => p.1 ++ "=" ++ p.2
    "open " ++ source.url ++ " " ++ credentials.username.getD "-" ++ " " ++
      credentials.password.getD "-" ++ " [" ++ ",".intercalate properties ++ "]"
  | .on c op => " ".intercalate (connectionName c :: op.name :: op.arguments)

/-- The answer of a call that asks for nothing is of no meaning. -/
abbrev Answer := Except String Bool

structure Driver (δ : Type) where
  answer : Call → δ → Answer × δ

structure Line (δ : Type) where
  driver : δ
  opened : Nat := 0
  /-- The latest call first. -/
  log : List (Call × Answer) := []

namespace Line

variable {δ : Type}

def ask (D : Driver δ) (call : Call) (l : Line δ) : Answer × Line δ :=
  let (a, driver) := D.answer call l.driver
  let opened := match call with
    | .open .. => if a.isOk then l.opened + 1 else l.opened
    | .on .. => l.opened
  (a, { driver, opened, log := (call, a) :: l.log })

/-- A failure to close is of no interest to anybody. -/
def close (D : Driver δ) (c : ConnectionId) (l : Line δ) : Line δ := (l.ask D (.on c .close)).2

/-- Outside auto-commit mode there may be a transaction to end. -/
def rollbackIfNeeded (D : Driver δ) (c : ConnectionId) (l : Line δ) : Except String Unit × Line δ :=
  match l.ask D (.on c .autoCommit) with
  | (.error e, l) => (.error e, l)
  | (.ok true, l) => (.ok (), l)
  | (.ok false, l) =>
    let (a, l) := l.ask D (.on c .rollback)
    (a.map fun _ => (), l)

/-- Ends a connection for good, whatever the driver says to it. -/
def retire (D : Driver δ) (c : ConnectionId) (l : Line δ) : Line δ :=
  ((l.rollbackIfNeeded D c).2).close D c

/-- A fresh connection is put into the mode that its source asks for. -/
def connect (D : Driver δ) (source : Source.DataSource) (credentials : Source.Credentials)
    (l : Line δ) : Except String ConnectionId × Line δ :=
  match l.ask D (.open source credentials) with
  | (.error e, l) => (.error e, l)
  | (.ok _, l) =>
    match source.autoCommit with
    | none => (.ok l.opened, l)
    | some enabled =>
      let c := l.opened
      let (a, l) := l.ask D (.on c (.setAutoCommit enabled))
      (a.map fun _ => c, l)

@[simp] theorem ask_log (D : Driver δ) (call : Call) (l : Line δ) :
    (l.ask D call).2.log = (call, (l.ask D call).1) :: l.log := rfl

end DataTier.Pool.Line
