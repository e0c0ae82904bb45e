import DataTier.Pool.State
import DataTier.Text.Sheet

/-! What a pool says of itself: its settings, how many connections it has, and its
counters with averages in whole milliseconds. A password shows only whether it is set. -/

namespace DataTier.Pool

/-- The average of nothing is zero. -/
def averageMilliseconds (total : Time.Duration) (n : Nat) : Nat := total.wholeMilliseconds / n

structure Statistics where
  active : Nat
  idle : Nat
  requests : Nat
  averageRequestTime : Nat
  averageCheckoutTime : Nat
  claimedOverdue : Nat
  averageOverdueCheckoutTime : Nat
  hadToWait : Nat
  averageWaitTime : Nat
  badConnections : Nat
  deriving DecidableEq, Repr

structure Status where
  url : String
  username : Option String
  passwordIsSet : Bool
  settings : Settings
  statistics : Statistics

def State.statistics (s : State) : Statistics :=
  let c := s.counters
  { active := s.active.length
    idle := s.idle.length
    requests := c.requests
    averageRequestTime := averageMilliseconds c.requestTime c.requests
    averageCheckoutTime := averageMilliseconds c.checkoutTime c.requests
    claimedOverdue := c.claimedOverdue
    averageOverdueCheckoutTime := averageMilliseconds c.overdueCheckoutTime c.claimedOverdue
    hadToWait := c.hadToWait
    averageWaitTime := averageMilliseconds c.waitTime c.hadToWait
    badConnections := c.badConnections }

def State.status (s : State) : Status where
  url := s.source.url
  username := s.source.credentials.username
  passwordIsSet := s.source.credentials.password.isSome
  settings := s.settings
  statistics := s.statistics

namespace Status

def passwordMask (isSet : Bool) : String := if isSet then "************" else "NULL"

def settingsRows (s : Status) : List (String × String) :=
  let c := s.settings
  [("url", s.url), ("username", s.username.getD "NULL"),
    ("password", passwordMask s.passwordIsSet), ("max_active", toString c.maxActive),
    ("max_idle", toString c.maxIdle), ("max_checkout_time", c.maxCheckoutTime.render),
    ("time_to_wait", c.timeToWait.render),
    ("bad_connection_tolerance", toString c.badConnectionTolerance),
    ("ping_enabled", Text.Diagnostic.bool c.pingEnabled), ("ping_query", c.pingQuery),
    ("ping_connections_not_used_for", c.pingConnectionsNotUsedFor.render)]

def statisticsRows (k : Statistics) : List (String × String) :=
  let milliseconds (n : Nat) := toString n ++ "ms"
  [("active", toString k.active), ("idle", toString k.idle),
    ("request_count", toString k.requests),
    ("average_request_time", milliseconds k.averageRequestTime),
    ("average_checkout_time", milliseconds k.averageCheckoutTime),
    ("claimed_overdue", toString k.claimedOverdue),
    ("average_overdue_checkout_time", milliseconds k.averageOverdueCheckoutTime),
    ("had_to_wait", toString k.hadToWait),
    ("average_wait_time", milliseconds k.averageWaitTime),
    ("bad_connection_count", toString k.badConnections)]

def sheets (s : Status) : List Text.Sheet :=
  [⟨"configuration", s.settingsRows⟩, ⟨"status", statisticsRows s.statistics⟩]

def render (s : Status) : String := Text.Sheet.renderAll s.sheets

def statisticsData (k : Statistics) : Json :=
  .ofMembers
    [("active", .nat k.active), ("idle", .nat k.idle), ("request_count", .nat k.requests),
      ("average_request_time_ms", .nat k.averageRequestTime),
      ("average_checkout_time_ms", .nat k.averageCheckoutTime),
      ("claimed_overdue", .nat k.claimedOverdue),
      ("average_overdue_checkout_time_ms", .nat k.averageOverdueCheckoutTime),
      ("had_to_wait", .nat k.hadToWait), ("average_wait_time_ms", .nat k.averageWaitTime),
      ("bad_connection_count", .nat k.badConnections)]

def data (s : Status) : Json :=
  .ofMembers
    [("url", .text s.url), ("username", .option .text s.username),
      ("password_set", .bool s.passwordIsSet), ("config", s.settings.data),
      ("stats", statisticsData s.statistics)]

end DataTier.Pool.Status
