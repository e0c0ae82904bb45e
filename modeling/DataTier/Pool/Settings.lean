import DataTier.Config.Basic
import DataTier.Config.Error
import DataTier.Json.Basic

/-! How large a pool may grow, how long a checkout may last, and when a connection is
probed before it is trusted. -/

namespace DataTier.Pool

structure Settings where
  /-- The most connections that are checked out at once. -/
  maxActive : Nat := 10
  /-- The most connections that are kept idle. -/
  maxIdle : Nat := 5
  /-- The age at which a checkout may be taken from its holder. -/
  maxCheckoutTime : Time.Duration := .ofSeconds 20
  /-- How long one wait for a connection lasts; no length is no end. -/
  timeToWait : Time.Duration := .ofSeconds 20
  /-- How many bad connections beyond `maxIdle` one caller puts up with. -/
  badConnectionTolerance : Nat := 3
  pingEnabled : Bool := false
  pingQuery : String := "NO PING QUERY SET"
  /-- Connections used more recently than this are not probed. -/
  pingConnectionsNotUsedFor : Time.Duration := .zero
  deriving DecidableEq, Repr

namespace Settings

/-- How many bad connections one caller may come upon before it fails: a sum of sixty-four bits,
beyond which it begins again at zero. -/
def badConnectionLimit (s : Settings) : Nat :=
  (s.maxIdle + s.badConnectionTolerance) % Nat.pow 2 64

theorem badConnectionLimit_eq {s : Settings}
    (fits : s.maxIdle + s.badConnectionTolerance < Nat.pow 2 64) :
    s.badConnectionLimit = s.maxIdle + s.badConnectionTolerance := Nat.mod_eq_of_lt fits

/-- What the section leaves out has its usual value; the first bad duration is reported. -/
def ofSection (s : Config.PoolSection) : Except Config.Error Settings := do
  let defaults : Settings := {}
  let maxCheckoutTime ← Config.duration? "max_checkout_time" s.maxCheckoutTime
  let timeToWait ← Config.duration? "time_to_wait" s.timeToWait
  let notUsedFor ← Config.duration? "ping_connections_not_used_for" s.pingConnectionsNotUsedFor
  return {
    maxActive := s.maxActive.getD defaults.maxActive
    maxIdle := s.maxIdle.getD defaults.maxIdle
    maxCheckoutTime := maxCheckoutTime.getD defaults.maxCheckoutTime
    timeToWait := timeToWait.getD defaults.timeToWait
    badConnectionTolerance := s.badConnectionTolerance.getD defaults.badConnectionTolerance
    pingEnabled := s.pingEnabled.getD defaults.pingEnabled
    pingQuery := s.pingQuery.getD defaults.pingQuery
    pingConnectionsNotUsedFor := notUsedFor.getD defaults.pingConnectionsNotUsedFor }

def ofSection? : Option Config.PoolSection → Except Config.Error Settings
  | none => .ok {}
  | some s => ofSection s

open Text Diagnostic in
def render (s : Settings) : String :=
  record "PoolConfig"
    [("max_active", toString s.maxActive), ("max_idle", toString s.maxIdle),
      ("max_checkout_time", s.maxCheckoutTime.render), ("time_to_wait", s.timeToWait.render),
      ("bad_connection_tolerance", toString s.badConnectionTolerance),
      ("ping_enabled", bool s.pingEnabled), ("ping_query", text s.pingQuery),
      ("ping_connections_not_used_for", s.pingConnectionsNotUsedFor.render)]

def durationData (d : Time.Duration) : Json :=
  .ofMembers [("secs", .nat d.wholeSeconds), ("nanos", .nat d.subsecondNanoseconds)]

def data (s : Settings) : Json :=
  .ofMembers
    [("max_active", .nat s.maxActive), ("max_idle", .nat s.maxIdle),
      ("max_checkout_time", durationData s.maxCheckoutTime),
      ("time_to_wait", durationData s.timeToWait),
      ("bad_connection_tolerance", .nat s.badConnectionTolerance),
      ("ping_enabled", .bool s.pingEnabled), ("ping_query", .text s.pingQuery),
      ("ping_connections_not_used_for", durationData s.pingConnectionsNotUsedFor)]

end DataTier.Pool.Settings
