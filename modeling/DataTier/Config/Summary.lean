import DataTier.Config.Resolved

/-! A checked configuration as it is shown to people and to programs. Neither form holds
the password itself. -/

namespace DataTier.Resolved

/-- Reported milliseconds have sixty-four bits. -/
def reportedMilliseconds (d : Time.Duration) : Nat := d.wholeMilliseconds % Nat.pow 2 64

def sourceData (s : Source.DataSource) : Json :=
  .ofMembers
    [("url", .text s.url), ("username", .option .text s.credentials.username),
      ("password_set", .bool s.credentials.password.isSome),
      ("fingerprint", .text s.fingerprint.short)]

def poolData (s : Pool.Settings) : Json :=
  let milliseconds (d : Time.Duration) : Json := .nat (reportedMilliseconds d)
  .ofMembers
    [("max_active", .nat s.maxActive), ("max_idle", .nat s.maxIdle),
      ("max_checkout_time_ms", milliseconds s.maxCheckoutTime),
      ("time_to_wait_ms", milliseconds s.timeToWait),
      ("bad_connection_tolerance", .nat s.badConnectionTolerance),
      ("ping_enabled", .bool s.pingEnabled), ("ping_query", .text s.pingQuery),
      ("ping_connections_not_used_for_ms", milliseconds s.pingConnectionsNotUsedFor)]

def cacheData (s : Cache.Settings) : Json :=
  .ofMembers
    [("id", .text s.id), ("blocking", .bool s.blocking),
      ("blocking_timeout_ms", .option (fun d => .nat (reportedMilliseconds d)) s.blockingTimeout),
      ("retention_size", .nat s.retentionSize), ("max_entries", .option .nat s.maxEntries),
      ("memory_budget", .option .nat s.memoryBudget)]

def data (r : Resolved) : Json :=
  .ofMembers
    [("datasource", sourceData r.source), ("pool", poolData r.pool), ("cache", cacheData r.cache)]

/-- A label and what it stands for. -/
def item (e : String × String) : String := e.1 ++ "=" ++ e.2

def poolLine (s : Pool.Settings) : String :=
  "  pool: " ++ " ".intercalate ([("max_active", toString s.maxActive),
    ("max_idle", toString s.maxIdle), ("max_checkout_time", s.maxCheckoutTime.render),
    ("time_to_wait", s.timeToWait.render),
    ("tolerance", toString s.badConnectionTolerance)].map item)

def pingLine (s : Pool.Settings) : String :=
  "  ping: " ++ Text.Diagnostic.text s.pingQuery ++ " after " ++
    s.pingConnectionsNotUsedFor.render ++ " idle"

def limitText : Option Nat → String
  | none => "unbounded"
  | some n => toString n

def timeoutText : Option Time.Duration → String
  | none => "none"
  | some d => d.render

def cacheLine (s : Cache.Settings) : String :=
  "  cache " ++ s.id ++ ": " ++ " ".intercalate ([("blocking", Text.Diagnostic.bool s.blocking),
    ("timeout", timeoutText s.blockingTimeout), ("retention", toString s.retentionSize),
    ("max_entries", limitText s.maxEntries), ("budget", limitText s.memoryBudget)].map item)

/-- A ping is mentioned only if there is one. -/
def lines (r : Resolved) : List String :=
  ["✓ " ++ r.source.url ++ " (" ++ r.source.fingerprint.short ++ ")", poolLine r.pool] ++
    (if r.pool.pingEnabled then [pingLine r.pool] else []) ++ [cacheLine r.cache]

def render (r : Resolved) : String := String.join (r.lines.map (· ++ "\n"))

end DataTier.Resolved
