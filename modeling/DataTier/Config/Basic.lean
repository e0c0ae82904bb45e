import DataTier.Source.DataSource

/-! What a configuration says, before it is checked: one table for the data source and, if
they are there, one for the pool and one for the cache. Durations are still text. -/

namespace DataTier.Config

structure SourceSection where
  url : String
  username : Option String := none
  password : Option String := none
  autoCommit : Option Bool := none
  /-- In the order of their names, each name once. -/
  properties : Option (List (String × String)) := none
  deriving DecidableEq, Repr

structure PoolSection where
  maxActive : Option Nat := none
  maxIdle : Option Nat := none
  maxCheckoutTime : Option String := none
  timeToWait : Option String := none
  badConnectionTolerance : Option Nat := none
  pingEnabled : Option Bool := none
  pingQuery : Option String := none
  pingConnectionsNotUsedFor : Option String := none
  deriving DecidableEq, Repr

structure CacheSection where
  blocking : Option Bool := none
  blockingTimeout : Option String := none
  retentionSize : Option Nat := none
  maxEntries : Option Nat := none
  memoryBudget : Option Nat := none
  deriving DecidableEq, Repr

end Config

structure Config where
  source : Config.SourceSection
  pool : Option Config.PoolSection := none
  cache : Option Config.CacheSection := none
  deriving DecidableEq, Repr

namespace Config

/-- A minimal configuration for an endpoint, with the usual limits written out. -/
def scaffold (url username : String) : Config where
  source := { url, username := some username, autoCommit := some false }
  pool := some
    { maxActive := some 10
      maxIdle := some 5
      maxCheckoutTime := some "20s"
      timeToWait := some "20s"
      badConnectionTolerance := some 3
      pingEnabled := some false }
  cache := some
    { blocking := some true
      retentionSize := some 256
      maxEntries := some 1024
      memoryBudget := some (4 * 1024 * 1024) }

def SourceSection.dataSource (s : SourceSection) : Source.DataSource where
  url := s.url
  credentials := ⟨s.username, s.password⟩
  properties := s.properties.getD []
  autoCommit := s.autoCommit

end DataTier.Config
