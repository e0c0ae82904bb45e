import DataTier.Cache.Settings
import DataTier.Pool.Settings

/-! A configuration that was checked: what the pool and the cache are built from. Of
several faults the one in the pool's section is reported first, then the one in the
cache's section, and last a pool that could never hand out a connection. -/

namespace DataTier

structure Resolved where
  source : Source.DataSource
  pool : Pool.Settings
  cache : Cache.Settings
  deriving DecidableEq, Repr

/-- The name of the cache for query results. -/
def Resolved.cacheId : String := "rows"

def Config.resolve (c : Config) : Except Config.Error Resolved := do
  let pool ← Pool.Settings.ofSection? c.pool
  let cache ← Cache.Settings.ofSection? Resolved.cacheId c.cache
  if pool.maxActive = 0 then .error .noActiveConnections
  else return { source := c.source.dataSource, pool, cache }

end DataTier
