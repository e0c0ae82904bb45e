import DataTier.Simulation.Run

/-! The outcome of a simulation as it is shown to people and to programs. -/

namespace DataTier.Simulation.Report

def workload (r : Report) : Text.Sheet where
  title := "workload"
  rows :=
    [("units_of_work", toString r.tally.total), ("cache_hits", toString r.tally.cached),
      ("known_absent_hits", toString r.tally.cachedAbsent),
      ("rows_queried", toString r.tally.queried),
      ("absent_rows_queried", toString r.tally.queriedAbsent),
      ("cache_size", toString r.cacheSize), ("connections_opened", toString r.opened),
      ("connections_closed", toString r.closed),
      ("elapsed", toString r.elapsed.wholeMilliseconds ++ "ms")]

def render (r : Report) : String := Text.Sheet.renderAll (r.status.sheets ++ [r.workload])

def data (r : Report) : Json :=
  .ofMembers
    [("elapsed_ms", .nat r.elapsed.wholeMilliseconds), ("pool", r.status.data),
      ("cache", .ofMembers
        [("id", .text Resolved.cacheId), ("size", .nat r.cacheSize),
          ("hits", .nat r.tally.cached), ("known_absent_hits", .nat r.tally.cachedAbsent),
          ("misses", .nat r.tally.misses)]),
      ("database", .ofMembers
        [("opened", .nat r.opened), ("closed", .nat r.closed),
          ("statements", .nat r.statements)])]

end DataTier.Simulation.Report
