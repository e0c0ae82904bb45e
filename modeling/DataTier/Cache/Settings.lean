import DataTier.Cache.Soft
import DataTier.Config.Basic
import DataTier.Config.Error

/-! How a named cache is to be assembled. -/

namespace DataTier.Cache

structure Settings where
  id : String
  blocking : Bool := true
  /-- How long to wait for another caller's miss; none is without end. -/
  blockingTimeout : Option Time.Duration := none
  retentionSize : Nat := 256
  maxEntries : Option Nat := none
  memoryBudget : Option Nat := some (4 * 1024 * 1024)
  deriving DecidableEq, Repr

namespace Settings

/-- A timeout of no length is none, and so is a budget of no weight. -/
def ofSection (id : String) (s : Config.CacheSection) : Except Config.Error Settings := do
  let defaults : Settings := { id }
  let timeout ← Config.duration? "blocking_timeout" s.blockingTimeout
  return {
    id
    blocking := s.blocking.getD defaults.blocking
    blockingTimeout := timeout.bind Time.Duration.positive?
    retentionSize := s.retentionSize.getD defaults.retentionSize
    maxEntries := s.maxEntries.or defaults.maxEntries
    memoryBudget := match s.memoryBudget with
      | none => defaults.memoryBudget
      | some budget => if budget = 0 then none else some budget }

def ofSection? (id : String) : Option Config.CacheSection → Except Config.Error Settings
  | none => .ok { id }
  | some s => ofSection id s

def limits (s : Settings) : Soft.Limits := ⟨s.retentionSize, s.memoryBudget⟩

open Text Diagnostic in
def render (s : Settings) : String :=
  record "CacheSettings"
    [("id", text s.id), ("blocking", bool s.blocking),
      ("blocking_timeout", option Time.Duration.render s.blockingTimeout),
      ("retention_size", toString s.retentionSize), ("max_entries", option toString s.maxEntries),
      ("memory_budget", option toString s.memoryBudget)]

end DataTier.Cache.Settings
