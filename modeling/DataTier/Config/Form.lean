import DataTier.Config.Basic
import DataTier.Config.Error
import DataTier.Toml.Document

/-! Configurations as tables. Reading takes the members in their order and drops those it
does not know; the first that has the wrong form is reported, and one that is missing only
after all others. A table may also be given as the list of its fields. Writing leaves out
what is absent. -/

namespace DataTier.Config

open Schema Toml

abbrev Members := List (String × Value)

def found : Value → Found
  | .text s => .text s
  | .whole n => .number (.whole n)
  | .binary bits => .number (.binary bits)
  | .bool b => .bool b
  | .moment _ => .map
  | .array _ => .sequence
  | .table _ => .map

def mismatch {α : Type} (expected : String) (v : Value) : Except Mismatch α :=
  .error (.kind (found v) expected)

def text : Value → Except Mismatch String
  | .text s => .ok s
  | v => mismatch "a string" v

def flag : Value → Except Mismatch Bool
  | .bool b => .ok b
  | v => mismatch "a boolean" v

def size : Value → Except Mismatch Nat
  | .whole n => if 0 ≤ n then .ok n.toNat else .error (.range n "usize")
  | v => mismatch "usize" v

/-- Texts by name, in the order of their names. -/
def texts (v : Value) : Except Mismatch (List (String × String)) :=
  match v.members? with
  | none => mismatch "a map" v
  | some members => do
    let entries ← members.mapM fun m => return (m.1, ← text m.2)
    return entries.mergeSort fun a b => !(b.1 < a.1)

/-- A table by its name and its fields in order, each with how it takes a value. -/
structure Form (α : Type) where
  name : String
  fields : List (String × (Value → α → Except Mismatch α))

namespace Form

variable {α : Type}

def takeMembers (f : Form α) (start : α) (members : Members) : Except Mismatch α :=
  members.foldlM (fun a m => match f.fields.lookup m.1 with
    | some take => take m.2 a
    | none => .ok a) start

/-- Items beyond the last field are dropped. -/
def takeItems (f : Form α) (start : α) (items : List Value) : Except Mismatch α := do
  let a ← (f.fields.zip items).foldlM (fun a m => m.1.2 m.2 a) start
  if items.length < f.fields.length then
    .error (.length items.length
      ("struct " ++ f.name ++ " with " ++ toString f.fields.length ++ " elements"))
  else .ok a

/-- Of a table the required fields have to be there. -/
def read (f : Form α) (start : α) (required : List String) (v : Value) : Except Mismatch α :=
  match v with
  | .array items => f.takeItems start items
  | v =>
    match v.members? with
    | none => mismatch ("struct " ++ f.name) v
    | some members => do
      let a ← f.takeMembers start members
      match required.find? fun n => members.all (·.1 ≠ n) with
      | some n => .error (.missing n)
      | none => .ok a

end Form

def sourceForm : Form SourceSection where
  name := "DataSourceConfig"
  fields :=
    [("url", fun v s => return { s with url := ← text v }),
      ("username", fun v s => return { s with username := ← text v }),
      ("password", fun v s => return { s with password := ← text v }),
      ("auto_commit", fun v s => return { s with autoCommit := ← flag v }),
      ("properties", fun v s => return { s with properties := ← texts v })]

def poolForm : Form PoolSection where
  name := "PoolSection"
  fields :=
    [("max_active", fun v s => return { s with maxActive := ← size v }),
      ("max_idle", fun v s => return { s with maxIdle := ← size v }),
      ("max_checkout_time", fun v s => return { s with maxCheckoutTime := ← text v }),
      ("time_to_wait", fun v s => return { s with timeToWait := ← text v }),
      ("bad_connection_tolerance", fun v s =>
        return { s with badConnectionTolerance := ← size v }),
      ("ping_enabled", fun v s => return { s with pingEnabled := ← flag v }),
      ("ping_query", fun v s => return { s with pingQuery := ← text v }),
      ("ping_connections_not_used_for", fun v s =>
        return { s with pingConnectionsNotUsedFor := ← text v })]

def cacheForm : Form CacheSection where
  name := "CacheSection"
  fields :=
    [("blocking", fun v s => return { s with blocking := ← flag v }),
      ("blocking_timeout", fun v s => return { s with blockingTimeout := ← text v }),
      ("retention_size", fun v s => return { s with retentionSize := ← size v }),
      ("max_entries", fun v s => return { s with maxEntries := ← size v }),
      ("memory_budget", fun v s => return { s with memoryBudget := ← size v })]

def sourceSection (v : Value) : Except Mismatch SourceSection :=
  sourceForm.read { url := "" } ["url"] v

def poolSection (v : Value) : Except Mismatch PoolSection := poolForm.read {} [] v

def cacheSection (v : Value) : Except Mismatch CacheSection := cacheForm.read {} [] v

def form : Form Config where
  name := "Config"
  fields :=
    [("datasource", fun v c => return { c with source := ← sourceSection v }),
      ("pool", fun v c => return { c with pool := ← poolSection v }),
      ("cache", fun v c => return { c with cache := ← cacheSection v })]

def ofTable (members : Members) : Except Mismatch Config :=
  form.read { source := { url := "" } } ["datasource"] (.table members)

/-! Writing. -/

def given {α : Type} (key : String) (value : α → Value) : Option α → List Assignment
  | none => []
  | some a => [{ key, value := value a }]

def number (n : Nat) : Value := .whole n

def SourceSection.assignments (s : SourceSection) : List Assignment :=
  [{ key := "url", value := .text s.url }] ++ given "username" .text s.username ++
    given "password" .text s.password ++ given "auto_commit" .bool s.autoCommit

def PoolSection.assignments (s : PoolSection) : List Assignment :=
  given "max_active" number s.maxActive ++ given "max_idle" number s.maxIdle ++
    given "max_checkout_time" .text s.maxCheckoutTime ++
    given "time_to_wait" .text s.timeToWait ++
    given "bad_connection_tolerance" number s.badConnectionTolerance ++
    given "ping_enabled" .bool s.pingEnabled ++ given "ping_query" .text s.pingQuery ++
    given "ping_connections_not_used_for" .text s.pingConnectionsNotUsedFor

def CacheSection.assignments (s : CacheSection) : List Assignment :=
  given "blocking" .bool s.blocking ++ given "blocking_timeout" .text s.blockingTimeout ++
    given "retention_size" number s.retentionSize ++ given "max_entries" number s.maxEntries ++
    given "memory_budget" number s.memoryBudget

/-- A heading and the assignments under it. -/
def headed (path : List String) (key : String) (assignments : List Assignment) : List Statement :=
  .heading { path, key } :: assignments.map .assignment

def propertyAssignments (properties : List (String × String)) : List Assignment :=
  properties.map fun p => { key := p.1, value := .text p.2 }

def statements (c : Config) : List Statement :=
  headed [] "datasource" c.source.assignments ++
    (match c.source.properties with
      | none => []
      | some ps => headed ["datasource"] "properties" (propertyAssignments ps)) ++
    (match c.pool with
      | none => []
      | some s => headed [] "pool" s.assignments) ++
    (match c.cache with
      | none => []
      | some s => headed [] "cache" s.assignments)

end DataTier.Config
