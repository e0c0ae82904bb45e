import DataTier.Toml.Tree

/-! A document is a list of statements: values for keys, and headings, each of which opens
the table that the statements after it speak of. A table that its headings only implied
so far moves behind the others when it is opened. -/

namespace DataTier.Toml

structure Assignment where
  path : List String := []
  key : String
  value : Value

structure Heading where
  /-- One of several tables under the same heading. -/
  repeated : Bool := false
  path : List String := []
  key : String

inductive Statement where
  | assignment (a : Assignment)
  | heading (h : Heading)

/-- The statements before the first heading, and those under each heading. -/
def sections : List Statement → List Assignment × List (Heading × List Assignment)
  | [] => ([], [])
  | .assignment a :: rest =>
    let (top, later) := sections rest
    (a :: top, later)
  | .heading h :: rest =>
    let (own, later) := sections rest
    ([], (h, own) :: later)

namespace Branch

def fill (b : Branch) (assignments : List Assignment) : Option Branch :=
  assignments.foldlM (fun b a => b.assign a.path a.key a.value) b

/-- Puts the table of a heading into the table it belongs to. -/
def open? (h : Heading) (assignments : List Assignment) (parent : Branch) : Option Branch :=
  let fresh := fill { origin := .written } assignments
  match h.repeated, parent.members.lookup h.key with
  | true, none => fresh.map fun t => parent.append h.key (.rows [] t.members)
  | true, some (.rows earlier last) =>
    fresh.map fun t => parent.replace h.key (.rows (earlier ++ [last]) t.members)
  | false, none => fresh.map fun t => parent.append h.key t.node
  | false, some (.branch .implied members) =>
    (fill { origin := .written, members } assignments).map fun t =>
      (parent.remove h.key).append h.key t.node
  | _, _ => none

def place (root : Branch) (s : Heading × List Assignment) : Option Branch :=
  change .implied (open? s.1 s.2) s.1.path root

end Branch

/-- The table that statements describe. -/
def tableOf? (statements : List Statement) : Option (List (String × Value)) := do
  let (top, later) := sections statements
  let root ← Branch.fill { origin := .written } top
  let root ← later.foldlM Branch.place root
  return memberValues root.members

/-- A table between braces is made of assignments alone. -/
def inlineTable? (assignments : List Assignment) : Option Value :=
  (Branch.fill { origin := .written } assignments).map fun b => .table (memberValues b.members)

end DataTier.Toml
