import DataTier.Toml.Value

/-! Tables as a document builds them up. A table is written out under its own heading,
implied by the headings of tables inside it, or made by the dots of a key. One that is
written out or made by dots is not written out again, and dots reach only into tables
that were not written out; what breaks this, or names a member twice, is refused. -/

namespace DataTier.Toml

inductive Origin where
  | written
  | implied
  | dotted
  deriving DecidableEq, Repr

inductive Node where
  | leaf (v : Value)
  | branch (origin : Origin) (members : List (String × Node))
  /-- Tables under one repeated heading, the last of which is still open. -/
  | rows (earlier : List (List (String × Node))) (last : List (String × Node))

structure Branch where
  origin : Origin
  members : List (String × Node) := []

namespace Branch

def node (b : Branch) : Node := .branch b.origin b.members

def replace (key : String) (node : Node) (b : Branch) : Branch :=
  { b with members := b.members.map fun m => if m.1 = key then (key, node) else m }

def append (key : String) (node : Node) (b : Branch) : Branch :=
  { b with members := b.members ++ [(key, node)] }

def remove (key : String) (b : Branch) : Branch :=
  { b with members := b.members.filter (·.1 ≠ key) }

/-- Changes the table at the end of a path. Tables that are missing on the way are made;
`origin` says how. -/
def change (origin : Origin) (f : Branch → Option Branch) : List String → Branch → Option Branch
  | [], b => f b
  | key :: path, b =>
    match b.members.lookup key with
    | none => do
      let child ← change origin f path { origin }
      return b.append key child.node
    | some (.leaf _) => none
    | some (.branch o members) =>
      if origin = .dotted ∧ o = .written then none
      else do
        let child ← change origin f path { origin := o, members }
        return b.replace key child.node
    | some (.rows earlier last) => do
      let child ← change origin f path { origin := .written, members := last }
      return b.replace key (.rows earlier child.members)

/-- A key with dots ends in a table that dots made, and a key without in the table itself. -/
def assign (path : List String) (key : String) (v : Value) (b : Branch) : Option Branch :=
  change .dotted (fun t =>
    if (t.origin = .dotted) = (path = []) then none
    else if (t.members.lookup key).isSome then none
    else some (t.append key (.leaf v))) path b

end Branch

mutual

def Node.value : Node → Value
  | .leaf v => v
  | .branch _ members => .table (memberValues members)
  | .rows earlier last => .array (rowValues earlier ++ [.table (memberValues last)])

def memberValues : List (String × Node) → List (String × Value)
  | [] => []
  | (k, n) :: rest => (k, n.value) :: memberValues rest

def rowValues : List (List (String × Node)) → List Value
  | [] => []
  | r :: rest => .table (memberValues r) :: rowValues rest

end

end DataTier.Toml
