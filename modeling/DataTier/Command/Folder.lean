import DataTier.Command.Plan

/-! Files in memory, on which plans are carried out. A path is gone through name by name,
from the folder that commands start in or from the root; every step leaves a directory,
also the steps `.` and `..` and the empty one between two slashes. -/

namespace DataTier.Command

structure Folder where
  /-- The names on the way from the root to the folder that relative paths start from. -/
  home : List String
  /-- Every file there is, by the names on the way from the root to it. -/
  files : Table (List String) ByteArray := []

namespace Folder

/-- No name has more bytes than this. -/
def nameLimit : Nat := 255

/-- Every path has fewer bytes than this. -/
def pathLimit : Nat := 4096

/-- The directories are those on the way to the folder or to a file. -/
def isDirectory (d : Folder) (place : List String) : Bool :=
  place.isPrefixOf d.home || d.files.any fun f => place.isPrefixOf f.1 && place != f.1

def stepFrom (d : Folder) (place : List String) (name : String) :
    Except Config.FileFailure (List String) :=
  if d.files.has place then .error .notDirectory
  else if !d.isDirectory place then .error .missing
  else if name.isEmpty || name == "." then .ok place
  else if name == ".." then .ok place.dropLast
  else if nameLimit < name.utf8ByteSize then .error .nameTooLong
  else .ok (place ++ [name])

/-- Where a path leads; nothing need be there. -/
def placeOf (d : Folder) (path : String) : Except Config.FileFailure (List String) :=
  if path.contains '\x00' then .error .holdsNul
  else if path.isEmpty then .error .missing
  else if pathLimit ≤ path.utf8ByteSize then .error .nameTooLong
  else ((path.toList.splitOn '/').map String.ofList).foldlM d.stepFrom
    (if path.startsWith "/" then [] else d.home)

def read (d : Folder) (path : String) : Except Config.FileFailure ByteArray := do
  let place ← d.placeOf path
  match d.files.get? place with
  | some bytes => .ok bytes
  | none => .error (if d.isDirectory place then .isDirectory else .missing)

def holds (d : Folder) (path : String) : Bool :=
  match d.placeOf path with
  | .ok place => d.files.has place || d.isDirectory place
  | .error _ => false

def write (d : Folder) (path contents : String) : Option Config.FileFailure × Folder :=
  match d.placeOf path with
  | .error f => (some f, d)
  | .ok place =>
    if d.isDirectory place then (some .isDirectory, d)
    else (none, { d with files := d.files.set place contents.toUTF8 })

/-- A file of the folder itself. -/
def file? (d : Folder) (name : String) : Option ByteArray := d.files.get? (d.home ++ [name])

/-- A folder with files of its own. -/
def ofFiles (home : List String) (files : List (String × ByteArray)) : Folder :=
  { home, files := files.map fun f => (home ++ [f.1], f.2) }

end Folder

def Plan.carryOut {α : Type} : Plan α → Folder → α × Folder
  | .finish a, d => (a, d)
  | .read path next, d => (next (d.read path)).carryOut d
  | .probe path next, d => (next (d.holds path)).carryOut d
  | .write path contents next, d =>
    let (f, d) := d.write path contents
    (next f).carryOut d

end DataTier.Command
