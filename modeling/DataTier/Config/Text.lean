import DataTier.Config.Form
import DataTier.Toml.Reader
import DataTier.Toml.Writer

/-! Configurations as text, and as the bytes of a file. -/

namespace DataTier.Config

def parse (s : String) : Except Error Config :=
  match Toml.parse? s with
  | none => .error .syntaxError
  | some table => (ofTable table).mapError .form

def ofFile : Except FileFailure ByteArray → Except Error Config
  | .error f => .error (.file f)
  | .ok bytes =>
    match String.fromUTF8? bytes with
    | none => .error (.file .notText)
    | some s => parse s

theorem ofFile_toUTF8 (s : String) : ofFile (.ok s.toUTF8) = parse s := by
  have text : String.fromUTF8? s.toUTF8 = some s := by
    rw [String.fromUTF8?, String.toUTF8_eq_toByteArray, dif_pos s.isValidUTF8]
    rfl
  rw [ofFile, text]

/-- Written numbers are below this. -/
def numberBound : Nat := Nat.pow 2 63

def sizes (c : Config) : List (Option Nat) :=
  (match c.pool with
    | none => []
    | some s => [s.maxActive, s.maxIdle, s.badConnectionTolerance]) ++
    (match c.cache with
      | none => []
      | some s => [s.retentionSize, s.maxEntries, s.memoryBudget])

def isWritable (c : Config) : Bool := c.sizes.all fun n => n.all (· < numberBound)

def write (c : Config) : Except Error String :=
  if c.isWritable then .ok (String.ofList (Toml.write c.statements))
  else .error .numberTooLarge

end DataTier.Config
