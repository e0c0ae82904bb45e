import DataTier.Schema.Mismatch
import DataTier.Time.Duration

/-! Why a configuration is refused, or cannot be read or written. -/

namespace DataTier.Config

inductive FileFailure where
  | missing
  | isDirectory
  /-- Something on the way to the file is a file itself. -/
  | notDirectory
  | nameTooLong
  /-- No path may hold the character with number zero. -/
  | holdsNul
  /-- The bytes of the file are not text. -/
  | notText
  /-- Anything else that the system may say. -/
  | refused (reason : String)
  deriving DecidableEq, Repr

def FileFailure.message : FileFailure → String
  | .missing => "No such file or directory (os error 2)"
  | .isDirectory => "Is a directory (os error 21)"
  | .notDirectory => "Not a directory (os error 20)"
  | .nameTooLong => "File name too long (os error 36)"
  | .holdsNul => "file name contained an unexpected NUL byte"
  | .notText => "stream did not contain valid UTF-8"
  | .refused reason => reason

inductive Error where
  /-- The text is not a document at all. -/
  | syntaxError
  /-- The document has another form than a configuration. -/
  | form (m : Schema.Mismatch)
  | duration (field raw : String)
  | noActiveConnections
  /-- A number is too large to be written. -/
  | numberTooLarge
  | fileExists (path : String)
  | file (f : FileFailure)
  deriving DecidableEq, Repr

def Error.message : Error → String
  | .syntaxError => "not a valid document"
  | .form m => m.message Decimal.plainStyle
  | .duration field raw =>
    "invalid duration for " ++ Schema.quoteName field ++ ": " ++ Text.Quoted.encode raw
  | .noActiveConnections => "pool.max_active must be at least 1"
  | .numberTooLarge => "out-of-range value for u64 type"
  | .fileExists path => path ++ " already exists"
  | .file f => f.message

/-- A duration that may be left out; the error names the field. -/
def duration? (field : String) : Option String → Except Error (Option Time.Duration)
  | none => .ok none
  | some raw =>
    match Time.Duration.parse? raw with
    | some d => .ok (some d)
    | none => .error (.duration field raw)

end DataTier.Config
