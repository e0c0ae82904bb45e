import DataTier.Cache.Key
import DataTier.Schema.Mismatch
import DataTier.Time.Duration

/-! Why a cache operation fails. -/

namespace DataTier.Cache

inductive Conversion where
  /-- The cached value has another form than the one asked for. -/
  | form (m : Schema.Mismatch)
  /-- A table has a key that no member of an object can have. -/
  | memberName
  /-- A failure that was asked for, of the call named. -/
  | injected (call : String)
  deriving DecidableEq, Repr

def Conversion.message : Conversion → String
  | .form m => m.message Decimal.dataStyle
  | .memberName => "key must be a string"
  | .injected call => "injected " ++ call ++ " failure"

inductive Error where
  /-- The wait for another caller's miss on the key took too long. -/
  | lockTimeout (key : Key) (cache : String) (timeout : Time.Duration)
  /-- The wait has no limit, and no other caller is there to end it. -/
  | stalled (key : Key) (cache : String)
  /-- The clock cannot show the end of the wait. -/
  | deadline (key : Key) (cache : String) (timeout : Time.Duration)
  /-- A gate was to be opened that nobody had closed. -/
  | invalidRelease (key : Key) (cache : String)
  | conversion (reason : Conversion)
  deriving DecidableEq, Repr

/-- No answer to a caller, but the end of it. -/
def Error.isPanic : Error → Bool
  | .deadline .. => true
  | _ => false

def Error.message : Error → String
  | .lockTimeout key cache timeout =>
    "could not acquire lock on key " ++ key.text ++ " in cache " ++ cache ++ " within " ++
      timeout.render
  | .stalled key cache =>
    "waiting without end for key " ++ key.text ++ " in cache " ++ cache
  | .deadline .. => "overflow when adding duration to instant"
  | .invalidRelease key cache =>
    "released key " ++ key.text ++ " in cache " ++ cache ++ " without holding its lock"
  | .conversion reason => "cache value serialization failed: " ++ reason.message

end DataTier.Cache
