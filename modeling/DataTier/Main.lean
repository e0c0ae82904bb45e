import DataTier.Command.Plan

/-! The program: it carries out the plan of its command line on the files there are. -/

namespace DataTier.Command

/-- The system's number of an error, which may come with either sign. -/
def errorNumber (code : UInt32) : Nat := min code.toNat (Nat.pow 2 32 - code.toNat)

def failureOf : IO.Error → Config.FileFailure
  | .noFileOrDirectory .. => .missing
  | .inappropriateType _ code _ =>
    if errorNumber code = 21 then .isDirectory
    else if errorNumber code = 20 then .notDirectory
    else .refused ("not of the right type (os error " ++ toString (errorNumber code) ++ ")")
  | .invalidArgument _ code _ =>
    if errorNumber code = 36 then .nameTooLong
    else if errorNumber code = 22 then .holdsNul
    else .refused ("not a name of a file (os error " ++ toString (errorNumber code) ++ ")")
  | .permissionDenied _ code _ =>
    .refused ("Permission denied (os error " ++ toString (errorNumber code) ++ ")")
  | e => .refused (toString e)

/-- What can be opened is there, a directory too. -/
def isPresent (path : String) : IO Bool :=
  try
    let _ ← IO.FS.Handle.mk path .read
    pure true
  catch _ => pure false

def Plan.perform {α : Type} : Plan α → IO α
  | .finish a => pure a
  | .read path next => do
    let file ← try
        let bytes ← IO.FS.readBinFile path
        pure (Except.ok bytes)
      catch e => pure (Except.error (failureOf e))
    (next file).perform
  | .probe path next => do (next (← isPresent path)).perform
  | .write path contents next => do
    let problem ← try
        IO.FS.writeFile path contents
        pure none
      catch e => pure (some (failureOf e))
    (next problem).perform

end DataTier.Command

def main (args : List String) : IO UInt32 := do
  let e ← (DataTier.Command.planOf args).perform
  IO.print e.output
  IO.eprint e.complaint
  return e.code.toUInt32
