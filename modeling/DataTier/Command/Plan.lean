import DataTier.Command.Arguments
import DataTier.Config.Summary
import DataTier.Config.Text
import DataTier.Simulation.Report

/-! What a command does: a plan says which file it reads or writes next and how it goes on
with what comes of that, until it ends; a program ends with an exit code and what it says. -/

namespace DataTier.Command

structure Exit where
  code : Nat := 0
  output : String := ""
  /-- What goes to the people behind the program rather than into its output. -/
  complaint : String := ""
  deriving DecidableEq, Repr

def Exit.success (output : String) : Exit := { output }

def Exit.failure (message : String) : Exit :=
  { code := 1, complaint := "Error: " ++ message ++ "\n" }

inductive Plan (α : Type) where
  | finish (a : α)
  | read (path : String) (next : Except Config.FileFailure ByteArray → Plan α)
  | probe (path : String) (next : Bool → Plan α)
  | write (path contents : String) (next : Option Config.FileFailure → Plan α)

def Plan.map {α β : Type} (f : α → β) : Plan α → Plan β
  | .finish a => .finish (f a)
  | .read path next => .read path fun file => (next file).map f
  | .probe path next => .probe path fun present => (next present).map f
  | .write path contents next => .write path contents fun problem => (next problem).map f

/-- Anything but this is the name of the format for people. -/
def jsonFormat : String := "json"

def showResolved (format : String) (r : Resolved) : String :=
  if format = jsonFormat then r.data.pretty ++ "\n" else r.render

def showReport (format : String) (r : Simulation.Report) : String :=
  (if format = jsonFormat then r.data.pretty else r.render) ++ "\n"

/-- What a check says of the file it was given. -/
def checkFile (format : String) (file : Except Config.FileFailure ByteArray) :
    Except Config.Error String := do
  let r ← (← Config.ofFile file).resolve
  return showResolved format r

inductive SimulationFailure where
  | config (e : Config.Error)
  | run (f : Simulation.Failure)

def SimulationFailure.message : SimulationFailure → String
  | .config e => e.message
  | .run f => f.message

/-- Without a file a simulation has an endpoint of its own. -/
def simulationConfig : Option (Except Config.FileFailure ByteArray) → Except Config.Error Config
  | none => .ok (Config.scaffold "sim://localhost/tidepool" "sim")
  | some file => Config.ofFile file

def simulation (options : Simulation.Options) (file : Option (Except Config.FileFailure ByteArray)) :
    Except SimulationFailure Simulation.Report := do
  let c ← (simulationConfig file).mapError .config
  let r ← c.resolve.mapError .config
  (Simulation.simulate r options).mapError .run

def exitOf : Except String String → Exit
  | .ok s => .success s
  | .error message => .failure message

/-- A name inside a directory; one that starts from the root is in no directory. -/
def inside (directory name : String) : String :=
  if name.startsWith "/" then name
  else if directory.isEmpty || directory.endsWith "/" then directory ++ name
  else directory ++ "/" ++ name

/-- Writes the first configuration of a directory, and never over another. -/
def scaffoldIn (directory url username : String) : Plan (Except Config.Error String) :=
  let path := inside directory defaultFile
  .probe path fun present =>
    if present then .finish (.error (.fileExists path))
    else match (Config.scaffold url username).write with
      | .error e => .finish (.error e)
      | .ok contents =>
        .write path contents fun
          | some f => .finish (.error (.file f))
          | none => .finish (.ok ("✓ Generated " ++ path ++ "\n"))

def simulationPlan (config : Option String) (options : Simulation.Options) :
    Plan (Except SimulationFailure Simulation.Report) :=
  match config with
  | none => .finish (simulation options none)
  | some path => .read path fun file => .finish (simulation options (some file))

def Task.plan : Task → Plan Exit
  | .init directory url username =>
    (scaffoldIn directory url username).map fun r => exitOf (r.mapError (·.message))
  | .check config format =>
    .read config fun file => .finish (exitOf ((checkFile format file).mapError (·.message)))
  | .simulate config options format =>
    (simulationPlan config options).map fun r =>
      exitOf ((r.mapError (·.message)).map (showReport format))

def usage : String :=
  "usage: " ++ programName ++ " (init|check|simulate) [options]\n" ++
  "  init      -p/--path DIR, --url URL, --username NAME\n" ++
  "  check     -c/--config FILE, -f/--format (text|json)\n" ++
  "  simulate  -c/--config FILE, -w/--workers N, -i/--iterations N, --rows N,\n" ++
  "            -f/--format (text|json)\n"

def Invocation.plan : Invocation → Plan Exit
  | .task t => t.plan
  | .version name => .finish (.success (name ++ " " ++ Command.version ++ "\n"))
  | .help => .finish (.success usage)
  | .misuse => .finish { code := 2, complaint := usage }

def planOf (args : List String) : Plan Exit := (parse args).plan

end DataTier.Command
