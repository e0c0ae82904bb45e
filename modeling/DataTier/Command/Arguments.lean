import DataTier.Simulation.World
import DataTier.Table

/-! The command line. An option has its value in the same argument, behind an equals sign
or, for its short form, right behind the letter, or else in the next argument, which then
must not look like an option. Arguments are taken in order, and the first that is wrong,
or asks for help or for the version, decides. -/

namespace DataTier.Command

def programName : String := "tidepool"

def version : String := "0.1.0"

def defaultFile : String := "tidepool.toml"

/-- What the program can be told to do. -/
inductive Task where
  | init (path url username : String)
  | check (config format : String)
  | simulate (config : Option String) (options : Simulation.Options) (format : String)
  deriving DecidableEq, Repr

inductive Invocation where
  | task (t : Task)
  | version (name : String)
  | help
  | misuse
  deriving DecidableEq, Repr

structure OptionSpec where
  long : String
  short : Option Char := none
  isNumber : Bool := false

namespace OptionSpec

/-- Numbers may have a plus sign and have sixty-four bits. -/
def accepts (o : OptionSpec) (value : String) : Bool :=
  !o.isNumber || (Time.Duration.count? value.toList).isSome

end OptionSpec

/-- What the arguments of a command come to. -/
inductive Scan where
  | values (t : Table String String)
  | version
  | help
  | misuse

def looksLikeOption (arg : List Char) : Bool := arg.head? == some '-' && arg != ['-']

/-- What one argument says. -/
inductive Argument where
  | given (o : OptionSpec) (value : String)
  /-- The value is to be the next argument. -/
  | awaits (o : OptionSpec)
  | version
  | help
  | «end»
  | unknown

def longArgument (specs : List OptionSpec) (s : List Char) : Argument :=
  let name := String.ofList (s.takeWhile (· != '='))
  let value? := match s.dropWhile (· != '=') with
    | _ :: value => some (String.ofList value)
    | [] => none
  match specs.find? (·.long == name), value? with
  | some o, some value => .given o value
  | some o, none => .awaits o
  | none, none => if name == "help" then .help else if name == "version" then .version else .unknown
  | none, some _ => .unknown

def shortArgument (specs : List OptionSpec) (letter : Char) (s : List Char) : Argument :=
  match specs.find? (·.short == some letter), s with
  | some o, [] => .awaits o
  | some o, '=' :: value => .given o (String.ofList value)
  | some o, value => .given o (String.ofList value)
  | none, _ => if letter == 'h' then .help else if letter == 'V' then .version else .unknown

def argument (specs : List OptionSpec) : List Char → Argument
  | ['-', '-'] => .end
  | '-' :: '-' :: s => longArgument specs s
  | '-' :: letter :: s => shortArgument specs letter s
  | _ => .unknown

/-- An option is given once at most, and its value has the right form. -/
def record (o : OptionSpec) (value : String) (t : Table String String) : Option (Table String String) :=
  if t.has o.long || !o.accepts value then none else some (t.set o.long value)

def scan (specs : List OptionSpec) : Table String String → Option OptionSpec → List String → Scan
  | t, none, [] => .values t
  | _, some _, [] => .misuse
  | t, some o, arg :: rest =>
    if looksLikeOption arg.toList then .misuse
    else match record o arg t with
      | none => .misuse
      | some t => scan specs t none rest
  | t, none, arg :: rest =>
    match argument specs arg.toList with
    | .given o value => match record o value t with
      | none => .misuse
      | some t => scan specs t none rest
    | .awaits o => scan specs t (some o) rest
    | .version => .version
    | .help => .help
    | .end => if rest.isEmpty then .values t else .misuse
    | .unknown => .misuse

def initOptions : List OptionSpec :=
  [{ long := "path", short := some 'p' }, { long := "url" }, { long := "username" }]

def checkOptions : List OptionSpec :=
  [{ long := "config", short := some 'c' }, { long := "format", short := some 'f' }]

def simulateOptions : List OptionSpec :=
  [{ long := "config", short := some 'c' },
    { long := "workers", short := some 'w', isNumber := true },
    { long := "iterations", short := some 'i', isNumber := true },
    { long := "rows", isNumber := true },
    { long := "format", short := some 'f' }]

def textOr (t : Table String String) (name default : String) : String := (t.get? name).getD default

def numberOr (t : Table String String) (name : String) (default : Nat) : Nat :=
  ((t.get? name).bind fun s => Time.Duration.count? s.toList).getD default

/-- The endpoint is the one thing that has no usual value. -/
def initOf (t : Table String String) : Option Task :=
  (t.get? "url").map fun url => .init (textOr t "path" ".") url (textOr t "username" "app")

def checkOf (t : Table String String) : Option Task :=
  some (.check (textOr t "config" defaultFile) (textOr t "format" "text"))

def simulateOf (t : Table String String) : Option Task :=
  some (.simulate (t.get? "config")
    { workers := numberOr t "workers" 16
      iterations := numberOr t "iterations" 100
      rows := numberOr t "rows" 32 }
    (textOr t "format" "text"))

def subcommand (name : String) (specs : List OptionSpec)
    (build : Table String String → Option Task) (args : List String) : Invocation :=
  match scan specs [] none args with
  | .values t => match build t with
    | some t => .task t
    | none => .misuse
  | .version => .version (programName ++ "-" ++ name)
  | .help => .help
  | .misuse => .misuse

def commandNames : List String := ["init", "check", "simulate", "help"]

/-- Asking for help on something takes the name of one command at most. -/
def helpOn : List String → Invocation
  | [] => .help
  | [name] => if commandNames.contains name then .help else .misuse
  | _ => .misuse

def parse : List String → Invocation
  | [] => .misuse
  | "init" :: args => subcommand "init" initOptions initOf args
  | "check" :: args => subcommand "check" checkOptions checkOf args
  | "simulate" :: args => subcommand "simulate" simulateOptions simulateOf args
  | "help" :: args => helpOn args
  | arg :: _ =>
    match argument [] arg.toList with
    | .version => .version programName
    | .help => .help
    | _ => .misuse

end DataTier.Command
