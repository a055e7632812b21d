/-!
# Command line arguments

Flags are given by a long or short name, options by a long name with a value behind it or behind
an equals sign, and all other arguments are paths of rounds. After `--` every argument is a path.
Nothing but paths may be given twice, and neither a path nor a value of an option may be empty.

Values are gathered first and checked when the next flag or option, or the end, is reached. So an
argument that is not known is reported before a value that is not good, even if that comes first.

* `parse_help`: a request for help is met as soon as it is reached.
-/

namespace Metamodel.Command

/-- What a command line asks for. -/
structure Options where
  /-- More is reported. -/
  verbose : Bool
  /-- Diagnostics make the run fail. -/
  strict : Bool
  /-- The file of the configuration. -/
  config : Option String
  /-- The file that the manifest is written to. -/
  out : Option String
  /-- The files of the rounds. -/
  rounds : List String
deriving DecidableEq, Repr

/-- Why a command line is not carried out. -/
inductive Usage where
  /-- There is no round. -/
  | missingRounds
  /-- A flag or an option is not known. -/
  | unknownArgument
  /-- A value is missing or empty. -/
  | badValue
  /-- A flag or an option is given twice. -/
  | repeated
  /-- A flag is given a value. -/
  | unexpectedValue
  /-- Help is asked for. -/
  | helpRequested
  /-- The version is asked for. -/
  | versionRequested
deriving DecidableEq, Repr

namespace Usage

/-- The exit code of a run that ends so. -/
def exitCode : Usage → Nat
  | helpRequested => 0
  | versionRequested => 0
  | _ => 2

end Usage

/-- What takes values. -/
inductive Target where
  /-- The option for the configuration. -/
  | config
  /-- The option for the output. -/
  | out
  /-- The paths of rounds. -/
  | rounds
deriving DecidableEq, Repr

/-- A flag without a value. -/
inductive Flag where
  /-- More is reported. -/
  | verbose
  /-- Diagnostics make the run fail. -/
  | strict
  /-- Help is asked for. -/
  | help
  /-- The version is asked for. -/
  | version
deriving DecidableEq, Repr

/-- A command line that is read up to some argument. -/
structure Arguments where
  /-- What is settled. -/
  options : Options
  /-- What takes the values that are gathered, and these values. -/
  pending : Option (Target × List String)
  /-- The option that takes the next argument as its value. -/
  awaiting : Bool
  /-- All further arguments are paths. -/
  pathsOnly : Bool
deriving DecidableEq, Repr

namespace Arguments

/-- Nothing is read yet. -/
def start : Arguments :=
  ⟨⟨false, false, none, none, []⟩, none, false, false⟩

/-- The value of an option that may be set once. -/
def setOnce (current : Option String) (values : List String) : Except Usage (Option String) :=
  match values with
  | [] => .error .badValue
  | value :: _ =>
    if current.isSome then .error .repeated
    else if value.isEmpty then .error .badValue
    else .ok (some value)

/-- The gathered values are checked and settled. -/
def settleValues (o : Options) (target : Target) (values : List String) : Except Usage Options :=
  match target with
  | .config => (setOnce o.config values).map fun config => { o with config }
  | .out => (setOnce o.out values).map fun out => { o with out }
  | .rounds =>
    if values.any (·.isEmpty) then .error .badValue
    else .ok { o with rounds := o.rounds ++ values }

/-- Values that are still pending are settled. -/
def settle (a : Arguments) : Except Usage Arguments :=
  match a.pending with
  | none => .ok { a with awaiting := false }
  | some (target, values) =>
    (settleValues a.options target values).map fun options =>
      { a with options, pending := none, awaiting := false }

/-- A flag is set. -/
def setFlag (a : Arguments) (flag : Flag) : Except Usage Arguments := do
  let a ← a.settle
  match flag with
  | .verbose =>
    if a.options.verbose then .error .repeated
    else return { a with options := { a.options with verbose := true } }
  | .strict =>
    if a.options.strict then .error .repeated
    else return { a with options := { a.options with strict := true } }
  | .help => .error .helpRequested
  | .version => .error .versionRequested

/-- An option is reached, with a value behind an equals sign or without one. -/
def setOption (a : Arguments) (target : Target) (value : Option String) :
    Except Usage Arguments := do
  let a ← a.settle
  match value with
  | some value =>
    let options ← settleValues a.options target [value]
    return { a with options }
  | none => return { a with pending := some (target, []), awaiting := true }

/-- The flag of a long name. -/
def longFlag? (name : String) : Option Flag :=
  [("verbose", Flag.verbose), ("strict", .strict), ("help", .help), ("version", .version)].lookup
    name

/-- The option of a long name. -/
def longOption? (name : String) : Option Target :=
  [("config", Target.config), ("out", .out)].lookup name

/-- The flag of a short name. -/
def shortFlag? (name : Char) : Option Flag :=
  [('v', Flag.verbose), ('h', .help), ('V', .version)].lookup name

/-- An argument behind two dashes, with its value behind an equals sign. -/
def takeLong (a : Arguments) (name : String) (value : Option String) : Except Usage Arguments :=
  match longOption? name, longFlag? name, value with
  | some target, _, value => a.setOption target value
  | none, some flag, none => a.setFlag flag
  | none, some _, some _ => .error .unexpectedValue
  | none, none, _ => .error .unknownArgument

/-- Short flags behind one dash. -/
def takeShort (a : Arguments) : List Char → Except Usage Arguments
  | [] => .ok a
  | c :: rest => do
    match shortFlag? c with
    | some flag =>
      let a ← a.setFlag flag
      a.takeShort rest
    | none => .error .unknownArgument

/-- A path, or the value of the option before it. -/
def takeValue (a : Arguments) (value : String) : Except Usage Arguments :=
  match a.pending with
  | some (target, values) =>
    if a.awaiting && !a.pathsOnly then
      .ok { a with pending := some (target, values ++ [value]), awaiting := false }
    else if target = .rounds then
      .ok { a with pending := some (.rounds, values ++ [value]), awaiting := false }
    else a.settle.map fun a => { a with pending := some (.rounds, [value]) }
  | none => .ok { a with pending := some (.rounds, [value]), awaiting := false }

/-- A name and the value behind the first equals sign. -/
def splitValue (cs : List Char) : String × Option String :=
  let name := String.ofList (cs.takeWhile (· ≠ '='))
  match cs.dropWhile (· ≠ '=') with
  | [] => (name, none)
  | _ :: value => (name, some (String.ofList value))

/-- The next argument. -/
def take (a : Arguments) (argument : String) : Except Usage Arguments :=
  if a.pathsOnly then a.takeValue argument
  else
    match argument.toList with
    | ['-', '-'] => .ok { a with pathsOnly := true }
    | '-' :: '-' :: rest =>
      let (name, value) := splitValue rest
      a.takeLong name value
    | '-' :: c :: rest => a.takeShort (c :: rest)
    | _ => a.takeValue argument

/-- The options after the last argument. The configuration may be given by the environment if it is
not among the arguments. -/
def finish (a : Arguments) (environment : Option String) : Except Usage Options := do
  let a ← a.settle
  let config ←
    match a.options.config, environment with
    | none, some value => setOnce none [value]
    | config, _ => pure config
  if a.options.rounds.isEmpty then .error .missingRounds
  else return { a.options with config }

end Arguments

namespace Options

/-- The options of a command line. -/
def parse (arguments : List String) (environment : Option String) : Except Usage Options := do
  let a ← arguments.foldlM Arguments.take .start
  a.finish environment

/-- A request for help is met as soon as it is reached. -/
theorem parse_help (rest : List String) (environment : Option String) :
    parse ("--help" :: rest) environment = .error .helpRequested := rfl

end Options

end Metamodel.Command
