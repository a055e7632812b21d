import Metamodel.Command.Run

/-!
# The command line program

Reads the files that the arguments name, runs the rounds and writes the manifest. Only the access
to files and streams is here; what a run does is decided in `Metamodel.Command`.
-/

namespace Metamodel.Command

/-- The name of the program. -/
def programName : String := "metamodel"

/-- The variable of the environment that may name the configuration. -/
def configVariable : String := "METAMODEL_CONFIG"

/-- What is said about the use of the program. -/
def usageText : String :=
  "Build model descriptors for bindable view components\n\n" ++
  "Usage: metamodel [OPTIONS] <ROUND.json>...\n\n" ++
  "Arguments:\n" ++
  "  <ROUND.json>...      Round files, processed in order; each one is a separate round\n\n" ++
  "Options:\n" ++
  "  -v, --verbose          Report what is done\n" ++
  "      --config <CONFIG>  TOML configuration [env: METAMODEL_CONFIG]\n" ++
  "      --out <OUT>        Write the manifest here instead of to the standard output\n" ++
  "      --strict           Exit with failure if any diagnostic was reported\n" ++
  "  -h, --help             Print help\n" ++
  "  -V, --version          Print version\n"

/-- Why a command line is not carried out, in words. -/
def Usage.message : Usage → String
  | .missingRounds => "no round file is given"
  | .unknownArgument => "unexpected argument"
  | .badValue => "a value is missing or empty"
  | .repeated => "an option is given twice"
  | .unexpectedValue => "a flag does not take a value"
  | .helpRequested => usageText
  | .versionRequested => programName ++ " 0.4.0\n"

/-- The failure of an access to a file. -/
def fileError : IO.Error → FileError
  | .noFileOrDirectory .. => .notFound
  | error => .other (toString error)

/-- The text of a file. -/
def readFile (path : String) : IO (Except FileError String) := do
  match ← (IO.FS.readBinFile path).toBaseIO with
  | .error error => return .error (fileError error)
  | .ok content =>
    match String.fromUTF8? content with
    | some text => return .ok text
    | none => return .error .notText

/-- The text of each of several files. -/
def readFiles (paths : List String) : IO (List (String × Except FileError String)) :=
  paths.mapM fun path => return (path, ← readFile path)

/-- The manifest is written to a file, or to the standard output. -/
def writeManifest (out : Option String) (manifest : Manifest) : IO (Except Failure Unit) := do
  let content := ByteArray.mk manifest.bytes.toArray
  let outcome ← EIO.toBaseIO <|
    match out with
    | some path => IO.FS.writeBinFile path content
    | none => do (← IO.getStdout).write content
  match outcome with
  | .ok () => return .ok ()
  | .error error => return .error (.unwritable (.writing (fileError error).message))

/-- A run with the given options, whose events are shown on the way. -/
def runFiles (options : Options) : IO (Except Failure Unit) := do
  let texts ← readFiles (options.config.toList ++ options.rounds)
  let read := fun path => (texts.lookup path).getD (.error .notFound)
  let (events, outcome) := processRounds read options
  for event in events do
    if event.level.isShown options.verbose then IO.eprintln event.line
  match outcome with
  | .error failure => return .error failure
  | .ok session =>
    match ← writeManifest options.out session.emitterState with
    | .error failure => return .error failure
    | .ok () => return verdict options session.sinkState

end Metamodel.Command

open Metamodel.Command in
/-- The program: arguments to exit code. -/
def main (arguments : List String) : IO UInt32 := do
  match Options.parse arguments (← IO.getEnv configVariable) with
  | .error usage =>
    if usage.exitCode = 0 then IO.print usage.message
    else
      IO.eprintln (programName ++ ": " ++ usage.message)
      IO.eprint usageText
    return UInt32.ofNat usage.exitCode
  | .ok options =>
    match ← runFiles options with
    | .ok () => return 0
    | .error failure =>
      IO.eprintln (programName ++ ": " ++ failure.message)
      return 1
