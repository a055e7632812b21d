import Metamodel.Command.Arguments
import Metamodel.Command.Files
import Metamodel.Config.Toml
import Metamodel.Manifest
import Metamodel.Session

/-!
# Runs

A run reads the configuration, then reads and processes the rounds one after another, and writes
the manifest of the last round to a file or to the output. What cannot be read ends the run before
anything is written. With the option for it, a run with diagnostics fails after it has written.
-/

namespace Metamodel.Command

/-- Why a run failed. -/
inductive Failure where
  /-- The configuration cannot be read. -/
  | unreadableConfig (path : String) (error : FileError)
  /-- The configuration is not well formed. -/
  | malformedConfig
  /-- The configuration has problems. -/
  | invalidConfig (problems : Problems)
  /-- A round cannot be read. -/
  | unreadableRound (path : String) (error : FileError)
  /-- A round is not well formed. -/
  | malformedRound (path : String)
  /-- The manifest cannot be written. -/
  | unwritable (refusal : Refusal)
  /-- There are diagnostics. -/
  | diagnosticsReported (count : Nat)
deriving Repr

namespace Failure

/-- The failure in words. -/
def message : Failure → String
  | unreadableConfig path error => "failed to read config '" ++ path ++ "': " ++ error.message
  | malformedConfig => "failed to parse config"
  | invalidConfig problems => "invalid config: " ++ toString problems
  | unreadableRound path error => "failed to read " ++ path ++ ": " ++ error.message
  | malformedRound path => "failed to parse round " ++ path
  | unwritable refusal => "failed to write manifest: " ++ refusal.message
  | diagnosticsReported count => toString count ++ " diagnostic(s) reported in strict mode"

end Failure

/-- The state that a run keeps from round to round: the manifest and the number of diagnostics. -/
abbrev RunSession := Session Manifest Nat

/-- The configuration in a file, or the standard one if there is no file for it. -/
def loadConfig (read : String → Except FileError String) (path : Option String) :
    Except Failure Config :=
  match path with
  | none => .ok .standard
  | some path =>
    match read path with
    | .error error => .error (.unreadableConfig path error)
    | .ok text =>
      match Config.ofDocument text with
      | .ok config => .ok config
      | .error .malformed => .error .malformedConfig
      | .error (.invalid problems) => .error (.invalidConfig problems)

/-- The candidates in a file. -/
def loadRound (read : String → Except FileError String) (path : String) :
    Except Failure Candidates :=
  match read path with
  | .error error => .error (.unreadableRound path error)
  | .ok text =>
    match Candidates.ofText? text with
    | some input => .ok input
    | none => .error (.malformedRound path)

/-- The rounds of several files, one after another, up to the first that cannot be loaded: what was
reported, and the session after all of them. -/
def runRounds (read : String → Except FileError String) (session : RunSession) :
    List String → List Event × Except Failure RunSession
  | [] => ([], .ok session)
  | path :: rest =>
    match loadRound read path with
    | .error failure => ([], .error failure)
    | .ok input =>
      let (session, models, events) := session.runRound input
      let (others, outcome) := runRounds read session rest
      (events ++ .fileProcessed path models.length :: others, outcome)

/-- All rounds of a run: what was reported, and the session after them. -/
def processRounds (read : String → Except FileError String) (options : Options) :
    List Event × Except Failure RunSession :=
  match loadConfig read options.config with
  | .error failure => ([], .error failure)
  | .ok config =>
    runRounds read (.start config Manifest.emitter [] .counting 0) options.rounds

/-- The outcome of a run that has written its manifest. -/
def verdict (options : Options) (diagnostics : Nat) : Except Failure Unit :=
  if options.strict && 0 < diagnostics then .error (.diagnosticsReported diagnostics) else .ok ()

/-- The capacity of the buffer before an output file. -/
def bufferCapacity : Nat := 8192

/-- The manifest is written to the file at a path. -/
def writeFile (files : Files) (path : String) (manifest : Manifest) :
    Files × Except Failure Unit :=
  match files.create path with
  | .error error => (files, .error (.unwritable (.writing error.message)))
  | .ok (files, place) =>
    let (files, outcome) := manifest.writeBuffered (Files.writer place) bufferCapacity files
    (files, outcome.mapError .unwritable)

/-- What a run leaves behind. -/
structure Outcome where
  /-- The files. -/
  files : Files
  /-- What was written to the output. -/
  output : Bytes
  /-- What was reported. -/
  events : List Event
  /-- Whether the run failed. -/
  result : Except Failure Unit
deriving Repr

/-- A run with the given options. -/
def run (options : Options) (files : Files) : Outcome :=
  match processRounds files.readText options with
  | (events, .error failure) => ⟨files, [], events, .error failure⟩
  | (events, .ok session) =>
    match options.out with
    | none => ⟨files, session.emitterState.bytes, events, verdict options session.sinkState⟩
    | some path =>
      match writeFile files path session.emitterState with
      | (files, .error failure) => ⟨files, [], events, .error failure⟩
      | (files, .ok ()) => ⟨files, [], events, verdict options session.sinkState⟩

end Metamodel.Command
