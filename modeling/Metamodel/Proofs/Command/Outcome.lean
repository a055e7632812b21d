import Mathlib.Data.List.Forall2
import Metamodel.Proofs.Command.Output
import Metamodel.Proofs.Manifest.RoundTrip
import Metamodel.Proofs.Session.Rounds
import Metamodel.Proofs.Text.ByteOrder

/-!
# The outcome of a run

A run reads all that it needs before it writes. So what cannot be read leaves everything as it was,
also where a file is read and written under the same path. Otherwise the manifest of the last round
is written to one place, and the diagnostics of all rounds decide whether that was a success.

* `ReadsConfig`, `RefusesConfig`, `ReadsRound`, `RefusesRound`: what can be read, and what cannot.
* `RefusesFirst`: the first round that cannot be read.
* `HasCounted.runRound`, `HasCounted.runAll`: what a run keeps from round to round.
* `run_outcome`: what a run leaves behind.
-/

namespace Metamodel

/-! ## Rounds of a run -/

/-- Every diagnostic is counted. -/
theorem Sink.reportAll_counting (n : Nat) (diagnostics : List Diagnostic) :
    (Sink.counting.reportAll n diagnostics).1 = n + diagnostics.length := by
  induction diagnostics generalizing n with
  | nil => rfl
  | cons d rest ih =>
    have hd : Sink.counting.report n d = (n + 1, [.diagnosticReported d]) := rfl
    simp only [reportAll, hd, ih, List.length_cons]
    omega

/-- The manifest takes all models, so that a round with it reports what it reports without one. -/
theorem Manifest.run_emitter_report (config : Config) (held : Manifest) (input : Candidates) :
    (Round.run config emitter held input).1 = Round.process config input := by
  obtain ⟨-, hmodels, hdiagnostics⟩ := Round.run_eq_emitAll config emitter held input
  rw [emitAll_emitter] at hmodels hdiagnostics
  cases hreport : (Round.run config emitter held input).1
  simp only [hreport] at hmodels hdiagnostics
  simp [hmodels, hdiagnostics]

namespace Command

/-- The number of diagnostics of several rounds. -/
def diagnosticCount (config : Config) : List Candidates → Nat
  | [] => 0
  | input :: rest => (Round.process config input).diagnostics.length + diagnosticCount config rest

theorem diagnosticCount_concat (config : Config) (earlier : List Candidates) (input : Candidates) :
    diagnosticCount config (earlier ++ [input]) =
      diagnosticCount config earlier + (Round.process config input).diagnostics.length := by
  induction earlier with
  | nil => simp [diagnosticCount]
  | cons first rest ih =>
    rw [List.cons_append, diagnosticCount, ih, diagnosticCount, Nat.add_assoc]

/-- What a run is between two rounds: it has counted the diagnostics of the rounds behind it. -/
structure HasCounted (config : Config) (earlier : List Candidates) (session : RunSession) :
    Prop where
  config_eq : session.config = config
  emitter_eq : session.emitter = Manifest.emitter
  sink_eq : session.sink = .counting
  sinkState : session.sinkState = diagnosticCount config earlier

namespace HasCounted

variable {config : Config} {earlier : List Candidates} {session : RunSession}

theorem start (config : Config) :
    HasCounted config [] (.start config Manifest.emitter [] .counting 0) :=
  ⟨rfl, rfl, rfl, rfl⟩

/-- One more round adds its diagnostics, and leaves its models and no others in the manifest. -/
theorem runRound (h : HasCounted config earlier session) (input : Candidates) :
    HasCounted config (earlier ++ [input]) (session.runRound input).1 ∧
      (session.runRound input).1.emitterState = (Round.process config input).models := by
  have hreport := Manifest.run_emitter_report config session.emitterState input
  have hmanifest := (Manifest.run_emitter config session.emitterState input).2
  obtain ⟨rfl, hemitter, hsink, hstate⟩ := h
  simp only [Session.runRound, hemitter, hsink, hreport, hmanifest, Sink.reportAll_counting]
  refine ⟨⟨rfl, rfl, rfl, ?_⟩, trivial⟩
  rw [diagnosticCount_concat, hstate]

theorem runAll (h : HasCounted config earlier session) (inputs : List Candidates) :
    HasCounted config (earlier ++ inputs) (session.runAll inputs) :=
  Session.runAll_induction (fun h input => (h.runRound input).1) h inputs

/-- After some rounds, the manifest holds the models of the last of them. -/
theorem emitterState_runAll (h : HasCounted config earlier session) (inputs : List Candidates)
    (last : Candidates) :
    (session.runAll (inputs ++ [last])).emitterState = (Round.process config last).models := by
  rw [Session.runAll, List.foldl_concat]
  exact ((h.runAll inputs).runRound last).2

end HasCounted

/-! ## What is read -/

variable {files : Files} {options : Options} {failure : Failure}

/-- A run works with a configuration: with the standard one, or with a valid one from a file. -/
inductive ReadsConfig (files : Files) : Option String → Config → Prop where
  | standard : ReadsConfig files none .standard
  | file {path text : String} {config : Config} (hread : files.readText path = .ok text)
      (hform : Config.ofToml? text = some config) (hvalid : config.validate = .ok ()) :
      ReadsConfig files (some path) config

/-- A file holds no valid configuration. -/
inductive RefusesConfig (files : Files) : Option String → Failure → Prop where
  | unreadable {path : String} {error : FileError} (hread : files.readText path = .error error) :
      RefusesConfig files (some path) (.unreadableConfig path error)
  | malformed {path text : String} (hread : files.readText path = .ok text)
      (hform : Config.ofToml? text = none) : RefusesConfig files (some path) .malformedConfig
  | invalid {path text : String} {config : Config} {problems : Problems}
      (hread : files.readText path = .ok text) (hform : Config.ofToml? text = some config)
      (hinvalid : config.validate = .error problems) :
      RefusesConfig files (some path) (.invalidConfig problems)

/-- A file holds the candidates of a round. -/
inductive ReadsRound (files : Files) (path : String) : Candidates → Prop where
  | intro {text : String} {input : Candidates} (hread : files.readText path = .ok text)
      (hform : Candidates.ofText? text = some input) : ReadsRound files path input

/-- A file holds no round. -/
inductive RefusesRound (files : Files) (path : String) : Failure → Prop where
  | unreadable {error : FileError} (hread : files.readText path = .error error) :
      RefusesRound files path (.unreadableRound path error)
  | malformed {text : String} (hread : files.readText path = .ok text)
      (hform : Candidates.ofText? text = none) : RefusesRound files path (.malformedRound path)

/-- The first file that holds no round. -/
def RefusesFirst (files : Files) (rounds : List String) (failure : Failure) : Prop :=
  ∃ before path rest, rounds = before ++ path :: rest ∧
    (∀ earlier ∈ before, ∃ input, ReadsRound files earlier input) ∧ RefusesRound files path failure

theorem ReadsConfig.load {path : Option String} {config : Config}
    (h : ReadsConfig files path config) : loadConfig files.readText path = .ok config := by
  cases h with
  | standard => rfl
  | file hread hform hvalid => simp [loadConfig, Config.ofDocument, hread, hform, hvalid]

theorem RefusesConfig.load {path : Option String} (h : RefusesConfig files path failure) :
    loadConfig files.readText path = .error failure := by
  cases h with
  | unreadable hread => simp [loadConfig, hread]
  | malformed hread hform => simp [loadConfig, Config.ofDocument, hread, hform]
  | invalid hread hform hinvalid => simp [loadConfig, Config.ofDocument, hread, hform, hinvalid]

theorem ReadsRound.load {path : String} {input : Candidates} (h : ReadsRound files path input) :
    loadRound files.readText path = .ok input := by
  obtain ⟨hread, hform⟩ := h
  simp [loadRound, hread, hform]

theorem RefusesRound.load {path : String} (h : RefusesRound files path failure) :
    loadRound files.readText path = .error failure := by
  cases h with
  | unreadable hread => simp [loadRound, hread]
  | malformed hread hform => simp [loadRound, hread, hform]

/-- A configuration can be read or is refused. -/
theorem refuses_or_reads_config (files : Files) (path : Option String) :
    (∃ failure, RefusesConfig files path failure) ∨ ∃ config, ReadsConfig files path config := by
  cases path with
  | none => exact .inr ⟨_, .standard⟩
  | some path =>
  cases hread : files.readText path with
  | error e => exact .inl ⟨_, .unreadable hread⟩
  | ok text =>
  cases hform : Config.ofToml? text with
  | none => exact .inl ⟨_, .malformed hread hform⟩
  | some config =>
  cases hvalid : config.validate with
  | error problems => exact .inl ⟨_, .invalid hread hform hvalid⟩
  | ok u => exact .inr ⟨_, .file hread hform hvalid⟩

theorem refuses_or_reads_round (files : Files) (path : String) :
    (∃ failure, RefusesRound files path failure) ∨ ∃ input, ReadsRound files path input := by
  cases hread : files.readText path with
  | error e => exact .inl ⟨_, .unreadable hread⟩
  | ok text =>
  cases hform : Candidates.ofText? text with
  | none => exact .inl ⟨_, .malformed hread hform⟩
  | some input => exact .inr ⟨_, hread, hform⟩

/-- All rounds can be read, or there is a first one that cannot. -/
theorem refuses_or_reads_rounds (files : Files) (rounds : List String) :
    (∃ failure, RefusesFirst files rounds failure) ∨
      ∃ inputs, List.Forall₂ (ReadsRound files) rounds inputs := by
  induction rounds with
  | nil => exact .inr ⟨[], .nil⟩
  | cons path rest ih =>
    rcases refuses_or_reads_round files path with ⟨failure, hrefuses⟩ | ⟨input, hinput⟩
    · exact .inl ⟨failure, [], path, rest, rfl, by simp, hrefuses⟩
    rcases ih with ⟨failure, before, other, more, rfl, hbefore, hrefuses⟩ | ⟨inputs, hinputs⟩
    · exact .inl ⟨failure, path :: before, other, more, rfl,
        List.forall_mem_cons.mpr ⟨⟨input, hinput⟩, hbefore⟩, hrefuses⟩
    · exact .inr ⟨input :: inputs, .cons hinput hinputs⟩

/-! ## Runs -/

/-- If all rounds can be read, they are run one after another. -/
theorem runRounds_of_reads {rounds : List String} {inputs : List Candidates}
    (h : List.Forall₂ (ReadsRound files) rounds inputs) (session : RunSession) :
    (runRounds files.readText session rounds).2 = .ok (session.runAll inputs) := by
  induction h generalizing session with
  | nil => rfl
  | cons hround _ ih =>
    rw [runRounds, hround.load]
    exact ih _

/-- The first round that cannot be read ends a run. -/
theorem runRounds_of_refuses {rounds : List String} (h : RefusesFirst files rounds failure)
    (session : RunSession) : (runRounds files.readText session rounds).2 = .error failure := by
  obtain ⟨before, path, rest, rfl, hbefore, hrefuses⟩ := h
  induction before generalizing session with
  | nil => rw [List.nil_append, runRounds, hrefuses.load]
  | cons earlier before ih =>
    obtain ⟨⟨input, hinput⟩, hbefore⟩ := List.forall_mem_cons.mp hbefore
    rw [List.cons_append, runRounds, hinput.load]
    exact ih _ hbefore

/-- A run fails and leaves everything as it was. -/
structure Aborts (options : Options) (files : Files) (failure : Failure) : Prop where
  files_eq : (run options files).files = files
  output_eq : (run options files).output = []
  result_eq : (run options files).result = .error failure

theorem aborts_of_error (h : (processRounds files.readText options).2 = .error failure) :
    Aborts options files failure := by
  have hrun : run options files =
      ⟨files, [], (processRounds files.readText options).1, .error failure⟩ := by
    rw [run, ← Prod.eta (processRounds files.readText options), h]
  constructor <;> rw [hrun]

/-- A configuration that is refused ends a run. -/
theorem RefusesConfig.aborts (h : RefusesConfig files options.config failure) :
    Aborts options files failure :=
  aborts_of_error (by rw [processRounds, h.load])

/-- So does the first round that cannot be read. -/
theorem RefusesFirst.aborts {config : Config} (hconfig : ReadsConfig files options.config config)
    (h : RefusesFirst files options.rounds failure) : Aborts options files failure :=
  aborts_of_error (by rw [processRounds, hconfig.load]; exact runRounds_of_refuses h _)

section Delivery

variable {session : RunSession} (h : (processRounds files.readText options).2 = .ok session)
include h

theorem run_to_output (hout : options.out = none) :
    run options files = ⟨files, session.emitterState.bytes,
      (processRounds files.readText options).1, verdict options session.sinkState⟩ := by
  rw [run, ← Prod.eta (processRounds files.readText options), h, hout]

variable {path : String} {created : Files} {place : Place} (hout : options.out = some path)
include hout

theorem run_to_file (hcreate : files.create path = .ok (created, place))
    (hspace : (files.roomAt place).Allows session.emitterState.bytes.length) :
    run options files = ⟨files.written place session.emitterState.bytes, [],
      (processRounds files.readText options).1, verdict options session.sinkState⟩ := by
  rw [run, ← Prod.eta (processRounds files.readText options), h, hout]
  simp only [writeFile_of_allows hcreate hspace]

/-- With a path for the manifest, nothing is on the output, whether it could be written or not. -/
theorem output_of_path : (run options files).output = [] := by
  rw [run, ← Prod.eta (processRounds files.readText options), h, hout]
  dsimp only
  split <;> rfl

end Delivery

/-- The last round that is read was decoded from a text. -/
theorem exists_text_of_reads {rounds : List String} {earlier : List Candidates} {last : Candidates}
    (h : List.Forall₂ (ReadsRound files) rounds (earlier ++ [last])) :
    ∃ text, Candidates.ofText? text = some last := by
  have hlast := List.forall₂_drop_append rounds earlier [last] h
  obtain ⟨path, -, ⟨-, hform⟩, -, -⟩ := List.forall₂_cons_right_iff.mp hlast
  exact ⟨_, hform⟩

/-- After all rounds, the manifest of the last one is at hand, and the number of diagnostics. -/
theorem processRounds_of_reads {config : Config} {earlier : List Candidates} {last : Candidates}
    (hconfig : ReadsConfig files options.config config)
    (hrounds : List.Forall₂ (ReadsRound files) options.rounds (earlier ++ [last])) :
    ∃ session : RunSession, (processRounds files.readText options).2 = .ok session ∧
      session.emitterState = (Round.process config last).models ∧
      session.sinkState = diagnosticCount config (earlier ++ [last]) := by
  refine ⟨(Session.start config Manifest.emitter [] .counting 0).runAll (earlier ++ [last]), ?_,
    (HasCounted.start config).emitterState_runAll earlier last, ?_⟩
  · rw [processRounds, hconfig.load]
    exact runRounds_of_reads hrounds _
  · exact ((HasCounted.start config).runAll (earlier ++ [last])).sinkState

/-- For every command line with a round and all files, a run does one of three things. If the
configuration is refused, the run fails for that. If it can be read and there is a first round that
cannot, the run fails for that. In both cases nothing is written, and no file changes. Otherwise the
manifest of the last round is written, to the file at the given path or to the output if there is
none, and to no other place; the run fails afterwards if it is strict and there are diagnostics in
any of its rounds, and succeeds if not.

The manifest is one record with the records of the models under its only key, indented, with an end
of line behind it. Its text is read as that record, and is decoded as the models of the last round
if the floating point numbers among their default values are read back as themselves. -/
theorem run_outcome (options : Options) (files : Files) :
    (∀ failure, RefusesConfig files options.config failure → Aborts options files failure) ∧
    (∀ config failure, ReadsConfig files options.config config →
      RefusesFirst files options.rounds failure → Aborts options files failure) ∧
    (∀ config earlier last, ReadsConfig files options.config config →
      List.Forall₂ (ReadsRound files) options.rounds (earlier ++ [last]) →
      let models := (Round.process config last).models
      let record := Json.object [("models", .array (models.map Model.toJson))]
      let document := textBytes (record.pretty ++ "\n")
      let count := diagnosticCount config (earlier ++ [last])
      let result :=
        if options.strict ∧ 0 < count then .error (.diagnosticsReported count) else .ok ()
      (Json.read record.pretty = some record ∧
        ((∀ m ∈ models, m.DefaultsReadBack) →
          Json.decodeText Manifest.ofJson record.pretty = some models)) ∧
      (options.out = none →
        (run options files).result = result ∧ (run options files).output = document ∧
          (run options files).files = files) ∧
      ∀ path, options.out = some path → (run options files).output = [] ∧
        ∀ created place, files.create path = .ok (created, place) →
          (files.roomAt place).Allows document.length →
          (run options files).result = result ∧
            (run options files).files.read path = .ok document ∧
            ∀ other, other ≠ place →
              (run options files).files.entries.lookup other = files.entries.lookup other) ∧
    (options.rounds = [] ∨ (∃ failure, RefusesConfig files options.config failure) ∨
      ∃ config, ReadsConfig files options.config config ∧
        ((∃ failure, RefusesFirst files options.rounds failure) ∨
          ∃ earlier last,
            List.Forall₂ (ReadsRound files) options.rounds (earlier ++ [last]))) := by
  refine ⟨fun failure h => h.aborts, fun config failure hconfig h => h.aborts hconfig, ?_, ?_⟩
  · intro config earlier last hconfig hrounds models record document count result
    obtain ⟨session, hsession, hmodels, hcount⟩ := processRounds_of_reads hconfig hrounds
    have hdocument : session.emitterState.bytes = document := by
      rw [hmodels]
      exact (textBytes_append _ _).symm
    have hverdict : verdict options session.sinkState = result := by
      rw [hcount]
      simp [verdict, result, count]
    obtain ⟨text, haccepted⟩ := exists_text_of_reads hrounds
    refine ⟨⟨Manifest.read_text _, Round.decodeText_manifest haccepted⟩, ?_, ?_⟩
    · intro hout
      rw [run_to_output hsession hout]
      exact ⟨hverdict, hdocument, rfl⟩
    · intro path hout
      refine ⟨output_of_path hsession hout, fun created place hcreate hspace => ?_⟩
      rw [← hdocument] at hspace
      rw [run_to_file hsession hout hcreate hspace, ← hdocument]
      refine ⟨hverdict, Files.read_written hcreate _, fun other hother => ?_⟩
      exact (Files.lookup_put files place _ other).trans (if_neg hother)
  -- What the configuration and the rounds come to is one of the cases above.
  · by_cases hne : options.rounds = []
    · exact .inl hne
    refine .inr ((refuses_or_reads_config files options.config).imp_right ?_)
    rintro ⟨config, hconfig⟩
    refine ⟨config, hconfig, (refuses_or_reads_rounds files options.rounds).imp_right ?_⟩
    rintro ⟨inputs, hinputs⟩
    have hinputs_ne : inputs ≠ [] := by
      rintro rfl
      exact hne (List.forall₂_nil_right_iff.mp hinputs)
    exact ⟨inputs.dropLast, inputs.getLast hinputs_ne,
      (List.dropLast_append_getLast hinputs_ne).symm ▸ hinputs⟩

/-- A reset method whose component is missing. -/
def orphanRound : Candidates where
  components := []
  properties := []
  resets := [Declaration.ofMethod ⟨"com.example.Orphan"⟩ "clear" []]

/-- A card without properties. -/
def cardRound : Candidates where
  components := [(Declaration.ofClass "com.example" "CardView").extending "android.view.View"]
  properties := []
  resets := []

/-- The text of the manifest of the card. -/
def cardManifest : String :=
"\x7b
  \"models\": [
    \x7b
      \"component\": \"com.example.CardView\",
      \"component_type\": \x7b
        \"package\": \"com.example\",
        \"name\": \"CardView\"
      \x7d,
      \"generated\": \x7b
        \"package\": \"com.example\",
        \"name\": \"CardModel\"
      \x7d,
      \"supertype\": \x7b
        \"parameterized\": \x7b
          \"raw\": \x7b
            \"package\": \"com.airbnb.epoxy\",
            \"name\": \"EpoxyModel\"
          \x7d,
          \"args\": [
            \x7b
              \"class\": \x7b
                \"package\": \"com.example\",
                \"name\": \"CardView\"
              \x7d
            \x7d
          ]
        \x7d
      \x7d,
      \"attributes\": [],
      \"reset_actions\": []
    \x7d
  ]
\x7d"

set_option maxRecDepth 4000 in
theorem text_card : Manifest.text (Round.process .standard cardRound).models = cardManifest :=
  -- A text of this length is compared character by character.
  congrArg String.ofList (by decide +kernel)

/-- Two files with rounds. The first round has a diagnostic, and the second one a model. -/
def twoRounds : Files where
  entries :=
    [(["a.json"], .file (textBytes orphanRound.toJson.compact)),
      (["b.json"], .file (textBytes cardRound.toJson.compact))]
  room := none

/-- The first of two rounds is replaced by the manifest of the second after both were read, and the
diagnostic of the first is counted. It stays as it is if another file cannot be read. -/
theorem run_outcome_twoRounds :
    let options : Options := ⟨false, true, none, some "a.json", ["a.json", "b.json"]⟩
    (run options twoRounds).result = .error (.diagnosticsReported 1) ∧
      (run options twoRounds).files.read "a.json" = .ok (textBytes (cardManifest ++ "\n")) ∧
      (run options twoRounds).files.entries.lookup ["b.json"] =
        twoRounds.entries.lookup ["b.json"] ∧
      (run { options with out := none } twoRounds).output = textBytes (cardManifest ++ "\n") ∧
      Aborts { options with rounds := ["a.json", "c.json"] } twoRounds
        (.unreadableRound "c.json" .notFound) ∧
      Aborts { options with config := some "c.toml" } twoRounds
        (.unreadableConfig "c.toml" .notFound) := by
  intro options
  have hfirst : ReadsRound twoRounds "a.json" orphanRound :=
    ⟨Files.readText_of_read rfl, Candidates.ofText?_compact (by decide +kernel)⟩
  have hsecond : ReadsRound twoRounds "b.json" cardRound :=
    ⟨Files.readText_of_read rfl, Candidates.ofText?_compact (by decide +kernel)⟩
  have hrounds : List.Forall₂ (ReadsRound twoRounds) ["a.json", "b.json"]
      ([orphanRound] ++ [cardRound]) := .cons hfirst (.cons hsecond .nil)
  have hcount : diagnosticCount .standard ([orphanRound] ++ [cardRound]) = 1 := by decide +kernel
  have htext : (Json.object [("models", .array
      ((Round.process .standard cardRound).models.map Model.toJson))]).pretty = cardManifest :=
    text_card
  obtain ⟨-, -, hsucceeds, -⟩ := run_outcome options twoRounds
  have hwritten := (hsucceeds .standard [orphanRound] cardRound .standard hrounds).2.2
  rw [hcount, htext] at hwritten
  obtain ⟨hresult, hread, hothers⟩ := (hwritten "a.json" rfl).2 (twoRounds.put ["a.json"] [])
    ["a.json"] rfl (by decide +kernel)
  have hprinted := ((run_outcome { options with out := none } twoRounds).2.2.1 .standard
    [orphanRound] cardRound .standard hrounds).2.1 rfl
  rw [htext] at hprinted
  refine ⟨hresult, hread, hothers ["b.json"] (by decide), hprinted.2.1, ?_, ?_⟩
  · refine (run_outcome _ twoRounds).2.1 .standard _ .standard
      ⟨["a.json"], "c.json", [], rfl, by simpa using ⟨_, hfirst⟩, ?_⟩
    exact .unreadable (by decide +kernel)
  · exact (run_outcome _ twoRounds).1 _ (.unreadable (by decide +kernel))

end Command

end Metamodel
