import SpanScore.Proofs.Config.Layers

/-!
# Overridden values

What a command line overrides has no part in merged settings, so two files that differ only there
are merged into the same settings.  A file is checked as it stands before it is merged, though, and
this check sees the overridden values too.  Hence loading does not tell two such files apart as
long as they fare alike in their own check.
-/

namespace SpanScore

open ScorerCommand (withTimeout)

/-- Two files say the same, except for what a command line says itself: a model, a command with its
arguments, or a time limit. -/
structure FileConfig.AlikeUnder (line : CommandLine) (file file' : FileConfig) : Prop where
  model : line.model = none → file.model = file'.model
  command : line.scorerCommand = none →
    file.external.map ScorerCommand.command = file'.external.map ScorerCommand.command
  args : line.scorerCommand = none →
    file.external.map ScorerCommand.args = file'.external.map ScorerCommand.args
  timeoutSeconds : line.timeoutSeconds = none →
    file.external.bind ScorerCommand.timeoutSeconds =
      file'.external.bind ScorerCommand.timeoutSeconds
  logging : file.logging = file'.logging

namespace ScorerCommand

variable {command command' : ScorerCommand} {timeout : Option Nat}

/-- A time limit of its own makes up for a difference in the limit. -/
theorem withTimeout_congr (same : command.command = command'.command)
    (sameArgs : command.args = command'.args)
    (sameTimeout : timeout = none → command.timeoutSeconds = command'.timeoutSeconds) :
    command.withTimeout timeout = command'.withTimeout timeout := by
  obtain ⟨name, args, limit⟩ := command
  obtain ⟨name', args', limit'⟩ := command'
  obtain rfl : name = name' := same
  obtain rfl : args = args' := sameArgs
  cases timeout with
  | some timeout => rfl
  | none =>
    obtain rfl : limit = limit' := sameTimeout rfl
    rfl

end ScorerCommand

namespace FileConfig.AlikeUnder

variable {line : CommandLine} {file file' : FileConfig} (alike : AlikeUnder line file file')

include alike

theorem resolvedModel_eq : Settings.resolvedModel file line.overrides =
    Settings.resolvedModel file' line.overrides := by
  unfold Settings.resolvedModel CommandLine.overrides
  cases given : line.model with
  | some model => rfl
  | none => rw [alike.model given]

/-- Without a command of the command line both files name the same scorer, up to a time limit that
the command line has. -/
theorem external_eq (absent : line.scorerCommand = none) :
    file.external.map (withTimeout line.timeoutSeconds) =
      file'.external.map (withTimeout line.timeoutSeconds) := by
  have command := alike.command absent
  have args := alike.args absent
  have timeout := alike.timeoutSeconds
  cases first : file.external with
  | none => cases second : file'.external with
    | none => rfl
    | some external =>
      rw [first, second] at command
      cases command
  | some external => cases second : file'.external with
    | none =>
      rw [first, second] at command
      cases command
    | some external' =>
      rw [first, second] at command args timeout
      apply congrArg some
      apply ScorerCommand.withTimeout_congr
      · exact Option.some.inj command
      · exact Option.some.inj args
      · exact timeout

theorem named_eq :
    (line.overrides.scorer.or file.external).map (withTimeout line.overrides.timeoutSeconds) =
      (line.overrides.scorer.or file'.external).map
        (withTimeout line.overrides.timeoutSeconds) := by
  unfold CommandLine.overrides
  cases given : line.scorerCommand with
  | some command => rfl
  | none => exact alike.external_eq given

/-- What the command line overrides has no part in merged settings. -/
theorem merge_eq (environment : Option ScorerCommand) :
    Settings.merge file line.overrides environment =
      Settings.merge file' line.overrides environment := by
  have scorer : (Settings.merge file line.overrides environment).scorer =
      (Settings.merge file' line.overrides environment).scorer := by
    rw [Settings.scorer_merge, Settings.scorer_merge, alike.resolvedModel_eq, Option.map_or,
      alike.named_eq, ← Option.map_or]
  have verbose : file.verbose = file'.verbose := by
    rw [FileConfig.verbose, FileConfig.verbose, alike.logging]
  have format : file.format = file'.format := by
    rw [FileConfig.format, FileConfig.format, alike.logging]
  apply Settings.ext
  · exact alike.resolvedModel_eq
  · exact scorer
  · exact congrArg (line.overrides.verbose || ·) verbose
  · simp only [Settings.merge, format]

end FileConfig.AlikeUnder

namespace CommandLine

variable {line : CommandLine} {host host' : Host} {path : String} {file file' : FileConfig}

/-- A file that does not pass its own check is refused, whatever the command line overrides. -/
theorem load_of_validate_error {failure : Failure} (configured : line.config = some path)
    (read : FileConfig.ofFile host path = .ok file) (refused : file.validate = .error failure) :
    line.load host = .error failure := by
  rw [load_of_ofFile configured read, refused]
  rfl

/-- Two files that differ only in what a command line overrides are merged into the same settings,
and they are loaded with the same outcome as long as both pass their own check or both fail it
alike.  One that fails it is refused for this reason, whatever is overridden. -/
theorem load_ignores_overridden (configured : line.config = some path)
    (read : FileConfig.ofFile host path = .ok file)
    (read' : FileConfig.ofFile host' path = .ok file')
    (surroundings : host.environment = host'.environment) (alike : file.AlikeUnder line file') :
    line.merged host file = line.merged host' file' ∧
      (file.validate = file'.validate → line.load host = line.load host') ∧
      (∀ failure, file.validate = .error failure → line.load host = .error failure) ∧
      ∀ failure, file'.validate = .error failure → line.load host' = .error failure := by
  have merged_eq : line.merged host file = line.merged host' file' := by
    unfold merged
    rw [surroundings]
    exact alike.merge_eq _
  refine ⟨merged_eq, fun fare ↦ ?_, fun failure ↦ ?_, fun failure ↦ ?_⟩
  · rw [load_of_ofFile configured read, load_of_ofFile configured read', fare, merged_eq]
  · exact load_of_validate_error configured read
  · exact load_of_validate_error configured read'

end CommandLine

/-! ## Files with a time limit -/

/-- A configuration that names a scorer and its time limit. -/
def limitText (seconds : String) : String :=
  "[external]\ncommand = \"python3\"\ntimeout_seconds = " ++ seconds ++ "\n"

def limitFile (timeout : Nat) : FileConfig :=
  ⟨none, some ⟨"python3", [], some timeout⟩, none⟩

theorem ofFile_limitText_zero :
    FileConfig.ofFile (.configured (limitText "0")) "scorer.toml" = .ok (limitFile 0) :=
  FileConfig.ofFile_configured (by decide +kernel)

theorem ofFile_limitText_nine :
    FileConfig.ofFile (.configured (limitText "9")) "scorer.toml" = .ok (limitFile 9) :=
  FileConfig.ofFile_configured (by decide +kernel)

theorem ofFile_limitText_thirty :
    FileConfig.ofFile (.configured (limitText "30")) "scorer.toml" = .ok (limitFile 30) :=
  FileConfig.ofFile_configured (by decide +kernel)

namespace CommandLine

def fiveSeconds : CommandLine :=
  { configured with timeoutSeconds := some 5 }

theorem alikeUnder_fiveSeconds (timeout timeout' : Nat) :
    (limitFile timeout).AlikeUnder fiveSeconds (limitFile timeout') where
  model _ := rfl
  command _ := rfl
  args _ := rfl
  timeoutSeconds given := nomatch given
  logging := rfl

/-- A limit of nine seconds and one of thirty are the same beside a command line with its own. -/
theorem load_ignores_overridden_at_limit :
    fiveSeconds.load (.configured (limitText "9")) =
        fiveSeconds.load (.configured (limitText "30")) ∧
      ∃ settings, fiveSeconds.load (.configured (limitText "9")) = .ok settings := by
  have same : fiveSeconds.load (.configured (limitText "9")) =
      fiveSeconds.load (.configured (limitText "30")) :=
    (load_ignores_overridden rfl ofFile_limitText_nine ofFile_limitText_thirty rfl
      (alikeUnder_fiveSeconds 9 30)).2.1 rfl
  exact ⟨same, _, (load_eq_ok_iff rfl ofFile_limitText_nine).2 ⟨rfl, rfl, rfl⟩⟩

/-- A limit that is overridden keeps a file from being loaded, where another one does not. -/
theorem exists_load_of_alikeUnder_ne :
    ∃ line text text' file file',
      CommandLine.parse ["--config", "scorer.toml", "--timeout-seconds", "5"] = .ok line ∧
      FileConfig.ofFile (.configured text) "scorer.toml" = .ok file ∧
      FileConfig.ofFile (.configured text') "scorer.toml" = .ok file' ∧
      (Host.configured text).environment = (Host.configured text').environment ∧
      file.AlikeUnder line file' ∧
      line.load (.configured text) = .error
        (.invalidValue "external.timeout_seconds" "0" "Value must be at least 1") ∧
      line.load (.configured text') =
        .ok ⟨.placeholder, some ⟨"python3", [], some 5⟩, false, .compact⟩ := by
  have refused : fiveSeconds.load (.configured (limitText "0")) = .error
      (.invalidValue "external.timeout_seconds" "0" "Value must be at least 1") :=
    load_of_validate_error rfl ofFile_limitText_zero rfl
  have loaded : fiveSeconds.load (.configured (limitText "9")) =
      .ok ⟨.placeholder, some ⟨"python3", [], some 5⟩, false, .compact⟩ :=
    (load_eq_ok_iff rfl ofFile_limitText_nine).2 ⟨rfl, rfl, rfl⟩
  exact ⟨_, _, _, _, _, rfl, ofFile_limitText_zero, ofFile_limitText_nine, rfl,
    alikeUnder_fiveSeconds 0 9, refused, loaded⟩

end CommandLine

end SpanScore
