import SpanScore.Proofs.Config.Load
import SpanScore.Proofs.Text.Utf8

/-!
# Layers of settings

One source names the scorer of merged settings: the command line, else the file, else the
environment, which is asked only for models that may infer.  A scorer is taken from its source as a
whole, and of the layers above it only the time limit of the command line changes it.  Main
statement: what each value of a loaded scorer is, beside a file that names one.
-/

namespace SpanScore

/-! ## Time limits -/

namespace ScorerCommand

variable (command : ScorerCommand)

@[simp] theorem command_withTimeout (timeout : Option Nat) :
    (command.withTimeout timeout).command = command.command := rfl

@[simp] theorem args_withTimeout (timeout : Option Nat) :
    (command.withTimeout timeout).args = command.args := rfl

@[simp] theorem withTimeout_none : command.withTimeout none = command := rfl

@[simp] theorem timeoutSeconds_withTimeout_some (timeout : Nat) :
    (command.withTimeout (some timeout)).timeoutSeconds = some timeout := rfl

end ScorerCommand

/-! ## Sources of a scorer -/

attribute [ext] Settings

namespace Settings

/-- The model that a command line asks for, else a file, else the placeholder. -/
def resolvedModel (file : FileConfig) (overrides : Overrides) : ModelKind :=
  (overrides.model.or file.model).getD .placeholder

/-- The scorer that the first source with one names; the environment is a source only for models
that may infer. -/
inductive Names (file : FileConfig) (overrides : Overrides) (environment : Option ScorerCommand) :
    ScorerCommand → Prop
  | commandLine {command : ScorerCommand} (given : overrides.scorer = some command) :
    Names file overrides environment command
  | file {command : ScorerCommand} (absent : overrides.scorer = none)
    (given : file.external = some command) : Names file overrides environment command
  | environment {command : ScorerCommand} (absent : overrides.scorer = none)
    (unnamed : file.external = none) (infers : (resolvedModel file overrides).mayInfer = true)
    (given : environment = some command) : Names file overrides environment command

variable {file : FileConfig} {overrides : Overrides} {environment : Option ScorerCommand}

theorem scorer_merge : (merge file overrides environment).scorer =
    ((overrides.scorer.or file.external).or
      (if (resolvedModel file overrides).mayInfer then environment else none)).map
        (ScorerCommand.withTimeout overrides.timeoutSeconds) := by
  apply congrArg (Option.map _)
  unfold resolvedModel
  split
  · rfl
  · rw [Option.or_none]

/-- The scorer of merged settings is the one that is named, under the time limit of the command
line if that has one. -/
theorem scorer_merge_eq_some_iff {command : ScorerCommand} :
    (merge file overrides environment).scorer = some command ↔
      ∃ named, Names file overrides environment named ∧
        command = named.withTimeout overrides.timeoutSeconds := by
  rw [scorer_merge, Option.map_eq_some_iff]
  apply exists_congr
  intro named
  rw [eq_comm (a := command)]
  apply and_congr_left'
  constructor
  · intro chosen
    cases ofLine : overrides.scorer with
    | some given =>
      rw [ofLine, Option.some_or, Option.some_or] at chosen
      exact .commandLine (ofLine.trans chosen)
    | none => cases ofFile : file.external with
      | some given =>
        rw [ofLine, ofFile, Option.none_or, Option.some_or] at chosen
        exact .file ofLine (ofFile.trans chosen)
      | none =>
        rw [ofLine, ofFile, Option.none_or, Option.none_or, Option.ite_none_right_eq_some] at chosen
        exact .environment ofLine ofFile chosen.1 chosen.2
  · intro source
    cases source with
    | commandLine given => rw [given, Option.some_or, Option.some_or]
    | file absent given => rw [absent, given, Option.none_or, Option.some_or]
    | environment absent unnamed infers given =>
      rw [absent, unnamed, Option.none_or, Option.none_or, if_pos infers, given]

end Settings

/-! ## Loading beside a file -/

/-- A text that a host has under a path is what is read from there. -/
theorem FileConfig.ofFile_of_text {host : Host} {path text : String}
    (there : host.readFile path = .ok (Utf8.encode text)) :
    ofFile host path = ofText host.environment text := by
  have decoded : Utf8.decode? (Utf8.encode text) = some text := Utf8.decode?_eq_some_iff.2 rfl
  simp only [ofFile, Host.readText, there, decoded]

/-- The host whose only file is a configuration. -/
def Host.configured (text : String) : Host :=
  .ofFiles [] [("scorer.toml", Utf8.encode text)]

/-- What is read is compared by the file that is found, since equality of files is decidable. -/
theorem FileConfig.ofFile_configured {text : String} {file : FileConfig}
    (found : (ofText [] text).toOption = some file) :
    ofFile (.configured text) "scorer.toml" = .ok file := by
  have read : ofFile (.configured text) "scorer.toml" = ofText [] text := ofFile_of_text rfl
  rw [read]
  cases given : ofText [] text with
  | error failure =>
    rw [given] at found
    cases found
  | ok other =>
    rw [given] at found
    exact congrArg Except.ok (Option.some.inj found)

namespace CommandLine

/-- The command line that names this file and says nothing else. -/
def configured : CommandLine :=
  { empty with config := some "scorer.toml" }

variable {line : CommandLine} {host : Host} {path : String} {file : FileConfig}
  {settings : Settings}

def merged (line : CommandLine) (host : Host) (file : FileConfig) : Settings :=
  .merge file line.overrides (ScorerCommand.ofEnvironment host.environment)

/-- A file that has been read is checked first, then the settings that it is merged into. -/
theorem load_of_ofFile (configured : line.config = some path)
    (read : FileConfig.ofFile host path = .ok file) :
    line.load host = do
      file.validate
      (line.merged host file).validate
      return line.merged host file := by
  have found : line.file host = file.validate >>= fun _ ↦ pure file := by
    rw [CommandLine.file, configured]
    simp only [read]
    rfl
  rw [load, found]
  cases file.validate <;> rfl

/-- Settings that are loaded beside a file are merged from it, and both pass their checks. -/
theorem load_eq_ok_iff (configured : line.config = some path)
    (read : FileConfig.ofFile host path = .ok file) :
    line.load host = .ok settings ↔ file.validate = .ok () ∧
      (line.merged host file).validate = .ok () ∧ line.merged host file = settings := by
  rw [load_of_ofFile configured read]
  constructor
  · intro loaded
    obtain ⟨_, fileChecked, rest⟩ := exists_of_bind_eq_ok loaded
    obtain ⟨_, checked, returned⟩ := exists_of_bind_eq_ok rest
    exact ⟨fileChecked, checked, Except.ok.inj returned⟩
  · rintro ⟨fileChecked, checked, rfl⟩
    rw [fileChecked, checked]
    rfl

/-- Beside a file that names a scorer, the command line names it if it gives a command, and else the
file does. -/
theorem names_of_external {external : ScorerCommand} (table : file.external = some external)
    (environment : Option ScorerCommand) :
    Settings.Names file line.overrides environment
      ((line.scorerCommand.map fun command ↦ ⟨command, line.scorerArgs, none⟩).getD external) := by
  cases given : line.scorerCommand with
  | some command => exact .commandLine (by rw [overrides, given]; rfl)
  | none => exact .file (by rw [overrides, given]; rfl) table

/-- The scorer of settings that are loaded beside a file that names one.  A command of the command
line replaces the scorer of the file, and then the arguments are those of the command line, be there
any or none.  Without one the command is the file's, and so are the arguments where the command line
has none.  The time limit of the command line counts wherever it is given, and the file's where
neither a limit nor a command is given. -/
theorem load_layers_scorer {external : ScorerCommand} (configured : line.config = some path)
    (read : FileConfig.ofFile host path = .ok file) (table : file.external = some external)
    (loaded : line.load host = .ok settings) :
    ∃ scorer, settings.scorer = some scorer ∧
      (∀ command, line.scorerCommand = some command →
        scorer.command = command ∧ scorer.args = line.scorerArgs) ∧
      (line.scorerCommand = none → scorer.command = external.command ∧
        (line.scorerArgs = [] → scorer.args = external.args)) ∧
      (∀ timeout, line.timeoutSeconds = some timeout → scorer.timeoutSeconds = some timeout) ∧
      (line.timeoutSeconds = none → line.scorerCommand = none →
        scorer.timeoutSeconds = external.timeoutSeconds) := by
  obtain ⟨-, -, rfl⟩ := (load_eq_ok_iff configured read).1 loaded
  refine ⟨_, Settings.scorer_merge_eq_some_iff.2 ⟨_, names_of_external table _, rfl⟩, ?_⟩
  cases ofLine : line.scorerCommand with
  | some command => cases limit : line.timeoutSeconds <;> simp [overrides, limit]
  | none => cases limit : line.timeoutSeconds <;> simp [overrides, limit]

/-! ## A file with an argument -/

def scorerText : String :=
  "[external]\ncommand = \"python3\"\nargs = [\"score.py\"]\n"

theorem ofFile_scorerText : FileConfig.ofFile (.configured scorerText) "scorer.toml" =
    .ok ⟨none, some ⟨"python3", ["score.py"], none⟩, none⟩ :=
  FileConfig.ofFile_configured (by decide +kernel)

/-- A time limit is put over the command and the arguments of a file. -/
theorem load_layers_scorer_at_limit :
    ∃ line settings,
      CommandLine.parse ["--config", "scorer.toml", "--timeout-seconds", "7"] = .ok line ∧
      line.load (.configured scorerText) = .ok settings ∧
      settings.scorer = some ⟨"python3", ["score.py"], some 7⟩ := by
  have loaded : load { configured with timeoutSeconds := some 7 } (.configured scorerText) =
      .ok ⟨.placeholder, some ⟨"python3", ["score.py"], some 7⟩, false, .compact⟩ :=
    (load_eq_ok_iff rfl ofFile_scorerText).2 ⟨rfl, rfl, rfl⟩
  obtain ⟨⟨command, args, timeout⟩, found, -, layered, limited, -⟩ :=
    load_layers_scorer rfl ofFile_scorerText rfl loaded
  obtain ⟨rfl, args_eq⟩ := layered rfl
  obtain rfl : args = ["score.py"] := args_eq rfl
  obtain rfl : timeout = some 7 := limited 7 rfl
  exact ⟨_, _, rfl, loaded, found⟩

/-- A command of the command line takes away the arguments that stand in the file, although no
argument is given. -/
theorem exists_load_without_args_of_file :
    ∃ line settings external scorer,
      CommandLine.parse ["--config", "scorer.toml", "--scorer-command", "other"] = .ok line ∧
      FileConfig.ofFile (.configured scorerText) "scorer.toml" = .ok ⟨none, some external, none⟩ ∧
      line.load (.configured scorerText) = .ok settings ∧ settings.scorer = some scorer ∧
      line.scorerArgs = [] ∧ external.args = ["score.py"] ∧ scorer.args = [] := by
  have loaded : load { configured with scorerCommand := some "other" } (.configured scorerText) =
      .ok ⟨.placeholder, some ⟨"other", [], none⟩, false, .compact⟩ :=
    (load_eq_ok_iff rfl ofFile_scorerText).2 ⟨rfl, rfl, rfl⟩
  exact ⟨_, _, _, _, rfl, ofFile_scorerText, loaded, rfl, rfl, rfl, rfl⟩

end CommandLine

end SpanScore
