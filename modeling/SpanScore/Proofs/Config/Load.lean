import SpanScore.Config.Load
import SpanScore.Proofs.Failure

/-!
# Loaded settings

Whatever keeps settings from being loaded is a fault of the configuration.  Settings that are loaded
have passed every check, and one of the checks is that an external model has a scorer; so the model
that they ask for can be built.
-/

namespace SpanScore

open Failure (IsConfiguration)

/-! ## Checks -/

namespace Check

theorem failsAs_atLeast (field : String) (value least : Nat) :
    FailsAs IsConfiguration (atLeast field value least) := by
  unfold atLeast
  split
  · exact FailsAs.error_iff.2 trivial
  · exact FailsAs.ok ()

theorem failsAs_required {α : Type} (field : String) (value : Option α) :
    FailsAs IsConfiguration (required field value) := by
  cases value with
  | none => exact FailsAs.error_iff.2 trivial
  | some value => exact FailsAs.ok value

theorem failsAs_notBlank (field value : String) :
    FailsAs IsConfiguration (notBlank field value) := by
  unfold notBlank
  split
  · exact FailsAs.error_iff.2 trivial
  · exact FailsAs.ok ()

theorem failsAs_oneOf (field value : String) (allowed : List String) :
    FailsAs IsConfiguration (oneOf field value allowed) := by
  unfold oneOf
  split
  · exact FailsAs.ok ()
  · exact FailsAs.error_iff.2 trivial

theorem isSome_of_required {α : Type} {field : String} {value : Option α} {found : α}
    (h : required field value = .ok found) : value.isSome := by
  cases value with
  | none => cases h
  | some value => rfl

end Check

theorem ScorerCommand.failsAs_validate (command : ScorerCommand) :
    FailsAs IsConfiguration command.validate := by
  refine FailsAs.bind (Check.failsAs_notBlank _ _) fun _ _ ↦ ?_
  cases command.timeoutSeconds with
  | none => exact FailsAs.ok ()
  | some timeout => exact Check.failsAs_atLeast _ timeout 1

/-! ## Files -/

namespace FileConfig

theorem failsAs_validate (config : FileConfig) : FailsAs IsConfiguration config.validate := by
  have model : FailsAs IsConfiguration
      (if config.model = some .external then
        discard (Check.required "external" config.external) else pure ()) := by
    split
    · exact FailsAs.bind (Check.failsAs_required _ _) fun _ _ ↦ FailsAs.ok ()
    · exact FailsAs.ok ()
  unfold validate
  dsimp only
  split
  · refine FailsAs.bind (ScorerCommand.failsAs_validate _) fun _ _ ↦ ?_
    split
    · exact FailsAs.bind (Check.failsAs_oneOf _ _ _) fun _ _ ↦ model
    · exact model
  · split
    · exact FailsAs.bind (Check.failsAs_oneOf _ _ _) fun _ _ ↦ model
    · exact model

theorem failsAs_ofText (environment : Environment) (text : String) :
    FailsAs IsConfiguration (ofText environment text) := by
  unfold ofText
  dsimp only
  split
  · exact FailsAs.ok _
  · exact FailsAs.error_iff.2 trivial

theorem failsAs_ofFile (host : Host) (path : String) :
    FailsAs IsConfiguration (ofFile host path) := by
  unfold ofFile
  split
  · exact failsAs_ofText _ _
  · exact FailsAs.error_iff.2 trivial

end FileConfig

theorem CommandLine.failsAs_file (line : CommandLine) (host : Host) :
    FailsAs IsConfiguration (line.file host) := by
  unfold file
  split
  · exact FailsAs.ok _
  · next path _ =>
    refine FailsAs.bind (FileConfig.failsAs_ofFile host path) fun file _ ↦ ?_
    exact FailsAs.bind file.failsAs_validate fun _ _ ↦ FailsAs.ok file

/-! ## Settings -/

namespace Settings

theorem failsAs_validate (settings : Settings) : FailsAs IsConfiguration settings.validate := by
  have required (scorer : Option ScorerCommand) :
      FailsAs IsConfiguration (discard (Check.required "external.command" scorer)) :=
    FailsAs.bind (Check.failsAs_required _ _) fun _ _ ↦ FailsAs.ok ()
  unfold validate
  dsimp only
  cases settings.scorer with
  | none =>
    split
    · exact FailsAs.bind (required _) fun _ _ ↦ FailsAs.ok ()
    · exact FailsAs.ok ()
  | some command =>
    split
    · exact FailsAs.bind (required _) fun _ _ ↦ command.failsAs_validate
    · exact command.failsAs_validate

/-- Settings that are checked name a scorer for an external model. -/
theorem isSome_scorer_of_validate {settings : Settings} (checked : settings.validate = .ok ())
    (isExternal : settings.model = .external) : settings.scorer.isSome := by
  rw [validate, if_pos isExternal] at checked
  cases required : Check.required "external.command" settings.scorer with
  | error failure =>
    rw [required] at checked
    cases checked
  | ok command => exact Check.isSome_of_required required

end Settings

/-- Only an external model needs a scorer. -/
theorem Model.exists_ofKind {kind : ModelKind} {command : Option ScorerCommand}
    (h : kind = .external → command.isSome) : ∃ model, ofKind kind command = .ok model := by
  cases kind with
  | external =>
    obtain ⟨given, rfl⟩ := Option.isSome_iff_exists.1 (h rfl)
    exact ⟨_, rfl⟩
  | _ => exact ⟨_, rfl⟩

theorem Settings.result_build (settings : Settings) :
    settings.build.result = Model.ofKind settings.model settings.scorer := by
  simp only [build, Model.build, Outcome.result_bind, Outcome.result_ofExcept,
    Outcome.result_note, Outcome.result_pure]
  cases Model.ofKind settings.model settings.scorer <;> rfl

/-- Settings that pass their check have a model. -/
theorem Settings.exists_build_of_validate {settings : Settings}
    (checked : settings.validate = .ok ()) : ∃ model, settings.build.result = .ok model := by
  rw [result_build]
  exact Model.exists_ofKind (isSome_scorer_of_validate checked)

namespace CommandLine

theorem failsAs_load (line : CommandLine) (host : Host) :
    FailsAs IsConfiguration (line.load host) := by
  refine FailsAs.bind (line.failsAs_file host) fun file _ ↦ ?_
  exact FailsAs.bind (Settings.failsAs_validate _) fun _ _ ↦ FailsAs.ok _

theorem validate_of_load {line : CommandLine} {host : Host} {settings : Settings}
    (loaded : line.load host = .ok settings) : settings.validate = .ok () := by
  obtain ⟨file, -, merged⟩ := exists_of_bind_eq_ok loaded
  obtain ⟨_, checked, returned⟩ := exists_of_bind_eq_ok merged
  cases returned
  exact checked

/-- The model of loaded settings can always be built. -/
theorem exists_build_of_load {line : CommandLine} {host : Host} {settings : Settings}
    (loaded : line.load host = .ok settings) : ∃ model, settings.build.result = .ok model :=
  Settings.exists_build_of_validate (validate_of_load loaded)

end CommandLine

end SpanScore
