import SpanScore.Proofs.Config.Layers
import SpanScore.Proofs.Model.Delegation

/-!
# Scorers of settings

The environment can name a scorer only where nothing else does and the model may infer.  Settings
that pass their check have a model, and whether it delegates is decided by the kind of the model and
by whether the settings have a scorer; to what it delegates, by this scorer alone.
-/

namespace SpanScore

/-! ## Kinds of models -/

namespace ModelKind

variable {kind : ModelKind}

/-- The scorer in models of a kind, which only some kinds have. -/
def scorer? (command : Option ScorerCommand) : ModelKind → Option Scorer
  | stgnn => command.map Model.inference
  | composite => command.map Model.inference
  | external => command.map Scorer.ofCommand
  | _ => none

theorem mayInfer_iff : kind.mayInfer = true ↔ kind ∈ [stgnn, composite] := by
  cases kind <;> simp [mayInfer]

theorem scorer?_of_infers (infers : kind ∈ [stgnn, composite]) (command : Option ScorerCommand) :
    kind.scorer? command = command.map Model.inference := by
  cases kind <;> simp [scorer?] at infers ⊢

theorem scorer?_of_alone (alone : kind ∈ [placeholder, graphlet, mapper, heuristic])
    (command : Option ScorerCommand) : kind.scorer? command = none := by
  cases kind <;> simp [scorer?] at alone ⊢

end ModelKind

namespace Model

variable {kind : ModelKind} {command : Option ScorerCommand} {model : Model}

theorem scorer?_of_ofKind (made : ofKind kind command = .ok model) :
    model.scorer? = kind.scorer? command := by
  cases kind with
  | external => cases command with
    | none => cases made
    | some command =>
      cases made
      rfl
  | _ =>
    cases made
    rfl

/-- The models that never delegate are made without a look at the command. -/
theorem ofKind_of_alone (alone : kind ∈ [.placeholder, .graphlet, .mapper, .heuristic])
    (command command' : Option ScorerCommand) : ofKind kind command = ofKind kind command' := by
  cases kind <;> simp [ofKind] at alone ⊢

end Model

/-! ## Merged settings -/

namespace Settings

section Merge

variable {file : FileConfig} {overrides : Overrides}
  {environment environment' : Option ScorerCommand}

/-- The environment could only change the scorer of merged settings. -/
theorem merge_eq_of_scorer_eq (same : (merge file overrides environment).scorer =
      (merge file overrides environment').scorer) :
    merge file overrides environment = merge file overrides environment' :=
  Settings.ext rfl same rfl rfl

/-- The environment changes merged settings only where nothing else names a scorer for a model that
may infer. -/
theorem infers_of_merge_ne
    (differs : merge file overrides environment ≠ merge file overrides environment') :
    (resolvedModel file overrides).mayInfer = true ∧ overrides.scorer = none ∧
      file.external = none := by
  by_contra named
  apply differs
  apply merge_eq_of_scorer_eq
  rw [scorer_merge, scorer_merge]
  cases ofLine : overrides.scorer with
  | some command => rfl
  | none => cases ofFile : file.external with
    | some command => rfl
    | none =>
      have idle : ¬(resolvedModel file overrides).mayInfer = true :=
        fun infers ↦ named ⟨infers, ofLine, ofFile⟩
      rw [if_neg idle, if_neg idle]

end Merge

/-! ## Models of settings -/

section Build

variable {settings : Settings} {model : Model} (built : settings.build.result = .ok model)

include built

theorem ofKind_of_build : Model.ofKind settings.model settings.scorer = .ok model := by
  rwa [← result_build]

theorem scoresAlone_of_build
    (alone : settings.model ∈ [.placeholder, .graphlet, .mapper, .heuristic]) :
    model.ScoresAlone ∧ ∀ scorer, { settings with scorer }.build.result = .ok model := by
  have made := ofKind_of_build built
  constructor
  · apply Model.scoresAlone_of_scorer?
    rw [Model.scorer?_of_ofKind made, ModelKind.scorer?_of_alone alone]
  · intro scorer
    rw [result_build, ← made]
    exact Model.ofKind_of_alone alone _ _

theorem delegatesTo_of_build_external (isExternal : settings.model = .external) :
    ∃ scorer, settings.scorer = some scorer ∧ model.DelegatesTo "external" scorer := by
  have made := ofKind_of_build built
  rw [isExternal] at made
  cases given : settings.scorer with
  | none =>
    rw [given] at made
    cases made
  | some scorer =>
    rw [given] at made
    exact ⟨scorer, rfl, Model.delegatesTo_of_scorer? (Model.scorer?_of_ofKind made)⟩

theorem delegatesTo_of_build_mayInfer (infers : settings.model ∈ [.stgnn, .composite]) :
    (settings.scorer = none → model.ScoresAlone) ∧
      ∀ scorer, settings.scorer = some scorer → model.DelegatesTo "stgnn" scorer := by
  have scorer_eq : model.scorer? = settings.scorer.map Model.inference := by
    rw [Model.scorer?_of_ofKind (ofKind_of_build built), ModelKind.scorer?_of_infers infers]
  constructor
  · intro absent
    apply Model.scoresAlone_of_scorer?
    rw [scorer_eq, absent, Option.map_none]
  · intro scorer given
    apply Model.delegatesTo_of_scorer?
    rw [scorer_eq, given]
    rfl

end Build

/-- A scorer is started as it is resolved.  The environment matters only where nothing else names a
scorer for a model that may infer.  The scorer of merged settings is the one that is named, under
the time limit of the command line if that has one.  Settings that pass their check have a model;
the models that never delegate are the same beside any scorer, an external model always has one, and
the ST-GNN model and the composite model delegate to it where the settings have one. -/
theorem scorer_is_used_as_resolved (file : FileConfig) (overrides : Overrides)
    (environment : Option ScorerCommand) :
    (∀ environment', merge file overrides environment ≠ merge file overrides environment' →
      resolvedModel file overrides ∈ [.stgnn, .composite] ∧ overrides.scorer = none ∧
        file.external = none) ∧
    (∀ scorer, (merge file overrides environment).scorer = some scorer ↔
      ∃ named, Names file overrides environment named ∧
        scorer = ⟨named.command, named.args, overrides.timeoutSeconds.or named.timeoutSeconds⟩) ∧
    (∀ settings : Settings, settings.validate = .ok () →
      ∃ model, settings.build.result = .ok model) ∧
    ∀ (settings : Settings) (model : Model), settings.build.result = .ok model →
      (settings.model ∈ [.placeholder, .graphlet, .mapper, .heuristic] →
        model.ScoresAlone ∧ ∀ scorer, { settings with scorer }.build.result = .ok model) ∧
      (settings.model = .external →
        ∃ scorer, settings.scorer = some scorer ∧ model.DelegatesTo "external" scorer) ∧
      (settings.model ∈ [.stgnn, .composite] →
        (settings.scorer = none → model.ScoresAlone) ∧
          ∀ scorer, settings.scorer = some scorer → model.DelegatesTo "stgnn" scorer) := by
  refine ⟨fun environment' differs ↦ ?_, fun scorer ↦ scorer_merge_eq_some_iff,
    fun settings ↦ exists_build_of_validate, fun settings model built ↦ ⟨?_, ?_, ?_⟩⟩
  · obtain ⟨infers, unnamed⟩ := infers_of_merge_ne differs
    exact ⟨ModelKind.mayInfer_iff.1 infers, unnamed⟩
  · exact scoresAlone_of_build built
  · exact delegatesTo_of_build_external built
  · exact delegatesTo_of_build_mayInfer built

/-- The time limit of the command line is also one for the scorer of the environment. -/
example : (merge .empty ⟨some .composite, none, some 5, false, false⟩
    (some (.ofScript "infer.py"))).scorer = some ⟨"python3", ["infer.py"], some 5⟩ := rfl

end Settings

end SpanScore
