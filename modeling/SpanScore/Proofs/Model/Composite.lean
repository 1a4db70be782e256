import SpanScore.Proofs.Model.Score

/-!
# Composite scores and standalone scores

A composite score is made of what the graphlet model, the Mapper model and the ST-GNN model say by
themselves.  It reads both spans before it asks the ST-GNN model, so a span without a value is its
failure before any other, and no scorer program is started for one.
-/

namespace SpanScore.Model

variable (launch : Launcher) (inference : Option Scorer) (spanA spanB : Span)

/-- The three standalone models succeed on two spans, with these scores. -/
def Standalone (ofGraphlet ofMapper ofStgnn : Float) : Prop :=
  (graphlet.score launch spanA spanB).result = .ok ofGraphlet ∧
    (mapper.score launch spanA spanB).result = .ok ofMapper ∧
    ((stgnn inference).score launch spanA spanB).result = .ok ofStgnn

/-- The first failure in the order of the work: the first span has no value, then the second one has
none, then the ST-GNN model fails. -/
def FailsFirst (failure : Failure) : Prop :=
  spanA.toValue = .error failure ∨
    (∃ left, spanA.toValue = .ok left) ∧
      (spanB.toValue = .error failure ∨
        (∃ right, spanB.toValue = .ok right) ∧
          ((stgnn inference).score launch spanA spanB).result = .error failure)

/-! ## Success -/

variable {spanA spanB}

/-- Reading the spans once or once for each model gives the same scores. -/
theorem standalone_iff {ofGraphlet ofMapper ofStgnn : Float} :
    Standalone launch inference spanA spanB ofGraphlet ofMapper ofStgnn ↔
      ∃ left right, spanA.toValue = .ok left ∧ spanB.toValue = .ok right ∧
        ofGraphlet = Graphlet.score left right ∧ ofMapper = Mapper.score left right ∧
        (stgnnScore launch inference spanA spanB).result = .ok ofStgnn := by
  simp only [Standalone, score, Outcome.result_ofExcept, structural_eq_ok_iff]
  constructor
  · rintro ⟨⟨left, right, valueA, valueB, rfl⟩, ⟨left', right', valueA', valueB', rfl⟩, scored⟩
    obtain rfl := Except.ok.inj (valueA.symm.trans valueA')
    obtain rfl := Except.ok.inj (valueB.symm.trans valueB')
    exact ⟨left, right, valueA, valueB, rfl, rfl, scored⟩
  · rintro ⟨left, right, valueA, valueB, rfl, rfl, scored⟩
    exact ⟨⟨left, right, valueA, valueB, rfl⟩, ⟨left, right, valueA, valueB, rfl⟩, scored⟩

theorem breakdown_eq_ok_iff_standalone {scores : Breakdown} :
    (breakdown launch inference spanA spanB).result = .ok scores ↔
      ∃ ofGraphlet ofMapper ofStgnn,
        Standalone launch inference spanA spanB ofGraphlet ofMapper ofStgnn ∧
        scores = ⟨some ofGraphlet, some ofMapper, some ofStgnn⟩ := by
  rw [breakdown_eq_ok_iff]
  constructor
  · rintro ⟨left, right, ofStgnn, valueA, valueB, scored, rfl⟩
    exact ⟨_, _, _, (standalone_iff launch inference).2
      ⟨left, right, valueA, valueB, rfl, rfl, scored⟩, rfl⟩
  · rintro ⟨_, _, ofStgnn, standalone, rfl⟩
    obtain ⟨left, right, valueA, valueB, rfl, rfl, scored⟩ :=
      (standalone_iff launch inference).1 standalone
    exact ⟨left, right, ofStgnn, valueA, valueB, scored, rfl⟩

theorem score_composite_eq_ok_iff_standalone {mean : Float} :
    ((composite inference).score launch spanA spanB).result = .ok mean ↔
      ∃ ofGraphlet ofMapper ofStgnn,
        Standalone launch inference spanA spanB ofGraphlet ofMapper ofStgnn ∧
        mean = (ofGraphlet + ofMapper + ofStgnn) / 3 := by
  simp only [score_composite_eq_ok_iff, breakdown_eq_ok_iff_standalone]
  constructor
  · rintro ⟨_, ⟨_, _, _, standalone, rfl⟩, rfl⟩
    exact ⟨_, _, _, standalone, by rw [Breakdown.composite_mk, Option.getD_some]⟩
  · rintro ⟨_, _, _, standalone, rfl⟩
    exact ⟨_, ⟨_, _, _, standalone, rfl⟩, by rw [Breakdown.composite_mk, Option.getD_some]⟩

/-! ## Failure -/

theorem breakdown_eq_error_iff {failure : Failure} :
    (breakdown launch inference spanA spanB).result = .error failure ↔
      FailsFirst launch inference spanA spanB failure := by
  unfold breakdown FailsFirst score
  simp only [Outcome.result_bind, Outcome.result_ofExcept, Outcome.result_pure]
  cases spanA.toValue with
  | error first => simp [Except.bind]
  | ok left => cases spanB.toValue with
    | error second => simp [Except.bind]
    | ok right => cases (stgnnScore launch inference spanA spanB).result <;> simp [Except.bind]

/-- Only the scores behind a composite score can fail. -/
theorem score_composite_eq_error_iff {failure : Failure} :
    ((composite inference).score launch spanA spanB).result = .error failure ↔
      (breakdown launch inference spanA spanB).result = .error failure := by
  simp only [score, Outcome.result_bind, Outcome.result_note, Outcome.result_pure]
  cases (breakdown launch inference spanA spanB).result <;> simp [Except.bind]

/-- A span without a value leaves no event behind, so no scorer program is started for it. -/
theorem events_of_toValue_eq_error {failure : Failure}
    (h : spanA.toValue = .error failure ∨ spanB.toValue = .error failure) :
    (breakdown launch inference spanA spanB).events = [] ∧
      ((composite inference).score launch spanA spanB).events = [] := by
  obtain ⟨first, failed⟩ :
      ∃ first, breakdown launch inference spanA spanB = Outcome.fail first := by
    unfold breakdown
    cases valueA : spanA.toValue with
    | error first => exact ⟨first, rfl⟩
    | ok left =>
      rw [valueA, or_iff_right (by simp)] at h
      rw [h]
      exact ⟨failure, rfl⟩
  rw [score, failed]
  exact ⟨rfl, rfl⟩

/-! ## Models without a scorer program -/

/-- Without a scorer program the scores behind a composite score are the structural ones. -/
theorem breakdown_none :
    breakdown launch none spanA spanB = Outcome.ofExcept (do
      let ofGraphlet ← structural Graphlet.score spanA spanB
      let ofMapper ← structural Mapper.score spanA spanB
      let ofHeuristic ← structural Heuristic.score spanA spanB
      return ⟨some ofGraphlet, some ofMapper, some ofHeuristic⟩) := by
  unfold breakdown stgnnScore structural
  cases spanA.toValue with
  | error first => rfl
  | ok left => cases spanB.toValue <;> rfl

/-- A model that asks no scorer program is determined by the structural scores. -/
theorem score_eq_of_structural {model : Model} {spanA' spanB' : Span}
    (unaided : model.usesInference = false)
    (same : ∀ score ∈ [Graphlet.score, Mapper.score, Heuristic.score],
      structural score spanA spanB = structural score spanA' spanB') :
    model.score launch spanA spanB = model.score launch spanA' spanB' := by
  simp only [List.forall_mem_cons] at same
  obtain ⟨graphlet_eq, mapper_eq, heuristic_eq, -⟩ := same
  match model, unaided with
  | placeholder, _ => rfl
  | graphlet, _ => rw [score, score, graphlet_eq]
  | mapper, _ => rw [score, score, mapper_eq]
  | stgnn none, _ => rw [score, score, stgnnScore, stgnnScore, heuristic_eq]
  | composite none, _ =>
    rw [score, score, breakdown_none, breakdown_none, graphlet_eq, mapper_eq, heuristic_eq]

/-! ## Agreement -/

/-- The composite model agrees with the standalone models: its scores are theirs, its mean is
rounded after each sum and once more, its failure is the first one in the order of the work, and a
span without a value starts no scorer program. -/
theorem composite_agrees (launch : Launcher) (inference : Option Scorer) (spanA spanB : Span) :
    (∀ scores, (breakdown launch inference spanA spanB).result = .ok scores ↔
      ∃ ofGraphlet ofMapper ofStgnn,
        Standalone launch inference spanA spanB ofGraphlet ofMapper ofStgnn ∧
        scores = ⟨some ofGraphlet, some ofMapper, some ofStgnn⟩) ∧
    (∀ mean, ((composite inference).score launch spanA spanB).result = .ok mean ↔
      ∃ ofGraphlet ofMapper ofStgnn,
        Standalone launch inference spanA spanB ofGraphlet ofMapper ofStgnn ∧
        mean = (ofGraphlet + ofMapper + ofStgnn) / 3) ∧
    (∀ failure, ((breakdown launch inference spanA spanB).result = .error failure ↔
        FailsFirst launch inference spanA spanB failure) ∧
      (((composite inference).score launch spanA spanB).result = .error failure ↔
        FailsFirst launch inference spanA spanB failure)) ∧
    (∀ failure, spanA.toValue = .error failure ∨ spanB.toValue = .error failure →
      (breakdown launch inference spanA spanB).events = [] ∧
        ((composite inference).score launch spanA spanB).events = []) := by
  refine ⟨fun scores ↦ ?_, fun mean ↦ ?_, fun failure ↦ ⟨?_, ?_⟩, fun failure lost ↦ ?_⟩
  · exact breakdown_eq_ok_iff_standalone launch inference
  · exact score_composite_eq_ok_iff_standalone launch inference
  · exact breakdown_eq_error_iff launch inference
  · rw [score_composite_eq_error_iff, breakdown_eq_error_iff]
  · exact events_of_toValue_eq_error launch inference lost

end SpanScore.Model
