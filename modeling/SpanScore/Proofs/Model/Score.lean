import SpanScore.Model.Basic
import SpanScore.Proofs.Message.Breakdown
import SpanScore.Proofs.Score.Structural
import SpanScore.Proofs.Scorer.Outcome

/-!
# Scores of models

The score of a model lies between zero and one unless it is no number, and the features of the two
spans decide whether it is.  The placeholder and scorer programs always give numbers.
-/

namespace SpanScore.Model

open SpanScore.Distribution

/-- Whether a model has no number for two values. -/
def UndefinedAt (left right : Json.Value) : Model → Prop
  | placeholder => False
  | graphlet => Graphlet.Undefined left right
  | mapper => Mapper.Undefined left right
  | stgnn inference => inference = none ∧ Heuristic.Undefined left right
  | composite inference => Graphlet.Undefined left right ∨ Mapper.Undefined left right ∨
      inference = none ∧ Heuristic.Undefined left right
  | external _ => False

/-- Whether a model has no number for the values of two spans. -/
def Undefined (model : Model) (spanA spanB : Span) : Prop :=
  ∃ left right, spanA.toValue = .ok left ∧ spanB.toValue = .ok right ∧ model.UndefinedAt left right

theorem undefined_iff {model : Model} {spanA spanB : Span} {left right : Json.Value}
    (valueA : spanA.toValue = .ok left) (valueB : spanB.toValue = .ok right) :
    model.Undefined spanA spanB ↔ model.UndefinedAt left right := by
  simp [Undefined, valueA, valueB]

variable (launch : Launcher) (inference : Option Scorer) {spanA spanB : Span}

/-- A score between zero and one is of a model that is never undefined. -/
theorem of_mem {model : Model} {similarity : Float} (mem : 0 ≤ similarity ∧ similarity ≤ 1)
    (defined : ∀ left right, ¬model.UndefinedAt left right) :
    IsShare similarity ∧ (similarity.isNaN = true ↔ model.Undefined spanA spanB) := by
  refine ⟨fun _ ↦ mem, iff_of_false ?_ fun ⟨left, right, _, _, undefined⟩ ↦ ?_⟩
  · rw [(Double.isNaN_eq_false_of_le mem.1).2]
    exact Bool.false_ne_true
  · exact defined left right undefined

theorem structural_eq_ok_iff {score : Json.Value → Json.Value → Float} {similarity : Float} :
    structural score spanA spanB = .ok similarity ↔
      ∃ left right, spanA.toValue = .ok left ∧ spanB.toValue = .ok right ∧
        similarity = score left right := by
  unfold structural
  cases spanA.toValue with
  | error failure => simp [bind, Except.bind]
  | ok left => cases spanB.toValue with
    | error failure => simp [bind, Except.bind]
    | ok right => simp [bind, Except.bind, pure, Except.pure, eq_comm]

theorem of_structural {model : Model} {score : Json.Value → Json.Value → Float} {similarity : Float}
    (h : structural score spanA spanB = .ok similarity)
    (shares : ∀ left right, IsShare (score left right))
    (isNaN_iff : ∀ left right, (score left right).isNaN = true ↔ model.UndefinedAt left right) :
    IsShare similarity ∧ (similarity.isNaN = true ↔ model.Undefined spanA spanB) := by
  obtain ⟨left, right, valueA, valueB, rfl⟩ := structural_eq_ok_iff.1 h
  rw [undefined_iff valueA valueB]
  exact ⟨shares left right, isNaN_iff left right⟩

/-- The score of a program lies between zero and one. -/
theorem infer_mem {scorer : Scorer} {request : Request} {similarity : Float}
    (h : (scorer.infer launch request).result = .ok similarity) :
    0 ≤ similarity ∧ similarity ≤ 1 := by
  rw [Scorer.result_infer] at h
  split at h
  · cases h
  · split at h
    · cases h
    · obtain ⟨low, high, -⟩ := Scorer.score_mem h
      exact ⟨low, high⟩

theorem stgnnScore_of_ok {similarity : Float}
    (h : (stgnnScore launch inference spanA spanB).result = .ok similarity) :
    IsShare similarity ∧ (similarity.isNaN = true ↔ (stgnn inference).Undefined spanA spanB) := by
  cases inference with
  | none =>
    refine of_structural h Heuristic.isShare_score fun left right ↦ ?_
    rw [UndefinedAt, Heuristic.isNaN_score_iff, and_iff_right rfl]
  | some scorer => exact of_mem (infer_mem launch h) (by simp [UndefinedAt])

/-- A breakdown holds the graphlet score and the Mapper score of the two values, and one more
score. -/
theorem breakdown_eq_ok_iff {scores : Breakdown} :
    (breakdown launch inference spanA spanB).result = .ok scores ↔
      ∃ left right similarity, spanA.toValue = .ok left ∧ spanB.toValue = .ok right ∧
        (stgnnScore launch inference spanA spanB).result = .ok similarity ∧
        scores = ⟨some (Graphlet.score left right), some (Mapper.score left right),
          some similarity⟩ := by
  unfold breakdown
  simp only [Outcome.result_bind, Outcome.result_ofExcept, Outcome.result_pure]
  cases spanA.toValue with
  | error failure => simp [Except.bind]
  | ok left => cases spanB.toValue with
    | error failure => simp [Except.bind]
    | ok right => cases (stgnnScore launch inference spanA spanB).result with
      | error failure => simp [Except.bind]
      | ok similarity => simp [Except.bind, eq_comm]

theorem score_composite_eq_ok_iff {mean : Float} :
    ((composite inference).score launch spanA spanB).result = .ok mean ↔
      ∃ scores, (breakdown launch inference spanA spanB).result = .ok scores ∧
        scores.composite.getD 0 = mean := by
  simp only [score, Outcome.result_bind, Outcome.result_note, Outcome.result_pure]
  cases (breakdown launch inference spanA spanB).result with
  | error failure => simp [Except.bind]
  | ok scores => simp [Except.bind]

/-- The mean of a breakdown is a share, and it is no number just where one of its scores is none. -/
theorem composite_of_ok {scores : Breakdown} {mean : Float}
    (h : (breakdown launch inference spanA spanB).result = .ok scores)
    (mean_eq : scores.composite.getD 0 = mean) :
    IsShare mean ∧ (mean.isNaN = true ↔ (composite inference).Undefined spanA spanB) := by
  obtain ⟨left, right, similarity, valueA, valueB, inferred, rfl⟩ :=
    (breakdown_eq_ok_iff launch inference).1 h
  obtain ⟨share, isNaN_iff⟩ := stgnnScore_of_ok launch inference inferred
  have shares : ∀ score ∈ Breakdown.present ⟨some (Graphlet.score left right),
      some (Mapper.score left right), some similarity⟩, IsShare score := by
    simp [Breakdown.present, Graphlet.isShare_score, Mapper.isShare_score, share]
  obtain ⟨mean_share, mean_iff⟩ :=
    Breakdown.isShare_composite _ shares (show _ = some mean by rw [← mean_eq]; rfl)
  refine ⟨mean_share, mean_iff.trans ?_⟩
  rw [undefined_iff valueA valueB] at isNaN_iff ⊢
  simp only [UndefinedAt] at isNaN_iff ⊢
  rw [← isNaN_iff, ← Graphlet.isNaN_score_iff, ← Mapper.isNaN_score_iff]
  have present_eq : Breakdown.present ⟨some (Graphlet.score left right),
      some (Mapper.score left right), some similarity⟩ =
        [Graphlet.score left right, Mapper.score left right, similarity] := rfl
  rw [present_eq]
  simp only [List.exists_mem_cons_iff, List.not_mem_nil, false_and, exists_false, or_false]

/-- The score of a model is a share, and it is no number just where the model is undefined. -/
theorem score_of_ok {model : Model} {similarity : Float}
    (h : (model.score launch spanA spanB).result = .ok similarity) :
    IsShare similarity ∧ (similarity.isNaN = true ↔ model.Undefined spanA spanB) := by
  cases model with
  | placeholder =>
    obtain rfl : placeholderScore = similarity := Except.ok.inj h
    exact of_mem (by decide) fun _ _ ↦ id
  | graphlet => exact of_structural h Graphlet.isShare_score Graphlet.isNaN_score_iff
  | mapper => exact of_structural h Mapper.isShare_score Mapper.isNaN_score_iff
  | stgnn inference => exact stgnnScore_of_ok launch inference h
  | composite inference =>
    obtain ⟨scores, scored, mean_eq⟩ := (score_composite_eq_ok_iff launch inference).1 h
    exact composite_of_ok launch inference scored mean_eq
  | external scorer => exact of_mem (infer_mem launch h) fun _ _ ↦ id

end SpanScore.Model
