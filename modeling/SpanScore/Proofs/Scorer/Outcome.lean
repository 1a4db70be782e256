import SpanScore.Proofs.Message.Response
import SpanScore.Proofs.Outcome
import SpanScore.Proofs.Scorer.Failure

/-!
# Outcomes of scorers

A scorer gives a score exactly when its program ran, ended well and answered with a number, and the
score is this number brought between zero and one.  Everything else that the program can do is a
failure under the label of the scorer.
-/

namespace SpanScore.Scorer

open SpanScore.Distribution

/-- The call by which a scorer asks its program for a score. -/
def callFor (scorer : Scorer) (request : Request) : Call :=
  ⟨scorer.command, scorer.args, request.encode⟩

/-- A program that was fed, whether or not it took all of its input, ended well and answered with a
number. -/
structure Succeeds (program : Ended) (number : Json.Number) : Prop where
  fed : ∀ message, program.feed ≠ .failed message
  exited : program.status = .exited 0
  answers : Response.Answers program.output number

variable (launch : Launcher) (scorer : Scorer) (request : Request)

variable {scorer}

/-- How far a program was fed does not matter as long as it was. -/
theorem scoreOf_of_fed {program : Ended} (fed : ∀ message, program.feed ≠ .failed message) :
    scorer.scoreOf program = scorer.scoreOf { program with feed := .given } := by
  unfold scoreOf
  cases feed : program.feed with
  | failed message => exact absurd feed (fed message)
  | given => rfl
  | closedEarly => rfl

/-- The message about a program that did not end well. -/
def exitMessage (program : Ended) : String :=
  let status := statusText program.status
  let errors := Blank.trim (Utf8.decodeLossy program.errors)
  s!"process exited with status {status}: {errors}"

/-- A program that did not end well is reported with what it wrote as errors, whatever it
answered. -/
theorem scoreOf_of_status {program : Ended} (fed : ∀ message, program.feed ≠ .failed message)
    (failed : program.status ≠ .exited 0) :
    scorer.scoreOf program = .error (scorer.failure (exitMessage program)) := by
  rw [scoreOf_of_fed fed, scoreOf]
  exact if_neg failed

theorem scoreOf_eq_ok_iff {program : Ended} {score : Float} :
    scorer.scoreOf program = .ok score ↔
      ∃ number, Succeeds program number ∧ score = clamp number.toFloat := by
  constructor
  · intro h
    have fed : ∀ message, program.feed ≠ .failed message := by
      intro message feed
      rw [scoreOf, feed] at h
      cases h
    have exited : program.status = .exited 0 := by
      by_contra failed
      rw [scoreOf_of_status fed failed] at h
      cases h
    rw [scoreOf_of_fed fed, scoreOf] at h
    dsimp only at h
    rw [if_pos exited] at h
    split at h
    · next similarity read =>
      obtain ⟨number, answers, rfl⟩ := Response.similarityOf_eq_ok_iff.1 read
      exact ⟨number, ⟨fed, exited, answers⟩, (Except.ok.inj h).symm⟩
    · cases h
  · rintro ⟨number, ⟨fed, exited, answers⟩, rfl⟩
    have read := Response.similarityOf_eq_ok_iff.2 ⟨number, answers, rfl⟩
    rw [scoreOf_of_fed fed, scoreOf]
    dsimp only
    rw [if_pos exited, read]

/-- The score of a program is a number between zero and one. -/
theorem score_mem {program : Ended} {score : Float} (h : scorer.scoreOf program = .ok score) :
    0 ≤ score ∧ score ≤ 1 ∧ score.isNaN = false := by
  obtain ⟨number, succeeds, rfl⟩ := scoreOf_eq_ok_iff.1 h
  obtain ⟨token, token_eq⟩ := succeeds.answers.exists_token
  obtain ⟨sign, place, -, view⟩ := Double.exists_signed_of_isFinite
    (Json.Grammar.NumberToken.isFinite_of_value? token_eq)
  have number_eq : number.toFloat.isNaN = false := by rw [view, Double.isNaN_signed]
  obtain ⟨low, high⟩ := clamp_mem number_eq
  exact ⟨low, high, (isNaN_clamp _).trans number_eq⟩

/-! ## All outcomes -/

variable (launch : Launcher) (scorer : Scorer) (request : Request)

end SpanScore.Scorer
