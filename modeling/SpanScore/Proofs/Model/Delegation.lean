import SpanScore.Proofs.Model.Composite

/-!
# Delegation

A model with a scorer leaves two spans to one program, which it starts once, and nothing else that
the host could run has a part in its outcome; a model without one starts nothing.  A composite model
reads both spans first, so it gets to its program only when both have values.
-/

namespace SpanScore

/-! ## Programs that are started -/

/-- The program, with its arguments, that an event is the start of. -/
def Event.start? : Event → Option (String × List String)
  | scorerStarted _ command args _ => some (command, args)
  | _ => none

namespace Outcome

variable {α β : Type}

def starts (outcome : Outcome α) : List (String × List String) :=
  outcome.events.filterMap Event.start?

@[simp] theorem starts_pure (value : α) : (pure value : Outcome α).starts = [] := rfl

@[simp] theorem starts_ofExcept (result : Except Failure α) : (ofExcept result).starts = [] := rfl

theorem starts_note {event : Event} (other : event.start? = none) : (note event).starts = [] := by
  simp [starts, note, other]

/-- The second part starts programs only behind a success of the first. -/
theorem starts_bind (first : Outcome α) (next : α → Outcome β) :
    (first >>= next).starts = first.starts ++
      match first.result with
      | .ok value => (next value).starts
      | .error _ => [] := by
  change (andThen first next).starts = _
  unfold andThen starts
  cases first.result with
  | error failure => simp
  | ok value => exact List.filterMap_append

end Outcome

/-! ## Scorers -/

namespace Scorer

variable {launch launch' : Launcher} {scorer : Scorer} {request : Request} {program : Ended}

/-- A scorer starts its program, once, whatever comes of it. -/
theorem starts_infer (launch : Launcher) (scorer : Scorer) (request : Request) :
    (scorer.infer launch request).starts = [(scorer.command, scorer.args)] := by
  have closed : (Outcome.note .scorerClosedInput).starts = [] := Outcome.starts_note rfl
  unfold infer
  rw [Outcome.starts_bind, Outcome.result_note]
  dsimp only
  cases launch ⟨scorer.command, scorer.args, request.encode⟩ with
  | refused reason => rfl
  | ended program =>
    dsimp only
    split
    · rw [Outcome.starts_bind, closed, Outcome.result_note]
      dsimp only
      split <;> rfl
    · split <;> rfl

/-- Hosts that agree on the call of a scorer's program give the scorer the same outcome. -/
theorem infer_congr (same : launch (scorer.callFor request) = launch' (scorer.callFor request)) :
    scorer.infer launch request = scorer.infer launch' request := by
  unfold callFor at same
  simp only [infer, same]

theorem result_infer_of_refused {reason : String}
    (refused : launch (scorer.callFor request) = .refused reason) :
    (scorer.infer launch request).result =
      .error (scorer.failure s!"failed to spawn '{scorer.command}': {reason}") := by
  rw [callFor] at refused
  rw [result_infer, refused]

theorem result_infer_of_late (ran : launch (scorer.callFor request) = .ended program)
    (late : scorer.isLate program = true) :
    (scorer.infer launch request).result =
      .error (.timeout scorer.label ((scorer.limit.getD 0) / 1000)) := by
  rw [callFor] at ran
  rw [result_infer, ran]
  exact if_pos late

theorem result_infer_of_inTime (ran : launch (scorer.callFor request) = .ended program)
    (inTime : scorer.isLate program = false) :
    (scorer.infer launch request).result = scorer.scoreOf program := by
  rw [callFor] at ran
  rw [result_infer, ran]
  dsimp only
  rw [inTime, if_neg Bool.false_ne_true]

/-- A scorer gives a score exactly when its program succeeds in time. -/
theorem infer_eq_ok_iff {score : Float} :
    (scorer.infer launch request).result = .ok score ↔
      ∃ program number, launch (scorer.callFor request) = .ended program ∧
        scorer.isLate program = false ∧ Succeeds program number ∧
        score = Distribution.clamp number.toFloat := by
  cases ran : launch (scorer.callFor request) with
  | refused reason =>
    rw [result_infer_of_refused ran]
    simp
  | ended program =>
    cases late : scorer.isLate program with
    | true =>
      rw [result_infer_of_late ran late]
      simp [late]
    | false =>
      rw [result_infer_of_inTime ran late, scoreOf_eq_ok_iff]
      simp [late]

/-- With a limit in seconds, a program is in time that ends before them. -/
theorem isLate_eq_false_iff {seconds : Option Nat}
    (limit_eq : scorer.limit = seconds.map (· * 1000)) :
    scorer.isLate program = false ↔
      ∀ limit, seconds = some limit → program.milliseconds < limit * 1000 := by
  rw [isLate, limit_eq]
  cases seconds <;> simp

end Scorer

/-! ## Models -/

/-- The call by which a command is asked for the score of two spans. -/
def ScorerCommand.callFor (command : ScorerCommand) (spanA spanB : Span) : Call :=
  ⟨command.command, command.args, Request.encode ⟨spanA, spanB⟩⟩

namespace Model

def scorer? : Model → Option Scorer
  | stgnn inference => inference
  | composite inference => inference
  | external scorer => some scorer
  | _ => none

/-- Whether a model gets as far as its scorer: a composite model reads both spans first. -/
def Reaches (spanA spanB : Span) : Model → Prop
  | composite _ =>
    (∃ left, spanA.toValue = .ok left) ∧ ∃ right, spanB.toValue = .ok right
  | _ => True

/-- What a model makes of the score that its scorer gives. -/
def Makes (spanA spanB : Span) (given score : Float) : Model → Prop
  | composite _ => ∃ left right, spanA.toValue = .ok left ∧ spanB.toValue = .ok right ∧
      score = (Graphlet.score left right + Mapper.score left right + given) / 3
  | _ => score = given

/-- A model that starts no program and has nothing to do with what a host could run. -/
def ScoresAlone (model : Model) : Prop :=
  ∀ launch launch' spanA spanB, (model.score launch spanA spanB).starts = [] ∧
    model.score launch spanA spanB = model.score launch' spanA spanB

/-- A model that leaves two spans to a command, under a label.  It starts the command's program
once, when it gets so far, and depends on no other call.  It has a score just where this program
succeeds in time, and a program that is late is reported with the time it had. -/
structure DelegatesTo (model : Model) (label : String) (command : ScorerCommand) : Prop where
  starts : ∀ launch spanA spanB, model.Reaches spanA spanB →
    (model.score launch spanA spanB).starts = [(command.command, command.args)]
  spares : ∀ launch spanA spanB, ¬model.Reaches spanA spanB →
    (model.score launch spanA spanB).starts = []
  asks : ∀ launch launch' spanA spanB,
    launch (command.callFor spanA spanB) = launch' (command.callFor spanA spanB) →
      model.score launch spanA spanB = model.score launch' spanA spanB
  succeeds : ∀ launch spanA spanB score,
    (model.score launch spanA spanB).result = .ok score ↔
      ∃ program number, launch (command.callFor spanA spanB) = .ended program ∧
        (∀ limit, command.timeoutSeconds = some limit → program.milliseconds < limit * 1000) ∧
        Scorer.Succeeds program number ∧
        model.Makes spanA spanB (Distribution.clamp number.toFloat) score
  late : ∀ launch spanA spanB program limit, model.Reaches spanA spanB →
    launch (command.callFor spanA spanB) = .ended program →
      command.timeoutSeconds = some limit → limit * 1000 ≤ program.milliseconds →
        (model.score launch spanA spanB).result = .error (.timeout label limit)
  refused : ∀ launch spanA spanB reason, model.Reaches spanA spanB →
    launch (command.callFor spanA spanB) = .refused reason →
      (model.score launch spanA spanB).result =
        .error (.scorer label s!"failed to spawn '{command.command}': {reason}")

variable {launch launch' : Launcher} {model : Model} {inference : Option Scorer} {scorer : Scorer}
  {spanA spanB : Span}

/-! ### Calls -/

theorem stgnnScore_congr (same : ∀ scorer, inference = some scorer →
      launch (scorer.callFor ⟨spanA, spanB⟩) = launch' (scorer.callFor ⟨spanA, spanB⟩)) :
    stgnnScore launch inference spanA spanB = stgnnScore launch' inference spanA spanB := by
  cases inference with
  | none => rfl
  | some scorer => exact Scorer.infer_congr (same scorer rfl)

/-- Hosts that agree on the call of a model's scorer give the model the same outcome. -/
theorem score_congr (same : ∀ scorer, model.scorer? = some scorer →
      launch (scorer.callFor ⟨spanA, spanB⟩) = launch' (scorer.callFor ⟨spanA, spanB⟩)) :
    model.score launch spanA spanB = model.score launch' spanA spanB := by
  cases model with
  | stgnn inference => exact stgnnScore_congr same
  | composite inference =>
    have stgnn_eq : stgnnScore launch inference spanA spanB =
        stgnnScore launch' inference spanA spanB := stgnnScore_congr same
    simp only [score, breakdown, stgnn_eq]
  | external scorer => exact Scorer.infer_congr (same scorer rfl)
  | _ => rfl

/-! ### Starts -/

/-- Behind the spans, a composite model starts what the ST-GNN model starts. -/
theorem starts_composite (reaches : (composite inference).Reaches spanA spanB) :
    ((composite inference).score launch spanA spanB).starts =
      (stgnnScore launch inference spanA spanB).starts := by
  obtain ⟨⟨left, valueA⟩, right, valueB⟩ := reaches
  have noted (scores : Breakdown) : (Outcome.note (.breakdownComputed scores)).starts = [] :=
    Outcome.starts_note rfl
  simp only [score, breakdown, valueA, valueB, Outcome.starts_bind, Outcome.result_bind,
    Outcome.starts_ofExcept, Outcome.result_ofExcept, Outcome.starts_pure, noted]
  cases (stgnnScore launch inference spanA spanB).result <;> simp [Except.bind]

theorem starts_of_not_reaches (launch : Launcher) (short : ¬model.Reaches spanA spanB) :
    (model.score launch spanA spanB).starts = [] := by
  cases model with
  | composite inference =>
    have lost : ∃ failure, spanA.toValue = .error failure ∨ spanB.toValue = .error failure := by
      cases valueA : spanA.toValue with
      | error failure => exact ⟨failure, .inl rfl⟩
      | ok left => cases valueB : spanB.toValue with
        | error failure => exact ⟨failure, .inr rfl⟩
        | ok right => exact absurd ⟨⟨left, valueA⟩, right, valueB⟩ short
    obtain ⟨failure, lost⟩ := lost
    rw [Outcome.starts, (events_of_toValue_eq_error launch inference lost).2, List.filterMap_nil]
  | _ => exact absurd trivial short

theorem starts_of_scorer? (launch : Launcher) (uses : model.scorer? = some scorer)
    (reaches : model.Reaches spanA spanB) :
    (model.score launch spanA spanB).starts = [(scorer.command, scorer.args)] := by
  cases model with
  | stgnn inference =>
    obtain rfl : inference = some scorer := uses
    exact Scorer.starts_infer launch scorer _
  | composite inference =>
    obtain rfl : inference = some scorer := uses
    rw [starts_composite reaches]
    exact Scorer.starts_infer launch scorer _
  | external scorer' =>
    obtain rfl : scorer' = scorer := Option.some.inj uses
    exact Scorer.starts_infer launch scorer' _
  | _ => cases uses

/-! ### Scores -/

theorem score_eq_ok_iff_of_scorer? (uses : model.scorer? = some scorer) {similarity : Float} :
    (model.score launch spanA spanB).result = .ok similarity ↔
      ∃ given, (scorer.infer launch ⟨spanA, spanB⟩).result = .ok given ∧
        model.Makes spanA spanB given similarity := by
  cases model with
  | stgnn inference =>
    obtain rfl : inference = some scorer := uses
    simp [score, stgnnScore, Makes]
  | composite inference =>
    obtain rfl : inference = some scorer := uses
    rw [score_composite_eq_ok_iff_standalone]
    simp only [standalone_iff, stgnnScore, Makes]
    grind
  | external scorer' =>
    obtain rfl : scorer' = scorer := Option.some.inj uses
    simp [score, Makes]
  | _ => cases uses

/-- Behind the spans, a failure of the scorer is the failure of the model. -/
theorem score_eq_error_of_scorer? (uses : model.scorer? = some scorer)
    (reaches : model.Reaches spanA spanB) {failure : Failure}
    (failed : (scorer.infer launch ⟨spanA, spanB⟩).result = .error failure) :
    (model.score launch spanA spanB).result = .error failure := by
  cases model with
  | stgnn inference =>
    obtain rfl : inference = some scorer := uses
    exact failed
  | composite inference =>
    obtain rfl : inference = some scorer := uses
    rw [score_composite_eq_error_iff, breakdown_eq_error_iff]
    exact .inr ⟨reaches.1, .inr ⟨reaches.2, failed⟩⟩
  | external scorer' =>
    obtain rfl : scorer' = scorer := Option.some.inj uses
    exact failed
  | _ => cases uses

/-! ### Delegation -/

theorem scoresAlone_of_scorer? (without : model.scorer? = none) : model.ScoresAlone := by
  intro launch launch' spanA spanB
  constructor
  · cases model with
    | stgnn inference =>
      obtain rfl : inference = none := without
      rfl
    | composite inference =>
      obtain rfl : inference = none := without
      by_cases reaches : (composite none).Reaches spanA spanB
      · exact starts_composite reaches
      · exact starts_of_not_reaches launch reaches
    | external scorer => cases without
    | _ => rfl
  · apply score_congr
    intro scorer uses
    rw [without] at uses
    cases uses

/-- A model delegates to the command of its scorer. -/
theorem delegatesTo_of_scorer? {label : String} {command : ScorerCommand}
    (uses : model.scorer? = some
      ⟨label, command.command, command.args, command.timeoutSeconds.map (· * 1000)⟩) :
    model.DelegatesTo label command where
  starts launch spanA spanB := starts_of_scorer? launch uses
  spares launch spanA spanB := starts_of_not_reaches launch
  asks launch launch' spanA spanB same := by
    apply score_congr
    intro scorer uses'
    obtain rfl := Option.some.inj (uses.symm.trans uses')
    exact same
  succeeds launch spanA spanB similarity := by
    rw [score_eq_ok_iff_of_scorer? uses]
    constructor
    · rintro ⟨given, inferred, makes⟩
      obtain ⟨program, number, ran, inTime, succeeds, rfl⟩ := Scorer.infer_eq_ok_iff.1 inferred
      exact ⟨program, number, ran, (Scorer.isLate_eq_false_iff rfl).1 inTime, succeeds, makes⟩
    · rintro ⟨program, number, ran, inTime, succeeds, makes⟩
      exact ⟨_, Scorer.infer_eq_ok_iff.2
        ⟨program, number, ran, (Scorer.isLate_eq_false_iff rfl).2 inTime, succeeds, rfl⟩, makes⟩
  late launch spanA spanB program limit reaches ran limited slow := by
    apply score_eq_error_of_scorer? uses reaches
    rw [Scorer.result_infer_of_late ran]
    · simp [limited]
    · simpa [Scorer.isLate, limited] using slow
  refused launch spanA spanB reason reaches refused :=
    score_eq_error_of_scorer? uses reaches (Scorer.result_infer_of_refused refused)

end Model

end SpanScore
