import SpanScore.Outcome

/-!
# Results of outcomes

The result of a composed outcome depends on the results of its parts and not on their events, so
what a run returns can be followed without its log.
-/

namespace SpanScore.Outcome

variable {α β : Type}

@[simp] theorem result_pure (value : α) : (pure value : Outcome α).result = .ok value := rfl

@[simp] theorem result_ofExcept (result : Except Failure α) :
    (ofExcept result).result = result := rfl

@[simp] theorem result_fail (failure : Failure) :
    (fail failure : Outcome α).result = .error failure := rfl

@[simp] theorem result_note (event : Event) : (note event).result = .ok () := rfl

/-- A failure of the first part is the failure of the whole. -/
@[simp] theorem result_bind (first : Outcome α) (next : α → Outcome β) :
    (first >>= next).result = first.result.bind fun value ↦ (next value).result := by
  change (andThen first next).result = _
  unfold andThen
  cases first.result <;> rfl

end SpanScore.Outcome
