import SpanScore.Proofs.Outcome

/-!
# Kinds of failures

Failures fall into kinds: a configuration that is refused, an input that is malformed, a scorer that
gave no score, and a system that could not be used.  The kind alone decides how a run ends, so a
part of the program is described by the kinds of its failures, and these are joined where parts
follow each other.
-/

namespace SpanScore

namespace Failure

/-- A configuration, or a value in it, is refused. -/
def IsConfiguration : Failure → Prop
  | configuration _ | invalidConfiguration _ _ | invalidValue _ _ _ => True
  | _ => False

/-- An input is not JSON, or not with the wanted meaning. -/
def IsMalformed : Failure → Prop
  | malformed _ | meaningless _ => True
  | _ => False

/-- A scorer program gave no score, or none in time. -/
def IsScorer : Failure → Prop
  | scorer _ _ | timeout _ _ => True
  | _ => False

theorem exitCode_of_isConfiguration {failure : Failure} (h : failure.IsConfiguration) :
    failure.exitCode = 1 := by
  cases failure <;> first | rfl | exact h.elim

theorem exitCode_of_isMalformed {failure : Failure} (h : failure.IsMalformed) :
    failure.exitCode = 1 := by
  cases failure <;> first | rfl | exact h.elim

theorem exitCode_of_isScorer {failure : Failure} (h : failure.IsScorer) :
    failure.exitCode = 2 := by
  cases failure <;> first | rfl | exact h.elim

/-- No failure looks like a success. -/
theorem exitCode_pos (failure : Failure) : 0 < failure.exitCode := by
  rw [exitCode]
  exact Nat.lt_of_lt_of_le Nat.zero_lt_one (Nat.le_max_left 1 _)

end Failure

/-! ## The failures of a result -/

/-- Two parts succeed when both do. -/
theorem exists_of_bind_eq_ok {α β : Type} {first : Except Failure α} {next : α → Except Failure β}
    {result : β} (h : (first >>= next) = .ok result) :
    ∃ value, first = .ok value ∧ next value = .ok result := by
  cases first with
  | error failure => cases h
  | ok value => exact ⟨value, rfl, h⟩

/-- What a result holds can be compared as an option. -/
theorem eq_ok_of_toOption {ε α : Type} {result : Except ε α} {value : α}
    (found : result.toOption = some value) : result = .ok value := by
  cases result with
  | error error => cases found
  | ok other => exact congrArg Except.ok (Option.some.inj found)

theorem exists_error_of_toOption {ε α : Type} {result : Except ε α}
    (nothing : result.toOption = none) : ∃ error, result = .error error := by
  cases result with
  | error error => exact ⟨error, rfl⟩
  | ok value => cases nothing

/-- All failures of a result are of a kind. -/
def FailsAs {α : Type} (kind : Failure → Prop) (result : Except Failure α) : Prop :=
  ∀ failure, result = .error failure → kind failure

namespace FailsAs

variable {α β : Type} {kind other : Failure → Prop}

@[simp] theorem ok (value : α) : FailsAs kind (.ok value) := by
  intro failure h
  cases h

@[simp] theorem error_iff {failure : Failure} :
    FailsAs kind (.error failure : Except Failure α) ↔ kind failure := by
  constructor
  · intro h
    exact h failure rfl
  · intro h found found_eq
    cases found_eq
    exact h

/-- The failures of two parts are the failures of the parts. -/
theorem bind {first : Except Failure α} {next : α → Except Failure β} (h : FailsAs kind first)
    (h' : ∀ value, first = .ok value → FailsAs kind (next value)) :
    FailsAs kind (first >>= next) := by
  cases first with
  | error failure => exact error_iff.2 (error_iff.1 h)
  | ok value => exact h' value rfl

theorem mono {result : Except Failure α} (h : FailsAs kind result)
    (imp : ∀ failure, kind failure → other failure) : FailsAs other result := by
  intro failure failed
  exact imp failure (h failure failed)

end FailsAs

end SpanScore
