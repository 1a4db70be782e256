import SpanScore.Message.Breakdown
import SpanScore.Settings

/-!
# Outcomes

A run of the program, or of a part of it, ends with a result or a failure and leaves a list of
events behind.  The events are what the log shows; among them are all starts of scorer programs.
-/

namespace SpanScore

/-- What happens in a run. -/
inductive Event where
  | settingsResolved (settings : Settings)
  | modelBuilt (model : String)
  | scoringStarted (model : String)
  | requestRead (size : Nat)
  /-- A scorer program is started on an input of some size. -/
  | scorerStarted (label command : String) (args : List String) (size : Nat)
  /-- A scorer program did not take its whole input. -/
  | scorerClosedInput
  | breakdownComputed (scores : Breakdown)
  | similarityComputed (model : String) (similarity : Float)
  | similarityWritten (similarity : Float)
  | failed (failure : Failure)
  | suggested (failure : Failure)

/-- A result or a failure, and what happened before. -/
structure Outcome (α : Type) where
  events : List Event
  result : Except Failure α

namespace Outcome

def ofExcept {α : Type} (result : Except Failure α) : Outcome α :=
  ⟨[], result⟩

/-- A failure without events. -/
def fail {α : Type} (failure : Failure) : Outcome α :=
  ⟨[], .error failure⟩

def note (event : Event) : Outcome Unit :=
  ⟨[event], .ok ()⟩

/-- One outcome after the other, unless the first one is a failure. -/
def andThen {α β : Type} (first : Outcome α) (next : α → Outcome β) : Outcome β :=
  match first.result with
  | .error failure => ⟨first.events, .error failure⟩
  | .ok value => ⟨first.events ++ (next value).events, (next value).result⟩

instance : Monad Outcome where
  pure value := ⟨[], .ok value⟩
  bind := andThen

end Outcome

end SpanScore
