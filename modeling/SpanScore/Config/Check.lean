import SpanScore.Failure
import SpanScore.Text.Blank

/-!
# Checks of configured values

Each check names the field it is about when it fails.
-/

namespace SpanScore.Check

/-- A number must not be below a least one. -/
def atLeast (field : String) (value least : Nat) : Except Failure Unit :=
  if value < least then
    .error (.invalidValue field (toString value) s!"Value must be at least {least}")
  else .ok ()

def required {α : Type} (field : String) (value : Option α) : Except Failure α :=
  match value with
  | some value => .ok value
  | none => .error (.invalidConfiguration field "Required value is missing")

/-- A text must hold more than white space. -/
def notBlank (field value : String) : Except Failure Unit :=
  if value.toList.all Blank.isBlank then
    .error (.invalidValue field value "Value cannot be empty or whitespace-only")
  else .ok ()

def oneOf (field value : String) (allowed : List String) : Except Failure Unit :=
  if allowed.contains value then .ok ()
  else
    let listed := ", ".intercalate allowed
    .error (.invalidValue field value s!"Allowed values: {listed}")

end SpanScore.Check
