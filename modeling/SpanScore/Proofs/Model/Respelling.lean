import SpanScore.Proofs.Json.Respelling
import SpanScore.Proofs.Model.Composite
import SpanScore.Proofs.Model.Symmetry
import SpanScore.Proofs.Span.Readable

/-!
# Models and the spelling of spans

A model that asks no scorer program sees nothing of a span but its value.  Main statement: two texts
without wrappers that differ only in white space, in escapes and in the order of members with
different keys are spans with one value, and no such model tells them apart.
-/

namespace SpanScore.Model

open Json.Grammar

/-- Without a scorer program two pairs of spans with the same values have the same outcome. -/
theorem score_eq_of_toValue (launch : Launcher) {model : Model} {spanA spanA' spanB spanB' : Span}
    (valueA : spanA.toValue = spanA'.toValue) (valueB : spanB.toValue = spanB'.toValue)
    (unaided : model.usesInference = false) :
    model.score launch spanA spanB = model.score launch spanA' spanB' :=
  score_eq_of_structural launch unaided fun score _ ↦ by
    rw [structural, structural, valueA, valueB]

/-- Two texts without wrappers that differ only in white space, escapes and the order of members
with different keys are spans with the same value, and whichever stands on either side of another
span, a model without a scorer has the same outcome. -/
theorem score_eq_of_alike (launch : Launcher) {kind : ModelKind} {model : Model}
    (built : ofKind kind none = .ok model) {left right : Document}
    (alike : left.tree.Alike right.tree) (plain : Unwrapped left.tree.firstKeys)
    (plain' : Unwrapped right.tree.firstKeys) {spanA spanB : Span}
    (readA : Span.ofText (String.ofList left.text) = .ok spanA)
    (readB : Span.ofText (String.ofList right.text) = .ok spanB) {value : Json.Value}
    (means : spanA.toValue = .ok value) :
    spanB.toValue = .ok value ∧ ∀ other,
      model.score launch spanA other = model.score launch spanB other ∧
        model.score launch other spanA = model.score launch other spanB := by
  have holdsA : spanA.Holds left.tree := by
    rw [← Except.ok.inj ((Span.ofText_document left).symm.trans readA)]
    rfl
  have holdsB : spanB.Holds right.tree := by
    rw [← Except.ok.inj ((Span.ofText_document right).symm.trans readB)]
    rfl
  have means' : spanB.toValue = .ok value := by
    rw [Span.toValue_eq_ok_iff_of_holds holdsA, alike.value?_eq plain plain'] at means
    exact Span.toValue_of_holds holdsB means
  have same : spanA.toValue = spanB.toValue := means.trans means'.symm
  have unaided := usesInference_of_ofKind built
  exact ⟨means', fun other ↦ ⟨score_eq_of_toValue launch same rfl unaided,
    score_eq_of_toValue launch rfl same unaided⟩⟩

/-- An object in two spellings: with two members in either order, with and without white space, and
with a key as it is and as an escape. -/
theorem score_eq_of_alike_at_object :
    let launch : Launcher := fun _ ↦ .refused "none"
    let one : NumberToken := Json.Print.natural false 1
    let char (letter : Char) (allowed : ' ' ≤ letter ∧ letter ≠ '"' ∧ letter ≠ '\\') : Literal :=
      ⟨[.plain letter allowed]⟩
    let escaped : Literal := ⟨[.unicode ⟨⟨0, false⟩, ⟨0, false⟩, ⟨6, false⟩, ⟨1, false⟩⟩]⟩
    let left : Document := ⟨.none, .object
      (.more ⟨.none, char 'b' (by decide), .none⟩ .none (.array (.one .none (.number one) .none))
        .none (.one ⟨.none, char 'a' (by decide), .none⟩ .none .null .none)), .none⟩
    let right : Document := ⟨.space, .object
      (.more ⟨.space, escaped, .space⟩ .none .null .space
        (.one ⟨.none, char 'b' (by decide), .none⟩ .space
          (.array (.one .space (.number one) .space)) .none)), .none⟩
    let value : Json.Value := .object [("a", .null), ("b", .array [.number (.integer 1)])]
    String.ofList left.text = "\x7b\"b\":[1],\"a\":null\x7d" ∧
      String.ofList right.text = " \x7b \"\\u0061\" :null ,\"b\": [ 1 ]\x7d" ∧
      Unwrapped left.tree.firstKeys ∧ Unwrapped right.tree.firstKeys ∧
      ∃ spanA spanB, spanA.toValue = .ok value ∧ spanB.toValue = .ok value ∧
        mapper.score launch spanA spanB = mapper.score launch spanB spanB := by
  intro launch one char escaped left right value
  have built : ofKind .mapper none = .ok mapper := rfl
  have order : Rearranged [(char 'b' (by decide), .array (.one .none (.number one) .none)),
      (char 'a' (by decide), .null)] [(char 'a' (by decide), .null),
        (char 'b' (by decide), .array (.one .none (.number one) .none))] :=
    rearranged_of_pairwise (.swap _ _ []) (by simp [char]; decide)
  have alike : left.tree.Alike right.tree :=
    .object order (.cons rfl .null (.cons rfl (.array (.one _ _ _ _ (.number one))) .nil))
  have readA := Span.ofText_document left
  have readB := Span.ofText_document right
  have means : Span.toValue ⟨some (String.ofList left.tree.text)⟩ = .ok value :=
    Span.toValue_of_holds rfl rfl
  have plain : Unwrapped left.tree.firstKeys := List.forall_mem_singleton.2 (by decide)
  have plain' : Unwrapped right.tree.firstKeys := List.forall_mem_singleton.2 (by decide)
  obtain ⟨means', scores⟩ := score_eq_of_alike launch built alike plain plain' readA readB means
  exact ⟨by decide, by decide, plain, plain', _, _, means, means', (scores _).1⟩

end SpanScore.Model
