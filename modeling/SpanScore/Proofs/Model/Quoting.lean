import SpanScore.Proofs.Feature.Quoting
import SpanScore.Proofs.Model.Composite
import SpanScore.Proofs.Model.Symmetry

/-!
# Models and numbers in strings

A number and the string with its literal are read by two readers, and the one of numbers may round
several times.  Main statement: how far the two features are apart, and that models without a scorer
give the same score wherever they agree.
-/

namespace SpanScore.Model

open Double Decimal Json Json.Grammar

/-- Strings in the place of numbers change no outcome of a model that asks no scorer program. -/
theorem score_eq_of_quotes (launch : Launcher) {model : Model}
    (unaided : model.usesInference = false) {spanA spanA' spanB spanB' : Span}
    {left left' right right' : Json.Value} (valueA : spanA.toValue = .ok left)
    (valueA' : spanA'.toValue = .ok left') (valueB : spanB.toValue = .ok right)
    (valueB' : spanB'.toValue = .ok right') (quotes : Value.Quotes left left')
    (quotes' : Value.Quotes right right') :
    model.score launch spanA spanB = model.score launch spanA' spanB' := by
  refine score_eq_of_structural launch unaided fun score mem ↦ ?_
  rw [structural, structural, valueA, valueA', valueB, valueB']
  exact congrArg Except.ok (quotes.score_eq quotes' score mem)

/-- A literal is read as its token is. -/
theorem ofText_number_eq_ok_iff {token : NumberToken} {number : Number} :
    Value.ofText (String.ofList token.text) = .ok (.number number) ↔
      token.value? = some number := by
  have bytes : Utf8.encode (String.ofList token.text) =
      (Document.bare (.number token)).bytes := by
    rw [Document.bytes_bare, Tree.text]
  rw [Value.ofText, bytes, Value.ofBytes_document_eq_ok_iff, Document.bare, Tree.value?]
  simp

/-- A number and the string with its literal are features of one sign and at most as many doubles
apart as the number is rounded before the last time, unless an exponent of more than 31 bits makes
it zero.  They are at most one double apart where the digits fit a word and their power of ten is
small, and the same where the number is rounded at most once.  Where they are the same the string
may stand for the number anywhere in a value without another outcome of a model without a
scorer. -/
theorem features_of_literal {token : NumberToken} {number : Number}
    (read : Value.ofText (String.ofList token.text) = .ok (.number number)) :
    (∃ x y, (Value.number number).feature? = some x ∧
      (Value.string (String.ofList token.text)).feature? = some y ∧ x.isFinite = true ∧
      isSignNegative y = isSignNegative x ∧
      (token.IsShort → apart x y ≤ token.roundings ∧ token.roundings ≤ 5) ∧
      (¬token.IsShort → (x == 0) = true) ∧
      (token.mantissa < 2 ^ 64 → token.power.natAbs ≤ 22 → apart x y ≤ 1) ∧
      (token.IsExact → y = x) ∧
      (y = x → Value.Quotes (.number number) (.string (String.ofList token.text)))) ∧
    ∀ (launch : Launcher) {kind : ModelKind} {model : Model},
      ofKind kind none = .ok model →
      ∀ {spanA spanA' spanB spanB' : Span} {left left' right right' : Json.Value},
        spanA.toValue = .ok left → spanA'.toValue = .ok left' →
        spanB.toValue = .ok right → spanB'.toValue = .ok right' →
        Value.Quotes left left' → Value.Quotes right right' →
        model.score launch spanA spanB = model.score launch spanA' spanB' := by
  constructor
  · obtain ⟨x, y, isNumber, isString, finite, signs, near, lost, exact⟩ :=
      Value.exists_features (ofText_number_eq_ok_iff.1 read)
    refine ⟨x, y, isNumber, isString, finite, signs,
      fun short ↦ ⟨near (.inl short), token.roundings_le_five⟩, lost, fun fits small ↦ ?_, exact,
      fun same ↦ ?_⟩
    · have few := NumberToken.roundings_le_significandSteps fits small
      exact (near (.inr small)).trans (few.trans (Digits.significandSteps_le _))
    · refine .number (isString.trans ?_)
      rw [same]
      exact isNumber.symm
  · intro launch kind model built spanA spanA' spanB spanB' left left' right right' valueA valueA'
      valueB valueB' quotes quotes'
    exact score_eq_of_quotes launch (usesInference_of_ofKind built) valueA valueA' valueB valueB'
      quotes quotes'

/-- A metric of five, as a number and as a string. -/
theorem features_of_literal_at_metric :
    let launch : Launcher := fun _ ↦ .refused "none"
    let token := Print.natural false 5
    let span (metric : Json.Value) : Json.Value :=
      .object [("results", .object [("final_rmsd_angstrom", metric)])]
    let number := span (.number (.integer 5))
    let string := span (.string "5")
    Value.ofText (String.ofList token.text) = .ok (.number (.integer 5)) ∧
      Value.Quotes number string ∧
      (stgnn none).score launch (.ofValue number) .absent =
        (stgnn none).score launch (.ofValue string) .absent := by
  intro launch token span number string
  have read : Value.ofText (String.ofList token.text) = .ok (.number (.integer 5)) :=
    ofText_number_eq_ok_iff.2 (by decide)
  have exact : token.IsExact := .inr (.inl ⟨by decide, rfl, rfl⟩)
  obtain ⟨⟨x, y, -, -, -, -, -, -, -, same, quoted⟩, scores⟩ := features_of_literal read
  have metric : Value.Quotes (.number (.integer 5)) (.string "5") := quoted (same exact)
  have quotes : Value.Quotes number string :=
    .object rfl (.cons (.object rfl (.cons metric .nil)) .nil)
  have plain : number.IsPlainAt 0 :=
    ⟨⟨by decide, ⟨by decide, trivial, trivial⟩, trivial⟩, by decide, by decide, by decide⟩
  have plain' : string.IsPlainAt 0 :=
    ⟨⟨by decide, ⟨by decide, trivial, trivial⟩, trivial⟩, by decide, by decide, by decide⟩
  have absent : Span.absent.toValue = .ok (.object []) :=
    Span.toValue_of_holds Span.holds_absent rfl
  have built : ofKind .heuristic none = .ok (stgnn none) := rfl
  exact ⟨read, quotes, scores launch built (Span.toValue_ofValue_of_isPlainAt plain)
    (Span.toValue_ofValue_of_isPlainAt plain') absent absent quotes (.refl _)⟩

/-- The two readers do not always agree: as a number `0.22707475470333482` is the double before the
one that it is as a string. -/
theorem exists_feature?_ne :
    ¬∀ (token : NumberToken) (number : Number),
      Value.ofText (String.ofList token.text) = .ok (.number number) →
        (Value.number number).feature? =
          (Value.string (String.ofList token.text)).feature? := by
  intro same
  let fraction : DigitRun :=
    ⟨"22707475470333482".toList, by decide, List.all_eq_true.1 (by decide)⟩
  let token : NumberToken :=
    ⟨false, zeroRun, DigitRun.isCanonical_single '0' rfl, some fraction, none⟩
  have value : token.value? = some (.double 0.2270747547033348) := by decide +kernel
  have spelled : (Value.string (String.ofList token.text)).feature? =
      some 0.22707475470333482 := by
    decide +kernel
  have equal := (same token _ (ofText_number_eq_ok_iff.2 value)).trans spelled
  have different : (0.2270747547033348 : Float) ≠ 0.22707475470333482 := by decide
  exact different (Option.some.inj equal)

end SpanScore.Model
