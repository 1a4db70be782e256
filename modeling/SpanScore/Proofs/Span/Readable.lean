import SpanScore.Proofs.Json.Readable
import SpanScore.Proofs.Span

/-!
# Spans that have a value

A span is any text that is JSON; its value is read later, by another reader.  The texts with a value
are among the spans, and a span without wrappers lacks a value for three reasons only: it opens a
128th level, a number in it is out of range, or half of a surrogate pair stands alone in a string or
a key.
-/

namespace SpanScore.Span

open Json Json.Grammar

/-- The value of a span is that of any tree that it holds. -/
theorem toValue_eq_ok_iff_of_holds {span : Span} {tree : Tree} (holds : span.Holds tree)
    {value : Json.Value} : span.toValue = .ok value ↔ tree.value? 0 = some value := by
  refine ⟨fun h ↦ ?_, toValue_of_holds holds⟩
  have bytes : Utf8.encode span.json = (Document.bare tree).bytes := by
    rw [Document.bytes_bare, holds]
  unfold toValue at h
  split at h
  · next found read =>
    rw [← Except.ok.inj h]
    rw [Json.Value.ofText, bytes] at read
    exact Json.Value.ofBytes_document_eq_ok_iff.1 read
  · cases h

/-- A span without wrappers has a value just when all that is in it can be read. -/
theorem exists_toValue_iff_of_holds {span : Span} {tree : Tree} (holds : span.Holds tree)
    (plain : Unwrapped tree.firstKeys) :
    (∃ value, span.toValue = .ok value) ↔ tree.height ≤ 127 ∧
      (∀ number ∈ tree.numbers, number.InRange) ∧ ∀ literal ∈ tree.literals, literal.IsPaired := by
  have readable := tree.isSome_value?_iff (Nat.zero_le Read.depthLimit) plain
  rw [Readable, Nat.zero_add, Option.isSome_iff_exists] at readable
  simp only [toValue_eq_ok_iff_of_holds holds]
  exact readable

/-- A text that has a value is a span. -/
theorem exists_ofText_of_value {text : String} {value : Json.Value}
    (h : Json.Value.ofText text = .ok value) : ∃ span, Span.ofText text = .ok span := by
  obtain ⟨document, bytes_eq, -⟩ := Json.Value.ofBytes_ok_iff_document.1 h
  rw [Utf8.encode_injective bytes_eq]
  exact ⟨_, ofText_document document⟩

/-- The two readers of a text agree: what has a value is a span, and a span without wrappers has a
value unless its text opens a 128th level, has a number out of range, or has half of a surrogate
pair alone. -/
theorem ofText_agrees_with_value (text : String) :
    ((∃ value, Json.Value.ofText text = .ok value) → ∃ span, Span.ofText text = .ok span) ∧
      ∀ span, Span.ofText text = .ok span →
        (∃ document : Document, text = String.ofList document.text) ∧
          ∀ document : Document, text = String.ofList document.text →
            Unwrapped document.tree.firstKeys →
            ((∃ value, span.toValue = .ok value) ↔
              document.tree.height ≤ 127 ∧
                (∀ number ∈ document.tree.numbers, number.InRange) ∧
                ∀ literal ∈ document.tree.literals, literal.IsPaired) := by
  refine ⟨fun ⟨value, read⟩ ↦ exists_ofText_of_value read, fun span read ↦ ⟨?_, ?_⟩⟩
  · obtain ⟨document, text_eq, -⟩ := exists_document_of_ofText read
    exact ⟨document, text_eq⟩
  · rintro document rfl plain
    obtain rfl := Except.ok.inj ((ofText_document document).symm.trans read)
    exact exists_toValue_iff_of_holds rfl plain

end SpanScore.Span
