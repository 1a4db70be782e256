import SpanScore.Proofs.Json.Print
import SpanScore.Proofs.Json.Scan
import SpanScore.Span

/-!
# Spans hold one value

A span from a text or from a value has the text of one value, without white space around it.  That
is what makes a span safe to stand in a document as it is.
-/

namespace SpanScore.Span

open Json Json.Grammar

/-- A span holds a value when its text is the text of one. -/
def Holds (span : Span) (tree : Tree) : Prop :=
  span.json = String.ofList tree.text

theorem holds_absent : Span.absent.Holds (.emptyObject .none) := rfl

/-- A text that is one value with white space around it is a span with the text of the value. -/
theorem ofText_document (document : Document) :
    Span.ofText (String.ofList document.text) = .ok ⟨some (String.ofList document.tree.text)⟩ := by
  have ends : Scan.EndsNumber document.after.text := by
    have closed := Scan.endsNumber_nil.gap_append document.after
    rwa [List.append_nil] at closed
  have read := Scan.value_text document.before document.tree ends
  have whole := readWhole_eq_ok_iff.2 ⟨document.text, document.after, rfl, read⟩
  rw [Span.ofText, whole]

/-- Only a text that is one value with white space around it is a span. -/
theorem exists_document_of_ofText {text : String} {span : Span} (h : Span.ofText text = .ok span) :
    ∃ document : Document, text = String.ofList document.text ∧ span.Holds document.tree := by
  unfold Span.ofText at h
  split at h
  · next found whole =>
    rw [Except.ok.injEq] at h
    obtain ⟨chars, after, bytes_eq, read⟩ := readWhole_eq_ok_iff.1 whole
    obtain ⟨before, tree, text_eq, rfl⟩ := Scan.exists_tree_of_value read
    refine ⟨⟨before, tree, after⟩, ?_, by rw [← h]; rfl⟩
    rw [Utf8.encode_injective bytes_eq, text_eq]
    rfl
  · simp at h

/-- A span is read as the value of what it holds. -/
theorem toValue_of_holds {span : Span} {tree : Tree} {value : Json.Value}
    (holds : span.Holds tree) (h : tree.value? 0 = some value) : span.toValue = .ok value := by
  have bytes : Utf8.encode span.json = (Document.bare tree).bytes := by
    rw [Document.bytes_bare, holds]
  rw [toValue, Json.Value.ofText, Json.Value.ofBytes_ok_iff_document.2 ⟨_, bytes, h⟩]

/-- The span of a value holds a tree, which means the value when it is plain. -/
theorem exists_holds_ofValue (value : Json.Value) : ∃ tree, (Span.ofValue value).Holds tree ∧
    (value.IsPlainAt 0 → tree.value? 0 = some value) := by
  have commas : Spacing.compact.comma = ',' :: Gap.none.text := rfl
  have colons : Spacing.compact.colon = ':' :: Gap.none.text := rfl
  obtain ⟨tree, text, means⟩ := Json.Value.exists_tree commas colons value
  exact ⟨tree, by rw [Holds, json, Span.ofValue, text]; rfl, means 0⟩

end SpanScore.Span
