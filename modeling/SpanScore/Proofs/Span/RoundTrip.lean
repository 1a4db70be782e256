import SpanScore.Proofs.Json.Spread
import SpanScore.Proofs.Span

/-!
# Values come back from their texts

A value with integers of 64 bits and at most 127 nested arrays and objects, none of which is written
as a wrapper, is what its text is read as, whether the text has blanks between its tokens or not.
The blanks never matter: they stand behind commas and colons outside of strings and nowhere else, so
the two texts of any value are read alike.
-/

namespace SpanScore.Span

open Json Json.Grammar

/-- A text without white space around it is a span as it is. -/
theorem ofText_of_holds {text : String} {tree : Tree} (holds : Span.Holds ⟨some text⟩ tree) :
    Span.ofText text = .ok ⟨some text⟩ := by
  obtain rfl : text = String.ofList tree.text := holds
  have bare := ofText_document (.bare tree)
  rw [Document.text_bare] at bare
  exact bare

theorem toValue_ofValue_of_isPlainAt {value : Json.Value} (plain : value.IsPlainAt 0) :
    (Span.ofValue value).toValue = .ok value := by
  obtain ⟨tree, holds, means⟩ := exists_holds_ofValue value
  exact toValue_of_holds holds (means plain)

/-- The span of a value is what its own text is read as, it has the value, and the value is also
read from its text with blanks. -/
theorem ofValue_comes_back (ordered : OrderedValue) (shallow : ordered.value.height ≤ 127)
    (words : ∀ number ∈ ordered.value.numbers, number.IsWord)
    (unwrapped : Read.wrapperKey ∉ ordered.value.firstKeys) :
    Span.ofText (Span.ofValue ordered.value).json = .ok (Span.ofValue ordered.value) ∧
      (Span.ofValue ordered.value).toValue = .ok ordered.value ∧
      Json.Value.ofBytes (Utf8.encode (String.ofList (ordered.value.print .spaced))) =
        .ok ordered.value := by
  obtain ⟨value, increasing⟩ := ordered
  have plain : value.IsPlainAt 0 := ⟨increasing, words, by rwa [Nat.zero_add], unwrapped⟩
  refine ⟨?_, toValue_ofValue_of_isPlainAt plain, ?_⟩
  · obtain ⟨tree, holds, -⟩ := exists_holds_ofValue value
    exact ofText_of_holds holds
  · have commas : Spacing.spaced.comma = ',' :: Gap.space.text := rfl
    have colons : Spacing.spaced.colon = ':' :: Gap.space.text := rfl
    obtain ⟨tree, text, means⟩ := Json.Value.exists_tree commas colons value
    exact Json.Value.ofBytes_ok_iff_document.2
      ⟨.bare tree, by rw [Document.bytes_bare, text], means 0 plain⟩

/-- A value with the outermost integers, with an empty key, and with keys and strings that need
escapes. -/
def outermost : OrderedValue where
  value := .object
    [("", .array [.number (.integer (-2 ^ 63)), .number (.integer (2 ^ 64 - 1)), .object []]),
      ("\"\\\n\x01", .string "\x7f\t/"),
      ("é😀", .object [("null", .null), ("true", .array [])])]
  ordered := ⟨by decide, ⟨trivial, trivial, ⟨by decide, trivial⟩, trivial⟩, trivial,
    ⟨by decide, trivial, trivial, trivial⟩, trivial⟩

theorem ofValue_comes_back_at_outermost :
    outermost.value.height = 3 ∧ (∀ number ∈ outermost.value.numbers, number.IsWord) ∧
      Read.wrapperKey ∉ outermost.value.firstKeys ∧
      Span.ofText (Span.ofValue outermost.value).json = .ok (Span.ofValue outermost.value) ∧
      (Span.ofValue outermost.value).toValue = .ok outermost.value ∧
      Json.Value.ofBytes (Utf8.encode (String.ofList (outermost.value.print .spaced))) =
        .ok outermost.value := by
  have words : ∀ number ∈ outermost.value.numbers, number.IsWord := by decide
  have unwrapped : Read.wrapperKey ∉ outermost.value.firstKeys := by decide
  exact ⟨rfl, words, unwrapped, ofValue_comes_back outermost (by decide) words unwrapped⟩

/-- The text of a value with blanks is the text of its span with a space behind each comma and each
colon outside of strings, and the two texts have the same value, or neither has one. -/
theorem print_spaced_eq_spread (value : Json.Value) :
    value.print .spaced = Spread.spread (Span.ofValue value).json.toList ∧
      ∀ found, Json.Value.ofText (String.ofList (value.print .spaced)) = .ok found ↔
        Json.Value.ofText (Span.ofValue value).json = .ok found := by
  obtain ⟨tree, holds, -⟩ := exists_holds_ofValue value
  have json : (Span.ofValue value).json = String.ofList (value.print .compact) := rfl
  have compact : value.print .compact = tree.text := String.ofList_inj.1 (json.symm.trans holds)
  have spaced := (Spread.spreadsTo_print value).eq
  rw [json, String.toList_ofList, ← spaced, compact]
  exact ⟨rfl, fun found ↦ Json.Value.ofText_spread tree found⟩

/-- Only commas and colons outside of strings get a space. -/
example : Spread.spread "[\x7b\",:\\\"\":[],\"k\":1\x7d]".toList =
    "[\x7b\",:\\\"\": [], \"k\": 1\x7d]".toList := by decide

end SpanScore.Span
