import SpanScore.Proofs.Message.Request
import SpanScore.Proofs.Span

/-!
# Requests that are sent on

A request is written with the texts of its spans as they are.  However its spans were made, they
hold one value each, so the request is read back as it was.
-/

namespace SpanScore

open Json Json.Grammar

namespace Span

/-- The ways in which a span is made. -/
inductive Made : Span → Prop where
  | absent : Made .absent
  | ofText {text : String} {span : Span} (read : Span.ofText text = .ok span) : Made span
  | ofValue (value : Json.Value) : Made (.ofValue value)
  | spanA {bytes : List UInt8} {request : Request} (read : Request.ofBytes bytes = .ok request) :
    Made request.spanA
  | spanB {bytes : List UInt8} {request : Request} (read : Request.ofBytes bytes = .ok request) :
    Made request.spanB

theorem holds_spanOf (tree : Tree) : (Request.spanOf tree).Holds tree := rfl

theorem exists_holds_lastNamed (name : String) (entries : List (Literal × Tree)) :
    ∃ tree, (Request.lastNamed name entries).Holds tree := by
  unfold Request.lastNamed
  split
  · exact ⟨_, holds_spanOf _⟩
  · exact ⟨_, holds_absent⟩

/-- However a span is made, it holds a value. -/
theorem Made.exists_holds {span : Span} (made : span.Made) : ∃ tree, span.Holds tree := by
  cases made with
  | absent => exact ⟨_, holds_absent⟩
  | ofText read =>
    obtain ⟨document, -, holds⟩ := exists_document_of_ofText read
    exact ⟨document.tree, holds⟩
  | ofValue value => exact (exists_holds_ofValue value).imp fun _ ↦ And.left
  | spanA read =>
    obtain ⟨-, entries, -, -, -, rfl⟩ := Request.exists_document read
    exact exists_holds_lastNamed "span_a" entries
  | spanB read =>
    obtain ⟨-, entries, -, -, -, rfl⟩ := Request.exists_document read
    exact exists_holds_lastNamed "span_b" entries

end Span

namespace Request

/-- The document that a request with two values is written as. -/
def documentOf (keyA keyB : Literal) (treeA treeB : Tree) : Document :=
  ⟨.none, .object (.more ⟨.none, keyA, .none⟩ .space treeA .none
    (.one ⟨.space, keyB, .none⟩ .space treeB .none)), .none⟩

theorem encode_eq_bytes {request : Request} {keyA keyB : Literal} {treeA treeB : Tree}
    (nameA : Print.string "span_a" = '"' :: keyA.body)
    (nameB : Print.string "span_b" = '"' :: keyB.body) (holdsA : request.spanA.Holds treeA)
    (holdsB : request.spanB.Holds treeB) :
    request.encode = (documentOf keyA keyB treeA treeB).bytes := by
  rw [encode, print, holdsA, holdsB]
  simp [Document.bytes, Document.text, documentOf, Tree.text, Grammar.Members.text, Key.text,
    Print.object, Print.separated, Print.member, Spacing.spaced, nameA, nameB]

theorem ofEntries_pair {keyA keyB : Literal} (nameA : keyA.decode? = some "span_a")
    (nameB : keyB.decode? = some "span_b") (treeA treeB : Tree) :
    ofEntries [(keyA, treeA), (keyB, treeB)] = ⟨spanOf treeA, spanOf treeB⟩ := by
  simp [ofEntries, lastNamed, nameA, nameB]

/-- A request is read back as it was written, and written again as it was before. -/
theorem ofBytes_encode (request : Request) (madeA : request.spanA.Made)
    (madeB : request.spanB.Made) :
    ∃ decoded, ofBytes request.encode = .ok decoded ∧ (decoded == request) = true ∧
      decoded.encode = request.encode := by
  obtain ⟨treeA, holdsA⟩ := madeA.exists_holds
  obtain ⟨treeB, holdsB⟩ := madeB.exists_holds
  obtain ⟨keyA, textA, nameA⟩ := Print.exists_literal "span_a"
  obtain ⟨keyB, textB, nameB⟩ := Print.exists_literal "span_b"
  have decodable : Decodable [(keyA, treeA), (keyB, treeB)] := by
    simp [nameA, nameB]
  have isObject : (documentOf keyA keyB treeA treeB).tree.entries? =
      some [(keyA, treeA), (keyB, treeB)] := rfl
  have read := ofBytes_document isObject decodable
  rw [ofEntries_pair nameA nameB, ← encode_eq_bytes textA textB holdsA holdsB] at read
  refine ⟨⟨spanOf treeA, spanOf treeB⟩, read, ?_, ?_⟩
  · change ((spanOf treeA).json == request.spanA.json &&
      (spanOf treeB).json == request.spanB.json) = true
    rw [holdsA, holdsB, Span.holds_spanOf, Span.holds_spanOf, BEq.rfl, BEq.rfl]
    rfl
  · rw [encode_eq_bytes textA textB holdsA holdsB]
    exact encode_eq_bytes textA textB (Span.holds_spanOf treeA) (Span.holds_spanOf treeB)

/-- A span that was read with white space around it and one that was built are read back. -/
theorem ofBytes_encode_at_bool :
    let blank : Gap := ⟨[' '], by simp⟩
    let document : Document := ⟨blank, .array (.one blank .null blank), blank⟩
    let spanA : Span := ⟨some "[ null ]"⟩
    let spanB : Span := .ofValue (.bool true)
    Span.ofText (String.ofList document.text) = .ok spanA ∧
      ∃ decoded, ofBytes (encode ⟨spanA, spanB⟩) = .ok decoded ∧
        (decoded == ⟨spanA, spanB⟩) = true ∧ decoded.encode = encode ⟨spanA, spanB⟩ := by
  intro blank document spanA spanB
  have read : Span.ofText (String.ofList document.text) = .ok spanA :=
    Span.ofText_document document
  exact ⟨read, ofBytes_encode ⟨spanA, spanB⟩ (.ofText read) (.ofValue _)⟩

end Request

end SpanScore
