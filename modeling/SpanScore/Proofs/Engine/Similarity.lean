import SpanScore.Proofs.Message.RoundTrip
import SpanScore.Proofs.Model.Score
import SpanScore.Proofs.Program
import SpanScore.Proofs.Scorer.Delegation

/-!
# Answered similarities

A run that succeeds has written a similarity between zero and one that other programs can read,
unless its model is undefined for the two spans; then it has written `null`, which they refuse.
-/

namespace SpanScore

open Double
open Json.Grammar

namespace Response

/-- A similarity that is no number is written as `null`. -/
theorem encode_of_isNaN {similarity : Float} (not : similarity.isNaN = true) :
    encode ⟨similarity⟩ = Utf8.encode "\x7b\"similarity\": null\x7d" := by
  have infinite : similarity.isFinite = false := by
    rw [Bool.eq_false_iff, Ne, isFinite_iff, not]
    simp
  rw [encode, print, Json.Print.double, infinite]
  rfl

/-- A similarity between zero and one can be read. -/
theorem exists_similarityOf_of_mem {similarity : Float} (low : 0 ≤ similarity)
    (high : similarity ≤ 1) : ∃ found, similarityOf (encode ⟨similarity⟩) = .ok found := by
  obtain ⟨sign, place, finite, rfl⟩ := exists_signed_of_isFinite (isFinite_of_unit low high)
  obtain ⟨found, -, read, -⟩ := exists_found sign finite
  exact ⟨_, read⟩

end Response

namespace Engine

variable (engine : Engine) {source : Source} {sink : Sink} {response : Response}

/-- An answer is the score of a request that was read to its end. -/
theorem exists_request_of_answer (h : (engine.answer source).result = .ok response) :
    ∃ request, Request.ofBytes source.content = .ok request ∧
      (engine.score request.spanA request.spanB).result = .ok response.similarity := by
  rw [result_answer] at h
  cases ended : source.error with
  | some message =>
    rw [Source.readAll_of_error_eq_some ended] at h
    cases h
  | none =>
    rw [Source.readAll_of_error_eq_none ended, Except.bind] at h
    cases parsed : Request.ofBytes source.content with
    | error failure =>
      rw [parsed] at h
      cases h
    | ok request =>
      rw [parsed, Except.bind] at h
      refine ⟨request, rfl, ?_⟩
      cases scored : (engine.score request.spanA request.spanB).result with
      | error failure =>
        rw [scored] at h
        cases h
      | ok similarity =>
        rw [scored] at h
        rw [← Except.ok.inj h]

/-- A run that succeeds has written all of its answer. -/
theorem written_of_run (h : (engine.run source sink).1.result = .ok response) :
    (engine.answer source).result = .ok response ∧
      (engine.run source sink).2.written = sink.written ++ response.encode := by
  cases answered : (engine.answer source).result with
  | error failure =>
    rw [run_of_answer_error engine source sink answered, answered] at h
    cases h
  | ok answer =>
    rw [run_of_answer_ok engine source sink answered, Sink.deliver_eq] at h ⊢
    by_cases fits : sink.capacity answer.encode = answer.encode.length
    · rw [if_pos fits] at h
      obtain rfl : answer = response := by
        cases flushed : sink.flush with
        | error failure => simp [flushed, Except.map] at h
        | ok _ => simpa [flushed, Except.map] using h
      exact ⟨rfl, by rw [Sink.written_writeAll, fits, List.take_length]⟩
    · rw [if_neg fits] at h
      cases h

end Engine

/-! ## A profile that overflows -/

/-- A request with two texts is read as these texts. -/
theorem Request.ofBytes_encode_of_holds {request : Request} {treeA treeB : Tree}
    (holdsA : request.spanA.Holds treeA) (holdsB : request.spanB.Holds treeB) :
    ofBytes request.encode = .ok ⟨spanOf treeA, spanOf treeB⟩ := by
  obtain ⟨keyA, spelledA, decodedA⟩ := Json.Print.exists_literal "span_a"
  obtain ⟨keyB, spelledB, decodedB⟩ := Json.Print.exists_literal "span_b"
  have isObject : (documentOf keyA keyB treeA treeB).tree.entries? =
      some [(keyA, treeA), (keyB, treeB)] := rfl
  rw [encode_eq_bytes spelledA spelledB holdsA holdsB,
    ofBytes_document isObject (by simp [decodedA, decodedB]), ofEntries_pair decodedA decodedB]

namespace Engine

/-- The value of a span with a profile of two great numbers. -/
def overflowing : Json.Value :=
  .object [("mapper", .object [("nodes",
    .array [.number (.double 1e308), .number (.double 1e308)])])]

def overflowingSpan : Span :=
  ⟨some "\x7b\"mapper\": \x7b\"nodes\": [1e308, 1e308]\x7d\x7d"⟩

theorem exists_holds_overflowing :
    ∃ tree, overflowingSpan.Holds tree ∧ tree.value? 0 = some overflowing := by
  obtain ⟨mapper, spelledMapper, decodedMapper⟩ := Json.Print.exists_literal "mapper"
  obtain ⟨nodes, spelledNodes, decodedNodes⟩ := Json.Print.exists_literal "nodes"
  let token : NumberToken :=
    ⟨false, .single '1' rfl, DigitRun.isCanonical_single '1' rfl, none,
      some ⟨false, none, ⟨"308".toList, by decide, List.all_eq_true.1 (by decide)⟩⟩⟩
  let gap : Gap := ⟨[], by simp⟩
  let items : Items := .more gap (.number token) gap (.one ⟨[' '], by simp⟩ (.number token) gap)
  have token_eq : token.value? = some (.double 1e308) := by decide +kernel
  have items_eq : Tree.value? 2 (.array items) =
      some (.array [.number (.double 1e308), .number (.double 1e308)]) := by
    rw [Tree.value?, if_neg (by decide)]
    simp only [items, Items.values?, Tree.value?, token_eq]
    rfl
  refine ⟨.single mapper (.single nodes (.array items)), ?_, ?_⟩
  · rw [Span.Holds, Tree.text_single spelledMapper, Tree.text_single spelledNodes]
    decide
  · rw [Tree.value?_single decodedMapper (by decide) _ (by decide),
      Tree.value?_single decodedNodes (by decide) _ (by decide), items_eq]
    rfl

/-- The sum of such a profile is infinite. -/
theorem undefined_overflowing : Mapper.Undefined overflowing overflowing := by
  have profile : Mapper.profile overflowing = [1e308, 1e308] := rfl
  have overflows : Distribution.Overflows [1e308, 1e308] := by
    unfold Distribution.Overflows
    decide +kernel
  rw [Mapper.Undefined, profile]
  exact ⟨List.cons_ne_nil _ _, List.cons_ne_nil _ _, .inl overflows⟩

/-- The Mapper score of two such spans is no number. -/
theorem exists_answer_overflowing (launch : Launcher) :
    ∃ response : Response, response.similarity.isNaN = true ∧
      ((ofModel launch .mapper).answer
        (.ofBytes (Request.encode ⟨overflowingSpan, overflowingSpan⟩))).result = .ok response := by
  obtain ⟨tree, holds, tree_eq⟩ := exists_holds_overflowing
  have value := Span.toValue_of_holds holds tree_eq
  have read : Request.ofBytes (Request.encode ⟨overflowingSpan, overflowingSpan⟩) =
      .ok ⟨overflowingSpan, overflowingSpan⟩ := by
    have spans : Request.spanOf tree = overflowingSpan := by
      rw [Request.spanOf, ← holds]
      rfl
    rw [Request.ofBytes_encode_of_holds holds holds, spans]
  have isNaN := (Mapper.isNaN_score_iff overflowing overflowing).2 undefined_overflowing
  generalize scored_eq : Mapper.score overflowing overflowing = similarity at isNaN
  refine ⟨⟨similarity⟩, isNaN, ?_⟩
  have content : Source.readAll (.ofBytes (Request.encode ⟨overflowingSpan, overflowingSpan⟩)) =
      .ok (Request.encode ⟨overflowingSpan, overflowingSpan⟩) := by
    rw [Source.readAll_of_error_eq_none rfl, Source.ofBytes, Source.content, List.flatten_singleton]
  have scored : (Model.score launch .mapper overflowingSpan overflowingSpan).result =
      .ok similarity :=
    Model.structural_eq_ok_iff.2 ⟨_, _, value, value, scored_eq.symm⟩
  rw [result_answer, content, Except.bind, read, Except.bind]
  change (Model.score launch .mapper overflowingSpan overflowingSpan).result.map Response.mk = _
  rw [scored]
  rfl

/-! ## All answers -/

variable (launch : Launcher) {model : Model}

/-- What a model answers. -/
theorem similarity_of_run
    (answered : ((ofModel launch model).run source sink).1.result = .ok response) :
    ∃ request, Request.ofBytes source.content = .ok request ∧
      ((ofModel launch model).run source sink).2.written = sink.written ++ response.encode ∧
      (response.similarity.isNaN = true ↔ model.Undefined request.spanA request.spanB) ∧
      (response.similarity.isNaN = false →
        0 ≤ response.similarity ∧ response.similarity ≤ 1 ∧
          ∃ found, Response.similarityOf response.encode = .ok found) ∧
      (response.similarity.isNaN = true →
        response.encode = Utf8.encode "\x7b\"similarity\": null\x7d" ∧
          Response.similarityOf response.encode =
            .error (.meaningless "response missing numeric 'similarity'")) := by
  obtain ⟨answer, written⟩ := written_of_run _ answered
  obtain ⟨request, read, scored⟩ := exists_request_of_answer _ answer
  obtain ⟨share, isNaN_iff⟩ := Model.score_of_ok launch scored
  refine ⟨request, read, written, isNaN_iff, fun number ↦ ?_, fun not ↦ ?_⟩
  · obtain ⟨low, high⟩ := share number
    exact ⟨low, high, Response.exists_similarityOf_of_mem low high⟩
  · have null := Response.encode_of_isNaN not
    exact ⟨null, null ▸ Response.similarityOf_null⟩

/-- What two spans are answered whose profiles overflow. -/
theorem similarity_of_run_at_overflow :
    let source : Source := .ofBytes (Request.encode ⟨overflowingSpan, overflowingSpan⟩)
    let sink : Sink := .unlimited
    let launch : Launcher := fun _ ↦ .refused "none"
    ∃ response, ((ofModel launch .mapper).run source sink).1.result = .ok response ∧
      response.similarity.isNaN = true ∧
      ((ofModel launch .mapper).run source sink).2.written =
        Utf8.encode "\x7b\"similarity\": null\x7d" ∧
      ∃ request, Request.ofBytes source.content = .ok request ∧
        Model.mapper.Undefined request.spanA request.spanB := by
  intro source sink launch
  obtain ⟨response, not, answer⟩ := exists_answer_overflowing launch
  have answered : ((ofModel launch .mapper).run source sink).1.result = .ok response :=
    (run_of_isFree Sink.isFree_unlimited answer).1
  obtain ⟨request, read, written, isNaN_iff, -, null⟩ := similarity_of_run launch answered
  rw [(null not).1] at written
  exact ⟨response, answered, not, written, request, read, isNaN_iff.1 not⟩

/-- Not every similarity that is answered without a scorer lies between zero and one. -/
theorem exists_similarity_of_run_beyond :
    ¬∀ (kind : ModelKind) (model : Model) (launch : Launcher) (source : Source) (sink : Sink)
      (response : Response), Model.ofKind kind none = .ok model →
      ((ofModel launch model).run source sink).1.result = .ok response →
      0 ≤ response.similarity ∧ response.similarity ≤ 1 ∧
        ∃ found, Response.similarityOf response.encode = .ok found := by
  intro bounded
  obtain ⟨response, not, answer⟩ := exists_answer_overflowing fun _ ↦ .refused "none"
  obtain ⟨low, -⟩ := bounded .mapper .mapper _ _ _ response rfl
    (run_of_isFree Sink.isFree_unlimited answer).1
  rw [(isNaN_eq_false_of_le low).2] at not
  cases not

end Engine

end SpanScore
