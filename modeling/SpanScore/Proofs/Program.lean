import SpanScore.Program
import SpanScore.Proofs.Engine
import SpanScore.Proofs.Message.Request

/-!
# Runs of the program

A run ends as its engine does: a response is all of the output, and a failure leaves the output
empty and fixes the exit code.  Without arguments the engine is the one of the placeholder, so only
the request decides.
-/

namespace SpanScore

open Json.Grammar

/-! ## Outputs that take everything -/

/-- An output that is empty and takes whatever is written. -/
structure Sink.IsFree (sink : Sink) : Prop where
  written : sink.written = []
  limit : sink.limit = none
  flushError : sink.flushError = none

theorem Sink.isFree_unlimited : Sink.unlimited.IsFree := ⟨rfl, rfl, rfl⟩

/-- Such an output takes all bytes. -/
theorem Sink.IsFree.deliver_eq {sink : Sink} (free : sink.IsFree) (bytes : List UInt8) :
    (sink.deliver bytes).1.written = bytes ∧ (sink.deliver bytes).2 = .ok () := by
  have capacity : sink.capacity bytes = bytes.length := by
    rw [Sink.capacity, free.limit]
  rw [Sink.deliver_eq, if_pos capacity, Sink.written_writeAll, capacity, free.written]
  exact ⟨by simp, Sink.flush_of_flushError_eq_none free.flushError⟩

/-- An answer is all of the output. -/
theorem Engine.run_of_isFree {engine : Engine} {source : Source} {sink : Sink} {response : Response}
    (free : sink.IsFree) (h : (engine.answer source).result = .ok response) :
    (engine.run source sink).1.result = .ok response ∧
      (engine.run source sink).2.written = response.encode := by
  rw [run_of_answer_ok engine source sink h]
  exact ⟨by rw [(free.deliver_eq response.encode).2]; rfl, (free.deliver_eq response.encode).1⟩

namespace Program

variable {host : Host} {settings : Settings} {source : Source} {sink : Sink}

/-! ## From outcomes to runs -/

theorem exitCode_conclude_of_ok {environment : Environment} {format : LogFormat} {verbose : Bool}
    {outcome : Outcome Unit} {output : List UInt8} (h : outcome.result = .ok ()) :
    (conclude environment format verbose outcome output).exitCode = 0 := by
  rw [conclude, h]

theorem exitCode_conclude_of_error {environment : Environment} {format : LogFormat} {verbose : Bool}
    {outcome : Outcome Unit} {output : List UInt8} {failure : Failure}
    (h : outcome.result = .error failure) :
    (conclude environment format verbose outcome output).exitCode = failure.exitCode := by
  rw [conclude, h]

theorem output_conclude (environment : Environment) (format : LogFormat) (verbose : Bool)
    (outcome : Outcome Unit) (output : List UInt8) :
    (conclude environment format verbose outcome output).output = output := by
  unfold conclude
  split <;> rfl

/-- An answer ends as the engine does. -/
theorem answer_of_prepare (source : Source) (sink : Sink) {engine : Engine}
    (h : (prepare host settings).result = .ok engine) :
    (answer host settings source sink).1.result =
        (engine.run source sink).1.result.map (fun _ ↦ ()) ∧
      (answer host settings source sink).2 = (engine.run source sink).2 := by
  simp only [answer, h, Outcome.andThen]
  cases (engine.run source sink).1.result <;> exact ⟨rfl, trivial⟩

/-! ## Runs without arguments -/

/-- The settings when nobody says anything. -/
def defaults : Settings :=
  ⟨.placeholder, none, false, .compact⟩

theorem run_nil (host : Host) (source : Source) (sink : Sink) :
    run host [] source sink =
      conclude host.environment .compact false (answer host defaults source sink).1
        (answer host defaults source sink).2.written := rfl

theorem prepare_defaults (host : Host) :
    (prepare host defaults).result = .ok (.ofModel host.launch .placeholder) := rfl

/-- The placeholder scores every request alike. -/
theorem result_answer_placeholder (launch : Launcher) (source : Source) :
    ((Engine.ofModel launch .placeholder).answer source).result =
      source.readAll.bind fun bytes ↦
        (Request.ofBytes bytes).map fun _ ↦ ⟨placeholderScore⟩ := by
  rw [Engine.result_answer]
  rfl

/-- A request is answered with the placeholder's score. -/
theorem run_nil_of_ok {request : Request} (readable : source.error = none) (free : sink.IsFree)
    (h : Request.ofBytes source.content = .ok request) :
    (run host [] source sink).exitCode = 0 ∧
      (run host [] source sink).output = Response.encode ⟨placeholderScore⟩ := by
  have answered : ((Engine.ofModel host.launch .placeholder).answer source).result =
      .ok ⟨placeholderScore⟩ := by
    rw [result_answer_placeholder, Source.readAll_of_error_eq_none readable, Except.bind, h]
    rfl
  obtain ⟨result, written⟩ := Engine.run_of_isFree free answered
  obtain ⟨outcome, after⟩ := answer_of_prepare source sink (prepare_defaults host)
  rw [result] at outcome
  rw [run_nil, output_conclude, after, written]
  exact ⟨exitCode_conclude_of_ok outcome, rfl⟩

/-- Whatever is no request is malformed, and nothing is written for it. -/
theorem run_nil_of_error {failure : Failure} (readable : source.error = none) (free : sink.IsFree)
    (h : Request.ofBytes source.content = .error failure) :
    (run host [] source sink).exitCode = 1 ∧ (run host [] source sink).output = [] := by
  have answered : ((Engine.ofModel host.launch .placeholder).answer source).result =
      .error failure := by
    rw [result_answer_placeholder, Source.readAll_of_error_eq_none readable, Except.bind, h]
    rfl
  have kept := Engine.run_of_answer_error _ source sink answered
  obtain ⟨outcome, after⟩ := answer_of_prepare source sink (prepare_defaults host)
  rw [kept, answered] at outcome
  obtain ⟨error, rfl⟩ := Request.exists_malformed h
  rw [run_nil, output_conclude, after, kept, free.written]
  exact ⟨exitCode_conclude_of_error outcome, rfl⟩

/-- Without arguments an object whose keys all spell strings is answered with the placeholder's
score; an object with a key that spells none is refused, and so is everything that is no object. -/
theorem run_without_arguments (host : Host) (source : Source) (sink : Sink)
    (readable : source.error = none) (free : sink.IsFree) :
    (∀ (document : Document) (entries : List (Literal × Tree)),
      source.content = document.bytes → document.tree.entries? = some entries →
        (Request.Decodable entries →
          (run host [] source sink).exitCode = 0 ∧
            (run host [] source sink).output = Utf8.encode "\x7b\"similarity\": 0.42\x7d") ∧
        (¬Request.Decodable entries →
          (run host [] source sink).exitCode = 1 ∧ (run host [] source sink).output = [])) ∧
    ((¬∃ (document : Document) (entries : List (Literal × Tree)),
        source.content = document.bytes ∧ document.tree.entries? = some entries) →
      (run host [] source sink).exitCode = 1 ∧ (run host [] source sink).output = []) := by
  refine ⟨fun document entries content isObject ↦ ⟨fun decodable ↦ ?_, fun undecodable ↦ ?_⟩,
    fun noObject ↦ ?_⟩
  · have request := Request.ofBytes_document isObject decodable
    rw [← content] at request
    exact run_nil_of_ok readable free request
  · obtain ⟨error, refused⟩ := Request.exists_error_of_document isObject undecodable
    rw [← content] at refused
    exact run_nil_of_error readable free refused
  · cases read : Request.ofBytes source.content with
    | error failure => exact run_nil_of_error readable free read
    | ok request =>
      obtain ⟨document, entries, content, isObject, -⟩ := Request.exists_document read
      exact absurd ⟨document, entries, content, isObject⟩ noObject

/-- The empty object in two chunks is answered. -/
theorem run_without_arguments_at_braces :
    let host : Host := .ofFiles [] []
    (run host [] ⟨[[123], [125]], none⟩ .unlimited).exitCode = 0 ∧
      (run host [] ⟨[[123], [125]], none⟩ .unlimited).output =
        Utf8.encode "\x7b\"similarity\": 0.42\x7d" := by
  have answered := (run_without_arguments (.ofFiles [] []) ⟨[[123], [125]], none⟩ .unlimited rfl
    Sink.isFree_unlimited).1 ⟨⟨[], by simp⟩, .emptyObject ⟨[], by simp⟩, ⟨[], by simp⟩⟩ [] rfl rfl
  exact answered.1 Request.decodable_nil

/-- An object whose only key is half of a surrogate pair is refused. -/
theorem run_refuses_lone_surrogate_in_key :
    let gap : Gap := ⟨[], by simp⟩
    let key : Key := ⟨gap, ⟨[.unicode ⟨⟨13, false⟩, ⟨8, false⟩, ⟨0, false⟩, ⟨0, false⟩⟩]⟩, gap⟩
    let one : NumberToken :=
      ⟨false, .single '1' rfl, DigitRun.isCanonical_single '1' rfl, none, none⟩
    let document : Document :=
      ⟨gap, .object (.one key ⟨[' '], by simp⟩ (.number one) gap), gap⟩
    let host : Host := .ofFiles [] []
    document.bytes = Utf8.encode "\x7b\"\\ud800\": 1\x7d" ∧
      document.tree.entries? = some [(key.literal, .number one)] ∧
        (run host [] (Source.ofBytes document.bytes) .unlimited).exitCode = 1 ∧
          (run host [] (Source.ofBytes document.bytes) .unlimited).output = [] := by
  intro gap key one document host
  have isObject : document.tree.entries? = some [(key.literal, .number one)] := rfl
  have undecodable : ¬Request.Decodable [(key.literal, Tree.number one)] := by
    rw [Request.decodable_cons]
    exact fun h ↦ absurd h.1 (by decide)
  obtain ⟨error, refused⟩ := Request.exists_error_of_document isObject undecodable
  have content : (Source.ofBytes document.bytes).content = document.bytes := by
    rw [Source.content, Source.ofBytes, List.flatten_singleton]
  rw [← content] at refused
  exact ⟨rfl, isObject, run_nil_of_error rfl Sink.isFree_unlimited refused⟩

end Program

end SpanScore
