import SpanScore.Proofs.Config.Load
import SpanScore.Proofs.Model.Failure
import SpanScore.Proofs.Program

/-!
# How runs end

A run loads settings, builds a model, reads a request and scores it, in this order.  The first of
these that fails decides the exit code and leaves the output empty; when none fails the output is
the encoded response and the exit code is zero.
-/

namespace SpanScore

open Failure (IsConfiguration IsMalformed IsScorer IsOfScoring)

/-- Bytes that are no request are malformed. -/
theorem Request.failsAs_ofBytes (bytes : List UInt8) :
    FailsAs IsMalformed (Request.ofBytes bytes) := by
  intro failure failed
  obtain ⟨error, rfl⟩ := exists_malformed failed
  trivial

/-- The last byte of a response is its closing brace. -/
theorem Response.getLast?_encode (response : Response) : response.encode.getLast? = some 125 := by
  rw [encode, print, Json.Print.object, ← List.cons_append, Utf8.encode_ofList,
    List.utf8Encode_append, ByteArray.data_append, Array.toList_append]
  exact List.getLast?_concat

namespace Program

variable {host : Host} {line : CommandLine} {settings : Settings} {source : Source} {sink : Sink}

/-! ## The stages of a run -/

/-- What follows on settings: a model is built, the request is read, and it is scored. -/
def scoring (host : Host) (settings : Settings) (bytes : List UInt8) : Except Failure Float := do
  let model ← settings.build.result
  let request ← Request.ofBytes bytes
  (model.score host.launch request.spanA request.spanB).result

/-- The stages of a run on an input, one after the other. -/
def stages (host : Host) (line : CommandLine) (bytes : List UInt8) : Except Failure Float := do
  let settings ← line.load host
  scoring host settings bytes

theorem stages_of_load (bytes : List UInt8) (loaded : line.load host = .ok settings) :
    stages host line bytes = scoring host settings bytes := by
  rw [stages, loaded]
  rfl

theorem stages_of_load_error {failure : Failure} (bytes : List UInt8)
    (refused : line.load host = .error failure) : stages host line bytes = .error failure := by
  rw [stages, refused]
  rfl

/-- Behind loaded settings only the request and its scoring can fail. -/
theorem failsAs_scoring (bytes : List UInt8) (loaded : line.load host = .ok settings) :
    FailsAs IsOfScoring (scoring host settings bytes) := by
  obtain ⟨model, built⟩ := CommandLine.exists_build_of_load loaded
  refine FailsAs.bind ?_ fun model _ ↦ FailsAs.bind ?_ fun request _ ↦ ?_
  · rw [built]
    exact FailsAs.ok model
  · exact (Request.failsAs_ofBytes bytes).mono fun _ ↦ Or.inl
  · exact model.failsAs_score host.launch request.spanA request.spanB

/-- A failure of a stage ends a run with one or two. -/
theorem failsAs_stages (host : Host) (line : CommandLine) (bytes : List UInt8) :
    FailsAs (fun failure ↦ failure.IsConfiguration ∨ failure.IsOfScoring)
      (stages host line bytes) := by
  refine FailsAs.bind ((line.failsAs_load host).mono fun _ ↦ Or.inl) fun settings loaded ↦ ?_
  exact (failsAs_scoring bytes loaded).mono fun _ ↦ Or.inr

/-! ## From stages to runs -/

/-- An engine can be prepared when the model can be built. -/
theorem result_prepare (host : Host) (settings : Settings) :
    (prepare host settings).result = settings.build.result.map (Engine.ofModel host.launch) := by
  simp only [prepare, Outcome.result_bind, Outcome.result_note, Outcome.result_pure]
  cases settings.build.result <;> rfl

/-- The engine of a model answers with the score that the stages end in. -/
theorem result_answer_of_build {model : Model} (readable : source.error = none)
    (built : settings.build.result = .ok model) :
    ((Engine.ofModel host.launch model).answer source).result =
      (scoring host settings source.content).map Response.mk := by
  rw [Engine.result_answer, Source.readAll_of_error_eq_none readable, scoring, built]
  cases parsed : Request.ofBytes source.content with
  | error failure => simp only [parsed, Bind.bind, Except.bind, Except.map]
  | ok request => simp only [parsed, Bind.bind, Except.bind, Engine.ofModel]

/-- A score is all of the output. -/
theorem answer_of_scoring_ok {similarity : Float} (readable : source.error = none)
    (free : sink.IsFree) (scored : scoring host settings source.content = .ok similarity) :
    (answer host settings source sink).1.result = .ok () ∧
      (answer host settings source sink).2.written = Response.encode ⟨similarity⟩ := by
  obtain ⟨model, built, -⟩ := exists_of_bind_eq_ok scored
  have prepared : (prepare host settings).result = .ok (.ofModel host.launch model) := by
    rw [result_prepare, built, Except.map]
  have answered := @result_answer_of_build host _ _ _ readable built
  rw [scored] at answered
  obtain ⟨result, written⟩ := Engine.run_of_isFree free answered
  obtain ⟨outcome, after⟩ := answer_of_prepare source sink prepared
  rw [outcome, after, result, written]
  exact ⟨rfl, rfl⟩

/-- A failure leaves the output as it was. -/
theorem answer_of_scoring_error {failure : Failure} (readable : source.error = none)
    (failed : scoring host settings source.content = .error failure) :
    (answer host settings source sink).1.result = .error failure ∧
      (answer host settings source sink).2 = sink := by
  cases built : settings.build.result with
  | error refusal =>
    have unprepared : (prepare host settings).result = .error refusal := by
      rw [result_prepare, built, Except.map]
    rw [scoring, built] at failed
    cases failed
    have ended : answer host settings source sink =
        (⟨(prepare host settings).events, .error failure⟩, sink) := by
      simp only [answer, unprepared]
    rw [ended]
    exact ⟨rfl, rfl⟩
  | ok model =>
    have prepared : (prepare host settings).result = .ok (.ofModel host.launch model) := by
      rw [result_prepare, built, Except.map]
    have answered := @result_answer_of_build host _ _ _ readable built
    rw [failed] at answered
    have kept := Engine.run_of_answer_error _ source sink answered
    obtain ⟨outcome, after⟩ := answer_of_prepare source sink prepared
    rw [outcome, after, kept, answered]
    exact ⟨rfl, rfl⟩

/-- A failure that ends a run is shown last. -/
theorem mem_errors_conclude {environment : Environment} {format : LogFormat} {verbose : Bool}
    {outcome : Outcome Unit} {output : List UInt8} {failure : Failure}
    (h : outcome.result = .error failure) :
    .text s!"❌ {failure.userMessage}" ∈
      (conclude environment format verbose outcome output).errors := by
  rw [conclude, h]
  exact List.mem_append_right _ (List.mem_singleton_self _)

theorem runLine_of_ok {similarity : Float} (readable : source.error = none) (free : sink.IsFree)
    (scored : stages host line source.content = .ok similarity) :
    (runLine host line source sink).exitCode = 0 ∧
      (runLine host line source sink).output = Response.encode ⟨similarity⟩ := by
  obtain ⟨settings, loaded, rest⟩ := exists_of_bind_eq_ok scored
  obtain ⟨result, written⟩ := answer_of_scoring_ok readable free rest
  simp only [runLine, loaded]
  rw [output_conclude, written]
  exact ⟨exitCode_conclude_of_ok result, rfl⟩

/-- A configuration that is refused ends a run before anything is read. -/
theorem runLine_of_load_error {failure : Failure} (source : Source) (sink : Sink)
    (refused : line.load host = .error failure) :
    (runLine host line source sink).exitCode = failure.exitCode ∧
      (runLine host line source sink).output = sink.written ∧
      .text s!"❌ {failure.userMessage}" ∈ (runLine host line source sink).errors := by
  simp only [runLine, refused]
  rw [output_conclude]
  exact ⟨exitCode_conclude_of_error rfl, rfl, mem_errors_conclude rfl⟩

theorem runLine_of_error {failure : Failure} (readable : source.error = none) (free : sink.IsFree)
    (failed : stages host line source.content = .error failure) :
    (runLine host line source sink).exitCode = failure.exitCode ∧
      (runLine host line source sink).output = [] ∧
      .text s!"❌ {failure.userMessage}" ∈ (runLine host line source sink).errors := by
  cases loaded : line.load host with
  | error refusal =>
    rw [stages_of_load_error _ loaded] at failed
    cases failed
    rw [← free.written]
    exact runLine_of_load_error source sink loaded
  | ok settings =>
    rw [stages_of_load _ loaded] at failed
    obtain ⟨result, after⟩ := @answer_of_scoring_error _ _ _ sink _ readable failed
    simp only [runLine, loaded]
    rw [output_conclude, after, free.written]
    exact ⟨exitCode_conclude_of_error result, rfl, mem_errors_conclude result⟩

/-! ## Runs -/

/-- A run on a command line that can be read exits with zero exactly when every stage succeeds, and
then it has written the response and nothing else.  Otherwise it has written nothing, the exit code
is the one of the first stage that failed, and the failure is shown.  Settings that were loaded
never fail to give a model, and settings that are refused end the run whatever its input holds. -/
theorem run_ends_as_its_stages (host : Host) (arguments : List String) (line : CommandLine)
    (parsed : CommandLine.parse arguments = .ok line) :
    (∀ (source : Source) (sink : Sink), source.error = none → sink.IsFree →
      ((run host arguments source sink).exitCode = 0 ↔
          ∃ similarity, stages host line source.content = .ok similarity) ∧
        (∀ similarity, stages host line source.content = .ok similarity →
          (run host arguments source sink).output = Response.encode ⟨similarity⟩ ∧
            (run host arguments source sink).output.getLast? = some 125) ∧
        ∀ failure, stages host line source.content = .error failure →
          (run host arguments source sink).output = [] ∧
            .text s!"❌ {failure.userMessage}" ∈ (run host arguments source sink).errors ∧
            ((failure.IsConfiguration ∨ failure.IsMalformed) ∧
                (run host arguments source sink).exitCode = 1 ∨
              failure.IsScorer ∧ (run host arguments source sink).exitCode = 2)) ∧
    (∀ settings, line.load host = .ok settings → ∃ model, settings.build.result = .ok model) ∧
    ∀ failure, line.load host = .error failure → failure.IsConfiguration ∧
      ∀ (source : Source) (sink : Sink),
        (run host arguments source sink).exitCode = 1 ∧
          (run host arguments source sink).output = sink.written ∧
          .text s!"❌ {failure.userMessage}" ∈ (run host arguments source sink).errors := by
  have run_eq (source : Source) (sink : Sink) :
      run host arguments source sink = runLine host line source sink := by
    rw [run, parsed]
  simp only [run_eq]
  refine ⟨fun source sink readable free ↦ ⟨⟨fun exited ↦ ?_, ?_⟩, ?_, ?_⟩, ?_, ?_⟩
  · cases ended : stages host line source.content with
    | ok similarity => exact ⟨similarity, rfl⟩
    | error failure =>
      have code := (runLine_of_error readable free ended).1
      have pos := failure.exitCode_pos
      omega
  · rintro ⟨similarity, scored⟩
    exact (runLine_of_ok readable free scored).1
  · intro similarity scored
    rw [(runLine_of_ok readable free scored).2]
    exact ⟨rfl, Response.getLast?_encode ⟨similarity⟩⟩
  · intro failure failed
    obtain ⟨code, output, shown⟩ := runLine_of_error readable free failed
    refine ⟨output, shown, ?_⟩
    rw [code]
    rcases failsAs_stages host line source.content failure failed with kind | kind | kind
    · exact .inl ⟨.inl kind, Failure.exitCode_of_isConfiguration kind⟩
    · exact .inl ⟨.inr kind, Failure.exitCode_of_isMalformed kind⟩
    · exact .inr ⟨kind, Failure.exitCode_of_isScorer kind⟩
  · intro settings loaded
    exact CommandLine.exists_build_of_load loaded
  · intro failure refused
    have kind := line.failsAs_load host failure refused
    refine ⟨kind, fun source sink ↦ ?_⟩
    obtain ⟨code, output, shown⟩ := runLine_of_load_error source sink refused
    rw [code, Failure.exitCode_of_isConfiguration kind]
    exact ⟨rfl, output, shown⟩

/-- The empty object is answered without arguments; a configuration that is not there is refused
although the input breaks off. -/
theorem run_ends_as_its_stages_at_braces :
    let host : Host := .ofFiles [] []
    ((run host [] (Source.ofBytes [123, 125]) .unlimited).exitCode = 0 ∧
        (run host [] (Source.ofBytes [123, 125]) .unlimited).output =
          Response.encode ⟨placeholderScore⟩) ∧
      (run host ["--config", "absent"] ⟨[], some "gone"⟩ .unlimited).exitCode = 1 := by
  intro host
  let document : Json.Grammar.Document :=
    ⟨⟨[], by simp⟩, .emptyObject ⟨[], by simp⟩, ⟨[], by simp⟩⟩
  have request : Request.ofBytes document.bytes = .ok ⟨.absent, .absent⟩ :=
    Request.ofBytes_document rfl Request.decodable_nil
  have answered : stages host .empty document.bytes = .ok placeholderScore := by
    change (Request.ofBytes document.bytes).bind _ = _
    rw [request]
    rfl
  let configured : CommandLine := { CommandLine.empty with config := some "absent" }
  have refused : configured.load host =
      .error (.configuration s!"cannot read 'absent': {Host.notFound}") := rfl
  obtain ⟨zero, output, -⟩ := (run_ends_as_its_stages host [] .empty rfl).1
    (Source.ofBytes [123, 125]) .unlimited rfl Sink.isFree_unlimited
  have ended := (run_ends_as_its_stages host ["--config", "absent"] configured rfl).2.2 _ refused
  refine ⟨⟨?_, ?_⟩, ?_⟩
  · exact zero.2 ⟨placeholderScore, answered⟩
  · exact (output placeholderScore answered).1
  · exact (ended.2 ⟨[], some "gone"⟩ .unlimited).1

end Program

end SpanScore
