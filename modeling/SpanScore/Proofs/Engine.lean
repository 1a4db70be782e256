import SpanScore.Engine
import SpanScore.Proofs.Message.Request
import SpanScore.Proofs.Outcome

/-!
# Requests are answered as a whole or not at all

What an engine reads depends on the bytes of its source alone, and what it writes on the limit of
its sink alone: the sizes of chunks and pieces never show.  A failure before the score is known
leaves the sink as it was, and behind that point only the sink itself can make a run fail.
-/

namespace SpanScore

namespace Source

def content (source : Source) : List UInt8 :=
  source.chunks.flatten

theorem readFrom_none (read : List UInt8) (chunks : List (List UInt8)) :
    readFrom none read chunks = .ok (read ++ chunks.flatten) := by
  induction chunks generalizing read with
  | nil => simp [readFrom]
  | cons chunk chunks ih => rw [readFrom, ih, List.flatten_cons, List.append_assoc]

theorem readFrom_some (message : String) (read : List UInt8) (chunks : List (List UInt8)) :
    readFrom (some message) read chunks = .error (.io message) := by
  induction chunks generalizing read with
  | nil => rfl
  | cons chunk chunks ih => rw [readFrom, ih]

theorem readAll_of_error_eq_none {source : Source} (h : source.error = none) :
    source.readAll = .ok source.content := by
  rw [readAll, h, readFrom_none, List.nil_append, content]

theorem readAll_of_error_eq_some {source : Source} {message : String}
    (h : source.error = some message) : source.readAll = .error (.io message) := by
  rw [readAll, h, readFrom_some]

/-- Reading depends on the bytes and on how they end, not on the chunks they come in. -/
theorem readAll_congr {left right : Source} (content_eq : left.content = right.content)
    (error_eq : left.error = right.error) : left.readAll = right.readAll := by
  cases h : right.error with
  | none => rw [readAll_of_error_eq_none h, readAll_of_error_eq_none (error_eq.trans h), content_eq]
  | some message => rw [readAll_of_error_eq_some h, readAll_of_error_eq_some (error_eq.trans h)]

end Source

namespace Sink

/-- How many of some bytes a sink still takes. -/
def capacity (sink : Sink) (bytes : List UInt8) : Nat :=
  match sink.limit with
  | some limit => min (limit - sink.written.length) bytes.length
  | none => bytes.length

theorem nextPiece_pos (sink : Sink) : 0 < sink.nextPiece := by
  unfold nextPiece
  split
  · omega
  · exact sink.piece_pos

@[simp] theorem written_take (sink : Sink) (bytes : List UInt8) :
    (sink.take bytes).written = sink.written ++ bytes := rfl

@[simp] theorem limit_take (sink : Sink) (bytes : List UInt8) :
    (sink.take bytes).limit = sink.limit := rfl

@[simp] theorem flushError_take (sink : Sink) (bytes : List UInt8) :
    (sink.take bytes).flushError = sink.flushError := rfl

theorem capacity_le (sink : Sink) (bytes : List UInt8) : sink.capacity bytes ≤ bytes.length := by
  unfold capacity
  split <;> omega

/-- A sink without room has no capacity: its piece is never what keeps it from writing. -/
theorem capacity_eq_zero_of_room {sink : Sink} (h : sink.room = 0) {bytes : List UInt8}
    (nonempty : bytes ≠ []) : sink.capacity bytes = 0 ∧ 0 < bytes.length := by
  have pos := sink.nextPiece_pos
  have length : 0 < bytes.length := List.length_pos_iff.2 nonempty
  cases limit : sink.limit with
  | none =>
    simp only [room, limit] at h
    omega
  | some bound =>
    simp only [room, limit] at h
    simp only [capacity, limit]
    omega

/-- One write takes the piece that is its own, and leaves the capacity for the others. -/
theorem capacity_take (sink : Sink) (bytes : List UInt8) :
    min sink.room bytes.length +
        (sink.take (bytes.take sink.room)).capacity (bytes.drop sink.room) =
      sink.capacity bytes := by
  unfold capacity
  rw [limit_take, written_take]
  have pos := sink.nextPiece_pos
  cases h : sink.limit with
  | none => simp only [List.length_drop]; omega
  | some limit =>
    simp only [room, h, List.length_append, List.length_take, List.length_drop]
    omega

/-- Writing takes the first bytes up to the capacity, whatever the pieces. -/
theorem written_writeAll (sink : Sink) (bytes : List UInt8) :
    (sink.writeAll bytes).1.written = sink.written ++ bytes.take (sink.capacity bytes) := by
  fun_induction writeAll sink bytes with
  | case1 sink bytes empty => simp_all
  | case2 sink bytes nonempty full =>
    rw [(capacity_eq_zero_of_room full (by simpa using nonempty)).1]
    simp
  | case3 sink bytes nonempty room ih =>
    have whole := sink.capacity_take bytes
    have bound := (sink.take (bytes.take sink.room)).capacity_le (bytes.drop sink.room)
    rw [List.length_drop] at bound
    rw [ih, written_take, List.append_assoc, ← List.take_add, List.take_eq_take_iff.2]
    omega

/-- Writing fails exactly when the capacity is too small, and then because the sink is full. -/
theorem result_writeAll (sink : Sink) (bytes : List UInt8) :
    (sink.writeAll bytes).2 =
      if sink.capacity bytes = bytes.length then .ok () else .error (.io "output is full") := by
  fun_induction writeAll sink bytes with
  | case1 sink bytes empty =>
    have bound := sink.capacity_le bytes
    simp_all
  | case2 sink bytes nonempty full =>
    obtain ⟨none, pos⟩ := capacity_eq_zero_of_room full (by simpa using nonempty)
    rw [if_neg (by omega)]
  | case3 sink bytes nonempty room ih =>
    have whole := sink.capacity_take bytes
    have bound := (sink.take (bytes.take sink.room)).capacity_le (bytes.drop sink.room)
    rw [ih, List.length_drop]
    rw [List.length_drop] at bound
    congr 1
    exact propext (by omega)

theorem flushError_writeAll (sink : Sink) (bytes : List UInt8) :
    (sink.writeAll bytes).1.flushError = sink.flushError := by
  fun_induction writeAll sink bytes with
  | case1 => rfl
  | case2 => rfl
  | case3 sink bytes nonempty room ih => rw [ih, flushError_take]

/-- What delivering writes is what writing writes, and its result tells whether all of it went
through. -/
theorem deliver_eq (sink : Sink) (bytes : List UInt8) :
    sink.deliver bytes =
      ((sink.writeAll bytes).1,
        if sink.capacity bytes = bytes.length then sink.flush
        else .error (.io "output is full")) := by
  have flush_eq : (sink.writeAll bytes).1.flush = sink.flush := by
    rw [flush, flush, flushError_writeAll]
  change ((sink.writeAll bytes).1, do (sink.writeAll bytes).2; (sink.writeAll bytes).1.flush) = _
  rw [result_writeAll, flush_eq]
  split <;> rfl

theorem flush_of_flushError_eq_none {sink : Sink} (h : sink.flushError = none) :
    sink.flush = .ok () := by
  rw [flush, h]

theorem flush_of_flushError_eq_some {sink : Sink} {message : String}
    (h : sink.flushError = some message) : sink.flush = .error (.io message) := by
  rw [flush, h]

/-- Sinks that agree on their limit and their flush take the same bytes with the same result. -/
theorem deliver_congr {left right : Sink} (written_eq : left.written = right.written)
    (limit_eq : left.limit = right.limit) (flushError_eq : left.flushError = right.flushError)
    (bytes : List UInt8) :
    (left.deliver bytes).1.written = (right.deliver bytes).1.written ∧
      (left.deliver bytes).2 = (right.deliver bytes).2 := by
  have capacity_eq : left.capacity bytes = right.capacity bytes := by
    rw [capacity, capacity, limit_eq, written_eq]
  have flush_eq : left.flush = right.flush := by
    rw [flush, flush, flushError_eq]
  rw [deliver_eq, deliver_eq, capacity_eq, flush_eq, written_writeAll, written_writeAll,
    capacity_eq, written_eq]
  exact ⟨rfl, rfl⟩

end Sink

namespace Engine

variable (engine : Engine) (source : Source) (sink : Sink)

/-- Reading, parsing and scoring come one after the other, and the first failure decides. -/
theorem result_answer :
    (engine.answer source).result =
      source.readAll.bind fun bytes ↦
        (Request.ofBytes bytes).bind fun request ↦
          (engine.score request.spanA request.spanB).result.map Response.mk := by
  simp only [answer, Outcome.result_bind, Outcome.result_ofExcept, Outcome.result_note,
    Outcome.result_pure]
  rfl

/-- Without an answer nothing is written. -/
theorem run_of_answer_error {failure : Failure}
    (h : (engine.answer source).result = .error failure) :
    engine.run source sink = (engine.answer source, sink) := by
  simp only [run, h]

/-- An answer is delivered. -/
theorem run_of_answer_ok {response : Response}
    (h : (engine.answer source).result = .ok response) :
    engine.run source sink =
      (⟨(engine.answer source).events,
          (sink.deliver response.encode).2.map fun _ ↦ response⟩,
        (sink.deliver response.encode).1) := by
  simp only [run, h]

/-- The sizes of chunks and pieces change neither what comes of a run nor what it writes. -/
theorem run_congr {source source' : Source} {sink sink' : Sink}
    (content_eq : source'.content = source.content) (error_eq : source'.error = source.error)
    (written_eq : sink'.written = sink.written) (limit_eq : sink'.limit = sink.limit)
    (flushError_eq : sink'.flushError = sink.flushError) :
    (engine.run source' sink').1 = (engine.run source sink).1 ∧
      (engine.run source' sink').2.written = (engine.run source sink).2.written := by
  have answer_eq : engine.answer source' = engine.answer source := by
    rw [answer, answer, Source.readAll_congr content_eq error_eq]
  cases h : (engine.answer source).result with
  | error failure =>
    rw [run_of_answer_error engine source sink h,
      run_of_answer_error engine source' sink' (answer_eq ▸ h), answer_eq]
    exact ⟨rfl, written_eq⟩
  | ok response =>
    obtain ⟨same, result⟩ :=
      Sink.deliver_congr written_eq limit_eq flushError_eq response.encode
    rw [run_of_answer_ok engine source sink h,
      run_of_answer_ok engine source' sink' (answer_eq ▸ h), answer_eq, result]
    exact ⟨rfl, same⟩

/-- A run writes nothing unless the whole request was read, parsed and scored; then it writes the
first bytes of the response that the sink has room for, and it succeeds exactly when these are all
of them and the flush goes through.  No size of a chunk or of a piece shows in the outcome. -/
theorem run_is_atomic :
    (∀ message, source.error = some message →
      (engine.run source sink).1.result = .error (.io message) ∧
        (engine.run source sink).2 = sink) ∧
    (∀ failure, source.error = none → Request.ofBytes source.content = .error failure →
      (engine.run source sink).1.result = .error failure ∧ (engine.run source sink).2 = sink) ∧
    (∀ request failure, source.error = none →
      Request.ofBytes source.content = .ok request →
      (engine.score request.spanA request.spanB).result = .error failure →
      (engine.run source sink).1.result = .error failure ∧ (engine.run source sink).2 = sink) ∧
    (∀ request similarity, source.error = none →
      Request.ofBytes source.content = .ok request →
      (engine.score request.spanA request.spanB).result = .ok similarity →
      let reply := Response.encode ⟨similarity⟩
      (engine.run source sink).2.written =
          sink.written ++ reply.take (sink.capacity reply) ∧
        ((engine.run source sink).1.result = .ok ⟨similarity⟩ ↔
          sink.capacity reply = reply.length ∧ sink.flushError = none) ∧
        ((engine.run source sink).1.result = .ok ⟨similarity⟩ ∨
          ∃ message, (engine.run source sink).1.result = .error (.io message))) ∧
    (∀ (source' : Source) (sink' : Sink),
      source'.content = source.content → source'.error = source.error →
      sink'.written = sink.written → sink'.limit = sink.limit →
      sink'.flushError = sink.flushError →
      (engine.run source' sink').1 = (engine.run source sink).1 ∧
        (engine.run source' sink').2.written = (engine.run source sink).2.written) := by
  refine ⟨?_, ?_, ?_, ?_, ?_⟩
  · intro message broken
    have failed : (engine.answer source).result = .error (.io message) := by
      rw [result_answer, Source.readAll_of_error_eq_some broken]
      rfl
    rw [run_of_answer_error engine source sink failed]
    exact ⟨failed, rfl⟩
  · intro failure ended malformed
    have failed : (engine.answer source).result = .error failure := by
      rw [result_answer, Source.readAll_of_error_eq_none ended, Except.bind, malformed]
      rfl
    rw [run_of_answer_error engine source sink failed]
    exact ⟨failed, rfl⟩
  · intro request failure ended parsed unscored
    have failed : (engine.answer source).result = .error failure := by
      rw [result_answer, Source.readAll_of_error_eq_none ended, Except.bind, parsed, Except.bind,
        unscored]
      rfl
    rw [run_of_answer_error engine source sink failed]
    exact ⟨failed, rfl⟩
  · intro request similarity ended parsed scored reply
    have answered : (engine.answer source).result = .ok ⟨similarity⟩ := by
      rw [result_answer, Source.readAll_of_error_eq_none ended, Except.bind, parsed, Except.bind,
        scored]
      rfl
    rw [run_of_answer_ok engine source sink answered, Sink.deliver_eq, Sink.written_writeAll]
    refine ⟨rfl, ?_⟩
    by_cases fits : sink.capacity reply = reply.length
    · cases flushed : sink.flushError with
      | none => simp [reply, fits, Sink.flush_of_flushError_eq_none flushed, Except.map]
      | some message => simp [reply, fits, Sink.flush_of_flushError_eq_some flushed, Except.map]
    · simp [reply, fits, Except.map]
  · intro source' sink' content_eq error_eq written_eq limit_eq flushError_eq
    exact engine.run_congr content_eq error_eq written_eq limit_eq flushError_eq

/-- A whole request in front of a read error is not answered, nor is half a request, nor one that
cannot be scored; an answer reaches a narrow sink up to its limit. -/
theorem run_is_atomic_at_braces :
    let fixed : Engine := ⟨"fixed", fun _ _ ↦ pure 0.42⟩
    let mute : Engine := ⟨"mute", fun _ _ ↦ .fail (.io "mute")⟩
    let narrow : Sink := ⟨[], [2], 1, by decide, some 5, none⟩
    let even : Sink := ⟨[], [], 4, by decide, some 5, none⟩
    (fixed.run ⟨[[123, 125]], some "gone"⟩ narrow).2 = narrow ∧
      (fixed.run ⟨[[123]], none⟩ narrow).2 = narrow ∧
      (mute.run ⟨[[123], [125]], none⟩ narrow).2 = narrow ∧
      (fixed.run ⟨[[123], [125]], none⟩ narrow).2.written = (Response.encode ⟨0.42⟩).take 5 ∧
      (fixed.run ⟨[[123, 125]], none⟩ even).1 = (fixed.run ⟨[[123], [125]], none⟩ narrow).1 := by
  intro fixed mute narrow even
  let document : Json.Grammar.Document :=
    ⟨⟨[], by simp⟩, .emptyObject ⟨[], by simp⟩, ⟨[], by simp⟩⟩
  have whole : Request.ofBytes document.bytes = .ok ⟨.absent, .absent⟩ :=
    Request.ofBytes_document rfl Request.decodable_nil
  have refused : Request.members ['\x7b'] = Json.stop .keyExpected 1 [] := rfl
  obtain ⟨error, halved⟩ := Request.exists_error_of_text refused
  refine ⟨?_, ?_, ?_, ?_, ?_⟩
  · exact ((run_is_atomic fixed ⟨[[123, 125]], some "gone"⟩ narrow).1 "gone" rfl).2
  · exact ((run_is_atomic fixed ⟨[[123]], none⟩ narrow).2.1 _ rfl halved).2
  · exact ((run_is_atomic mute ⟨[[123], [125]], none⟩ narrow).2.2.1 _ _ rfl whole rfl).2
  · exact ((run_is_atomic fixed ⟨[[123], [125]], none⟩ narrow).2.2.2.1 _ 0.42 rfl whole rfl).1
  · exact ((run_is_atomic fixed ⟨[[123], [125]], none⟩ narrow).2.2.2.2 _ even rfl rfl rfl rfl
      rfl).1

end Engine

end SpanScore
