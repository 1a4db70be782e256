import SpanScore.Model.Basic

/-!
# The engine

One request is read to its end, scored, and answered.  Input comes in chunks of any size and may
break off; output is taken in pieces of limited size, up to a limit.  Nothing is written before the
score is known.
-/

namespace SpanScore

/-- An input that is read chunk by chunk. -/
structure Source where
  chunks : List (List UInt8)
  /-- What reading behind the last chunk fails with, unless the input ends there. -/
  error : Option String

namespace Source

/-- Some bytes cut into chunks of one size. -/
def cut (size : Nat) (bytes : List UInt8) : List (List UInt8) :=
  if bytes.isEmpty then []
  else if size = 0 then [bytes]
  else bytes.take size :: cut size (bytes.drop size)
termination_by bytes.length
decreasing_by
  have length : bytes.length ≠ 0 := by
    simp_all
  simp only [List.length_drop]
  omega

/-- Reads chunks to the end; `read` holds the earlier bytes. -/
def readFrom (error : Option String) (read : List UInt8) :
    List (List UInt8) → Except Failure (List UInt8)
  | [] => match error with
    | some message => .error (.io message)
    | none => .ok read
  | chunk :: chunks => readFrom error (read ++ chunk) chunks

def readAll (source : Source) : Except Failure (List UInt8) :=
  readFrom source.error [] source.chunks

end Source

/-- An output that takes bytes in pieces. -/
structure Sink where
  /-- What has been taken. -/
  written : List UInt8
  /-- How many bytes the next writes take at most, each of them at least one. -/
  early : List Nat := []
  /-- How many bytes every write behind these takes at most. -/
  piece : Nat
  piece_pos : 0 < piece
  /-- How many bytes are taken altogether, if there is a limit. -/
  limit : Option Nat
  /-- What flushing fails with, if it fails. -/
  flushError : Option String

namespace Sink

/-- The size of the piece that the next write takes, if nothing else limits it. -/
def nextPiece (sink : Sink) : Nat :=
  match sink.early with
  | size :: _ => max 1 size
  | [] => sink.piece

/-- How many bytes the next write takes at most. -/
def room (sink : Sink) : Nat :=
  match sink.limit with
  | some limit => min sink.nextPiece (limit - sink.written.length)
  | none => sink.nextPiece

/-- An output that has taken more bytes in one write. -/
def take (sink : Sink) (bytes : List UInt8) : Sink :=
  { sink with written := sink.written ++ bytes, early := sink.early.tail }

/-- Writes bytes piece by piece until all are taken or no more are. -/
def writeAll (sink : Sink) (bytes : List UInt8) : Sink × Except Failure Unit :=
  if bytes.isEmpty then (sink, .ok ())
  else if _ : sink.room = 0 then (sink, .error (.io "output is full"))
  else (sink.take (bytes.take sink.room)).writeAll (bytes.drop sink.room)
termination_by bytes.length
decreasing_by
  have length : bytes.length ≠ 0 := by
    simp_all
  simp only [List.length_drop]
  omega

def flush (sink : Sink) : Except Failure Unit :=
  match sink.flushError with
  | some message => .error (.io message)
  | none => .ok ()

/-- Writes bytes and flushes. -/
def deliver (sink : Sink) (bytes : List UInt8) : Sink × Except Failure Unit :=
  let (after, result) := sink.writeAll bytes
  (after, do result; after.flush)

end Sink

/-- How an engine scores two spans, and under which name. -/
structure Engine where
  name : String
  score : Span → Span → Outcome Float

namespace Engine

def ofModel (launch : Launcher) (model : Model) : Engine :=
  ⟨model.name, model.score launch⟩

/-- Reads a request and scores it. -/
def answer (engine : Engine) (source : Source) : Outcome Response := do
  let bytes ← Outcome.ofExcept source.readAll
  Outcome.note (.requestRead bytes.length)
  let request ← Outcome.ofExcept (Request.ofBytes bytes)
  let similarity ← engine.score request.spanA request.spanB
  Outcome.note (.similarityComputed engine.name similarity)
  return ⟨similarity⟩

/-- Answers one request: what comes of it, and the output behind it. -/
def run (engine : Engine) (source : Source) (sink : Sink) : Outcome Response × Sink :=
  let answered := engine.answer source
  match answered.result with
  | .error _ => (answered, sink)
  | .ok response =>
    let (after, delivered) := sink.deliver response.encode
    (⟨answered.events, delivered.map fun _ ↦ response⟩, after)

end Engine

end SpanScore
