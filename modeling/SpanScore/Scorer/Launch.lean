/-!
# Launching programs

What a host does when it is asked to run a program on an input: it refuses, or the program runs,
takes as much of the input as it wants, and ends.
-/

namespace SpanScore

/-- A call of a program. -/
structure Call where
  command : String
  args : List String
  /-- What the program can read. -/
  input : List UInt8

/-- How a program ended. -/
inductive ExitStatus where
  | exited (code : Nat)
  | killed
deriving DecidableEq

/-- What became of a program's input. -/
inductive Feed where
  /-- The program was given all of it. -/
  | given
  /-- The program closed it early. -/
  | closedEarly
  /-- It could not be written. -/
  | failed (message : String)
deriving DecidableEq

/-- A program that has ended. -/
structure Ended where
  feed : Feed
  output : List UInt8
  errors : List UInt8
  status : ExitStatus
  milliseconds : Nat

/-- What comes of a call. -/
inductive Launch where
  | refused (reason : String)
  | ended (program : Ended)

/-- A host runs programs. -/
abbrev Launcher := Call → Launch

end SpanScore
