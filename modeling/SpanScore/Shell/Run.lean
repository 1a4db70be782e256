import SpanScore.Scorer.Launch
import SpanScore.Shell.Parse
import SpanScore.Shell.Tool

/-!
# Running shell scripts

A script changes a state: what it has not read of its input, what it has written, its variables,
the status of the last command and the time that has passed.
-/

namespace SpanScore.Shell

/-- The state of a script. -/
structure State where
  input : List UInt8
  output : List UInt8
  errors : List UInt8
  /-- The variables with their values; an earlier entry hides later ones. -/
  bindings : List (String × List UInt8)
  /-- The name of the script and its arguments. -/
  arguments : List (List UInt8)
  status : Nat
  milliseconds : Nat
  /-- How the script ended, if it did. -/
  ended : Option ExitStatus

namespace State

/-- A state behind a tool. -/
def after (state : State) (result : Result) : State :=
  { state with
    input := result.input
    output := state.output ++ result.output
    errors := state.errors ++ result.errors
    status := result.status
    milliseconds := state.milliseconds + result.milliseconds }

/-- A state that ends with a status. -/
def exit (state : State) (status : Nat) : State :=
  { state with status := status % 256, ended := some (.exited (status % 256)) }

/-- A state behind a part that has a state of its own: variables stay as they were. -/
def behind (state inner : State) : State :=
  { state with
    input := inner.input
    output := inner.output
    errors := inner.errors
    status := match inner.ended with
      | some (.exited status) => status
      | _ => inner.status
    milliseconds := inner.milliseconds
    ended := if inner.ended = some .killed then inner.ended else state.ended }

/-- A state behind a command that the shell cannot carry out. -/
def complain (state : State) (reason : String) (status : Nat) : State :=
  { state with
    errors := state.errors ++ state.arguments.headD [] ++ bytes s!": 1: {reason}\n"
    status := status }

def set (state : State) (name : String) (value : List UInt8) : State :=
  { state with bindings := (name, value) :: state.bindings }

/-- The number that a script takes for its own process. -/
def processNumber : String := "2"

def value (state : State) (name : String) : List UInt8 :=
  match name with
  | "$" => bytes processNumber
  | "?" => bytes (toString state.status)
  | "#" => bytes (toString (state.arguments.length - 1))
  | "@" => ((state.arguments.drop 1).intersperse [32]).flatten
  | "*" => ((state.arguments.drop 1).intersperse [32]).flatten
  | _ =>
    match name.toNat? with
    | some index => state.arguments.getD index []
    | none => (state.bindings.lookup name).getD []

end State

/-! ## Words -/

/-- Fields that are being put together; the last one may still grow. -/
structure Fields where
  complete : List (List UInt8)
  last : Option (List UInt8)

namespace Fields

/-- Fields whose last one has more bytes. -/
def append (fields : Fields) (more : List UInt8) : Fields :=
  ⟨fields.complete, some (fields.last.getD [] ++ more)⟩

/-- Fields whose last one is complete. -/
def cut (fields : Fields) : Fields :=
  ⟨fields.complete ++ fields.last.toList, none⟩

/-- Fields with a text that is split at its white space. -/
def split (fields : Fields) (text : List UInt8) : Fields :=
  text.foldl (fun fields byte ↦
    if byte = 32 || byte = 9 || byte = 10 then fields.cut else fields.append [byte]) fields

end Fields

/-- Bytes without the line ends behind them. -/
def trimLines (output : List UInt8) : List UInt8 :=
  (output.reverse.dropWhile (· = 10)).reverse

/-! ## Redirections -/

/-- Where written bytes end up. -/
inductive Destination where
  | output
  | errors
  | nowhere
deriving DecidableEq

/-- Where the two outputs of a command end up behind redirections. -/
def destinations (redirections : List Redirection) : Destination × Destination :=
  redirections.foldl (fun (first, second) redirection ↦
    let destination := match redirection.target with
      | .descriptor 1 => first
      | .descriptor 2 => second
      | _ => .nowhere
    if redirection.descriptor = 1 then (destination, second)
    else if redirection.descriptor = 2 then (first, destination)
    else (first, second)) (.output, .errors)

/-- Runs something with its outputs and its input redirected. -/
def redirected (redirections : List Redirection) (state : State) (run : State → State) : State :=
  let takesInput := redirections.any fun redirection ↦
    redirection.descriptor == 0 && redirection.target ≠ .descriptor 0
  let inner := run { state with
    output := [], errors := [], input := if takesInput then [] else state.input }
  let (first, second) := destinations redirections
  let sent (destination : Destination) : List UInt8 :=
    (if first = destination then inner.output else []) ++
      (if second = destination then inner.errors else [])
  { inner with
    output := state.output ++ sent .output
    errors := state.errors ++ sent .errors
    input := if takesInput then state.input else inner.input }

/-! ## Commands -/

/-- Runs a command that is part of the shell, or a tool. -/
def call (state : State) (name : String) (arguments : List (List UInt8)) : State :=
  match name with
  | "exit" =>
    match arguments.head?, arguments.head?.bind number? with
    | none, _ => state.exit state.status
    | _, some (.ofNat status) => state.exit status
    | some argument, _ =>
      (state.complain s!"exit: Illegal number: {text argument}" 2).exit 2
  | "kill" =>
    if arguments.any (isWord [State.processNumber, "0"]) && !arguments.any (isWord ["-0"]) then
      { state with ended := some .killed }
    else { state with status := 0 }
  | "read" =>
    let line := state.input.takeWhile (· ≠ 10)
    let status := if state.input.length = line.length then 1 else 0
    let names := arguments.filter fun argument ↦ argument.head? ≠ some 45
    let read := { state with input := state.input.drop (line.length + 1), status := status }
    names.head?.elim read fun name ↦ read.set (text name) line
  | "shift" =>
    { state with arguments := state.arguments.take 1 ++ state.arguments.drop 2, status := 0 }
  | "export" => { state with status := 0 }
  | "set" => { state with status := 0 }
  | _ =>
    match tool? name arguments state.input with
    | some result => state.after result
    | none => state.complain s!"{name}: not found" 127

mutual

def expandPart (state : State) (fields : Fields) (part : Part) : Nat → State × Fields
  | 0 => (state, fields)
  | fuel + 1 =>
    match part with
    | .text chars => (state, fields.append (bytes (String.ofList chars)))
    | .variable name quoted =>
      if quoted && name == "@" then
        let all := state.arguments.drop 1
        (state, (all.foldl (fun fields argument ↦ (fields.append argument).cut) fields))
      else if quoted then (state, fields.append (state.value name))
      else (state, fields.split (state.value name))
    | .output script quoted =>
      match parse? script with
      | none => (state.exit 2, fields)
      | some command =>
        let inner := run { state with output := [] } command fuel
        let captured := trimLines inner.output
        let state := { state.behind inner with output := state.output }
        (state, if quoted then fields.append captured else fields.split captured)

def expandParts (state : State) (fields : Fields) : List Part → Nat → State × Fields
  | _, 0 => (state, fields)
  | [], _ => (state, fields)
  | part :: parts, fuel + 1 =>
    let (state, fields) := expandPart state fields part fuel
    expandParts state fields parts fuel

def expandWords (state : State) (fields : List (List UInt8)) :
    List Word → Nat → State × List (List UInt8)
  | _, 0 => (state, fields)
  | [], _ => (state, fields)
  | word :: words, fuel + 1 =>
    let start : Fields := ⟨[], if word.quoted then some [] else none⟩
    let (state, found) := expandParts state start word.parts fuel
    expandWords state (fields ++ found.cut.complete) words fuel

/-- Sets variables to what words make, without splitting it. -/
def assign (state : State) : List (String × Word) → Nat → State
  | _, 0 => state
  | [], _ => state
  | (name, word) :: rest, fuel + 1 =>
    let (state, found) := expandParts state ⟨[], none⟩ word.parts fuel
    assign (state.set name ((found.cut.complete.intersperse [32]).flatten)) rest fuel

/-- Runs a script that is named as a program, or a command that is none. -/
def invoke (state : State) (name : String) (arguments : List (List UInt8)) : Nat → State
  | 0 => state.exit 2
  | fuel + 1 =>
    match name, arguments with
    | "sh", _ :: script :: inner =>
      match parse? (text script).toList with
      | none => { state with status := 2 }
      | some command =>
        let named := if inner.isEmpty then [bytes "sh"] else inner
        state.behind (run { state with arguments := named } command fuel)
    | _, _ => call state name arguments

def run (state : State) (command : Command) : Nat → State
  | 0 => state.exit 2
  | fuel + 1 =>
    if state.ended.isSome then state
    else match command with
      | .nothing => state
      | .simple assignments words redirections =>
        let (state, fields) := expandWords state [] words fuel
        redirected redirections state fun state ↦
          match fields with
          | [] => assign { state with status := 0 } assignments fuel
          | name :: arguments =>
            if isWord ["exec"] name then
              match arguments with
              | [] => state
              | inner :: arguments =>
                let program := text inner
                let behind :=
                  if program == "sh" || (tool? program arguments state.input).isSome then
                    invoke state program arguments fuel
                  else state.complain s!"exec: {program}: not found" 127
                if behind.ended.isSome then behind else behind.exit behind.status
            else invoke state (text name) arguments fuel
      | .sequence first second => run (run state first fuel) second fuel
      | .both first second =>
        let behind := run state first fuel
        if behind.status = 0 then run behind second fuel else behind
      | .either first second =>
        let behind := run state first fuel
        if behind.status = 0 then behind else run behind second fuel
      | .negate inner =>
        let behind := run state inner fuel
        { behind with status := if behind.status = 0 then 1 else 0 }
      | .pipe left right =>
        let source := run { state with output := [] } left fuel
        let sink := run { state with
          input := source.output
          errors := source.errors
          milliseconds := source.milliseconds } right fuel
        { state.behind sink with input := source.input }
      | .branch test yes no =>
        let behind := run state test fuel
        if behind.status = 0 then run behind yes fuel
        else run { behind with status := 0 } no fuel
      | .group inner redirections =>
        redirected redirections state fun state ↦ run state inner fuel
      | .subshell inner redirections =>
        redirected redirections state fun state ↦ state.behind (run state inner fuel)

end

/-- How a script ends that has run to its end. -/
def State.exitStatus (state : State) : ExitStatus :=
  state.ended.getD (.exited state.status)

/-- Runs a script with its name and arguments on an input. -/
def runScript (bindings : List (String × List UInt8)) (script : List Char)
    (arguments : List (List UInt8)) (input : List UInt8) : State :=
  let start : State := ⟨input, [], [], bindings, arguments, 0, 0, none⟩
  match parse? script with
  | some command => run start command (8 * script.length + 16)
  | none =>
    let name := text (arguments.headD [])
    let complaint := if (readTokens script (script.length + 1)).isSome then "end of file unexpected"
      else "Unterminated quoted string"
    { start with
      errors := bytes s!"{name}: 1: Syntax error: {complaint}\n"
      ended := some (.exited 2) }

end SpanScore.Shell
