import SpanScore.Config.Substitution
import SpanScore.Shell.Run

/-!
# Hosts

What a run of the program can see of its surroundings: variables, files and programs.  The programs
are the shell and its tools.
-/

namespace SpanScore

/-- The surroundings of a run. -/
structure Host where
  environment : Environment
  /-- The bytes of a file, or why they cannot be read. -/
  readFile : String → Except String (List UInt8)
  launch : Launcher

namespace Host

def notFound : String := "No such file or directory (os error 2)"

def isDirectory : String := "Is a directory (os error 21)"

def notPermitted : String := "Permission denied (os error 13)"

def directories : List String :=
  ["/", ".", "..", "/bin", "/dev", "/etc", "/tmp", "/usr", "/usr/bin", "/var"]

/-- Files that every host has and that are no programs. -/
def plainFiles : List String := ["/dev/null", "/etc/passwd"]

/-- The bytes of one of some files. -/
def readFrom (files : List (String × List UInt8)) (path : String) : Except String (List UInt8) :=
  match files.lookup path with
  | some bytes => .ok bytes
  | none =>
    if directories.contains path then .error isDirectory
    else if path == "/dev/null" then .ok []
    else .error notFound

def tools : List String :=
  ["cat", "echo", "printf", "wc", "grep", "head", "tr", "sleep", "true", "false", "test"]

/-- The program that a command names: its last part, if it lies where programs lie. -/
def program? (command : String) : Option String :=
  let name := (command.dropPrefix? "/bin/").orElse fun _ ↦ command.dropPrefix? "/usr/bin/"
  let name := (name.map toString).getD command
  if (name == "sh" || tools.contains name) && !name.isEmpty then some name else none

/-- How many bytes a program can be given before it reads any. -/
def pipeSize : Nat := 65536

def endedIn (call : Call) (state : Shell.State) : Ended :=
  { feed :=
      if state.input.isEmpty || call.input.length ≤ pipeSize then .given else .closedEarly
    output := state.output
    errors := state.errors
    status := state.exitStatus
    milliseconds := state.milliseconds }

def runShell (environment : Environment) (call : Call) : Shell.State :=
  let bindings := environment.map fun (name, value) ↦ (name, Shell.bytes value)
  match call.args with
  | [] => Shell.runScript bindings (Utf8.decodeLossy call.input).toList [Shell.bytes "sh"] []
  | [_] => Shell.runScript bindings ['e', 'x', 'i', 't', ' ', '2'] [] call.input
  | _ :: script :: arguments =>
    let named := if arguments.isEmpty then ["sh"] else arguments
    Shell.runScript bindings script.toList (named.map Shell.bytes) call.input

def launchIn (environment : Environment) : Launcher := fun call ↦
  if (call.command :: call.args).any fun word ↦ word.toList.contains '\x00' then
    .refused "nul byte found in provided data"
  else match program? call.command with
    | none =>
      if directories.contains call.command || plainFiles.contains call.command then
        .refused notPermitted
      else .refused notFound
    | some "sh" => .ended (endedIn call (runShell environment call))
    | some name =>
      let start : Shell.State := ⟨call.input, [], [], [], [], 0, 0, none⟩
      .ended (endedIn call (Shell.call start name (call.args.map Shell.bytes)))

/-- The host with given variables and files. -/
def ofFiles (environment : Environment) (files : List (String × List UInt8)) : Host :=
  ⟨environment, readFrom files, launchIn environment⟩

end Host

end SpanScore
