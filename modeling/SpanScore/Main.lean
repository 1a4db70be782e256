import SpanScore.Program

/-!
# Main

The outer layer: it collects what a run can see, lets the program run on it, and writes what the
run leaves.
-/

namespace SpanScore.Main

/-- The file that lists the variables of the process. -/
def variablesFile : String := "/proc/self/environ"

/-- The variable that an entry sets, if its name and value are texts. -/
def setting? (entry : List UInt8) : Option (String × String) := do
  let name ← Utf8.decode? (entry.takeWhile (· ≠ 61))
  let value ← Utf8.decode? ((entry.dropWhile (· ≠ 61)).drop 1)
  return (name, value)

/-- The variables that entries set, each entry ending with a zero. -/
def environmentOf (bytes : List UInt8) : Environment :=
  let entries := bytes.splitBy fun before _ ↦ before ≠ 0
  entries.filterMap fun entry ↦ setting? (entry.filter (· ≠ 0))

def reason : IO.Error → String
  | .noFileOrDirectory _ _ _ => Host.notFound
  | .permissionDenied _ _ _ => Host.notPermitted
  | .inappropriateType _ _ _ => Host.isDirectory
  | other => toString other

def readFile (path : String) : IO (Except String (List UInt8)) := do
  try
    let bytes ← IO.FS.readBinFile path
    return .ok bytes.data.toList
  catch error =>
    return .error (reason error)

/-- The host of this process, which sees one file. -/
def currentHost (path : Option String) : IO Host := do
  let entries ← readFile variablesFile
  let environment := environmentOf (entries.toOption.getD [])
  let file ← readFile (path.getD "")
  return ⟨environment, fun _ ↦ file, Host.launchIn environment⟩

/-- Reads the standard input, unless the run ends before it does. -/
def input (host : Host) (line : CommandLine) : IO Source := do
  match line.load host with
  | .ok _ => return .ofBytes (← (← IO.getStdin).readBinToEnd).data.toList
  | .error _ => return .ofBytes []

/-- A line on the standard error as text. -/
def lineText : ErrorLine → String
  | .text line => line
  | .object value => String.ofList (value.print .compact)

/-- Writes what a run leaves. -/
def finish (ended : Run) : IO UInt32 := do
  for line in ended.errors do
    IO.eprintln (lineText line)
  let output ← IO.getStdout
  output.write ⟨ended.output.toArray⟩
  output.flush
  return ended.exitCode.toUInt32

def run (arguments : List String) : IO UInt32 := do
  match CommandLine.parse arguments with
  | .error _ => finish (Program.run (← currentHost none) arguments (.ofBytes []) .unlimited)
  | .ok line => do
    let host ← currentHost line.config
    finish (Program.run host arguments (← input host line) .unlimited)

end SpanScore.Main

def main (arguments : List String) : IO UInt32 :=
  SpanScore.Main.run arguments
