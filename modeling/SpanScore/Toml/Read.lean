import SpanScore.Toml.Node

/-!
# Reading configurations

A configuration is a list of lines: headers in brackets, and keys with values.  A header says into
which table the keys behind it go.
-/

namespace SpanScore.Toml

namespace Reader

/-- Whether a character may stand in a key without quotes. -/
def isKeyChar (char : Char) : Bool :=
  char.isAlphanum || char == '-' || char == '_'

def simpleKey : Reader Key := located do
  match ← peek with
  | some '"' | some '\'' => line
  | _ =>
    let chars ← takeWhile isKeyChar
    if chars.isEmpty then fail else return String.ofList chars

/-- Takes keys with dots between them, at most `fuel` of them behind those in `path`. -/
def pathFrom (path : List Key) : Nat → Reader (List Key × Key)
  | 0 => fail
  | fuel + 1 => do
    blanks
    let key ← simpleKey
    blanks
    if ← takeIf ['.'] then pathFrom (path ++ [key]) fuel else return (path, key)

/-- Takes a dotted key: all keys but the last, and the last. -/
def path : Reader (List Key × Key) := do
  pathFrom [] ((← rest).length + 1)

/-- Takes the items of an array from behind its bracket on. -/
def items (value : Reader Node) (before : List (Located Node)) :
    Nat → Reader (List (Located Node))
  | 0 => fail
  | fuel + 1 => do
    lines
    if ← takeIf [']'] then return before
    let item ← located value
    lines
    if ← takeIf [','] then items value (before ++ [item]) fuel
    else
      exactly ']'
      return before ++ [item]

/-- Takes the entries of a table in braces from behind its brace on. -/
def entries (value : Reader Node) (table : Table) : Nat → Reader Table
  | 0 => fail
  | fuel + 1 => do
    lines
    if ← takeIf ['\x7d'] then return table
    let (before, key) ← path
    exactly '='
    blanks
    let node ← located value
    match table.addAt before key node with
    | none => fail
    | some table => do
      lines
      if ← takeIf [','] then entries value table fuel
      else
        exactly '\x7d'
        return table

/-- Takes a value with at most `depth` levels of arrays and tables. -/
def valueWithin : Nat → Reader Node
  | 0 => do
    match ← peek with
    | some '"' | some '\'' => return .string (← string)
    | some '[' | some '\x7b' => fail
    | _ => return .scalar (← scalarValue)
  | depth + 1 => do
    let fuel := (← rest).length + 1
    match ← peek with
    | some '"' | some '\'' => return .string (← string)
    | some '[' => do
      exactly '['
      return .array false (← items (valueWithin depth) [] fuel)
    | some '\x7b' => do
      exactly '\x7b'
      return (← entries (valueWithin depth) ⟨.braces, []⟩ fuel).node
    | _ => return .scalar (← scalarValue)

/-- How many levels of arrays and tables a value may have. -/
def depthLimit : Nat := 80

def value : Reader Node :=
  valueWithin depthLimit

end Reader

/-! ## Lines -/

/-- A line of a configuration. -/
inductive Line where
  /-- A header. -/
  | table (region : Region) (path : List Key) (key : Key)
  /-- A header in double brackets. -/
  | item (region : Region) (path : List Key) (key : Key)
  /-- A value under a dotted key. -/
  | entry (path : List Key) (key : Key) (node : Located Node)

namespace Reader

def header : Reader Line := do
  let found ← located do
    let doubled ← takeIf ['[', '[']
    if !doubled then exactly '['
    let (path, key) ← path
    exactly ']'
    if doubled then exactly ']'
    return (doubled, path, key)
  let (doubled, path, key) := found.value
  return if doubled then .item found.region path key else .table found.region path key

def keyValue : Reader Line := do
  let (before, key) ← path
  exactly '='
  blanks
  return .entry before key (← located value)

/-- Takes the lines of a configuration, at most `fuel` of them. -/
def document (before : List Line) : Nat → Reader (List Line)
  | 0 => fail
  | fuel + 1 => do
    lines
    match ← peek with
    | none => return before.reverse
    | some char => do
      let line ← if char = '[' then header else keyValue
      lineEnd
      document (line :: before) fuel

end Reader

/-! ## Documents -/

/-- A table under construction, with the path of the table that keys go into. -/
structure Draft where
  root : Table
  current : List Key

def Draft.add (draft : Draft) : Line → Option Draft
  | .table region path key => do
    let root ← draft.root.alter false (Table.openTable region key) path
    return ⟨root, path ++ [key]⟩
  | .item region path key => do
    let root ← draft.root.alter false (Table.openItem region key) path
    return ⟨root, path ++ [key]⟩
  | .entry path key node => do
    let root ← draft.root.alter false (Table.addAt path key node) draft.current
    return ⟨root, draft.current⟩

/-- The table that a configuration is, if it is one.  A byte order mark may stand in front. -/
def parse? (text : List Char) : Option (List Entry) := do
  let read := do
    discard (Reader.takeIf ['\uFEFF'])
    Reader.document [] (text.length + 1)
  let (lines, _) ← read ⟨text, 0⟩
  let draft ← lines.foldlM Draft.add ⟨⟨.header, []⟩, []⟩
  return draft.root.entries

end SpanScore.Toml
