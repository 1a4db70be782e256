import SpanScore.Log.Record

/-!
# Log filters

A filter says which records are kept: each directive sets a level for the sources whose names start
with its own, and the directive with the longest name decides.  A directive about spans of work
keeps no record.
-/

namespace SpanScore.Log

/-- A directive of a filter. -/
structure Directive where
  /-- The start of the sources it is about; all sources if there is none. -/
  source : Option String
  /-- The least grave level that is kept, or zero. -/
  rank : Nat
deriving DecidableEq

def Directive.isAbout (directive : Directive) (source : String) : Bool :=
  directive.source.all fun start ↦ start.toList.isPrefixOf source.toList

/-- How closely a directive says what it is about. -/
def Directive.weight (directive : Directive) : Nat :=
  (directive.source.map fun start ↦ start.length + 1).getD 0

abbrev Filter := List Directive

namespace Filter

/-- The level that a text names. -/
def rank? (text : String) : Option Nat :=
  match text.toNat? with
  | some rank => if rank ≤ 5 then some rank else none
  | none =>
    let lower := text.toLower
    if lower.isEmpty then some 1
    else ["off", "error", "warn", "info", "debug", "trace"].idxOf? lower

/-- The level of a directive, every level being kept if it names none. -/
def rankOrAll? (text : String) : Option Nat :=
  if text.isEmpty then some 5 else rank? text

/-- Whether a character may start a directive. -/
def isStart (char : Char) : Bool :=
  char.isAlphanum || ['-', ':', '_', '['].contains char || '\x7f' < char

/-- The directive that a text spells, if it spells one; one about spans is empty. -/
def directive? (text : String) : Option (List Directive) :=
  let chars := text.toList
  if !(chars.head?.any isStart) then none
  else if chars.contains '[' then
    if chars.contains ']' then some [] else none
  else if chars.contains '=' then
    let source := String.ofList (chars.takeWhile (· ≠ '='))
    let level := String.ofList ((chars.dropWhile (· ≠ '=')).drop 1)
    (rankOrAll? level).map fun rank ↦ [⟨some source, rank⟩]
  else match rank? text with
    | some rank => some [⟨none, rank⟩]
    | none => some [⟨some text, 5⟩]

/-- The filter that a text spells; the empty text keeps errors. -/
def ofText? (text : String) : Option Filter :=
  let parts := (text.splitOn ",").filter fun part ↦ !part.isEmpty
  if parts.isEmpty then some [⟨none, 1⟩]
  else (parts.mapM directive?).map List.flatten

/-- The least grave level that is kept of a source, the later of two equal directives counting. -/
def rankOf (filter : Filter) (source : String) : Nat :=
  let best := (filter.filter fun directive ↦ directive.isAbout source).foldl
    (fun (best : Nat × Nat) directive ↦
      if best.1 ≤ directive.weight then (directive.weight, directive.rank) else best) (0, 0)
  best.2

def keeps (filter : Filter) (record : Record) : Bool :=
  record.level.rank ≤ filter.rankOf record.source

/-- The filter for lines of text. -/
def compact (verbose : Bool) : Filter :=
  let rank := if verbose then Level.debug.rank else Level.warn.rank
  [⟨some "span_similarity", rank⟩, ⟨some "stgnn_infer", rank⟩]

/-- The filter for JSON objects. -/
def json : Filter :=
  [⟨some "span_similarity", Level.info.rank⟩]

end Filter

end SpanScore.Log
