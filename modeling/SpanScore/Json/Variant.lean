import SpanScore.Json.Members

/-!
# One of several names

A choice is written as its name, or as an object whose only member has that name and is `null`.
-/

namespace SpanScore.Json.Variant

/-- Reads one of the names that are known, from behind its quote on. -/
def name (known : List String) : Reader String := fun text ↦ do
  let (name, rest) ← Read.string text
  if known.contains name then return (name, rest)
  else stop (.unknownVariant name known) 0 rest

/-- Reads `null`. -/
def unit (text : List Char) : Except Fault (List Char) :=
  match skipSpace text with
  | [] => stop .valueExpected 1 []
  | 'n' :: rest => skipWord ['u', 'l', 'l'] rest
  | other => .error (wrongType "unit" other)

/-- Reads an object with one of the known names, from behind its brace on. -/
def object (known : List String) : Reader String := fun text ↦
  match skipSpace text with
  | [] => stop .valueExpected 1 []
  | '"' :: key => do
    let (name, rest) ← name known key
    let rest ← unit (← Read.colon rest)
    match skipSpace rest with
    | '\x7d' :: after => return (name, after)
    | other => stop .variantEndExpected 0 other
  | other => .error (wrongType "variant identifier" other)

def read (known : List String) : Reader String := fun text ↦
  match skipSpace text with
  | '\x7b' :: rest => object known rest
  | '"' :: rest => name known rest
  | other => stop .valueExpected 1 other

end SpanScore.Json.Variant
