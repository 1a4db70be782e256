import SpanScore.Json.Value

/-!
# Paths into values

A path is a list of keys with dots between them.  It leads from an object to one of its members,
from there to one of that member's members, and so on; it never enters an array.
-/

namespace SpanScore.Path

/-- The parts of a text between its dots; there is always at least one. -/
def segments : List Char → List (List Char)
  | [] => [[]]
  | char :: rest =>
    if char = '.' then [] :: segments rest
    else match segments rest with
      | [] => [[char]]
      | segment :: others => (char :: segment) :: others

/-- Follows keys from a value on. -/
def follow (root : Json.Value) (keys : List (List Char)) : Option Json.Value :=
  keys.foldlM (fun value key ↦ value.get? (String.ofList key)) root

def resolve (root : Json.Value) (path : String) : Option Json.Value :=
  follow root (segments path.toList)

def resolveArray (root : Json.Value) (path : String) : Option (List Json.Value) :=
  (resolve root path).bind Json.Value.items?

end SpanScore.Path
