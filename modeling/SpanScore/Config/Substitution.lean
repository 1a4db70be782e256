/-!
# Variables in configurations

Where a configuration names a variable between `${` and `}`, the value of the variable takes its
place, if it has one.  Values are not searched for names again.
-/

namespace SpanScore

/-- The variables of a process, with their values. -/
abbrev Environment := List (String × String)

/-- The value of a variable.  No variable has an empty name.  The lookup of the surroundings is
documented as one that may find nothing under a name that holds `=` or a zero, and here it does find
nothing. -/
def Environment.value? (environment : Environment) (name : String) : Option String :=
  if name.isEmpty || name.toList.any fun char ↦ char == '=' || char == '\x00' then none
  else environment.lookup name

namespace Substitution

/-- Where a text is read. -/
inductive Place where
  /-- Outside every name. -/
  | outside
  /-- Behind a `$`. -/
  | behindDollar
  /-- In a name, whose characters are kept last first. -/
  | inName (read : List Char)

/-- What stands in the place of a name. -/
def reference (value? : String → Option String) (name : List Char) : List Char :=
  let written := '$' :: '\x7b' :: (name ++ ['\x7d'])
  if name.isEmpty then written
  else ((value? (String.ofList name)).map String.toList).getD written

/-- The text with variables replaced, from a place on. -/
def replaceFrom (value? : String → Option String) : Place → List Char → List Char
  | .outside, [] => []
  | .behindDollar, [] => ['$']
  | .inName read, [] => '$' :: '\x7b' :: read.reverse
  | .outside, char :: rest =>
    if char = '$' then replaceFrom value? .behindDollar rest
    else char :: replaceFrom value? .outside rest
  | .behindDollar, char :: rest =>
    if char = '\x7b' then replaceFrom value? (.inName []) rest
    else if char = '$' then '$' :: replaceFrom value? .behindDollar rest
    else '$' :: char :: replaceFrom value? .outside rest
  | .inName read, char :: rest =>
    if char = '\x7d' then reference value? read.reverse ++ replaceFrom value? .outside rest
    else replaceFrom value? (.inName (char :: read)) rest

def replace (value? : String → Option String) (text : List Char) : List Char :=
  replaceFrom value? .outside text

end Substitution

end SpanScore
