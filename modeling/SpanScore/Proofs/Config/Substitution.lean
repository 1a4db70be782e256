import Mathlib.Data.List.Basic
import SpanScore.Config.Substitution

/-!
# Variables are replaced in one pass

A text is read once from left to right: where it goes on with a reference the reference is taken,
and one character otherwise.  Main statement: replacing variables replaces the references of this
reading and leaves all else as it is, so the value of a variable is never searched for references.
-/

namespace SpanScore.Substitution

/-! ## Reading a text -/

/-- How a reference to a variable is written. -/
def written (name : List Char) : List Char :=
  '$' :: '\x7b' :: (name ++ ['\x7d'])

/-- Whether a text begins with a reference, whose name is not empty and ends at the next brace that
closes. -/
def BeginsReference (text : List Char) : Prop :=
  ∃ name rest, name ≠ [] ∧ '\x7d' ∉ name ∧ text = written name ++ rest

/-- A part of a text: a character, or a reference to a variable. -/
inductive Part where
  | single (char : Char)
  | reference (name : List Char)

def Part.text : Part → List Char
  | single char => [char]
  | reference name => written name

/-- What stands in the place of a part: of a reference the value of the variable, if it has one. -/
def Part.replaced (value? : String → Option String) : Part → List Char
  | single char => [char]
  | reference name => ((value? (String.ofList name)).map String.toList).getD (written name)

/-- Whether a text has some parts when it is read once from left to right. -/
inductive ReadsAs : List Char → List Part → Prop
  | nil : ReadsAs [] []
  | single {char : Char} {rest : List Char} {parts : List Part}
    (plain : ¬BeginsReference (char :: rest)) (reads : ReadsAs rest parts) :
    ReadsAs (char :: rest) (.single char :: parts)
  | reference {name rest : List Char} {parts : List Part} (nonempty : name ≠ [])
    (closes : '\x7d' ∉ name) (reads : ReadsAs rest parts) :
    ReadsAs (written name ++ rest) (.reference name :: parts)

/-- Every text can be read. -/
theorem exists_readsAs (text : List Char) : ∃ parts, ReadsAs text parts := by
  by_cases begins : BeginsReference text
  · obtain ⟨name, rest, nonempty, closes, text_eq⟩ := begins
    have shorter : rest.length < text.length := by
      rw [text_eq, List.length_append, written, List.length_cons]
      omega
    obtain ⟨parts, reads⟩ := exists_readsAs rest
    rw [text_eq]
    exact ⟨_, .reference nonempty closes reads⟩
  · match text with
    | [] => exact ⟨[], .nil⟩
    | char :: rest =>
      obtain ⟨parts, reads⟩ := exists_readsAs rest
      exact ⟨_, .single begins reads⟩
termination_by text.length

theorem ReadsAs.text_eq {text : List Char} {parts : List Part} (h : ReadsAs text parts) :
    text = parts.flatMap Part.text := by
  induction h with
  | nil => rfl
  | single _ _ ih =>
    rw [List.flatMap_cons, ← ih]
    rfl
  | reference _ _ _ ih =>
    rw [List.flatMap_cons, ← ih]
    rfl

variable (value? : String → Option String) {name text : List Char}

/-! ## Names -/

/-- A name ends at the next brace that closes. -/
theorem replaceFrom_inName (read : List Char) (closes : '\x7d' ∉ name) (rest : List Char) :
    replaceFrom value? (.inName read) (name ++ '\x7d' :: rest) =
      reference value? (read.reverse ++ name) ++ replace value? rest := by
  induction name generalizing read with
  | nil => rw [List.nil_append, replaceFrom, if_pos rfl, List.append_nil, replace]
  | cons char name ih =>
    rw [List.mem_cons, not_or] at closes
    rw [List.cons_append, replaceFrom, if_neg (Ne.symm closes.1), ih _ closes.2]
    simp

/-- What no brace closes is no name. -/
theorem replaceFrom_inName_of_notMem (read : List Char) (unclosed : '\x7d' ∉ text) :
    replaceFrom value? (.inName read) text = '$' :: '\x7b' :: (read.reverse ++ text) := by
  induction text generalizing read with
  | nil => rw [replaceFrom, List.append_nil]
  | cons char text ih =>
    rw [List.mem_cons, not_or] at unclosed
    rw [replaceFrom, if_neg (Ne.symm unclosed.1), ih _ unclosed.2]
    simp

/-! ## Steps of the pass -/

theorem replace_opened (rest : List Char) :
    replace value? ('$' :: '\x7b' :: rest) = replaceFrom value? (.inName []) rest := rfl

/-- What is closed by the next brace is replaced, or stays if nothing is in between. -/
theorem replace_closed (closes : '\x7d' ∉ name) (rest : List Char) :
    replace value? (written name ++ rest) = reference value? name ++ replace value? rest := by
  rw [written, List.cons_append, List.cons_append, replace_opened, List.append_assoc]
  exact replaceFrom_inName value? [] closes rest

theorem replace_reference (nonempty : name ≠ []) (closes : '\x7d' ∉ name) (rest : List Char) :
    replace value? (written name ++ rest) =
      (Part.reference name).replaced value? ++ replace value? rest := by
  have filled : name.isEmpty = false := by simpa using nonempty
  rw [replace_closed value? closes, reference, filled]
  rfl

/-- Braces with nothing between them are no reference. -/
theorem replace_empty (rest : List Char) :
    replace value? (written [] ++ rest) = written [] ++ replace value? rest :=
  replace_closed value? List.not_mem_nil rest

/-- An opening that no brace closes is no reference. -/
theorem replace_unclosed (unclosed : '\x7d' ∉ text) :
    replace value? ('$' :: '\x7b' :: text) = '$' :: '\x7b' :: text := by
  rw [replace_opened, replaceFrom_inName_of_notMem value? [] unclosed]
  rfl

theorem replace_cons_of_ne {char : Char} (other : char ≠ '$') (rest : List Char) :
    replace value? (char :: rest) = char :: replace value? rest := by
  rw [replace, replaceFrom, if_neg other, replace]

/-- A dollar stays where no brace follows it. -/
theorem replace_dollar (lone : text.head? ≠ some '\x7b') :
    replace value? ('$' :: text) = '$' :: replace value? text := by
  rw [replace, replaceFrom, if_pos rfl]
  cases text with
  | nil => rfl
  | cons char rest =>
    have other : char ≠ '\x7b' := by simpa using lone
    rw [replaceFrom, if_neg other, replace, replaceFrom]
    split <;> rfl

/-- Nothing is replaced where no brace closes. -/
theorem replace_of_notMem (unclosed : '\x7d' ∉ text) : replace value? text = text := by
  induction text with
  | nil => rfl
  | cons char text ih =>
    rw [List.mem_cons, not_or] at unclosed
    have rest := ih unclosed.2
    by_cases dollar : char = '$'
    · obtain rfl := dollar
      by_cases opens : text.head? = some '\x7b'
      · obtain ⟨more, rfl⟩ := List.head?_eq_some_iff.1 opens
        exact replace_unclosed value? fun mem ↦ unclosed.2 (List.mem_cons_of_mem _ mem)
      · rw [replace_dollar value? opens, rest]
    · rw [replace_cons_of_ne value? dollar, rest]

/-- A character that begins no reference stays. -/
theorem replace_cons {char : Char} {rest : List Char} (plain : ¬BeginsReference (char :: rest)) :
    replace value? (char :: rest) = char :: replace value? rest := by
  by_cases dollar : char = '$'
  · obtain rfl := dollar
    by_cases opens : rest.head? = some '\x7b'
    · obtain ⟨more, rfl⟩ := List.head?_eq_some_iff.1 opens
      rw [replace_cons_of_ne value? (show '\x7b' ≠ '$' by decide)]
      by_cases closed : '\x7d' ∈ more
      · obtain ⟨name, after, rfl, closes⟩ := List.eq_append_cons_of_mem closed
        obtain rfl : name = [] := by
          by_contra nonempty
          exact plain ⟨name, after, nonempty, closes, by simp [written]⟩
        rw [List.nil_append, replace_cons_of_ne value? (show '\x7d' ≠ '$' by decide)]
        exact replace_empty value? after
      · rw [replace_unclosed value? closed, replace_of_notMem value? closed]
    · exact replace_dollar value? opens
  · exact replace_cons_of_ne value? dollar rest

/-- The parts of a text are replaced one by one. -/
theorem replace_of_readsAs {parts : List Part} (h : ReadsAs text parts) :
    replace value? text = parts.flatMap (Part.replaced value?) := by
  induction h with
  | nil => rfl
  | single plain _ ih =>
    rw [replace_cons value? plain, ih]
    rfl
  | reference nonempty closes _ ih =>
    rw [replace_reference value? nonempty closes, ih]
    rfl

theorem replaced_eq_text {part : Part}
    (unset : ∀ name, part = .reference name → value? (String.ofList name) = none) :
    part.replaced value? = part.text := by
  cases part with
  | single char => rfl
  | reference name =>
    rw [Part.replaced, unset name rfl]
    rfl

/-- Replacing variables reads a text once from left to right.  Every text has such a reading, and
in any one of them each reference gives way to the value of its variable, if it has one, and all
else stays.  So nothing changes unless a variable has a value.  Where the reading goes on with
braces that have nothing between them, with an opening that is never closed or with a lone dollar,
these stay as well. -/
theorem replace_is_one_pass (environment : Environment) (text : List Char) :
    (∃ parts, ReadsAs text parts) ∧
    (∀ parts, ReadsAs text parts →
      text = parts.flatMap Part.text ∧
      replace environment.value? text = parts.flatMap (Part.replaced environment.value?) ∧
      ((∀ name, .reference name ∈ parts → environment.value? (String.ofList name) = none) →
        replace environment.value? text = text)) ∧
    replace environment.value? ('$' :: '\x7b' :: '\x7d' :: text) =
      '$' :: '\x7b' :: '\x7d' :: replace environment.value? text ∧
    ('\x7d' ∉ text →
      replace environment.value? ('$' :: '\x7b' :: text) = '$' :: '\x7b' :: text) ∧
    (text.head? ≠ some '\x7b' →
      replace environment.value? ('$' :: text) = '$' :: replace environment.value? text) := by
  refine ⟨exists_readsAs text, fun parts reads ↦ ⟨reads.text_eq, ?_, fun unset ↦ ?_⟩,
    replace_empty _ text, replace_unclosed _, replace_dollar _⟩
  · exact replace_of_readsAs _ reads
  · have same : ∀ part ∈ parts, part.replaced environment.value? = part.text :=
      fun part mem ↦ replaced_eq_text _ fun name eq ↦ unset name (eq ▸ mem)
    rw [replace_of_readsAs _ reads, List.flatMap_congr same, ← reads.text_eq]

/-- A value is not read again, not even together with what follows it. -/
example :
    replace (fun name ↦ if name = "A" then some "$\x7bA\x7d$" else none)
      "$\x7bA\x7d\x7bA\x7d$\x7bB\x7d".toList =
    "$\x7bA\x7d$\x7bA\x7d$\x7bB\x7d".toList := by
  decide

end SpanScore.Substitution
