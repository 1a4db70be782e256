import SpanScore.Proofs.Feature.Path

/-!
# Paths step by step

A path is followed by one lookup for each of the parts between its dots, and every lookup needs an
object.  Main statement: to follow one path and another one behind it is to follow both one after
the other, and a path leads nowhere exactly if some step meets a value that is no object or an
object without the key.
-/

namespace SpanScore.Path

open Json

/-! ## Parts between dots -/

theorem segments_eq_splitOn (text : List Char) : segments text = text.splitOn '.' := by
  induction text with
  | nil => rfl
  | cons char text ih =>
    rw [segments, ih, List.splitOn_cons_eq_if_modifyHead]
    simp only [beq_iff_eq]
    split
    · rfl
    · obtain ⟨segment, others, parts⟩ :=
        List.exists_cons_of_ne_nil (List.splitOn_ne_nil '.' text)
      rw [parts]
      rfl

/-- A dot between two texts parts their parts. -/
theorem segments_append_dot (text text' : List Char) :
    segments (text ++ '.' :: text') = segments text ++ segments text' := by
  rw [segments_eq_splitOn, segments_eq_splitOn, segments_eq_splitOn,
    List.splitOn_append_cons_self]

/-! ## Steps -/

/-- Whether keys lead from a value to another one: each of them is the key of a member of the object
reached so far. -/
inductive Leads : Value → List (List Char) → Value → Prop
  | here (value : Value) : Leads value [] value
  | step {members : List (String × Value)} {key : List Char} {keys : List (List Char)}
    {next value : Value} (found : members.lookup (String.ofList key) = some next)
    (leads : Leads next keys value) : Leads (.object members) (key :: keys) value

/-- Whether a value has nothing under a key: it is no object, or an object without this key. -/
def Lacks (key : List Char) (value : Value) : Prop :=
  ∀ members, value = .object members → members.lookup (String.ofList key) = none

theorem find?_eq_lookup (name : String) (members : List (String × Value)) :
    Value.find? name members = members.lookup name := by
  induction members with
  | nil => rfl
  | cons member members ih =>
    obtain ⟨other, value⟩ := member
    rw [Value.find?_cons, List.lookup_cons, ih]
    by_cases same : other = name
    · rw [if_pos same, beq_iff_eq.2 same.symm]
    · rw [if_neg same, beq_eq_false_iff_ne.2 (Ne.symm same)]

variable {root value : Value} {key : List Char} {keys : List (List Char)}

theorem get?_eq_some_iff : root.get? (String.ofList key) = some value ↔
    ∃ members, root = .object members ∧ members.lookup (String.ofList key) = some value := by
  cases root <;> simp [Value.get?, find?_eq_lookup]

theorem get?_eq_none_iff : root.get? (String.ofList key) = none ↔ Lacks key root := by
  cases root <;> simp [Value.get?, find?_eq_lookup, Lacks]

theorem follow_eq_some_iff : follow root keys = some value ↔ Leads root keys value := by
  induction keys generalizing root with
  | nil =>
    constructor
    · intro found
      cases found
      exact .here value
    · intro leads
      cases leads
      rfl
  | cons key keys ih =>
    rw [follow_cons, Option.bind_eq_some_iff]
    constructor
    · rintro ⟨next, found, leads⟩
      obtain ⟨members, rfl, listed⟩ := get?_eq_some_iff.1 found
      exact .step listed (ih.1 leads)
    · intro leads
      cases leads with
      | step found leads => exact ⟨_, get?_eq_some_iff.2 ⟨_, rfl, found⟩, ih.2 leads⟩

theorem follow_append (root : Value) (keys keys' : List (List Char)) :
    follow root (keys ++ keys') = (follow root keys).bind fun value ↦ follow value keys' :=
  List.foldlM_append

/-- Keys lead nowhere exactly if one of them is missing where those before it lead. -/
theorem follow_eq_none_iff : follow root keys = none ↔
    ∃ before key after value, keys = before ++ key :: after ∧ Leads root before value ∧
      Lacks key value := by
  constructor
  · intro absent
    induction keys generalizing root with
    | nil => cases absent
    | cons key keys ih =>
      cases found : root.get? (String.ofList key) with
      | none => exact ⟨[], key, keys, root, rfl, .here root, get?_eq_none_iff.1 found⟩
      | some next =>
        rw [follow_cons, found] at absent
        obtain ⟨before, last, after, value, rfl, leads, lacks⟩ := ih absent
        obtain ⟨members, rfl, listed⟩ := get?_eq_some_iff.1 found
        exact ⟨key :: before, last, after, value, rfl, .step listed leads, lacks⟩
  · rintro ⟨before, key, after, value, rfl, leads, lacks⟩
    rw [follow_append, follow_eq_some_iff.2 leads, Option.bind_some, follow_cons,
      get?_eq_none_iff.2 lacks]
    rfl

/-! ## Paths -/

/-- Paths are followed step by step.  A path with another one behind it leads to where the other one
leads from where the first one leads.  A path leads to a value exactly if the parts between its dots
do, the empty part being the empty key; and it leads nowhere exactly if one of these parts meets a
value that is no object, such as an array, or an object without this key. -/
theorem resolve_step_by_step (root : Value) (path path' : String) :
    resolve root (path ++ "." ++ path') =
      ((resolve root path).bind fun value ↦ resolve value path') ∧
    (∀ value, resolve root path = some value ↔ Leads root (path.toList.splitOn '.') value) ∧
    (resolve root path = none ↔
      ∃ before key after value, path.toList.splitOn '.' = before ++ key :: after ∧
        Leads root before value ∧ Lacks key value) := by
  have dotted : (path ++ "." ++ path').toList = path.toList ++ '.' :: path'.toList := by simp
  refine ⟨?_, fun value ↦ ?_, ?_⟩
  · rw [resolve, dotted, segments_append_dot, follow_append]
    rfl
  · rw [← segments_eq_splitOn]
    exact follow_eq_some_iff
  · rw [← segments_eq_splitOn]
    exact follow_eq_none_iff

/-- Dots at the ends of a path and next to one another stand beside empty keys, and no part of a
path is the place of an item. -/
example :
    resolve (.object [("", .object [("", .object [("a", .array [.null])])])]) "..a" =
      some (.array [.null]) ∧
    resolve (.object [("a", .array [.null])]) "a.0" = none :=
  ⟨rfl, rfl⟩

end SpanScore.Path
