import SpanScore.Feature.Path
import SpanScore.Proofs.Json.Lookup

/-!
# Replacing what a path leads to

A value may be replaced inside another one.  The path to it then leads to the new value, and every
path that parts from this one leads to what it led to before.
-/

namespace SpanScore

namespace Json.Value

/-- A value with another one where some keys lead to; it stays as it is where they lead nowhere. -/
def replaceAt (new : Value) : List (List Char) → Value → Value
  | [], _ => new
  | key :: keys, .object members =>
    .object (members.map fun member ↦
      if member.1 = String.ofList key then (member.1, replaceAt new keys member.2) else member)
  | _ :: _, value => value

/-- Another value of one key is found in the place of the old one. -/
theorem find?_map_value (name key : String) (change : Value → Value)
    (members : List (String × Value)) :
    find? name (members.map fun member ↦
      if member.1 = key then (member.1, change member.2) else member) =
      if name = key then (find? name members).map change else find? name members := by
  induction members with
  | nil => simp [find?]
  | cons member members ih =>
    obtain ⟨other, value⟩ := member
    rw [List.map_cons, find?_cons]
    by_cases changed : other = key
    · rw [if_pos changed, find?_cons, ih]
      by_cases found : other = name
      · rw [if_pos found, if_pos found, if_pos (found.symm.trans changed), Option.map_some]
      · rw [if_neg found, if_neg found]
    · rw [if_neg changed, find?_cons, ih]
      by_cases found : other = name
      · rw [if_pos found, if_pos found, if_neg (found ▸ changed)]
      · rw [if_neg found, if_neg found]

/-- Below a value only what the first key leads to is replaced. -/
theorem get?_replaceAt (new : Value) (name : String) (key : List Char) (keys : List (List Char))
    (value : Value) :
    (replaceAt new (key :: keys) value).get? name =
      if name = String.ofList key then (value.get? name).map (replaceAt new keys)
      else value.get? name := by
  cases value with
  | object members => exact find?_map_value name _ _ members
  | _ => exact (ite_self _).symm

end Json.Value

namespace Path

open Json

variable {new value : Value} {keys keys' : List (List Char)}

theorem follow_cons (value : Value) (key : List Char) (keys : List (List Char)) :
    follow value (key :: keys) =
      (value.get? (String.ofList key)).bind fun next ↦ follow next keys := rfl

theorem resolveArray_eq_some_iff {span : Value} {path : String} {items : List Value} :
    resolveArray span path = some items ↔ resolve span path = some (.array items) := by
  rw [resolveArray, Option.bind_eq_some_iff]
  constructor
  · rintro ⟨value, found, isArray⟩
    cases value with
    | array items' => rw [found, Option.some.inj isArray]
    | _ => cases isArray
  · intro found
    exact ⟨_, found, rfl⟩

/-- The keys lead to the new value. -/
theorem follow_replaceAt {old : Value} (found : follow value keys = some old) :
    follow (Value.replaceAt new keys value) keys = some new := by
  induction keys generalizing value with
  | nil => rfl
  | cons key keys ih =>
    rw [follow_cons, Option.bind_eq_some_iff] at found
    obtain ⟨next, reached, found⟩ := found
    rw [follow_cons, Value.get?_replaceAt, if_pos rfl, reached, Option.map_some, Option.bind_some]
    exact ih found

/-- Keys that part from those to the new value lead to what they led to before. -/
theorem follow_replaceAt_of_apart (apart : ¬keys <+: keys') (apart' : ¬keys' <+: keys) :
    follow (Value.replaceAt new keys value) keys' = follow value keys' := by
  induction keys generalizing value keys' with
  | nil => exact absurd List.nil_prefix apart
  | cons key keys ih =>
    cases keys' with
    | nil => exact absurd List.nil_prefix apart'
    | cons key' keys' =>
      rw [follow_cons, follow_cons, Value.get?_replaceAt]
      by_cases same : key' = key
      · obtain rfl := same
        rw [List.prefix_cons_inj] at apart apart'
        rw [if_pos rfl, Option.bind_map]
        exact Option.bind_congr fun next _ ↦ ih apart apart'
      · rw [if_neg (mt String.ofList_inj.1 same)]

/-- A value with another one at the end of a path. -/
def replace (path : String) (new : Value) (root : Value) : Value :=
  Value.replaceAt new (segments path.toList) root

theorem resolve_replace {root old : Value} {path : String} (found : resolve root path = some old) :
    resolve (replace path new root) path = some new :=
  follow_replaceAt found

/-- Whether one of two paths goes on where the other one ends. -/
def Meet (path other : String) : Prop :=
  segments path.toList <+: segments other.toList ∨ segments other.toList <+: segments path.toList

instance (path other : String) : Decidable (Meet path other) :=
  inferInstanceAs (Decidable (_ ∨ _))

theorem resolve_replace_of_apart {root : Value} {path other : String} (apart : ¬Meet path other) :
    resolve (replace path new root) other = resolve root other := by
  rw [Meet, not_or] at apart
  exact follow_replaceAt_of_apart apart.1 apart.2

end Path

end SpanScore
