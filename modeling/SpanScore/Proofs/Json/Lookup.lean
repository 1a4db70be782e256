import SpanScore.Proofs.Json.Print
import SpanScore.Proofs.Json.Wrapper

/-!
# Looking up members

Of several members with one name the last one counts: a lookup among the values of members finds the
value of the last member whose key spells the name.  A printed object with one member is read with
the value of this member.
-/

namespace SpanScore.Json

open Grammar

namespace Value

theorem find?_cons (name key : String) (value : Value) (members : List (String × Value)) :
    find? name ((key, value) :: members) =
      if key = name then some value else find? name members := by
  by_cases same : key = name <;> simp [find?, same]

/-- A new member is found, and it hides no other one. -/
theorem find?_insert (name key : String) (value : Value) (members : List (String × Value)) :
    find? name (insert key value members) =
      if key = name then some value else find? name members := by
  induction members with
  | nil => by_cases same : key = name <;> simp [insert, find?, same]
  | cons member rest ih =>
    obtain ⟨other, old⟩ := member
    rw [insert]
    split
    · by_cases same : key = name <;> simp [find?, same]
    · split
      · next replaced =>
        subst replaced
        by_cases same : key = name <;> simp [find?, same]
      · next kept =>
        by_cases found : other = name
        · subst found
          simp [find?, kept]
        · simp only [find?, List.find?_cons_of_neg (p := fun member ↦ member.1 == name)
            (a := (other, old)) (by simpa using found)] at ih ⊢
          exact ih

end Value

namespace Grammar

/-- The value of the last member whose key spells a name. -/
def lastNamed? (name : String) (entries : List (Literal × Tree)) : Option Tree :=
  (entries.filter fun entry ↦ entry.1.decode? = some name).getLast?.map Prod.snd

@[simp] theorem lastNamed?_nil (name : String) : lastNamed? name [] = none := rfl

theorem lastNamed?_cons (name : String) {literal : Literal} {found : String}
    (decoded : literal.decode? = some found) (tree : Tree) (entries : List (Literal × Tree)) :
    lastNamed? name ((literal, tree) :: entries) =
      (lastNamed? name entries).or (if found = name then some tree else none) := by
  unfold lastNamed?
  by_cases same : found = name
  · rw [List.filter_cons_of_pos (by simpa [decoded] using same), List.getLast?_cons, if_pos same]
    cases (entries.filter fun entry ↦ entry.1.decode? = some name).getLast? <;> rfl
  · rw [List.filter_cons_of_neg (by simpa [decoded] using same), if_neg same, Option.or_none]

/-- A lookup among the values of members finds the last one with the name. -/
theorem find?_of_values? (name : String) {members : Members} {depth : ℕ}
    {before after : OrderedMembers} (h : members.values? depth before = some after) :
    Value.find? name after.list =
      match lastNamed? name members.entries with
      | some tree => tree.value? depth
      | none => Value.find? name before.list := by
  induction members using Members.entries.induct generalizing before with
  | case1 key _ value _ =>
    obtain ⟨found, decoded, h⟩ := Option.bind_eq_some_iff.1 h
    obtain ⟨read, value_eq, rfl⟩ := Option.map_eq_some_iff.1 h
    rw [OrderedMembers.insert, Value.find?_insert, Members.entries, lastNamed?_cons name decoded,
      lastNamed?_nil, Option.none_or]
    by_cases same : found = name
    · rw [if_pos same, if_pos same]
      exact value_eq.symm
    · rw [if_neg same, if_neg same]
  | case2 key _ value _ rest ih =>
    obtain ⟨found, decoded, h⟩ := Option.bind_eq_some_iff.1 h
    obtain ⟨read, value_eq, h⟩ := Option.bind_eq_some_iff.1 h
    rw [ih h, OrderedMembers.insert, Value.find?_insert, Members.entries,
      lastNamed?_cons name decoded]
    cases lastNamed? name rest.entries with
    | some tree => rfl
    | none =>
      by_cases same : found = name
      · rw [if_pos same, if_pos same, Option.none_or]
        exact value_eq.symm
      · rw [if_neg same, if_neg same, Option.none_or]

/-- A member of a document's value, the last one with its name counting. -/
theorem get?_of_value? (name : String) {tree : Tree} {value : Value} (plain : ¬tree.IsWrapper)
    (h : tree.value? 0 = some value) :
    value.get? name =
      (tree.entries?.bind (lastNamed? name)).bind (Tree.value? 1) := by
  cases tree with
  | emptyObject gap =>
    rw [Tree.value?, if_neg (by decide)] at h
    rw [← Option.some.inj h]
    rfl
  | object members =>
    rw [Tree.value?, if_neg (by decide), if_neg (show ¬members.IsWrapper from plain)] at h
    obtain ⟨found, values_eq, rfl⟩ := Option.map_eq_some_iff.1 h
    rw [Value.get?, find?_of_values? name values_eq, Tree.entries?, Option.bind_some]
    cases lastNamed? name members.entries <;> rfl
  | null => rw [← Option.some.inj h]; rfl
  | bool truth => rw [← Option.some.inj h]; rfl
  | number token =>
    obtain ⟨number, -, rfl⟩ := Option.map_eq_some_iff.1 h
    rfl
  | string literal =>
    obtain ⟨text, -, rfl⟩ := Option.map_eq_some_iff.1 h
    rfl
  | emptyArray gap =>
    rw [Tree.value?, if_neg (by decide)] at h
    rw [← Option.some.inj h]
    rfl
  | array items =>
    rw [Tree.value?, if_neg (by decide)] at h
    obtain ⟨values, -, rfl⟩ := Option.map_eq_some_iff.1 h
    rfl

/-! ## Objects with one member -/

/-- The object whose only member has a key and a value, as it is printed. -/
def Tree.single (key : Literal) (value : Tree) : Tree :=
  .object (.one ⟨⟨[], by simp⟩, key, ⟨[], by simp⟩⟩ ⟨[' '], by simp⟩ value ⟨[], by simp⟩)

variable {key : Literal} {name : String}

theorem Tree.text_single (spelled : Print.string name = '"' :: key.body) (value : Tree) :
    (single key value).text = Print.object .spaced [Print.member .spaced name value.text] := by
  simp [single, Tree.text, Members.text, Key.text, Print.object, Print.member, Print.separated,
    Spacing.spaced, spelled]

theorem Tree.value?_single (decoded : key.decode? = some name) (plain : name ≠ Read.wrapperKey)
    (value : Tree) {depth : ℕ} (room : depth < Read.depthLimit) :
    (single key value).value? depth =
      (value.value? (depth + 1)).map fun found ↦ .object [(name, found)] := by
  have ordinary : ¬Members.IsWrapper (.one ⟨⟨[], by simp⟩, key, ⟨[], by simp⟩⟩ ⟨[' '], by simp⟩
      value ⟨[], by simp⟩) := by
    rw [Members.IsWrapper, Members.firstKey, decoded, Option.some.injEq]
    exact plain
  rw [single, Tree.value?, if_neg (by omega), if_neg ordinary, Members.values?, decoded,
    Option.bind_some, Option.map_map]
  rfl

end Grammar

end SpanScore.Json
