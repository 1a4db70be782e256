import SpanScore.Proofs.Json.Lookup
import SpanScore.Proofs.Json.Shape

/-!
# Texts that mean the same

A text may be written in another way without another meaning: with other white space between its
tokens, with other escapes in its strings and keys, and with the members of its objects in another
order as long as those of one key keep theirs.  Main statement: trees that are alike in this sense
have the same value unless they have wrappers.  Members are put into increasing order one by one, so
what is left of them is determined by the last value of each key.
-/

namespace SpanScore.Json

open Grammar

/-! ## Members as maps -/

namespace Value

theorem KeysIncrease.nodup {members : List (String × Value)} (h : KeysIncrease members) :
    members.Nodup :=
  List.Pairwise.imp (fun less same ↦ ne_of_lt less (congrArg Prod.fst same)) h

/-- In members with increasing keys every member is found. -/
theorem KeysIncrease.find?_eq_some_iff {members : List (String × Value)} (h : KeysIncrease members)
    {name : String} {value : Value} :
    find? name members = some value ↔ (name, value) ∈ members := by
  induction members with
  | nil => simp [find?]
  | cons member rest ih =>
    obtain ⟨other, old⟩ := member
    obtain ⟨behind, increase⟩ := List.pairwise_cons.1 h
    rw [find?_cons, List.mem_cons, Prod.mk.injEq]
    split
    · next same =>
      subst same
      have absent : (other, value) ∉ rest := fun mem ↦ lt_irrefl _ (behind (other, value) mem)
      simp [absent, eq_comm]
    · next different => simp [ih increase, Ne.symm different]

end Value

/-- Ordered members are determined by what is found among them. -/
theorem OrderedMembers.ext_find? {left right : OrderedMembers}
    (h : ∀ name, Value.find? name left.list = Value.find? name right.list) : left = right := by
  have same : left.list.Perm right.list := by
    refine (List.perm_ext_iff_of_nodup left.increase.nodup right.increase.nodup).2 ?_
    intro ⟨name, value⟩
    rw [← left.increase.find?_eq_some_iff, h name, right.increase.find?_eq_some_iff]
  have list_eq : left.list = right.list :=
    same.eq_of_pairwise (fun _ _ _ _ less greater ↦ absurd less (lt_asymm greater))
      left.increase right.increase
  cases left
  cases right
  congr

namespace Grammar

/-! ## Members of an object -/

/-- What the keys and the values of members mean, one by one. -/
def meanings (depth : ℕ) (entries : List (Literal × Tree)) : List (Option String × Option Value) :=
  entries.map fun entry ↦ (entry.1.decode?, entry.2.value? depth)

/-- Members have values just when all their keys and values mean something. -/
theorem isSome_values?_iff {members : Members} {depth : ℕ} (before : OrderedMembers) :
    (members.values? depth before).isSome ↔
      ∀ meaning ∈ meanings depth members.entries, meaning.1.isSome ∧ meaning.2.isSome := by
  induction members using Members.entries.induct generalizing before with
  | case1 key _ value _ =>
    rw [Members.values?, Members.entries, meanings, List.map_singleton, List.forall_mem_singleton]
    cases key.literal.decode? <;> simp
  | case2 key _ value _ rest ih =>
    rw [Members.values?, Members.entries, meanings, List.map_cons, List.forall_mem_cons]
    cases key.literal.decode? with
    | none => simp
    | some name =>
      cases value.value? depth with
      | none => simp
      | some read =>
        rw [Option.bind_some, Option.bind_some, ih (before.insert name read), meanings]
        simp

/-- What the last member whose key spells a name means. -/
theorem lastNamed?_map_value? (name : String) (depth : ℕ) (entries : List (Literal × Tree)) :
    (lastNamed? name entries).map (Tree.value? depth) =
      ((meanings depth entries).filter fun meaning ↦ meaning.1 = some name).getLast?.map
        Prod.snd := by
  rw [meanings, List.filter_map, List.getLast?_map, Option.map_map, lastNamed?, Option.map_map]
  rfl

/-- The values of members do not depend on the order of the keys, only on that of the members of
each one. -/
theorem values?_eq_of_meanings {left right : Members} {depth : ℕ}
    (same : (meanings depth left.entries).Perm (meanings depth right.entries))
    (order : ∀ name, (meanings depth left.entries).filter (fun meaning ↦ meaning.1 = some name) =
      (meanings depth right.entries).filter fun meaning ↦ meaning.1 = some name) :
    left.values? depth .empty = right.values? depth .empty := by
  have both : (left.values? depth .empty).isSome ↔ (right.values? depth .empty).isSome := by
    rw [isSome_values?_iff, isSome_values?_iff]
    simp only [same.mem_iff]
  cases readLeft : left.values? depth .empty with
  | none =>
    rw [readLeft] at both
    cases readRight : right.values? depth .empty with
    | none => rfl
    | some members => simp [readRight] at both
  | some members =>
    rw [readLeft] at both
    obtain ⟨members', readRight⟩ := Option.isSome_iff_exists.1 (both.1 rfl)
    rw [readRight]
    refine congrArg some (OrderedMembers.ext_find? fun name ↦ ?_)
    have last : (lastNamed? name left.entries).map (Tree.value? depth) =
        (lastNamed? name right.entries).map (Tree.value? depth) := by
      rw [lastNamed?_map_value?, order name, ← lastNamed?_map_value?]
    rw [find?_of_values? name readLeft, find?_of_values? name readRight]
    cases found : lastNamed? name left.entries <;>
      cases found' : lastNamed? name right.entries <;> simp_all

/-! ## Alike trees -/

/-- Whether members are the same in another order, those of one key in the same order. -/
structure Rearranged (left right : List (Literal × Tree)) : Prop where
  perm : left.Perm right
  filter_eq : ∀ name, left.filter (fun entry ↦ entry.1.decode? = some name) =
    right.filter fun entry ↦ entry.1.decode? = some name

/-- Members whose keys spell different strings may stand in any order. -/
theorem rearranged_of_pairwise {left right : List (Literal × Tree)} (perm : left.Perm right)
    (distinct : left.Pairwise fun entry later ↦ entry.1.decode? ≠ later.1.decode?) :
    Rearranged left right := by
  refine ⟨perm, fun name ↦ ?_⟩
  have distinct' := (perm.pairwise_iff fun h ↦ Ne.symm h).1 distinct
  refine (perm.filter _).eq_of_pairwise (fun entry other mem mem' different _ ↦ ?_)
    (distinct.filter _) (distinct'.filter _)
  rw [List.mem_filter, decide_eq_true_eq] at mem mem'
  exact absurd (mem.2.trans mem'.2.symm) different

theorem Rearranged.values?_eq {left right : Members} {entries : List (Literal × Tree)} {depth : ℕ}
    (order : Rearranged left.entries entries)
    (same : meanings depth entries = meanings depth right.entries) :
    left.values? depth .empty = right.values? depth .empty := by
  refine values?_eq_of_meanings ?_ fun name ↦ ?_
  · rw [← same]
    exact order.perm.map _
  · rw [← same, meanings, meanings, List.filter_map, List.filter_map]
    exact congrArg _ (order.filter_eq name)

mutual

/-- Whether two trees differ only in white space, in the escapes of strings and keys, and in the
order of members with different keys. -/
inductive Tree.Alike : Tree → Tree → Prop
  | null : Tree.Alike .null .null
  | bool (truth : Bool) : Tree.Alike (.bool truth) (.bool truth)
  | number (token : NumberToken) : Tree.Alike (.number token) (.number token)
  | string {left right : Literal} (same : left.decode? = right.decode?) :
    Tree.Alike (.string left) (.string right)
  | emptyArray (gap gap' : Gap) : Tree.Alike (.emptyArray gap) (.emptyArray gap')
  | array {left right : Items} (items : Items.Alike left right) :
    Tree.Alike (.array left) (.array right)
  | emptyObject (gap gap' : Gap) : Tree.Alike (.emptyObject gap) (.emptyObject gap')
  | object {left right : Members} {entries : List (Literal × Tree)}
    (order : Rearranged left.entries entries) (members : EntriesAlike entries right.entries) :
    Tree.Alike (.object left) (.object right)

/-- Whether two rows of items are alike, item by item. -/
inductive Items.Alike : Items → Items → Prop
  | one {left right : Tree} (before after before' after' : Gap) (item : Tree.Alike left right) :
    Items.Alike (.one before left after) (.one before' right after')
  | more {left right : Tree} {rest rest' : Items} (before after before' after' : Gap)
    (item : Tree.Alike left right) (items : Items.Alike rest rest') :
    Items.Alike (.more before left after rest) (.more before' right after' rest')

/-- Whether two rows of members are alike, member by member. -/
inductive EntriesAlike : List (Literal × Tree) → List (Literal × Tree) → Prop
  | nil : EntriesAlike [] []
  | cons {key key' : Literal} {left right : Tree} {rest rest' : List (Literal × Tree)}
    (same : key.decode? = key'.decode?) (value : Tree.Alike left right)
    (members : EntriesAlike rest rest') :
    EntriesAlike ((key, left) :: rest) ((key', right) :: rest')

end

mutual

/-- Trees that are alike and have no wrappers have the same value, or both have none. -/
theorem Tree.Alike.value?_eq : {left right : Tree} → Tree.Alike left right →
    Unwrapped left.firstKeys → Unwrapped right.firstKeys →
    ∀ depth, left.value? depth = right.value? depth
  | _, _, .null, _, _, _ | _, _, .bool _, _, _, _ | _, _, .number _, _, _, _ => rfl
  | _, _, .emptyArray _ _, _, _, _ | _, _, .emptyObject _ _, _, _, _ => rfl
  | _, _, .string same, _, _, _ => by rw [Tree.value?, Tree.value?, same]
  | _, _, .array items, plain, plain', depth => by
    rw [Tree.value?, Tree.value?, items.values?_eq plain plain' (depth + 1)]
  | .object left, .object right, .object order members, plain, plain', depth => by
    obtain ⟨ordinary, plain⟩ := unwrapped_cons_iff.1 plain
    obtain ⟨ordinary', plain'⟩ := unwrapped_cons_iff.1 plain'
    have plains := fun entry mem ↦ left.unwrapped_iff.1 plain entry (order.perm.mem_iff.2 mem)
    have same := members.meanings_eq plains (right.unwrapped_iff.1 plain') (depth + 1)
    rw [Tree.value?, Tree.value?, if_neg (show ¬left.IsWrapper from ordinary),
      if_neg (show ¬right.IsWrapper from ordinary'), order.values?_eq same]

/-- Items that are alike have the same values. -/
theorem Items.Alike.values?_eq : {left right : Items} → Items.Alike left right →
    Unwrapped left.firstKeys → Unwrapped right.firstKeys →
    ∀ depth, left.values? depth = right.values? depth
  | _, _, .one _ _ _ _ item, plain, plain', depth => by
    rw [Items.values?, Items.values?, item.value?_eq plain plain' depth]
  | _, _, .more _ _ _ _ item items, plain, plain', depth => by
    obtain ⟨first, others⟩ := unwrapped_append_iff.1 plain
    obtain ⟨first', others'⟩ := unwrapped_append_iff.1 plain'
    rw [Items.values?, Items.values?, item.value?_eq first first' depth,
      items.values?_eq others others' depth]

/-- Members that are alike mean the same, one by one. -/
theorem EntriesAlike.meanings_eq : {left right : List (Literal × Tree)} →
    EntriesAlike left right → (∀ entry ∈ left, Unwrapped entry.2.firstKeys) →
    (∀ entry ∈ right, Unwrapped entry.2.firstKeys) →
    ∀ depth, meanings depth left = meanings depth right
  | _, _, .nil, _, _, _ => rfl
  | _, _, .cons same value members, plain, plain', depth => by
    obtain ⟨first, others⟩ := List.forall_mem_cons.1 plain
    obtain ⟨first', others'⟩ := List.forall_mem_cons.1 plain'
    have rest_eq := members.meanings_eq others others' depth
    rw [meanings, meanings] at rest_eq ⊢
    rw [List.map_cons, List.map_cons, rest_eq, same, value.value?_eq first first' depth]

end

end Grammar

end SpanScore.Json
