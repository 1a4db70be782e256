import Mathlib.Algebra.Group.Int.Defs
import Mathlib.Data.String.Basic
import SpanScore.Proofs.Json.Values

/-!
# Shapes of values

How deep a value is nested, which numbers it has, and whether its objects keep their members in
increasing order of the keys.  Main statement: every value that is read does so.  Members in this
order are built one by one, each behind the others.
-/

namespace SpanScore.Json

/-- Whether a number is an integer of 64 bits, with or without a sign. -/
def Number.IsWord : Number → Prop
  | integer value => -2 ^ 63 ≤ value ∧ value < 2 ^ 64
  | double _ => False

instance : DecidablePred Number.IsWord
  | .integer _ => inferInstanceAs (Decidable (_ ∧ _))
  | .double _ => inferInstanceAs (Decidable False)

namespace Value

mutual

/-- How many arrays and objects stand in each other. -/
def height : Value → Nat
  | .array items => heightItems items + 1
  | .object members => heightMembers members + 1
  | _ => 0

def heightItems : List Value → Nat
  | [] => 0
  | item :: items => max item.height (heightItems items)

def heightMembers : List (String × Value) → Nat
  | [] => 0
  | (_, value) :: members => max value.height (heightMembers members)

end

mutual

/-- All numbers of a value. -/
def numbers : Value → List Number
  | .number value => [value]
  | .array items => numbersItems items
  | .object members => numbersMembers members
  | _ => []

def numbersItems : List Value → List Number
  | [] => []
  | item :: items => item.numbers ++ numbersItems items

def numbersMembers : List (String × Value) → List Number
  | [] => []
  | (_, value) :: members => value.numbers ++ numbersMembers members

end

mutual

/-- The first key of each object. -/
def firstKeys : Value → List String
  | .array items => firstKeysItems items
  | .object members => (members.head?.map Prod.fst).toList ++ firstKeysMembers members
  | _ => []

def firstKeysItems : List Value → List String
  | [] => []
  | item :: items => item.firstKeys ++ firstKeysItems items

def firstKeysMembers : List (String × Value) → List String
  | [] => []
  | (_, value) :: members => value.firstKeys ++ firstKeysMembers members

end

mutual

/-- Whether the keys of all objects increase. -/
def IsOrdered : Value → Prop
  | .array items => AreOrdered items
  | .object members => KeysIncrease members ∧ MembersAreOrdered members
  | _ => True

def AreOrdered : List Value → Prop
  | [] => True
  | item :: items => item.IsOrdered ∧ AreOrdered items

def MembersAreOrdered : List (String × Value) → Prop
  | [] => True
  | (_, value) :: members => value.IsOrdered ∧ MembersAreOrdered members

end

/-! ## Parts -/

theorem heightItems_le_iff {items : List Value} {bound : ℕ} :
    heightItems items ≤ bound ↔ ∀ item ∈ items, item.height ≤ bound := by
  induction items with
  | nil => simp [heightItems]
  | cons item items ih => simp [heightItems, ih]

theorem heightMembers_le_iff {members : List (String × Value)} {bound : ℕ} :
    heightMembers members ≤ bound ↔ ∀ member ∈ members, member.2.height ≤ bound := by
  induction members with
  | nil => simp [heightMembers]
  | cons member members ih => simp [heightMembers, ih]

theorem mem_numbersItems {items : List Value} {number : Number} :
    number ∈ numbersItems items ↔ ∃ item ∈ items, number ∈ item.numbers := by
  induction items with
  | nil => simp [numbersItems]
  | cons item items ih => simp [numbersItems, ih]

theorem mem_numbersMembers {members : List (String × Value)} {number : Number} :
    number ∈ numbersMembers members ↔ ∃ member ∈ members, number ∈ member.2.numbers := by
  induction members with
  | nil => simp [numbersMembers]
  | cons member members ih => simp [numbersMembers, ih]

theorem mem_firstKeysItems {items : List Value} {key : String} :
    key ∈ firstKeysItems items ↔ ∃ item ∈ items, key ∈ item.firstKeys := by
  induction items with
  | nil => simp [firstKeysItems]
  | cons item items ih => simp [firstKeysItems, ih]

theorem mem_firstKeysMembers {members : List (String × Value)} {key : String} :
    key ∈ firstKeysMembers members ↔ ∃ member ∈ members, key ∈ member.2.firstKeys := by
  induction members with
  | nil => simp [firstKeysMembers]
  | cons member members ih => simp [firstKeysMembers, ih]

theorem areOrdered_iff {items : List Value} :
    AreOrdered items ↔ ∀ item ∈ items, item.IsOrdered := by
  induction items with
  | nil => simp [AreOrdered]
  | cons item items ih => simp [AreOrdered, ih]

theorem membersAreOrdered_iff {members : List (String × Value)} :
    MembersAreOrdered members ↔ ∀ member ∈ members, member.2.IsOrdered := by
  induction members with
  | nil => simp [MembersAreOrdered]
  | cons member members ih => simp [MembersAreOrdered, ih]

/-! ## Values that their texts give back -/

/-- A value whose text means nothing but the value, even with `depth` arrays and objects around it:
its keys are in order, its numbers are integers of 64 bits, it is not nested too deeply, and none of
its objects would be read as a wrapper. -/
structure IsPlainAt (depth : ℕ) (value : Value) : Prop where
  ordered : value.IsOrdered
  words : ∀ number ∈ value.numbers, number.IsWord
  shallow : depth + value.height ≤ Read.depthLimit
  unwrapped : Read.wrapperKey ∉ value.firstKeys

theorem isPlainAt_array {depth : ℕ} {items : List Value} (h : (array items).IsPlainAt depth) :
    depth < Read.depthLimit ∧ ∀ item ∈ items, item.IsPlainAt (depth + 1) := by
  obtain ⟨ordered, words, shallow, unwrapped⟩ := h
  rw [height] at shallow
  have heights := heightItems_le_iff.1 (le_refl (heightItems items))
  refine ⟨by omega, fun item mem ↦ ⟨?_, fun number found ↦ ?_, ?_, fun found ↦ ?_⟩⟩
  · exact areOrdered_iff.1 ordered item mem
  · exact words number (mem_numbersItems.2 ⟨item, mem, found⟩)
  · have := heights item mem
    omega
  · exact unwrapped (mem_firstKeysItems.2 ⟨item, mem, found⟩)

theorem isPlainAt_object {depth : ℕ} {members : List (String × Value)}
    (h : (object members).IsPlainAt depth) :
    depth < Read.depthLimit ∧ KeysIncrease members ∧
      (∀ member ∈ members.head?, member.1 ≠ Read.wrapperKey) ∧
      ∀ member ∈ members, member.2.IsPlainAt (depth + 1) := by
  obtain ⟨ordered, words, shallow, unwrapped⟩ := h
  rw [height] at shallow
  rw [firstKeys, List.mem_append, not_or] at unwrapped
  have heights := heightMembers_le_iff.1 (le_refl (heightMembers members))
  refine ⟨by omega, ordered.1, fun member first same ↦ ?_,
    fun member mem ↦ ⟨?_, fun number found ↦ ?_, ?_, fun found ↦ ?_⟩⟩
  · exact unwrapped.1 (by simp [Option.mem_def.1 first, same])
  · exact membersAreOrdered_iff.1 ordered.2 member mem
  · exact words number (mem_numbersMembers.2 ⟨member, mem, found⟩)
  · have := heights member mem
    omega
  · exact unwrapped.2 (mem_firstKeysMembers.2 ⟨member, mem, found⟩)

/-! ## Members in order -/

/-- In increasing members the key of each is behind those in front of it. -/
theorem KeysIncrease.forall_lt {earlier later : List (String × Value)} {key : String}
    {value : Value} (h : KeysIncrease (earlier ++ (key, value) :: later)) :
    ∀ member ∈ earlier, member.1 < key :=
  fun member mem ↦ (List.pairwise_append.1 h).2.2 member mem (key, value) List.mem_cons_self

/-- A member whose key is behind all others is put behind all others. -/
theorem insert_of_forall_lt {members : List (String × Value)} {key : String}
    (behind : ∀ member ∈ members, member.1 < key) (value : Value) :
    insert key value members = members ++ [(key, value)] := by
  induction members with
  | nil => rfl
  | cons member members ih =>
    rw [List.forall_mem_cons] at behind
    rw [insert, if_neg (String.lt_asymm behind.1), if_neg (ne_of_gt behind.1), ih behind.2,
      List.cons_append]

end Value

/-- A value whose objects keep their members in increasing order of the keys. -/
structure OrderedValue where
  value : Value
  ordered : value.IsOrdered

/-! ## Values that are read -/

namespace Read

/-- Whether all values that an open array or object has so far are ordered. -/
def Frame.IsOrdered : Frame → Prop
  | items before => ∀ item ∈ before, item.IsOrdered
  | members before _ => ∀ member ∈ before.list, member.2.IsOrdered

def Head.IsOrdered : Head → Prop
  | whole value _ => value.IsOrdered
  | opened frame _ => frame.IsOrdered
  | wrapper _ _ => True

def Step.IsOrdered : Step → Prop
  | finished value _ => value.IsOrdered
  | next frames _ => ∀ frame ∈ frames, frame.IsOrdered

variable {frames : List Frame} {text rest : List Char} {value : Value}

theorem isOrdered_of_map {α : Type} {result : Except Fault α} {make : α → Head} {found : Head}
    (h : result.map make = .ok found) (ordered : ∀ read, (make read).IsOrdered) :
    found.IsOrdered := by
  cases result with
  | error fault => simp [Except.map] at h
  | ok read =>
    simp only [Except.map, Except.ok.injEq] at h
    exact h ▸ ordered read

theorem isOrdered_of_enter {key : String} {found : Head} (h : enter key text = .ok found) :
    found.IsOrdered := by
  unfold enter at h
  split at h
  · exact isOrdered_of_map h fun _ ↦ trivial
  · rw [← Except.ok.inj h]
    exact List.forall_mem_nil _

theorem isOrdered_of_head {depth : Nat} {found : Head} (h : head depth text = .ok found) :
    found.IsOrdered := by
  unfold head at h
  split at h
  · simp [stop] at h
  · exact isOrdered_of_map h fun _ ↦ trivial
  · exact isOrdered_of_map h fun _ ↦ trivial
  · exact isOrdered_of_map h fun _ ↦ trivial
  · exact isOrdered_of_map h fun _ ↦ trivial
  · exact isOrdered_of_map h fun _ ↦ trivial
  · split at h
    · simp [stop] at h
    · split at h
      · simp [stop] at h
      · rw [← Except.ok.inj h]
        trivial
      · rw [← Except.ok.inj h]
        exact List.forall_mem_nil _
  · split at h
    · simp [stop] at h
    · split at h
      · rw [← Except.ok.inj h]
        exact ⟨List.Pairwise.nil, trivial⟩
      · next name _ =>
        cases read : key name with
        | error fault => simp [read, Except.bind] at h
        | ok found =>
          simp only [read, Except.bind] at h
          exact isOrdered_of_enter h
      · simp [stop] at h
  · split at h
    · exact isOrdered_of_map h fun _ ↦ trivial
    · simp [stop] at h

/-- A step puts ordered values together to ordered ones. -/
theorem isOrdered_of_resume {step : Step} (ordered : value.IsOrdered)
    (around : ∀ frame ∈ frames, frame.IsOrdered) (h : resume value frames text = .ok step) :
    step.IsOrdered := by
  fun_induction resume value frames text with
  | case1 =>
    rw [← Except.ok.inj h]
    exact ordered
  | case2 => simp [stop] at h
  | case3 value before outer text after comma _ =>
    obtain ⟨first, others⟩ := List.forall_mem_cons.1 around
    rw [← Except.ok.inj h]
    exact List.forall_mem_cons.2 ⟨List.forall_mem_cons.2 ⟨ordered, first⟩, others⟩
  | case4 value before outer text after close ih =>
    obtain ⟨first, others⟩ := List.forall_mem_cons.1 around
    refine ih (Value.areOrdered_iff.2 fun item mem ↦ ?_) others h
    exact List.forall_mem_cons.2 ⟨ordered, first⟩ item (List.mem_reverse.1 mem)
  | case5 => simp [stop] at h
  | case6 value before key outer text members after comma name quote =>
    obtain ⟨first, others⟩ := List.forall_mem_cons.1 around
    cases read : Read.key name with
    | error fault => simp [read, Except.map] at h
    | ok found =>
      simp only [read, Except.map, Except.ok.injEq] at h
      rw [← h]
      exact List.forall_mem_cons.2 ⟨Value.forall_mem_insert ordered first, others⟩
  | case7 => simp [stop] at h
  | case8 => simp [stop] at h
  | case9 value before key outer text members after close ih =>
    obtain ⟨first, others⟩ := List.forall_mem_cons.1 around
    refine ih ⟨members.increase, Value.membersAreOrdered_iff.2 ?_⟩ others h
    exact Value.forall_mem_insert ordered first
  | case10 => simp [stop] at h

/-- A reading within ordered values leads to an ordered one. -/
theorem isOrdered_of_build (h : build frames text = .ok (value, rest))
    (around : ∀ frame ∈ frames, frame.IsOrdered) : value.IsOrdered := by
  refine build_induction
    (fun frames _ value _ ↦ (∀ frame ∈ frames, frame.IsOrdered) → value.IsOrdered)
    (fun value frames _ complete _ ↦ value.IsOrdered →
      (∀ frame ∈ frames, frame.IsOrdered) → complete.IsOrdered)
    ?whole ?opened ?wrapper ?finished ?next h around
  case whole =>
    intro frames text value after complete rest found ordered around
    exact ordered (isOrdered_of_head found) around
  case opened =>
    intro frames text frame inner value rest found ordered around
    exact ordered (List.forall_mem_cons.2 ⟨isOrdered_of_head found, around⟩)
  case wrapper =>
    intro frames text inner after value left closed complete rest _ _ inside ordered around
    exact ordered (inside (List.forall_mem_nil _)) around
  case finished =>
    intro value frames text complete rest ended ordered around
    exact isOrdered_of_resume ordered around ended
  case next =>
    intro value frames text stack after complete rest continued complete_ordered ordered around
    exact complete_ordered (isOrdered_of_resume ordered around continued)

end Read

/-- Every value that is read is ordered. -/
theorem Value.isOrdered_of_ofBytes {bytes : List UInt8} {value : Value}
    (h : ofBytes bytes = .ok value) : value.IsOrdered := by
  obtain ⟨text, gap, -, read⟩ := readWhole_eq_ok_iff.1 h
  exact Read.isOrdered_of_build read (List.forall_mem_nil _)

end SpanScore.Json
