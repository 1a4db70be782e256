/-!
# JSON values

Values as a tree.  An object keeps its members in increasing order of their keys, each key once:
whoever builds an object does so from `OrderedMembers`, where a later value of a key replaces the
earlier one.
-/

namespace SpanScore.Json

/-- A JSON number: an integer of 64 bits, with or without a sign, or else a double. -/
inductive Number where
  | integer (value : Int)
  | double (value : Float)
deriving DecidableEq, Inhabited

/-- The double nearest to a number. -/
def Number.toFloat : Number → Float
  | integer (.ofNat magnitude) => magnitude.toUInt64.toFloat
  | integer (.negSucc magnitude) => -(magnitude + 1).toUInt64.toFloat
  | double value => value

/-- A JSON value. -/
inductive Value where
  | null
  | bool (value : Bool)
  | number (value : Number)
  | string (text : String)
  | array (items : List Value)
  | object (members : List (String × Value))
deriving Inhabited

namespace Value

/-- Members with one more key, or with another value for a key they have. -/
def insert (key : String) (value : Value) : List (String × Value) → List (String × Value)
  | [] => [(key, value)]
  | (other, old) :: rest =>
    if key < other then (key, value) :: (other, old) :: rest
    else if key = other then (key, value) :: rest
    else (other, old) :: insert key value rest

/-- Whether the keys of members increase, so that each occurs once. -/
def KeysIncrease (members : List (String × Value)) : Prop :=
  members.Pairwise fun member later ↦ member.1 < later.1

instance (members : List (String × Value)) : Decidable (KeysIncrease members) :=
  inferInstanceAs (Decidable (List.Pairwise _ _))

theorem forall_mem_insert {members : List (String × Value)} {key : String} {value : Value}
    {claim : String × Value → Prop} (first : claim (key, value))
    (others : ∀ member ∈ members, claim member) :
    ∀ member ∈ insert key value members, claim member := by
  induction members with
  | nil => exact List.forall_mem_singleton.2 first
  | cons member rest ih =>
    obtain ⟨head, tail⟩ := List.forall_mem_cons.1 others
    rw [insert]
    split
    · exact List.forall_mem_cons.2 ⟨first, others⟩
    · split
      · exact List.forall_mem_cons.2 ⟨first, tail⟩
      · exact List.forall_mem_cons.2 ⟨head, ih tail⟩

/-- A new member is put where it belongs. -/
theorem KeysIncrease.insert {members : List (String × Value)} (h : KeysIncrease members)
    (key : String) (value : Value) : KeysIncrease (insert key value members) := by
  induction members with
  | nil => exact List.pairwise_singleton _ _
  | cons member rest ih =>
    obtain ⟨other, old⟩ := member
    obtain ⟨behind, increase⟩ := List.pairwise_cons.1 h
    rw [Value.insert]
    split
    · next before =>
      refine List.pairwise_cons.2 ⟨List.forall_mem_cons.2 ⟨before, fun later mem ↦ ?_⟩, h⟩
      exact String.lt_trans before (behind later mem)
    · next notBefore =>
      split
      · next same =>
        subst same
        exact List.pairwise_cons.2 ⟨behind, increase⟩
      · next different =>
        have after : other < key :=
          Std.lt_of_le_of_ne (String.not_lt.1 notBefore) (Ne.symm different)
        exact List.pairwise_cons.2 ⟨forall_mem_insert after behind, ih increase⟩

def find? (key : String) (members : List (String × Value)) : Option Value :=
  (members.find? fun member ↦ member.1 == key).map Prod.snd

def get? (key : String) : Value → Option Value
  | object members => find? key members
  | _ => none

def items? : Value → Option (List Value)
  | array items => some items
  | _ => none

def float? : Value → Option Float
  | number value => some value.toFloat
  | _ => none

end Value

/-- Members whose keys increase. -/
structure OrderedMembers where
  list : List (String × Value)
  increase : Value.KeysIncrease list

namespace OrderedMembers

def empty : OrderedMembers :=
  ⟨[], List.Pairwise.nil⟩

def insert (key : String) (value : Value) (members : OrderedMembers) : OrderedMembers :=
  ⟨Value.insert key value members.list, members.increase.insert key value⟩

end OrderedMembers

end SpanScore.Json
