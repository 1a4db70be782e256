import SpanScore.Proofs.Json.Doubles
import SpanScore.Proofs.Json.Significand
import SpanScore.Proofs.Json.Wrapper

/-!
# Trees that have a value

The grammar derives more than the reader accepts.  A tree without wrappers has a value just when it
is not nested too deeply, the numbers in it are in range, and its strings and keys have no half of a
surrogate pair that stands alone.
-/

namespace SpanScore.Json

open Grammar Double

/-! ## Surrogate pairs -/

namespace Grammar

/-- Whether every half of a surrogate pair stands beside the other half. -/
def Piece.IsPaired (pieces : List Piece) : Prop :=
  ∀ before unit after, pieces = before ++ .unicode unit :: after →
    (unit.IsLeading → ∃ next, after.head? = some (.unicode next) ∧ next.IsTrailing) ∧
      (unit.IsTrailing → ∃ previous, before.getLast? = some (.unicode previous) ∧
        previous.IsLeading)

def Literal.IsPaired (literal : Literal) : Prop :=
  Piece.IsPaired literal.pieces

namespace Piece

/-- Parts in which every half is paired take no half from what stands behind them. -/
theorem isPaired_append_iff {front : List Piece} (paired : IsPaired front) (rest : List Piece) :
    IsPaired (front ++ rest) ↔ IsPaired rest := by
  constructor
  · intro whole before unit after split
    have shifted : front ++ rest = front ++ before ++ .unicode unit :: after := by
      rw [split, List.append_assoc]
    obtain ⟨leading, trailing⟩ := whole (front ++ before) unit after shifted
    refine ⟨leading, fun isTrailing ↦ ?_⟩
    obtain ⟨previous, last, isLeading⟩ := trailing isTrailing
    rw [List.getLast?_append] at last
    cases found : before.getLast? with
    | some piece => exact ⟨previous, by rwa [found] at last, isLeading⟩
    | none =>
      rw [found, Option.none_or] at last
      obtain ⟨others, front_eq⟩ := List.getLast?_eq_some_iff.1 last
      obtain ⟨next, head, -⟩ := (paired others previous [] front_eq).1 isLeading
      cases head
  · intro tail before unit after split
    rcases List.append_eq_append_iff.1 split with
      ⟨inner, before_eq, rest_eq⟩ | ⟨inner, front_eq, unit_eq⟩
    · obtain ⟨leading, trailing⟩ := tail inner unit after rest_eq
      refine ⟨leading, fun isTrailing ↦ ?_⟩
      obtain ⟨previous, last, isLeading⟩ := trailing isTrailing
      exact ⟨previous, by rw [before_eq, List.getLast?_append, last, Option.some_or], isLeading⟩
    · cases inner with
      | nil =>
        obtain ⟨leading, trailing⟩ := tail [] unit after unit_eq.symm
        exact ⟨leading, fun isTrailing ↦ by simpa using trailing isTrailing⟩
      | cons piece inner =>
        obtain ⟨rfl, rfl⟩ : .unicode unit = piece ∧ after = inner ++ rest := by simpa using unit_eq
        obtain ⟨leading, trailing⟩ := paired before unit inner front_eq
        refine ⟨fun isLeading ↦ ?_, trailing⟩
        obtain ⟨next, head, isTrailing⟩ := leading isLeading
        exact ⟨next, by rw [List.head?_append, head, Option.some_or], isTrailing⟩

/-- A part that is no half of a pair is paired by itself. -/
theorem isPaired_singleton {piece : Piece}
    (whole : ∀ unit, piece = .unicode unit → ¬unit.IsLeading ∧ ¬unit.IsTrailing) :
    IsPaired [piece] := by
  intro before unit after split
  have mem : Piece.unicode unit ∈ [piece] := by simp [split]
  obtain ⟨leading, trailing⟩ := whole unit (List.mem_singleton.1 mem).symm
  exact ⟨fun h ↦ (leading h).elim, fun h ↦ (trailing h).elim⟩

theorem isPaired_pair {unit next : CodeUnit} (leading : unit.IsLeading)
    (trailing : next.IsTrailing) : IsPaired [.unicode unit, .unicode next] := by
  intro before found after split
  match before, split with
  | [], split =>
    obtain ⟨rfl, rfl⟩ : found = unit ∧ after = [.unicode next] := by simpa [eq_comm] using split
    exact ⟨fun _ ↦ ⟨next, rfl, trailing⟩, fun h ↦ (leading.not_isTrailing h).elim⟩
  | [first], split =>
    obtain ⟨rfl, rfl, rfl⟩ : first = .unicode unit ∧ found = next ∧ after = [] := by
      simpa [eq_comm] using split
    exact ⟨fun h ↦ (h.not_isTrailing trailing).elim, fun _ ↦ ⟨unit, rfl, leading⟩⟩
  | first :: second :: others, split => simp at split

theorem not_isPaired_of_isLeading {unit : CodeUnit} {rest : List Piece} (leading : unit.IsLeading)
    (alone : ∀ next, rest.head? = some (.unicode next) → ¬next.IsTrailing) :
    ¬IsPaired (.unicode unit :: rest) := by
  intro paired
  obtain ⟨next, head, trailing⟩ := (paired [] unit rest rfl).1 leading
  exact alone next head trailing

theorem not_isPaired_of_isTrailing {unit : CodeUnit} (trailing : unit.IsTrailing)
    (rest : List Piece) : ¬IsPaired (.unicode unit :: rest) := by
  intro paired
  obtain ⟨previous, last, -⟩ := (paired [] unit rest rfl).2 trailing
  cases last

/-- Parts of a string spell something just when their halves are paired. -/
theorem isSome_decode?_iff (pieces : List Piece) : (decode? pieces).isSome ↔ IsPaired pieces := by
  fun_induction decode? pieces with
  | case1 => exact iff_of_true rfl fun before unit after split ↦ by simp at split
  | case2 char allowed rest ih =>
    rw [Option.isSome_map, ih]
    exact (isPaired_append_iff (isPaired_singleton (by simp)) rest).symm
  | case3 escape rest ih =>
    rw [Option.isSome_map, ih]
    exact (isPaired_append_iff (isPaired_singleton (by simp)) rest).symm
  | case4 unit leading next rest trailing ih =>
    rw [Option.isSome_map, ih]
    exact (isPaired_append_iff (isPaired_pair leading trailing) rest).symm
  | case5 unit leading next rest alone =>
    refine iff_of_false (by simp) (not_isPaired_of_isLeading leading fun found head ↦ ?_)
    obtain rfl : next = found := by simpa using head
    exact alone
  | case6 unit rest leading none =>
    refine iff_of_false (by simp) (not_isPaired_of_isLeading leading fun next head ↦ ?_)
    obtain ⟨others, rest_eq⟩ := List.head?_eq_some_iff.1 head
    exact (none next others rest_eq).elim
  | case7 unit rest _ trailing =>
    exact iff_of_false (by simp) (not_isPaired_of_isTrailing trailing rest)
  | case8 unit rest notLeading notTrailing ih =>
    rw [Option.isSome_map, ih]
    refine (isPaired_append_iff (isPaired_singleton fun found same ↦ ?_) rest).symm
    obtain rfl := Piece.unicode.inj same
    exact ⟨notLeading, notTrailing⟩

end Piece

theorem Literal.isSome_decode?_iff (literal : Literal) :
    literal.decode?.isSome ↔ literal.IsPaired := by
  rw [decode?, Option.isSome_map]
  exact Piece.isSome_decode?_iff literal.pieces

/-! ## Numbers in range -/

namespace NumberToken

/-- Whether a significand scaled by a power of ten stays within the doubles. -/
def Fits (significand : ℕ) (power : ℤ) : Prop :=
  significand = 0 ∨ power ≤ 0 ∨ power ≤ Digits.greatestPower ∧
    (significand.toUInt64.toFloat * Digits.powerOfTen power.natAbs).isInf = false

/-- Whether a number is in range of the conversion to doubles: the digits that are kept as one word,
scaled by their power of ten, stay within the doubles.  An exponent of more than 31 bits is out of
range unless it is below zero or nothing is scaled. -/
def InRange (number : NumberToken) : Prop :=
  match number.exponent with
  | none => Fits number.significand.1 number.significand.2
  | some exponent =>
    if exponent.magnitude < 2 ^ 31 then
      Fits number.significand.1 (number.significand.2 + exponent.value)
    else number.significand.1 = 0 ∨ exponent.isBelow

end NumberToken

end Grammar

namespace Digits

open Grammar.NumberToken (Fits double?)

theorem eq_zero_iff_of_roundsTo {number place : ℕ} (rounds : RoundsTo number place) :
    place = 0 ↔ number = 0 := by
  constructor
  · rintro rfl
    by_contra nonzero
    have least := rounds.onePlace_le (by exact_mod_cast Nat.one_le_iff_ne_zero.2 nonzero)
    exact absurd least (by decide)
  · rintro rfl
    rw [Nat.cast_zero] at rounds
    exact rounds.eq_zero

/-- A word is zero as a double just when it is zero. -/
theorem toFloat_beq_zero_iff {number : ℕ} (word : number < 2 ^ 64) :
    (number.toUInt64.toFloat == 0) = true ↔ number = 0 := by
  obtain ⟨place, rounds, finite, eq⟩ := exists_toFloat word
  rw [eq, zero_eq, beq_iff _ _ finite.le (by decide), rank, rank, ← eq_zero_iff_of_roundsTo rounds]
  omega

/-- A negative power of ten takes nothing out of range. -/
theorem isSome_scale?_of_neg {x : Float} {power : ℤ} (negative : power < 0) :
    (scale? x power).isSome := by
  induction x, power using scale?.induct with
  | case1 x power nonneg | case2 x power nonneg | case3 x power nonneg | case4 x power nonneg =>
    omega
  | case5 x power below within => rw [scale?, if_neg below, if_pos within, Option.isSome_some]
  | case6 x power below beyond zero =>
    rw [scale?, if_neg below, if_neg beyond, if_pos zero, Option.isSome_some]
  | case7 x power below beyond nonzero ih =>
    rw [scale?, if_neg below, if_neg beyond, if_neg nonzero]
    exact ih (by unfold greatestPower at *; omega)

/-- Zero stays zero when it is scaled, and a word stays itself when it is scaled by one. -/
theorem isInf_mul_powerOfTen {significand power : ℕ} (word : significand < 2 ^ 64)
    (within : power ≤ greatestPower) (kept : significand = 0 ∨ power = 0) :
    (significand.toUInt64.toFloat * powerOfTen power).isInf = false := by
  obtain ⟨a, rounds, finite, eq⟩ := exists_toFloat word
  obtain ⟨ten, roundsTen, -, tenFinite, ten_eq⟩ := exists_powerOfTen within
  obtain ⟨place, roundsProduct, product_eq⟩ :=
    exists_mul_signed .positive .positive finite tenFinite
  have exact_eq : value a * value ten = value a := by
    rcases kept with zero | rfl
    · rw [(eq_zero_iff_of_roundsTo rounds).2 zero, value_zero, zero_mul]
    · rw [roundsTen.value_eq ⟨onePlace, by rw [value_onePlace, pow_zero]⟩, pow_zero, mul_one]
  rw [exact_eq] at roundsProduct
  obtain rfl := roundsProduct.unique (RoundsTo.value a)
  rw [eq, ten_eq, product_eq, Bool.eq_false_iff, Ne, isInf_signed]
  omega

/-- A word is scaled within the doubles just when it fits. -/
theorem isSome_scale?_iff {significand : ℕ} (word : significand < 2 ^ 64) (power : ℤ) :
    (scale? significand.toUInt64.toFloat power).isSome ↔ Fits significand power := by
  rcases lt_or_ge power 0 with negative | nonneg
  · exact iff_of_true (isSome_scale?_of_neg negative) (.inr (.inl negative.le))
  rw [scale?, if_pos nonneg]
  by_cases within : power ≤ greatestPower
  · have kept (small : significand = 0 ∨ power ≤ 0) :
        (significand.toUInt64.toFloat * powerOfTen power.natAbs).isInf = false :=
      isInf_mul_powerOfTen word (by omega) (small.imp_right (by omega))
    rw [if_pos within]
    dsimp only
    split
    · next infinite =>
      refine iff_of_false (by simp) fun fits ↦ ?_
      rw [Fits, ← or_assoc, infinite] at fits
      simpa [infinite] using kept (fits.resolve_right (by simp))
    · next finite => exact iff_of_true rfl (.inr (.inr ⟨within, by simpa using finite⟩))
  · rw [if_neg within]
    split
    · next zero => exact iff_of_true rfl (.inl ((toFloat_beq_zero_iff word).1 zero))
    · next nonzero =>
      rw [toFloat_beq_zero_iff word] at nonzero
      refine iff_of_false (by simp) fun fits ↦ ?_
      rcases fits with zero | none | ⟨reach, -⟩
      · exact nonzero zero
      · exact within (by unfold greatestPower; omega)
      · exact within reach

end Digits

namespace Grammar

namespace NumberToken

open Digits (isSome_scale?_iff)

theorem isSome_double?_iff (negative : Bool) {significand : ℕ} (word : significand < 2 ^ 64)
    (power : ℤ) : (double? negative significand power).isSome ↔ Fits significand power := by
  rw [double?, Option.isSome_map, isSome_scale?_iff word]

/-- A number is read just when it is in range. -/
theorem isSome_value?_iff (number : NumberToken) : number.value?.isSome ↔ number.InRange := by
  have word := number.significand_lt
  unfold value? InRange
  rcases parts : number.significand with ⟨significand, power⟩
  rw [parts] at word
  dsimp only at word ⊢
  cases number.exponent with
  | none =>
    dsimp only
    split
    · next integer => exact iff_of_true rfl (.inr (.inl integer.2.le))
    · exact isSome_double?_iff _ word power
  | some exponent =>
    dsimp only
    by_cases small : exponent.magnitude < 2 ^ 31
    · rw [if_pos small, raised?_of_lt small, isSome_double?_iff _ word, Exponent.value]
      split <;> rfl
    · rw [if_neg small, raised?, if_neg (show ¬_ < Nat.pow 2 31 from small)]
      by_cases zero : significand = 0 <;> cases exponent.isBelow <;> simp [zero]

end NumberToken

/-! ## Trees -/

mutual

/-- How many arrays and objects of a tree stand in each other. -/
def Tree.height : Tree → ℕ
  | .emptyArray _ | .emptyObject _ => 1
  | .array items => items.height + 1
  | .object members => members.height + 1
  | _ => 0

def Items.height : Items → ℕ
  | .one _ item _ => item.height
  | .more _ item _ rest => max item.height rest.height

def Members.height : Members → ℕ
  | .one _ _ value _ => value.height
  | .more _ _ value _ rest => max value.height rest.height

end

mutual

/-- All numbers of a tree. -/
def Tree.numbers : Tree → List NumberToken
  | .number number => [number]
  | .array items => items.numbers
  | .object members => members.numbers
  | _ => []

def Items.numbers : Items → List NumberToken
  | .one _ item _ => item.numbers
  | .more _ item _ rest => item.numbers ++ rest.numbers

def Members.numbers : Members → List NumberToken
  | .one _ _ value _ => value.numbers
  | .more _ _ value _ rest => value.numbers ++ rest.numbers

end

mutual

/-- All strings and keys of a tree. -/
def Tree.literals : Tree → List Literal
  | .string literal => [literal]
  | .array items => items.literals
  | .object members => members.literals
  | _ => []

def Items.literals : Items → List Literal
  | .one _ item _ => item.literals
  | .more _ item _ rest => item.literals ++ rest.literals

/-- All keys of members, and the strings and keys of their values. -/
def Members.literals : Members → List Literal
  | .one key _ value _ => key.literal :: value.literals
  | .more key _ value _ rest => key.literal :: (value.literals ++ rest.literals)

end

/-- Whether all that is in a part of a tree can be read with `depth` arrays and objects around
it. -/
def Readable (depth height : ℕ) (numbers : List NumberToken) (literals : List Literal) : Prop :=
  depth + height ≤ Read.depthLimit ∧ (∀ number ∈ numbers, number.InRange) ∧
    ∀ literal ∈ literals, literal.IsPaired

section

variable {depth height height' : ℕ} {numbers numbers' : List NumberToken}
  {literals literals' : List Literal}

/-- Two parts beside each other are readable just when each of them is. -/
theorem readable_append_iff :
    Readable depth (max height height') (numbers ++ numbers') (literals ++ literals') ↔
      Readable depth height numbers literals ∧ Readable depth height' numbers' literals' := by
  have room : depth + max height height' ≤ Read.depthLimit ↔
      depth + height ≤ Read.depthLimit ∧ depth + height' ≤ Read.depthLimit := by omega
  simp only [Readable, List.forall_mem_append, room]
  tauto

theorem readable_cons_iff (literal : Literal) :
    Readable depth height numbers (literal :: literals) ↔
      literal.IsPaired ∧ Readable depth height numbers literals := by
  simp only [Readable, List.forall_mem_cons]
  tauto

theorem readable_nil_iff : Readable depth 0 [] [] ↔ depth ≤ Read.depthLimit := by
  simp [Readable]

/-- Brackets need one more level than what is between them. -/
theorem isSome_brackets_iff {α : Type} {inner : Option α}
    (h : depth < Read.depthLimit → (inner.isSome ↔ Readable (depth + 1) height numbers literals)) :
    (if Read.depthLimit ≤ depth then none else inner).isSome ↔
      Readable depth (height + 1) numbers literals := by
  by_cases deep : Read.depthLimit ≤ depth
  · rw [if_pos deep]
    refine iff_of_false (by simp) fun readable ↦ ?_
    have room := readable.1
    omega
  · have shift : depth + 1 + height = depth + (height + 1) := by omega
    rw [if_neg deep, h (Nat.not_le.1 deep), Readable, Readable, shift]

end

/-- Two steps give something just when both do, whatever the first one gives. -/
theorem isSome_bind_iff {α β : Type} {first : Option α} {next : α → Option β} {claim : Prop}
    (h : ∀ value, (next value).isSome ↔ claim) :
    (first.bind next).isSome ↔ first.isSome ∧ claim := by
  cases first with
  | none => simp
  | some value => simp [h]

mutual

/-- A tree without wrappers has a value just when all that is in it can be read. -/
theorem Tree.isSome_value?_iff {depth : ℕ} (room : depth ≤ Read.depthLimit) :
    (tree : Tree) → Unwrapped tree.firstKeys → ((tree.value? depth).isSome ↔
      Readable depth tree.height tree.numbers tree.literals)
  | .null, _ => iff_of_true rfl (readable_nil_iff.2 room)
  | .bool value, _ => iff_of_true rfl (readable_nil_iff.2 room)
  | .number number, _ => by
    rw [Tree.value?, Option.isSome_map, number.isSome_value?_iff]
    simp [Readable, Tree.height, Tree.numbers, Tree.literals, room]
  | .string literal, _ => by
    rw [Tree.value?, Option.isSome_map, literal.isSome_decode?_iff]
    simp [Readable, Tree.height, Tree.numbers, Tree.literals, room]
  | .emptyArray gap, _ =>
    isSome_brackets_iff fun inside ↦ iff_of_true rfl (readable_nil_iff.2 inside)
  | .emptyObject gap, _ =>
    isSome_brackets_iff fun inside ↦ iff_of_true rfl (readable_nil_iff.2 inside)
  | .array items, plain => by
    rw [Tree.height, Tree.numbers, Tree.literals, Tree.value?]
    exact isSome_brackets_iff fun inside ↦ by
      rw [Option.isSome_map, Items.isSome_values?_iff inside items plain]
  | .object members, plain => by
    obtain ⟨ordinary, plain⟩ := unwrapped_cons_iff.1 plain
    rw [Tree.height, Tree.numbers, Tree.literals, Tree.value?,
      if_neg (show ¬members.IsWrapper from ordinary)]
    exact isSome_brackets_iff fun inside ↦ by
      rw [Option.isSome_map, Members.isSome_values?_iff inside .empty members plain]

theorem Items.isSome_values?_iff {depth : ℕ} (room : depth ≤ Read.depthLimit) :
    (items : Items) → Unwrapped items.firstKeys → ((items.values? depth).isSome ↔
      Readable depth items.height items.numbers items.literals)
  | .one _ item _, plain => by
    rw [Items.values?, Option.isSome_map, Tree.isSome_value?_iff room item plain]
    rfl
  | .more _ item _ rest, plain => by
    obtain ⟨first, others⟩ := unwrapped_append_iff.1 plain
    rw [Items.values?, isSome_bind_iff fun _ ↦ by
      rw [Option.isSome_map, Items.isSome_values?_iff room rest others]]
    rw [Tree.isSome_value?_iff room item first, Items.height, Items.numbers, Items.literals,
      readable_append_iff]

theorem Members.isSome_values?_iff {depth : ℕ} (room : depth ≤ Read.depthLimit)
    (before : OrderedMembers) :
    (members : Members) → Unwrapped members.firstKeys → ((members.values? depth before).isSome ↔
      Readable depth members.height members.numbers members.literals)
  | .one key _ value _, plain => by
    rw [Members.values?, isSome_bind_iff fun _ ↦ by
      rw [Option.isSome_map, Tree.isSome_value?_iff room value plain]]
    rw [key.literal.isSome_decode?_iff, Members.height, Members.numbers, Members.literals,
      readable_cons_iff]
  | .more key _ value _ rest, plain => by
    obtain ⟨first, others⟩ := unwrapped_append_iff.1 plain
    rw [Members.values?, isSome_bind_iff fun _ ↦ isSome_bind_iff fun _ ↦
      Members.isSome_values?_iff room _ rest others]
    rw [key.literal.isSome_decode?_iff, Tree.isSome_value?_iff room value first, Members.height,
      Members.numbers, Members.literals, readable_cons_iff, readable_append_iff]

end

end Grammar

end SpanScore.Json
