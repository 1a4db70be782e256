import SpanScore.Proofs.Feature.Series
import SpanScore.Proofs.Json.Roundings
import SpanScore.Proofs.Message.ReadBack

/-!
# Numbers and strings that spell them

A number is a feature, and so is a string that spells one.  The two readers of digits do not always
agree, but where they do a number may be replaced by a string anywhere in a value: the features of
the value stay as they are, and so do the scores.
-/

namespace SpanScore

open Double Decimal

/-! ## Literals as strings -/

namespace Json.Grammar.NumberToken

open Digits

/-- Whether a number is rounded at most once: a zero, a word, or few digits with a small power of
ten. -/
def IsExact (token : NumberToken) : Prop :=
  token.mantissa = 0 ∨ (token.mantissa < 2 ^ 64 ∧ token.fraction = none ∧ token.exponent = none) ∨
    token.mantissa < 2 ^ 53 ∧ token.power.natAbs ≤ 22

theorem scaledPower_of_lt {token : NumberToken} (fits : token.mantissa < 2 ^ 64) :
    token.scaledPower = token.power := by
  rw [scaledPower, power, significand_of_lt fits, sub_eq_neg_add]

theorem roundings_le_significandSteps {token : NumberToken} (fits : token.mantissa < 2 ^ 64)
    (small : token.power.natAbs ≤ 22) : token.roundings ≤ significandSteps token.mantissa := by
  unfold roundings
  split
  · exact Nat.zero_le _
  · rw [cutSteps, if_pos fits, scaledPower_of_lt fits, significand_of_lt fits, scaleSteps,
      drift_of_natAbs_le _ small, if_neg (by omega), Nat.zero_add, Nat.add_zero]

theorem roundings_of_isExact {token : NumberToken} (exact : token.IsExact) :
    token.roundings = 0 := by
  rcases exact with zero | word | ⟨short, small⟩
  · exact if_pos (.inl zero)
  · exact if_pos (.inr word)
  · have few := roundings_le_significandSteps (short.trans (by decide)) small
    rw [significandSteps, if_pos short] at few
    exact Nat.le_zero.1 few

theorem IsExact.close {token : NumberToken} (exact : token.IsExact) :
    token.mantissa = 0 ∨ token.IsShort ∨ token.power.natAbs ≤ 22 := by
  rcases exact with zero | ⟨-, -, none⟩ | ⟨-, small⟩
  · exact .inl zero
  · exact .inr (.inl (by simp [IsShort, none]))
  · exact .inr (.inr small)

theorem roundings_le_five (token : NumberToken) : token.roundings ≤ 5 := by
  have drift := drift_le_three token.significand.1 token.scaledPower
  unfold roundings cutSteps scaleSteps
  split
  · omega
  · split <;> split <;> omega

end Json.Grammar.NumberToken

namespace Json.Value

open Grammar (NumberToken)

/-- A number and the string with its literal are features of one sign, as far apart at most as the
number is rounded before the last time. -/
theorem exists_features {token : NumberToken} {number : Number} (h : token.value? = some number) :
    ∃ x y, (Value.number number).feature? = some x ∧
      (Value.string (String.ofList token.text)).feature? = some y ∧ x.isFinite = true ∧
      isSignNegative y = isSignNegative x ∧
      (token.IsShort ∨ token.power.natAbs ≤ 22 → apart x y ≤ token.roundings) ∧
      (¬token.IsShort → (x == 0) = true) ∧ (token.IsExact → y = x) := by
  obtain ⟨written, rounds, spelled⟩ := token.exists_read?_text
  obtain ⟨found, finite, read, near, lost⟩ := NumberToken.exists_read h rounds
  refine ⟨_, _, rfl, spelled, ?_, ?_, fun close ↦ ?_, fun long ↦ ?_, fun exact ↦ ?_⟩
  · rw [read, isFinite_signed]
    exact finite
  · rw [read, isSignNegative_signed, isSignNegative_signed]
  · obtain ⟨left, right⟩ := near (.inr close)
    rw [read]
    rcases Nat.le_total written infinityPlace with within | beyond
    · rw [apart_signed _ finite.le within]
      omega
    · rw [signed_of_le _ beyond, apart_signed _ finite.le le_rfl]
      omega
  · rw [read, lost long, zero_eq, beq_iff _ _ (by decide) (by decide)]
    cases token.sign <;> rfl
  · obtain ⟨left, right⟩ := near exact.close
    rw [NumberToken.roundings_of_isExact exact] at left right
    rw [read, show written = found by omega]

/-! ## Values -/

/-- Whether a value is another one with strings in the place of some numbers, each of which names
the double of its number. -/
inductive Quotes : Value → Value → Prop
  | refl (value : Value) : Quotes value value
  | number {number : Number} {text : String} (same : Numeral.read? text = some number.toFloat) :
    Quotes (.number number) (.string text)
  | array {left right : List Value} (items : List.Forall₂ Quotes left right) :
    Quotes (.array left) (.array right)
  | object {left right : List (String × Value)} (keys : left.map Prod.fst = right.map Prod.fst)
    (values : List.Forall₂ Quotes (left.map Prod.snd) (right.map Prod.snd)) :
    Quotes (.object left) (.object right)

namespace Quotes

variable {left right : Value}

theorem feature?_eq (h : Quotes left right) : left.feature? = right.feature? := by
  cases h with
  | refl => rfl
  | number same => exact same.symm
  | array => rfl
  | object => rfl

section

variable {α β : Type} {related : α → α → Prop} {found found' : Option α}
  (h : Option.Rel related found found')

include h

theorem rel_bind {related' : β → β → Prop} {next next' : α → Option β}
    (step : ∀ {x y}, related x y → Option.Rel related' (next x) (next' y)) :
    Option.Rel related' (found.bind next) (found'.bind next') := by
  cases h with
  | none => exact .none
  | some same => exact step same

theorem bind_eq_of_rel {next : α → Option β} (step : ∀ {x y}, related x y → next x = next y) :
    found.bind next = found'.bind next := by
  cases h with
  | none => rfl
  | some same => exact step same

end

theorem rel_refl (found : Option Value) : Option.Rel Quotes found found := by
  cases found with
  | none => exact .none
  | some value => exact .some (.refl value)

theorem find? (name : String) {lefts rights : List (String × Value)}
    (keys : lefts.map Prod.fst = rights.map Prod.fst)
    (values : List.Forall₂ Quotes (lefts.map Prod.snd) (rights.map Prod.snd)) :
    Option.Rel Quotes (Value.find? name lefts) (Value.find? name rights) := by
  induction lefts generalizing rights with
  | nil =>
    obtain rfl := List.map_eq_nil_iff.1 keys.symm
    exact .none
  | cons member lefts ih =>
    obtain ⟨key, value⟩ := member
    obtain ⟨⟨key', value'⟩, others, rfl, key_eq, others_eq⟩ := List.map_eq_cons_iff.1 keys.symm
    obtain rfl : key' = key := key_eq
    obtain ⟨same, values⟩ := List.forall₂_cons.1 values
    rw [find?_cons, find?_cons]
    split
    · exact .some same
    · exact ih others_eq.symm values

theorem get? (h : Quotes left right) (key : String) :
    Option.Rel Quotes (left.get? key) (right.get? key) := by
  cases h with
  | refl => exact rel_refl _
  | number same => exact .none
  | array => exact .none
  | object keys values => exact find? key keys values

theorem items? (h : Quotes left right) :
    Option.Rel (List.Forall₂ Quotes) left.items? right.items? := by
  cases h with
  | refl =>
    cases left.items? with
    | none => exact .none
    | some items => exact .some (List.forall₂_same.2 fun item _ ↦ .refl item)
  | number same => exact .none
  | array items => exact .some items
  | object => exact .none

theorem entry_eq (h : Quotes left right) (series : Series) :
    series.entry left = series.entry right := by
  cases h with
  | refl => rfl
  | number same => exact congrArg Option.toList same.symm
  | array => rfl
  | object keys values =>
    exact List.filterMap_congr fun key _ ↦ bind_eq_of_rel (find? key keys values) feature?_eq

/-! ## Paths -/

theorem follow (h : Quotes left right) (keys : List (List Char)) :
    Option.Rel Quotes (Path.follow left keys) (Path.follow right keys) := by
  induction keys generalizing left right with
  | nil => exact .some h
  | cons key keys ih =>
    rw [Path.follow_cons, Path.follow_cons]
    exact rel_bind (h.get? (String.ofList key)) ih

theorem resolveFeature_eq (h : Quotes left right) (path : String) :
    Path.resolveFeature left path = Path.resolveFeature right path :=
  bind_eq_of_rel (h.follow _) feature?_eq

theorem resolveArray (h : Quotes left right) (path : String) :
    Option.Rel (List.Forall₂ Quotes) (Path.resolveArray left path)
      (Path.resolveArray right path) :=
  rel_bind (h.follow _) items?

/-! ## Scores -/

theorem flatMap_entry_eq {lefts rights : List Value} (items : List.Forall₂ Quotes lefts rights)
    (series : Series) : lefts.flatMap series.entry = rights.flatMap series.entry := by
  induction items with
  | nil => rfl
  | cons same _ ih => rw [List.flatMap_cons, List.flatMap_cons, same.entry_eq, ih]

theorem numbersAt_eq (h : Quotes left right) (series : Series) (path : String) :
    series.numbersAt left path = series.numbersAt right path := by
  have arrays := h.resolveArray path
  unfold Series.numbersAt
  generalize Path.resolveArray left path = lefts at arrays ⊢
  generalize Path.resolveArray right path = rights at arrays ⊢
  cases arrays with
  | none => rfl
  | some items => exact flatMap_entry_eq items series

theorem numbers_eq (h : Quotes left right) (series : Series) :
    series.numbers left = series.numbers right :=
  Series.numbers_of_numbersAt fun path _ ↦ h.numbersAt_eq series path

theorem histogram_eq (h : Quotes left right) :
    Graphlet.histogram left = Graphlet.histogram right := by
  rw [Series.serves_graphlet.features_eq, Series.serves_graphlet.features_eq, h.numbers_eq]

theorem profile_eq (h : Quotes left right) : Mapper.profile left = Mapper.profile right := by
  rw [Series.serves_mapper.features_eq, Series.serves_mapper.features_eq, h.numbers_eq]

theorem graphlet_metrics_eq (h : Quotes left right) :
    Graphlet.metrics left = Graphlet.metrics right :=
  congrArg (Graphlet.metricPaths.filterMap ·) (funext h.resolveFeature_eq)

theorem heuristic_metrics_eq (h : Quotes left right) :
    Heuristic.metrics left = Heuristic.metrics right := by
  rw [Heuristic.metrics, Heuristic.metrics, funext h.resolveFeature_eq]

variable {left' right' : Value}

/-- Strings in the place of numbers change no score. -/
theorem score_eq (h : Quotes left left') (h' : Quotes right right') :
    ∀ score ∈ [Graphlet.score, Mapper.score, Heuristic.score],
      score left right = score left' right' := by
  simp only [List.forall_mem_cons]
  refine ⟨?_, ?_, ?_, List.forall_mem_nil _⟩
  · rw [Graphlet.score, Graphlet.score, h.histogram_eq, h'.histogram_eq, h.graphlet_metrics_eq,
      h'.graphlet_metrics_eq]
  · rw [Mapper.score, Mapper.score, h.profile_eq, h'.profile_eq]
  · rw [Heuristic.score, Heuristic.score, h.heuristic_metrics_eq, h'.heuristic_metrics_eq]

end Quotes

end Json.Value

end SpanScore
