import SpanScore.Json.Read
import SpanScore.Proofs.Json.Tokens

/-!
# What a number token means to the reader

The reader of numbers takes the digits of a token into one word as far as they fit and scales the
word by a power of ten.  Both are read off the token here, so that what a number is read as does not
depend on the text behind it.
-/

namespace SpanScore.Json

open Grammar

/-! ## The number of a token -/

namespace Grammar

def Exponent.isBelow (exponent : Exponent) : Bool :=
  match exponent.sign with
  | some .minus => true
  | _ => false

def Exponent.magnitude (exponent : Exponent) : Nat :=
  Numeral.ofDigits exponent.digits.text

namespace NumberToken

/-- The double that a significand and a power of ten make, unless it is out of range. -/
def double? (negative : Bool) (significand : Nat) (power : Int) : Option Number :=
  (Digits.scale? significand.toUInt64.toFloat power).map fun value ↦
    .double (if negative then -value else value)

/-- The double that a significand makes with an exponent.  An exponent of more than 31 bits is
either out of range or leaves nothing. -/
def raised? (negative : Bool) (significand : Nat) (power : Int) (exponent : Exponent) :
    Option Number :=
  if exponent.magnitude < Nat.pow 2 31 then
    double? negative significand
      (if exponent.isBelow then power - exponent.magnitude else power + exponent.magnitude)
  else if significand ≠ 0 && !exponent.isBelow then none
  else some (.double (if negative then -0.0 else 0.0))

/-- The digits of a number that are kept as one word, and the power of ten that they call for. -/
def significand (number : NumberToken) : Nat × Int :=
  let (whole, dropped) := Digits.collect 0 number.whole.text
  match number.fraction with
  | none => (whole, dropped)
  | some digits =>
    let (longer, lost) := Digits.collect whole digits.text
    (longer, Int.ofNat dropped - Int.ofNat (digits.text.length - lost))

/-- The number that a token is read as, unless it is out of range. -/
def value? (number : NumberToken) : Option Number :=
  let (significand, power) := number.significand
  match number.exponent with
  | some exponent => raised? number.negative significand power exponent
  | none =>
    if number.fraction.isNone ∧ power = 0 then
      some (Digits.ofInteger number.negative significand)
    else double? number.negative significand power

end NumberToken

end Grammar

namespace Digits

open Grammar.NumberToken (double? raised?)

/-! ## Exponents -/

theorem foldl_digits_ge (start : Nat) (digits : List Char) :
    start ≤ digits.foldl (fun number digit ↦ number * 10 + Numeral.digitValue digit) start := by
  induction digits generalizing start with
  | nil => exact Nat.le_refl start
  | cons digit digits ih =>
    rw [List.foldl_cons]
    exact Nat.le_trans (by omega) (ih (start * 10 + Numeral.digitValue digit))

/-- The digits of an exponent are collected to their end, unless they leave 31 bits. -/
theorem collectExponent_append {start : Nat} (small : start < Nat.pow 2 31) {digits : List Char}
    (decimal : ∀ char ∈ digits, char.isDigit) {rest : List Char} (ends : Scan.EndsDigits rest) :
    let total := digits.foldl (fun number digit ↦ number * 10 + Numeral.digitValue digit) start
    if total < Nat.pow 2 31 then collectExponent start (digits ++ rest) = .within total rest
    else ∃ tail, collectExponent start (digits ++ rest) = .beyond tail ∧
      tail.dropWhile Char.isDigit = rest := by
  induction digits generalizing start with
  | nil =>
    rw [List.foldl_nil, List.nil_append, if_pos small]
    cases rest with
    | nil => rfl
    | cons char chars =>
      rw [collectExponent, ends char rfl]
      rfl
  | cons digit digits ih =>
    have isDigit := decimal digit List.mem_cons_self
    have others : ∀ char ∈ digits, char.isDigit := fun char mem ↦
      decimal char (List.mem_cons_of_mem digit mem)
    rw [List.foldl_cons, List.cons_append, collectExponent, if_pos isDigit]
    dsimp only
    by_cases fits : start * 10 + Numeral.digitValue digit < Nat.pow 2 31
    · rw [if_pos fits]
      exact ih fits others
    · have bound := foldl_digits_ge (start * 10 + Numeral.digitValue digit) digits
      rw [if_neg fits, if_neg (by omega)]
      refine ⟨_, rfl, ?_⟩
      rw [List.dropWhile_append_of_pos others, Scan.dropWhile_of_endsDigits ends]

theorem collectExponent_digits (exponent : Grammar.Exponent) {rest : List Char}
    (ends : Scan.EndsDigits rest) :
    if exponent.magnitude < Nat.pow 2 31 then
      collectExponent 0 (exponent.digits.text ++ rest) = .within exponent.magnitude rest
    else ∃ tail, collectExponent 0 (exponent.digits.text ++ rest) = .beyond tail ∧
      tail.dropWhile Char.isDigit = rest :=
  collectExponent_append (Nat.pow_pos (by decide)) exponent.digits.decimal ends

/-- Scaling leaves the text behind a number as it is. -/
theorem toOption_scaled (negative : Bool) (significand : Nat) (power : Int) (rest : List Char) :
    (scaled negative significand power rest).toOption =
      (double? negative significand power).map (·, rest) := by
  unfold scaled double?
  cases scale? significand.toUInt64.toFloat power <;> rfl

theorem exponentSign_text (exponent : Grammar.Exponent) (rest : List Char) :
    exponentSign (Sign.text exponent.sign ++ (exponent.digits.text ++ rest)) =
      (exponent.isBelow, exponent.digits.text ++ rest) := by
  obtain ⟨digit, others, text, isDigit⟩ := Scan.exists_cons_digits exponent.digits
  have plus : digit ≠ '+' := Scan.ne_of_isDigit isDigit rfl
  have minus : digit ≠ '-' := Scan.ne_of_isDigit isDigit rfl
  rw [text]
  unfold exponentSign Exponent.isBelow
  cases exponent.sign with
  | none => simp [Sign.text, plus, minus]
  | some sign => cases sign <;> simp [Sign.text]

/-- An exponent is read as the token says. -/
theorem toOption_exponent (negative : Bool) (significand : Nat) (power : Int)
    (exponent : Grammar.Exponent) {rest : List Char} (ends : Scan.EndsDigits rest) :
    (Digits.exponent negative significand power
        (Sign.text exponent.sign ++ (exponent.digits.text ++ rest))).toOption =
      (raised? negative significand power exponent).map (·, rest) := by
  obtain ⟨digit, others, text, isDigit⟩ := Scan.exists_cons_digits exponent.digits
  have collected := collectExponent_digits exponent ends
  unfold Digits.exponent raised?
  rw [exponentSign_text]
  dsimp only
  rw [text, List.cons_append] at collected ⊢
  dsimp only
  rw [if_pos isDigit]
  by_cases fits : exponent.magnitude < Nat.pow 2 31
  · rw [if_pos fits] at collected ⊢
    simp only [collected]
    exact toOption_scaled negative significand _ rest
  · rw [if_neg fits] at collected ⊢
    obtain ⟨tail, beyond, dropped⟩ := collected
    simp only [beyond, dropped]
    split <;> rfl

/-- Behind its digits a number is read as the token says. -/
theorem toOption_exponent? (negative : Bool) (significand : Nat) (power : Int)
    (exponent : Option Grammar.Exponent) {rest : List Char} (ends : Scan.EndsNumber rest) :
    (exponent? negative significand power (Exponent.text exponent ++ rest)).toOption =
      (match exponent with
        | some exponent => raised? negative significand power exponent
        | none => double? negative significand power).map (·, rest) := by
  cases exponent with
  | none =>
    rw [Exponent.text, List.nil_append]
    unfold exponent?
    split
    · exact absurd rfl (ends 'e' rfl).2.2.1
    · exact absurd rfl (ends 'E' rfl).2.2.2
    · exact toOption_scaled negative significand power rest
  | some exponent =>
    have read := toOption_exponent negative significand power exponent ends.endsDigits
    rw [← List.append_assoc] at read
    simp only [Exponent.text, List.cons_append]
    cases exponent.capital <;> exact read

/-! ## Numbers -/

/-- A run of digits is split off. -/
theorem spanDigits_append (digits : DigitRun) {rest : List Char} (ends : Scan.EndsDigits rest) :
    Numeral.spanDigits (digits.text ++ rest) = (digits.text, rest) := by
  rw [Numeral.spanDigits, Scan.dropWhile_digits digits ends,
    List.takeWhile_append_of_pos digits.decimal]
  cases rest with
  | nil => rw [List.takeWhile_nil, List.append_nil]
  | cons char chars => rw [List.takeWhile_cons_of_neg (by simp [ends char rfl]), List.append_nil]

/-- Behind the digits of its integer part a number is read as the token says. -/
theorem toOption_behindWhole (number : NumberToken) {rest : List Char}
    (ends : Scan.EndsNumber rest) :
    (behindWhole number.negative number.whole.text
        (DigitRun.fractionText number.fraction ++
          (Exponent.text number.exponent ++ rest))).toOption =
      number.value?.map (·, rest) := by
  unfold behindWhole NumberToken.value? NumberToken.significand
  cases number.fraction with
  | none =>
    rw [DigitRun.fractionText, List.nil_append]
    cases number.exponent with
    | none =>
      rw [Exponent.text, List.nil_append]
      dsimp only
      split
      · exact absurd rfl (ends '.' rfl).2.1
      · exact absurd rfl (ends 'e' rfl).2.2.1
      · exact absurd rfl (ends 'E' rfl).2.2.2
      · split
        · next kept => simp [kept, Except.toOption]
        · next dropped => simp [dropped, toOption_scaled]
    | some exponent =>
      have read := toOption_exponent number.negative (collect 0 number.whole.text).1
        (collect 0 number.whole.text).2 exponent ends.endsDigits
      rw [← List.append_assoc] at read
      simp only [Exponent.text, List.cons_append]
      cases exponent.capital <;> exact read
  | some digits =>
    have separated := spanDigits_append digits (Scan.endsDigits_exponent number.exponent ends)
    have more : digits.text.isEmpty = false := by simpa using digits.nonempty
    simp only [DigitRun.fractionText, List.cons_append, fraction, separated, more]
    rw [if_neg Bool.false_ne_true, toOption_exponent? _ _ _ number.exponent ends]
    cases number.exponent with
    | none => simp
    | some exponent => rfl

/-- A number is read as the token says. -/
theorem toOption_number (number : NumberToken) {rest : List Char} (ends : Scan.EndsNumber rest) :
    (Digits.number number.negative (number.unsigned ++ rest)).toOption =
      number.value?.map (·, rest) := by
  obtain ⟨digit, others, text, isDigit⟩ := Scan.exists_cons_digits number.whole
  have behind := Scan.endsDigits_fraction number.fraction
    (Scan.endsDigits_exponent number.exponent ends)
  have read := toOption_behindWhole number ends
  have separated := spanDigits_append number.whole behind
  rw [NumberToken.unsigned, List.append_assoc, List.append_assoc]
  rw [text, List.cons_append] at separated ⊢
  rw [text] at read
  unfold Digits.number
  split
  · next after heq =>
    obtain ⟨rfl, rfl⟩ := List.cons.inj heq
    have alone : others = [] := by
      have zero := number.canonical (by rw [text]; rfl)
      rw [text] at zero
      exact (List.cons.inj zero).2
    subst alone
    rw [List.nil_append]
    split
    · next digit tail tail_eq =>
      rw [behind digit (by rw [tail_eq]; rfl), if_neg Bool.false_ne_true, read]
    · next tail_eq =>
      rw [tail_eq] at read
      exact read
  · next heq =>
    obtain ⟨rfl, rfl⟩ := List.cons.inj heq
    simp only [separated]
    rw [isDigit, if_pos rfl, read]
  · next heq => simp at heq

/-! ## Whatever is read is passed over -/

theorem dropWhile_of_within {start total : Nat} {text rest : List Char}
    (h : collectExponent start text = .within total rest) : text.dropWhile Char.isDigit = rest := by
  fun_induction collectExponent start text with
  | case1 =>
    rw [Exponent.within.injEq] at h
    exact h.2
  | case2 start digit text isDigit longer fits ih =>
    rw [List.dropWhile_cons_of_pos isDigit]
    exact ih h
  | case3 => simp at h
  | case4 start digit text other =>
    rw [Exponent.within.injEq] at h
    rw [List.dropWhile_cons_of_neg other, h.2]

theorem dropWhile_of_beyond {start : Nat} {text rest : List Char}
    (h : collectExponent start text = .beyond rest) :
    text.dropWhile Char.isDigit = rest.dropWhile Char.isDigit := by
  fun_induction collectExponent start text with
  | case1 => simp at h
  | case2 start digit text isDigit longer fits ih =>
    rw [List.dropWhile_cons_of_pos isDigit]
    exact ih h
  | case3 start digit text isDigit longer fits =>
    rw [Exponent.beyond.injEq] at h
    rw [List.dropWhile_cons_of_pos isDigit, h]
  | case4 => simp at h

/-- The scanner takes signs off as the reader does. -/
theorem skipExponent_eq (text : List Char) :
    Scan.skipExponent text =
      match (exponentSign text).2 with
      | digit :: rest =>
        if digit.isDigit then .ok (rest.dropWhile Char.isDigit)
        else stop .invalidNumber 1 (exponentSign text).2
      | [] => stop .invalidNumber 1 [] := by
  unfold Scan.skipExponent
  fun_cases exponentSign text with
  | case1 => rfl
  | case2 => rfl
  | case3 text plus minus =>
    split
    · exact absurd rfl (plus _)
    · exact absurd rfl (minus _)
    · cases text <;> rfl

theorem skipExponent_of_exponent {negative : Bool} {significand : Nat} {start : Int}
    {text rest : List Char} {number : Number}
    (h : Digits.exponent negative significand start text = .ok (number, rest)) :
    Scan.skipExponent text = .ok rest := by
  rw [skipExponent_eq]
  unfold Digits.exponent at h
  generalize (exponentSign text).2 = unsigned at h ⊢
  dsimp only at h
  split at h
  · simp [stop] at h
  · next digit after =>
    split at h
    · next isDigit =>
      dsimp only
      rw [if_pos isDigit, Except.ok.injEq]
      split at h
      · next within =>
        have dropped := dropWhile_of_within within
        rwa [List.dropWhile_cons_of_pos isDigit, ← Read.rest_of_scaled h] at dropped
      · next beyond =>
        have dropped := dropWhile_of_beyond beyond
        rw [List.dropWhile_cons_of_pos isDigit] at dropped
        split at h
        · simp [stop] at h
        · rw [Except.ok.injEq, Prod.mk.injEq] at h
          rw [dropped, h.2]
    · simp [stop] at h

theorem skipExponent?_of_exponent? {negative : Bool} {significand : Nat} {start : Int}
    {text rest : List Char} {number : Number}
    (h : exponent? negative significand start text = .ok (number, rest)) :
    Scan.skipExponent? text = .ok rest := by
  unfold exponent? at h
  split at h
  · exact skipExponent_of_exponent h
  · exact skipExponent_of_exponent h
  · next small capital =>
    rw [Scan.skipExponent?.eq_3 text small capital, Read.rest_of_scaled h]

theorem skipFraction_of_fraction {negative : Bool} {significand dropped : Nat}
    {text rest : List Char} {number : Number}
    (h : fraction negative significand dropped text = .ok (number, rest)) :
    Scan.skipFraction ('.' :: text) = .ok rest := by
  unfold fraction Numeral.spanDigits at h
  dsimp only at h
  split at h
  · simp [stop] at h
  · next more =>
    have skipped := skipExponent?_of_exponent? h
    cases text with
    | nil => simp at more
    | cons digit after =>
      by_cases isDigit : digit.isDigit
      · rw [List.dropWhile_cons_of_pos isDigit] at skipped
        rw [Scan.skipFraction, if_pos isDigit, skipped]
      · simp [List.takeWhile_cons_of_neg isDigit] at more

theorem skipFraction_of_behindWhole {negative : Bool} {digits text rest : List Char}
    {number : Number} (h : behindWhole negative digits text = .ok (number, rest)) :
    Scan.skipFraction text = .ok rest := by
  unfold behindWhole at h
  dsimp only at h
  split at h
  · exact skipFraction_of_fraction h
  · exact skipExponent_of_exponent h
  · exact skipExponent_of_exponent h
  · next point small capital =>
    have kept : rest = text := by
      split at h
      · rw [Except.ok.injEq, Prod.mk.injEq] at h
        exact h.2.symm
      · exact Read.rest_of_scaled h
    rw [kept, Scan.skipFraction_of_head_ne, Scan.skipExponent?.eq_3 text small capital]
    rintro char head rfl
    cases text with
    | nil => simp at head
    | cons first after =>
      rw [List.head?_cons, Option.mem_some_iff] at head
      exact point after (by rw [head])

/-- Whatever is read as a number is passed over. -/
theorem skipNumber_of_number {negative : Bool} {text rest : List Char} {number : Number}
    (h : Digits.number negative text = .ok (number, rest)) :
    Scan.skipNumber text = .ok rest := by
  unfold Digits.number at h
  split at h
  · split at h
    · next digit after =>
      split at h
      · simp [stop] at h
      · next notDigit =>
        rw [Scan.skipNumber, if_neg notDigit]
        exact skipFraction_of_behindWhole h
    · exact skipFraction_of_behindWhole h
  · next digit after notZero =>
    split at h
    · next isDigit =>
      have skipped := skipFraction_of_behindWhole h
      change Scan.skipFraction ((digit :: after).dropWhile Char.isDigit) = _ at skipped
      rw [List.dropWhile_cons_of_pos isDigit] at skipped
      rw [Scan.skipNumber, if_pos isDigit]
      · exact skipped
      · exact fun _ _ zero _ ↦ notZero zero
    · simp [stop] at h
  · simp [stop] at h

end Digits

end SpanScore.Json
