import SpanScore.Proofs.Double.Amounts
import SpanScore.Proofs.Message.ReadBack
import SpanScore.Proofs.Scorer.Outcome

/-!
# Scores of other processes

A score that another process has written is read again as one at most a few doubles away.  Main
statements: how far away it can be, and that it is not always the same double.
-/

namespace SpanScore

open Double
open Float.Model.UnpackedFloat (Sign)

/-! ## Clamping what is read -/

namespace Double

/-- Clamping a double does not move it further from one that needs no clamping. -/
theorem apart_clamp_le {sign : Sign} {a b : ℕ} (hb : b ≤ infinityPlace) (small : a ≤ onePlace)
    (positive : sign = .positive ∨ b = 0) :
    apart (signed sign a) (Distribution.clamp (signed sign b)) ≤
      apart (signed sign a) (signed sign b) := by
  have one_lt : onePlace < infinityPlace := by decide
  have zero_le := zero_le_signed positive
  rcases Nat.lt_or_ge onePlace b with above | within
  · obtain rfl : sign = .positive := positive.resolve_right (by omega)
    have lt : (1 : Float) < signed .positive b := by
      rw [one_eq, lt_iff _ _ one_lt.le hb, rank, rank]
      omega
    have clamped : Distribution.clamp (signed .positive b) = signed .positive onePlace := by
      have number := isNaN_eq_false_of_le zero_le
      simp only [Distribution.clamp]
      rw [if_neg ((not_lt_iff number.2 number.1).2 zero_le), if_pos lt, one_eq]
    rw [clamped, apart_signed _ (by omega) one_lt.le, apart_signed _ (by omega) hb]
    omega
  · have le_one : signed sign b ≤ 1 := by
      rw [one_eq, le_iff _ _ hb one_lt.le]
      cases sign <;> simp only [rank] <;> omega
    rw [Distribution.clamp_eq_self zero_le le_one]

end Double

namespace Response

open Decimal Json.Digits

/-- A double whose shortest digits are few is zero or has at most fifteen of them and is neither
small nor great. -/
def HasFewDigits (x : Float) : Prop :=
  (x == 0) = true ∨
    (Binary.ofFloat x).shortest.digits.length ≤ 15 ∧ 1e-7 ≤ x.abs ∧ x.abs ≤ 1e13

theorem hasFewDigits_signed_iff (sign : Sign) {place : ℕ} (finite : place < infinityPlace) :
    HasFewDigits (signed sign place) ↔ place = 0 ∨
      (Binary.ofPlace place).shortest.digits.length ≤ 15 ∧ 1e-7 ≤ signed .positive place ∧
        signed .positive place ≤ 1e13 := by
  rw [HasFewDigits, zero_eq, beq_iff _ _ finite.le (by decide), Binary.ofFloat_signed sign finite,
    abs_signed]
  refine or_congr ?_ Iff.rfl
  cases sign <;> simp [rank]

/-- How far a finite double may move when it is read back, by its sign and place. -/
theorem exists_found (sign : Sign) {place : ℕ} (finite : place < infinityPlace) :
    ∃ found < infinityPlace,
      similarityOf (encode ⟨signed sign place⟩) = .ok (signed sign found) ∧
      (place = 0 → found = 0) ∧ Within 3 place found ∧
      (1e-290 ≤ signed .positive place → Within 2 place found) ∧
      (1e-5 ≤ signed .positive place → signed .positive place ≤ 1e22 → Within 1 place found) ∧
      (HasFewDigits (signed sign place) → found = place) := by
  rw [hasFewDigits_signed_iff sign finite]
  rcases Nat.eq_zero_or_pos place with rfl | positive
  · exact ⟨0, finite, similarityOf_encode_zero sign, fun _ ↦ rfl, by simp [Within],
      fun _ ↦ by simp [Within], fun _ _ ↦ by simp [Within], fun _ ↦ rfl⟩
  · obtain ⟨token, written, found, small, read, within⟩ :=
      exists_similarityOf_encode sign positive finite
    have mono {steps : ℕ} (le : drift token.mantissa token.power ≤ steps) :
        Within steps place found := ⟨within.1.trans (by omega), within.2.trans (by omega)⟩
    refine ⟨found, small, read, fun zero ↦ absurd zero positive.ne', mono (drift_le_three _ _),
      fun le ↦ mono (drift_le_two_of_le written finite le), fun low high ↦ mono ?_, ?_⟩
    · rw [drift_of_natAbs_le _ (natAbs_power_le written finite low high)]
      exact significandSteps_le _
    · rintro (zero | ⟨short, low, high⟩)
      · exact absurd zero positive.ne'
      · obtain ⟨above, below⟩ := mono (drift_eq_zero written finite short low high).le
        omega

/-- The response with a finite similarity is read again.  What is read has the sign of the
similarity and is at most three doubles away, at most two unless the similarity is tiny, and at most
one where its power of ten is exact; it is the same double where its digits are few.  A score of
another process is brought between zero and one and is no further away. -/
theorem similarityOf_encode_near {x : Float} (finite : x.isFinite = true) :
    ∃ y, similarityOf (encode ⟨x⟩) = .ok y ∧ y.isFinite = true ∧
      isSignNegative y = isSignNegative x ∧ apart x y ≤ 3 ∧
      (1e-290 ≤ x.abs → apart x y ≤ 2) ∧
      (1e-5 ≤ x.abs → x.abs ≤ 1e22 → apart x y ≤ 1) ∧
      (HasFewDigits x → y = x) ∧
      (0 ≤ x → x ≤ 1 → ∀ (launch : Launcher) (scorer : Scorer) (request : Request)
        (program : Ended), launch (scorer.callFor request) = .ended program →
        (∀ message, program.feed ≠ .failed message) → program.status = .exited 0 →
        scorer.isLate program = false → program.output = encode ⟨x⟩ →
        ∃ score, (scorer.infer launch request).result = .ok score ∧ 0 ≤ score ∧ score ≤ 1 ∧
          apart x score ≤ apart x y) := by
  obtain ⟨sign, place, inside, rfl⟩ := exists_signed_of_isFinite finite
  obtain ⟨found, small, read, zero, three, two, one, same⟩ := exists_found sign inside
  have apart_le {steps : ℕ} (within : Within steps place found) :
      apart (signed sign place) (signed sign found) ≤ steps := by
    obtain ⟨above, below⟩ := within
    rw [apart_signed sign inside.le small.le]
    omega
  rw [abs_signed]
  refine ⟨signed sign found, read, (isFinite_signed sign found).2 small, ?_, apart_le three,
    fun le ↦ apart_le (two le), fun low high ↦ apart_le (one low high),
    fun few ↦ by rw [same few], ?_⟩
  · rw [isSignNegative_signed, isSignNegative_signed]
  · intro low high launch scorer request program ran fed exited punctual output
    have scored : scorer.scoreOf program = .ok (Distribution.clamp (signed sign found)) := by
      obtain ⟨number, answers, number_eq⟩ := similarityOf_eq_ok_iff.1 read
      rw [Scorer.scoreOf_eq_ok_iff]
      exact ⟨number, ⟨fed, exited, output ▸ answers⟩, by rw [number_eq]⟩
    refine ⟨_, ?_, (Scorer.score_mem scored).1, (Scorer.score_mem scored).2.1, ?_⟩
    · rw [Scorer.callFor] at ran
      rw [Scorer.result_infer, ran]
      dsimp only
      rw [punctual, if_neg Bool.false_ne_true, scored]
    · rw [zero_eq, le_iff _ _ (by decide) inside.le] at low
      rw [one_eq, le_iff _ _ inside.le (by decide)] at high
      cases sign with
      | positive =>
        simp only [rank] at high
        exact apart_clamp_le small.le (by omega) (.inl rfl)
      | negative =>
        simp only [rank] at low
        obtain rfl : place = 0 := by omega
        exact apart_clamp_le small.le (by omega) (.inr (zero rfl))

theorem similarityOf_encode_near_at_drift :
    let x : Float := 0.22707475470333482
    let launch : Launcher := fun _ ↦ .ended ⟨.given, encode ⟨x⟩, [], .exited 0, 0⟩
    let scorer : Scorer := ⟨"external", "scorer", [], none⟩
    x.isFinite = true ∧ (∃ y, similarityOf (encode ⟨x⟩) = .ok y ∧ apart x y ≤ 1) ∧
      ∃ score, (scorer.infer launch ⟨.absent, .absent⟩).result = .ok score ∧ 0 ≤ score ∧
        score ≤ 1 ∧ apart x score ≤ 1 := by
  intro x launch scorer
  have finite : x.isFinite = true := by decide
  obtain ⟨y, read, -, -, -, -, one, -, delegated⟩ := similarityOf_encode_near finite
  have close : apart x y ≤ 1 := one (by decide) (by decide)
  obtain ⟨score, scored, low, high, moved⟩ := delegated (by decide) (by decide)
    launch scorer ⟨.absent, .absent⟩ _ rfl (by simp) rfl rfl rfl
  exact ⟨finite, ⟨y, read, close⟩, score, scored, low, high, moved.trans close⟩

/-- Not every double is read back: `0.22707475470333482` is written with these digits and read as
the double before it. -/
theorem exists_similarityOf_encode_ne :
    ¬∀ x : Float, x.isFinite = true → similarityOf (encode ⟨x⟩) = .ok x := by
  intro same
  let fraction : Json.Grammar.DigitRun :=
    ⟨"22707475470333482".toList, by decide, List.all_eq_true.1 (by decide)⟩
  let token : Json.Grammar.NumberToken :=
    ⟨false, zeroRun, Json.Grammar.DigitRun.isCanonical_single '0' rfl, some fraction, none⟩
  have text : Json.Print.double 0.22707475470333482 = token.text := by decide
  have value : token.value? = some (.double 0.2270747547033348) := by decide +kernel
  have read := similarityOf_encode_of_token text value
  have equal := Except.ok.inj (read.symm.trans (same _ (by decide)))
  have different : (0.2270747547033348 : Float) ≠ 0.22707475470333482 := by decide
  exact different equal

end Response

end SpanScore
