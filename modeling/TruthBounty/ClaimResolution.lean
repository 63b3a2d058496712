import TruthBounty.Binary64

namespace TruthBounty

def minRequiredWeight : JsNumber := .finite 100

structure VoteWeightSummary where
  trueWeight : JsNumber
  falseWeight : JsNumber

/-- `computeConfidenceScore` in JavaScript's double arithmetic: no score (`null`) below the
required weight, `0` for a tie, else the vote margin times the participation, through
`toFixed(4)` and back to a number. -/
def computeConfidenceScore (votes : VoteWeightSummary) : Option JsNumber :=
  let total := (votes.trueWeight.add votes.falseWeight).toDouble
  if total.blt minRequiredWeight then none
  else if votes.trueWeight.strictEq votes.falseWeight then some (.finite 0)
  else
    let margin := ((votes.trueWeight.add votes.falseWeight.neg).toDouble.abs.div total).toDouble
    let participation := (total.div minRequiredWeight).toDouble.min (.finite 1)
    some (numberToFixed 4 (margin.mul participation).toDouble)

/-- A `claims` row; its generated `id` is the key of the table. -/
structure Claim where
  resolvedVerdict : Option Bool
  confidenceScore : Option JsNumber
  finalized : Bool

/-- `resolveClaim`: the verdict is `trueWeight > falseWeight`, the confidence is
`computeConfidenceScore`, and the claim is finalized. -/
def resolveClaim (claims : String → Option Claim) (claimId : String) (votes : VoteWeightSummary) :
    Except String ((String → Option Claim) × Claim) :=
  match claims claimId with
  | none => .error "Claim not found"
  | some _ =>
    let claim : Claim := ⟨some (votes.falseWeight.blt votes.trueWeight),
      computeConfidenceScore votes, true⟩
    .ok (Function.update claims claimId (some claim), claim)

theorem toFixed_zero (digits : ℕ) : toFixed digits 0 = 0 := by
  norm_num [toFixed, Int.floor_eq_iff]

section Score

variable {trueWeight falseWeight : ℚ}

/-- Two non-negative doubles lie at most the larger apart, so their difference rounds to a
finite double. -/
theorem roundBinary_sub_lt (trueDouble : IsDouble trueWeight) (falseDouble : IsDouble falseWeight)
    (trueNonneg : 0 ≤ trueWeight) (falseNonneg : 0 ≤ falseWeight) :
    |roundBinary (trueWeight - falseWeight)| < 2 ^ 1024 := by
  have within (larger : ℚ) (double : IsDouble larger) (le : |trueWeight - falseWeight| ≤ larger) :
      |roundBinary (trueWeight - falseWeight)| < 2 ^ 1024 := by
    rw [← roundBinary_abs]
    refine (roundBinary_mono le).trans_lt ?_
    rw [roundBinary_of_isBinary double.1]
    exact (le_abs_self larger).trans_lt double.2
  rcases le_total trueWeight falseWeight with le | le
  · exact within falseWeight falseDouble (abs_sub_le_iff.mpr ⟨by linarith, by linarith⟩)
  · exact within trueWeight trueDouble (abs_sub_le_iff.mpr ⟨by linarith, by linarith⟩)

theorem difference_toDouble (trueDouble : IsDouble trueWeight) (falseDouble : IsDouble falseWeight)
    (trueNonneg : 0 ≤ trueWeight) (falseNonneg : 0 ≤ falseWeight) :
    (JsNumber.finite (trueWeight - falseWeight)).toDouble =
      .finite (roundBinary (trueWeight - falseWeight)) :=
  JsNumber.toDouble_finite (roundBinary_sub_lt trueDouble falseDouble trueNonneg falseNonneg)

/-- Over a positive rounded total, the rounded margin of two non-negative weights lies in
`[0, 1]`. -/
theorem margin_mem_unit (trueNonneg : 0 ≤ trueWeight) (falseNonneg : 0 ≤ falseWeight)
    (positive : 0 < roundBinary (trueWeight + falseWeight)) :
    0 ≤ |roundBinary (trueWeight - falseWeight)| / roundBinary (trueWeight + falseWeight) ∧
      |roundBinary (trueWeight - falseWeight)| / roundBinary (trueWeight + falseWeight) ≤ 1 := by
  refine ⟨div_nonneg (abs_nonneg _) positive.le, (div_le_one positive).mpr ?_⟩
  rw [← roundBinary_abs]
  exact roundBinary_mono (abs_sub_le_iff.mpr ⟨by linarith, by linarith⟩)

/-- Below the required weight there is no score. -/
theorem computeConfidenceScore_of_below (trueNonneg : 0 ≤ trueWeight) (falseNonneg : 0 ≤ falseWeight)
    (few : roundBinary (trueWeight + falseWeight) < 100) :
    computeConfidenceScore ⟨.finite trueWeight, .finite falseWeight⟩ = none := by
  have nonneg := roundBinary_nonneg (add_nonneg trueNonneg falseNonneg)
  have total := @JsNumber.toDouble_finite (trueWeight + falseWeight)
    (by rw [abs_of_nonneg nonneg]; linarith)
  simp [computeConfidenceScore, total, minRequiredWeight, few]

/-- With a finite rounded total of at least the required weight, the participation factor
is `1` and the score is the rounded margin through `toFixed(4)`. -/
theorem computeConfidenceScore_of_finite (trueDouble : IsDouble trueWeight)
    (falseDouble : IsDouble falseWeight) (trueNonneg : 0 ≤ trueWeight) (falseNonneg : 0 ≤ falseWeight)
    (enough : 100 ≤ roundBinary (trueWeight + falseWeight))
    (finiteTotal : roundBinary (trueWeight + falseWeight) < 2 ^ 1024) :
    computeConfidenceScore ⟨.finite trueWeight, .finite falseWeight⟩ =
      some (numberToFixed 4 (.finite (roundBinary (|roundBinary (trueWeight - falseWeight)| /
        roundBinary (trueWeight + falseWeight))))) := by
  set total := roundBinary (trueWeight + falseWeight)
  have positive : 0 < total := by linarith
  have totalDouble : (JsNumber.finite (trueWeight + falseWeight)).toDouble = .finite total :=
    JsNumber.toDouble_finite (by rw [abs_of_pos positive]; exact finiteTotal)
  have participationOne : 1 ≤ roundBinary (total / 100) :=
    roundBinary_one ▸ roundBinary_mono ((one_le_div (by norm_num)).mpr enough)
  have participationDouble : (JsNumber.finite (total / 100)).toDouble =
      .finite (roundBinary (total / 100)) := by
    refine JsNumber.toDouble_finite ?_
    calc |roundBinary (total / 100)| = roundBinary (total / 100) := abs_of_pos (by linarith)
      _ ≤ roundBinary total := roundBinary_mono (by linarith)
      _ = total := roundBinary_of_isBinary (roundBinary_isBinary _)
      _ < 2 ^ 1024 := finiteTotal
  by_cases tie : trueWeight = falseWeight
  · subst tie
    simp [computeConfidenceScore, totalDouble, minRequiredWeight, not_lt.mpr enough, numberToFixed,
      toFixed_zero]
  · obtain ⟨lower, upper⟩ := margin_mem_unit trueNonneg falseNonneg positive
    have marginDouble : IsDouble (roundBinary (|roundBinary (trueWeight - falseWeight)| / total)) :=
      (roundBinary_mem_unit lower upper).2.2
    simp only [computeConfidenceScore, JsNumber.add_finite, JsNumber.neg_finite, ← sub_eq_add_neg,
      totalDouble, minRequiredWeight, JsNumber.blt_finite, not_lt.mpr enough, decide_False,
      Bool.false_eq_true, if_false, JsNumber.strictEq_finite, tie,
      difference_toDouble trueDouble falseDouble trueNonneg falseNonneg, JsNumber.abs_finite,
      JsNumber.div_finite _ positive.ne', JsNumber.div_finite _ (by norm_num : (100 : ℚ) ≠ 0),
      participationDouble, JsNumber.min_finite, min_eq_right participationOne,
      JsNumber.toDouble_finite marginDouble.2, JsNumber.mul_finite, mul_one, marginDouble.toDouble]

/-- A total that overflows to `Infinity` gives a margin of `0`, so a score of `0`. -/
theorem computeConfidenceScore_of_overflow (trueDouble : IsDouble trueWeight)
    (falseDouble : IsDouble falseWeight) (trueNonneg : 0 ≤ trueWeight) (falseNonneg : 0 ≤ falseWeight)
    (overflow : 2 ^ 1024 ≤ roundBinary (trueWeight + falseWeight)) :
    computeConfidenceScore ⟨.finite trueWeight, .finite falseWeight⟩ = some (.finite 0) := by
  have positive : 0 < trueWeight + falseWeight := by
    rcases (add_nonneg trueNonneg falseNonneg).eq_or_lt with zero | positive
    · rw [← zero, roundBinary_zero] at overflow; norm_num at overflow
    · exact positive
  have totalInfinite : (JsNumber.finite (trueWeight + falseWeight)).toDouble = .posInfinity := by
    simp [JsNumber.toDouble, abs_of_nonneg (roundBinary_nonneg positive.le), overflow, positive]
  by_cases tie : trueWeight = falseWeight
  · subst tie
    simp [computeConfidenceScore, totalInfinite, JsNumber.blt, minRequiredWeight]
  · simp [computeConfidenceScore, totalInfinite, JsNumber.blt, minRequiredWeight, tie, ← sub_eq_add_neg,
      difference_toDouble trueDouble falseDouble trueNonneg falseNonneg, JsNumber.div,
      (by norm_num : ¬(100 : ℚ) < 0), JsNumber.min, JsNumber.ble, numberToFixed, toFixed_zero]

/-- For non-negative double weights, in JavaScript's double arithmetic: there is no score
exactly when the rounded sum of the weights is below the required weight, which needs the
exact sum below it too; a score is a double in `[0, 1]`; and for a finite rounded sum the
participation factor is `1`, so the score is the rounded vote margin read back from
`toFixed(4)`. -/
theorem computeConfidenceScore_spec (trueDouble : IsDouble trueWeight)
    (falseDouble : IsDouble falseWeight) (trueNonneg : 0 ≤ trueWeight) (falseNonneg : 0 ≤ falseWeight) :
    (computeConfidenceScore ⟨.finite trueWeight, .finite falseWeight⟩ = none ↔
      roundBinary (trueWeight + falseWeight) < 100) ∧
    (computeConfidenceScore ⟨.finite trueWeight, .finite falseWeight⟩ = none →
      trueWeight + falseWeight < 100) ∧
    (∀ score, computeConfidenceScore ⟨.finite trueWeight, .finite falseWeight⟩ = some score →
      ∃ value, score = .finite value ∧ IsDouble value ∧ 0 ≤ value ∧ value ≤ 1) ∧
    (100 ≤ roundBinary (trueWeight + falseWeight) →
      roundBinary (trueWeight + falseWeight) < 2 ^ 1024 →
      computeConfidenceScore ⟨.finite trueWeight, .finite falseWeight⟩ =
        some (numberToFixed 4 (.finite (roundBinary (|roundBinary (trueWeight - falseWeight)| /
          roundBinary (trueWeight + falseWeight)))))) := by
  have finite := computeConfidenceScore_of_finite trueDouble falseDouble trueNonneg falseNonneg
  have overflow := computeConfidenceScore_of_overflow trueDouble falseDouble trueNonneg falseNonneg
  have scored (enough : 100 ≤ roundBinary (trueWeight + falseWeight)) :
      ∃ value, computeConfidenceScore ⟨.finite trueWeight, .finite falseWeight⟩ = some (.finite value) ∧
        IsDouble value ∧ 0 ≤ value ∧ value ≤ 1 := by
    rcases lt_or_le (roundBinary (trueWeight + falseWeight)) (2 ^ 1024) with small | big
    · obtain ⟨marginLower, marginUpper⟩ := margin_mem_unit trueNonneg falseNonneg (by linarith)
      obtain ⟨lower, upper, -⟩ := roundBinary_mem_unit marginLower marginUpper
      obtain ⟨value, fixed, unit⟩ := numberToFixed_mem_unit 4 lower upper
      exact ⟨value, by rw [finite enough small, fixed], unit⟩
    · exact ⟨0, overflow big, by exact_mod_cast @isDouble_intCast 0 (by norm_num), le_rfl,
        zero_le_one⟩
  have undefined : computeConfidenceScore ⟨.finite trueWeight, .finite falseWeight⟩ = none ↔
      roundBinary (trueWeight + falseWeight) < 100 := by
    refine ⟨fun none => not_le.mp fun enough => ?_,
      computeConfidenceScore_of_below trueNonneg falseNonneg⟩
    obtain ⟨value, some, -⟩ := scored enough
    rw [none] at some
    cases some
  refine ⟨undefined, fun none => not_le.mp fun enough => ?_, fun score result => ?_, finite⟩
  · have hundred : roundBinary 100 = 100 := by exact_mod_cast @roundBinary_intCast 100 (by norm_num)
    exact absurd (undefined.mp none) (not_lt.mpr (hundred ▸ roundBinary_mono enough))
  · rcases lt_or_le (roundBinary (trueWeight + falseWeight)) 100 with few | enough
    · rw [undefined.mpr few] at result; cases result
    · obtain ⟨value, some, unit⟩ := scored enough
      rw [some, Option.some.injEq] at result
      exact ⟨value, result.symm, unit⟩

theorem strong_majority_confidence :
    computeConfidenceScore ⟨.finite 180, .finite 20⟩ =
      some (numberToFixed 4 (.finite (roundBinary (|roundBinary (180 - 20)| /
        roundBinary (180 + 20))))) := by
  have sum : roundBinary (180 + 20) = 200 := by
    norm_num; exact_mod_cast @roundBinary_intCast 200 (by norm_num)
  exact (computeConfidenceScore_spec (by exact_mod_cast @isDouble_intCast 180 (by norm_num))
    (by exact_mod_cast @isDouble_intCast 20 (by norm_num)) (by norm_num) (by norm_num)).2.2.2
    (by rw [sum]; norm_num) (by rw [sum]; norm_num)

end Score

end TruthBounty
