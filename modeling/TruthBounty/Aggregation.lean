import TruthBounty.JsBuiltins
import Mathlib.Algebra.BigOperators.Group.List
import Mathlib.Algebra.Order.BigOperators.Group.List

namespace TruthBounty

inductive VerificationVerdict where
  | TRUE
  | FALSE
  deriving DecidableEq

inductive ClaimStatus where
  | VERIFIED_TRUE
  | VERIFIED_FALSE
  | INCONCLUSIVE
  deriving DecidableEq

/-- The fields of a verification that aggregation reads, in exact arithmetic. -/
structure Verification where
  verdict : VerificationVerdict
  stakeAmount : ℚ
  reputationWeight : ℚ

structure AggregationMetadata where
  trueWeight : ℚ
  falseWeight : ℚ
  verificationCount : ℕ

structure AggregationResult where
  claimId : String
  status : ClaimStatus
  confidence : ℤ
  metadata : AggregationMetadata

/-- Weight formula (v1): `stakeAmount * reputationWeight`. -/
def computeWeight (v : Verification) : ℚ := v.stakeAmount * v.reputationWeight

/-- Confidence formula (v1): `Math.round((winningWeight / totalWeight) * 100)`. -/
def computeConfidence (winningWeight totalWeight : ℚ) : ℤ :=
  jsRound (winningWeight / totalWeight * 100)

def inconclusiveResult (claimId : String) (trueWeight falseWeight : ℚ) (count : ℕ) :
    AggregationResult :=
  { claimId, status := .INCONCLUSIVE, confidence := 0,
    metadata := ⟨trueWeight, falseWeight, count⟩ }

/-- One iteration of the weighting loop over `(trueWeight, falseWeight)`. -/
def tally (weights : ℚ × ℚ) (v : Verification) : ℚ × ℚ :=
  if v.verdict = .TRUE then (weights.1 + computeWeight v, weights.2)
  else (weights.1, weights.2 + computeWeight v)

def aggregate (claimId : String) (verifications : List Verification) : AggregationResult :=
  if verifications.length = 0 then
    { claimId, status := .INCONCLUSIVE, confidence := 0, metadata := ⟨0, 0, 0⟩ }
  else
    let weights := verifications.foldl tally (0, 0)
    let trueWeight := weights.1
    let falseWeight := weights.2
    let totalWeight := trueWeight + falseWeight
    if totalWeight = 0 then
      inconclusiveResult claimId trueWeight falseWeight verifications.length
    else if trueWeight = falseWeight then
      inconclusiveResult claimId trueWeight falseWeight verifications.length
    else
      let status := if trueWeight > falseWeight then ClaimStatus.VERIFIED_TRUE else .VERIFIED_FALSE
      let confidence := computeConfidence (max trueWeight falseWeight) totalWeight
      if confidence < 10 then
        inconclusiveResult claimId trueWeight falseWeight verifications.length
      else
        { claimId, status, confidence,
          metadata := ⟨trueWeight, falseWeight, verifications.length⟩ }

/-- The summed weight of the verifications with verdict `TRUE`. -/
def trueWeightOf (verifications : List Verification) : ℚ :=
  ((verifications.filter fun v => v.verdict == .TRUE).map computeWeight).sum

/-- The summed weight of all other verifications. -/
def falseWeightOf (verifications : List Verification) : ℚ :=
  ((verifications.filter fun v => v.verdict != .TRUE).map computeWeight).sum

theorem foldl_tally (verifications : List Verification) :
    ∀ trueWeight falseWeight : ℚ, verifications.foldl tally (trueWeight, falseWeight) =
      (trueWeight + trueWeightOf verifications, falseWeight + falseWeightOf verifications) := by
  induction verifications with
  | nil => simp [trueWeightOf, falseWeightOf]
  | cons v verifications ih =>
    intro trueWeight falseWeight
    cases verdict : v.verdict <;>
      simp [tally, verdict, ih, trueWeightOf, falseWeightOf, List.filter_cons, add_assoc]

theorem trueWeightOf_nonneg {verifications : List Verification}
    (nonneg : ∀ v ∈ verifications, 0 ≤ v.stakeAmount ∧ 0 ≤ v.reputationWeight) :
    0 ≤ trueWeightOf verifications :=
  List.sum_nonneg fun w member => by
    obtain ⟨v, kept, rfl⟩ := List.mem_map.mp member
    have bounds := nonneg v (List.mem_filter.mp kept).1
    exact mul_nonneg bounds.1 bounds.2

theorem falseWeightOf_nonneg {verifications : List Verification}
    (nonneg : ∀ v ∈ verifications, 0 ≤ v.stakeAmount ∧ 0 ≤ v.reputationWeight) :
    0 ≤ falseWeightOf verifications :=
  List.sum_nonneg fun w member => by
    obtain ⟨v, kept, rfl⟩ := List.mem_map.mp member
    have bounds := nonneg v (List.mem_filter.mp kept).1
    exact mul_nonneg bounds.1 bounds.2

/-- The larger of two non-negative, unequal weights holds between half and all of their
total, so a decided confidence lies in `[50, 100]`. -/
theorem computeConfidence_bounds {trueWeight falseWeight : ℚ} (trueNonneg : 0 ≤ trueWeight)
    (falseNonneg : 0 ≤ falseWeight) (unequal : trueWeight ≠ falseWeight) :
    50 ≤ computeConfidence (max trueWeight falseWeight) (trueWeight + falseWeight) ∧
      computeConfidence (max trueWeight falseWeight) (trueWeight + falseWeight) ≤ 100 := by
  have total : 0 < trueWeight + falseWeight := by
    rcases lt_or_gt_of_ne unequal with less | more <;> linarith
  have half : (trueWeight + falseWeight) / 2 ≤ max trueWeight falseWeight := by
    rcases le_total trueWeight falseWeight with le | le
    · rw [max_eq_right le]; linarith
    · rw [max_eq_left le]; linarith
  have whole : max trueWeight falseWeight ≤ trueWeight + falseWeight :=
    max_le (by linarith) (by linarith)
  apply jsRound_of_le_of_le
  · rw [div_mul_eq_mul_div, le_div_iff₀ total]; push_cast; linarith
  · rw [div_mul_eq_mul_div, div_le_iff₀ total]; push_cast; linarith

theorem aggregate_of_eq {claimId : String} {verifications : List Verification}
    (equal : trueWeightOf verifications = falseWeightOf verifications) :
    aggregate claimId verifications = inconclusiveResult claimId (trueWeightOf verifications)
      (falseWeightOf verifications) verifications.length := by
  unfold aggregate
  split
  · rename_i empty
    simp [List.length_eq_zero.mp empty, inconclusiveResult, trueWeightOf, falseWeightOf]
  · simp only [foldl_tally, zero_add, equal, if_true]
    split <;> rfl

theorem aggregate_of_ne {claimId : String} {verifications : List Verification}
    (nonneg : ∀ v ∈ verifications, 0 ≤ v.stakeAmount ∧ 0 ≤ v.reputationWeight)
    (unequal : trueWeightOf verifications ≠ falseWeightOf verifications) :
    aggregate claimId verifications =
      { claimId,
        status := if trueWeightOf verifications > falseWeightOf verifications then .VERIFIED_TRUE
          else .VERIFIED_FALSE,
        confidence := computeConfidence (max (trueWeightOf verifications) (falseWeightOf verifications))
          (trueWeightOf verifications + falseWeightOf verifications),
        metadata := ⟨trueWeightOf verifications, falseWeightOf verifications,
          verifications.length⟩ } := by
  have trueNonneg := trueWeightOf_nonneg nonneg
  have falseNonneg := falseWeightOf_nonneg nonneg
  have bounds := computeConfidence_bounds trueNonneg falseNonneg unequal
  have nonempty : verifications.length ≠ 0 := by
    intro empty
    simp [List.length_eq_zero.mp empty, trueWeightOf, falseWeightOf] at unequal
  have total : trueWeightOf verifications + falseWeightOf verifications ≠ 0 := by
    intro zero
    exact unequal (by linarith)
  simp only [aggregate, nonempty, foldl_tally, zero_add, total, unequal, if_false]
  rw [if_neg (by omega)]

theorem aggregate_perm (claimId : String) {permuted verifications : List Verification}
    (perm : permuted.Perm verifications) :
    aggregate claimId permuted = aggregate claimId verifications := by
  have sameTrue : trueWeightOf permuted = trueWeightOf verifications :=
    ((perm.filter _).map _).sum_eq
  have sameFalse : falseWeightOf permuted = falseWeightOf verifications :=
    ((perm.filter _).map _).sum_eq
  simp only [aggregate, perm.length_eq, foldl_tally, sameTrue, sameFalse]

/-- Aggregation in exact arithmetic over non-negative stakes and weights: the metadata are
the two weighted sums and the count, the status compares the sums, a decided confidence is
the rounded winning share in `[50, 100]` so the low-confidence safeguard never fires, and
the order of the verifications does not matter. -/
theorem aggregate_exact (claimId : String) (verifications : List Verification)
    (nonneg : ∀ v ∈ verifications, 0 ≤ v.stakeAmount ∧ 0 ≤ v.reputationWeight) :
    let result := aggregate claimId verifications
    let trueWeight := trueWeightOf verifications
    let falseWeight := falseWeightOf verifications
    result.metadata.trueWeight = trueWeight ∧ result.metadata.falseWeight = falseWeight ∧
    result.metadata.verificationCount = verifications.length ∧
    (result.status = .VERIFIED_TRUE ↔ falseWeight < trueWeight) ∧
    (result.status = .VERIFIED_FALSE ↔ trueWeight < falseWeight) ∧
    (result.status = .INCONCLUSIVE ↔ trueWeight = falseWeight) ∧
    result.confidence = (if result.status = .INCONCLUSIVE then 0
      else jsRound (100 * max trueWeight falseWeight / (trueWeight + falseWeight))) ∧
    (result.status ≠ .INCONCLUSIVE → 50 ≤ result.confidence ∧ result.confidence ≤ 100) ∧
    (trueWeight ≠ falseWeight →
      ¬ computeConfidence (max trueWeight falseWeight) (trueWeight + falseWeight) < 10) ∧
    ∀ permuted : List Verification, permuted.Perm verifications →
      aggregate claimId permuted = result := by
  dsimp only
  have permutations : ∀ permuted : List Verification, permuted.Perm verifications →
      aggregate claimId permuted = aggregate claimId verifications :=
    fun _ perm => aggregate_perm claimId perm
  by_cases equal : trueWeightOf verifications = falseWeightOf verifications
  · rw [aggregate_of_eq equal] at permutations ⊢
    simp only [inconclusiveResult, equal, lt_irrefl, reduceCtorEq, if_true, ne_eq, not_true,
      false_implies, iff_false, iff_true, not_false_eq_true, true_and] at permutations ⊢
    exact permutations
  · have bounds := computeConfidence_bounds (trueWeightOf_nonneg nonneg)
      (falseWeightOf_nonneg nonneg) equal
    have formula : computeConfidence (max (trueWeightOf verifications) (falseWeightOf verifications))
        (trueWeightOf verifications + falseWeightOf verifications) =
        jsRound (100 * max (trueWeightOf verifications) (falseWeightOf verifications) /
          (trueWeightOf verifications + falseWeightOf verifications)) := by
      rw [computeConfidence, div_mul_eq_mul_div, mul_comm]
    rw [aggregate_of_ne nonneg equal] at permutations ⊢
    rw [← formula]
    rcases lt_or_gt_of_ne equal with less | more
    · simp only [gt_iff_lt, not_lt.mpr less.le, less, reduceCtorEq, iff_false, iff_true,
        equal, ne_eq, not_false_eq_true, true_and, forall_const, if_false, ↓reduceIte]
        at permutations ⊢
      exact ⟨bounds, by omega, permutations⟩
    · simp only [gt_iff_lt, more, reduceCtorEq, iff_false, iff_true, not_lt.mpr more.le, equal,
        ne_eq, not_false_eq_true, true_and, forall_const, if_false, ↓reduceIte] at permutations ⊢
      exact ⟨bounds, by omega, permutations⟩

/-- The repository's "simple weighted majority" case: a decided claim, and a confidence of
at least 50. -/
theorem aggregate_simple_weighted_majority :
    (aggregate "claim-1" [⟨.TRUE, 10, 1⟩, ⟨.FALSE, 5, 1⟩]).status = .VERIFIED_TRUE ∧
      50 ≤ (aggregate "claim-1" [⟨.TRUE, 10, 1⟩, ⟨.FALSE, 5, 1⟩]).confidence := by
  have facts := aggregate_exact "claim-1" [⟨.TRUE, 10, 1⟩, ⟨.FALSE, 5, 1⟩] (by norm_num)
  have decided := facts.2.2.2.1.mpr
    (by simp [trueWeightOf, falseWeightOf, computeWeight]; norm_num)
  exact ⟨decided, (facts.2.2.2.2.2.2.2.1 (by rw [decided]; exact nofun)).1⟩

end TruthBounty
