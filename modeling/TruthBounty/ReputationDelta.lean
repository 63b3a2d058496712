import TruthBounty.JsBuiltins
import Mathlib.Data.Nat.Log

namespace TruthBounty

def maxScore : ℤ := 100
def baseDelta : ℤ := 2
def stakeCap : ℕ := 1000
def minDampen : ℚ := 1 / 10
def maxPosDelta : ℤ := 10
def maxNegDelta : ℤ := 15
def alpha : ℚ := 1

/-- The inputs of one delta computation. History counts are finite numbers, and a
finite count is its own `count || 0`; the stake is any JavaScript number. -/
structure ReputationDeltaParams where
  oldScore : ℤ
  totalVerifications : ℚ
  correctVerifications : ℚ
  stakeAmount : JsNumber
  isCorrect : Bool

/-- `Math.min(Math.max(0, Math.floor(stakeAmount || 0)), STAKE_CAP)`. `NaN` is falsy and
becomes `0`; the infinities saturate at the two ends. -/
def limitedStake : JsNumber → ℕ
  | .finite q => min ⌊q⌋.toNat stakeCap
  | .posInfinity => stakeCap
  | .negInfinity | .nan => 0

/-- `1 + Math.floor(Math.log2(1 + limitedStake))`. -/
def stakeFactor (stakeAmount : JsNumber) : ℕ :=
  1 + Nat.log 2 (1 + limitedStake stakeAmount)

/-- The Bayesian reliability estimate, scaled to `0..100` and floored. -/
def reliabilityFactor (totalVerifications correctVerifications : ℚ) : ℤ :=
  ⌊(correctVerifications + alpha) * 100 / (totalVerifications + 2 * alpha)⌋

def rawDelta (stakeFactor : ℕ) (reliabilityFactor : ℤ) : ℤ :=
  ⌊((baseDelta * stakeFactor * reliabilityFactor : ℤ) : ℚ) / 100⌋

/-- `Math.max(MIN_DAMPEN, (MAX_SCORE - oldScore) / MAX_SCORE)`. -/
def dampening (oldScore : ℤ) : ℚ :=
  max minDampen (((maxScore - oldScore : ℤ) : ℚ) / maxScore)

/-- `1 + Math.floor(oldScore / 50)`. -/
def amplify (oldScore : ℤ) : ℤ := 1 + ⌊(oldScore : ℚ) / 50⌋

/-- The gain of a correct verifier: the minimal effect dampened for high reputation,
and at least one point. -/
def dampenedGain (oldScore minimumRaw : ℤ) : ℤ :=
  let delta := ⌊(minimumRaw : ℚ) * dampening oldScore⌋
  if delta = 0 then 1 else delta

/-- The loss of an incorrect verifier: `-Math.max(1, Math.floor(Math.abs(delta) * amplify))`
with `delta = -minimumRaw`, where the product of integers is its own floor. -/
def amplifiedPenalty (oldScore minimumRaw : ℤ) : ℤ :=
  -max 1 (minimumRaw * amplify oldScore)

def clampDelta (delta : ℤ) : ℤ :=
  let capped := if delta > maxPosDelta then maxPosDelta else delta
  if capped < -maxNegDelta then -maxNegDelta else capped

/-- `Math.max(1, raw)`: every verification has at least a minimal effect. -/
def minimumRaw (params : ReputationDeltaParams) : ℤ :=
  max 1 (rawDelta (stakeFactor params.stakeAmount)
    (reliabilityFactor params.totalVerifications params.correctVerifications))

def computeReputationDelta (params : ReputationDeltaParams) : ℤ :=
  clampDelta (if params.isCorrect then dampenedGain params.oldScore (minimumRaw params)
    else amplifiedPenalty params.oldScore (minimumRaw params))

theorem dampening_pos (oldScore : ℤ) : 0 < dampening oldScore :=
  lt_max_of_lt_left (by norm_num [minDampen])

theorem dampening_antitone {oldScore oldScore' : ℤ} (le : oldScore ≤ oldScore') :
    dampening oldScore' ≤ dampening oldScore := by
  have : ((maxScore - oldScore' : ℤ) : ℚ) ≤ ((maxScore - oldScore : ℤ) : ℚ) := by
    exact_mod_cast (by omega : maxScore - oldScore' ≤ maxScore - oldScore)
  exact max_le_max le_rfl (div_le_div_of_nonneg_right this (by norm_num [maxScore]))

theorem amplify_mono {oldScore oldScore' : ℤ} (le : oldScore ≤ oldScore') :
    amplify oldScore ≤ amplify oldScore' := by
  have : (oldScore : ℚ) / 50 ≤ (oldScore' : ℚ) / 50 :=
    div_le_div_of_nonneg_right (by exact_mod_cast le) (by norm_num)
  unfold amplify
  have := Int.floor_mono this
  omega

theorem one_le_minimumRaw (params : ReputationDeltaParams) : 1 ≤ minimumRaw params :=
  le_max_left _ _

theorem dampenedGain_pos {oldScore minimumRaw : ℤ} (positive : 1 ≤ minimumRaw) :
    1 ≤ dampenedGain oldScore minimumRaw := by
  have raw : (0 : ℚ) ≤ minimumRaw := by exact_mod_cast (by omega : (0 : ℤ) ≤ minimumRaw)
  have floored := Int.floor_nonneg.mpr (mul_nonneg raw (dampening_pos oldScore).le)
  dsimp only [dampenedGain]
  split <;> omega

theorem amplifiedPenalty_neg (oldScore minimumRaw : ℤ) :
    amplifiedPenalty oldScore minimumRaw ≤ -1 := by
  unfold amplifiedPenalty
  omega

theorem clampDelta_of_pos {delta : ℤ} (positive : 1 ≤ delta) :
    1 ≤ clampDelta delta ∧ clampDelta delta ≤ maxPosDelta := by
  simp only [clampDelta, maxPosDelta, maxNegDelta]
  split_ifs <;> omega

theorem clampDelta_of_neg {delta : ℤ} (negative : delta ≤ -1) :
    -maxNegDelta ≤ clampDelta delta ∧ clampDelta delta ≤ -1 := by
  simp only [clampDelta, maxPosDelta, maxNegDelta]
  split_ifs <;> omega

theorem clampDelta_mono : Monotone clampDelta := by
  intro a b le
  simp only [clampDelta, maxPosDelta, maxNegDelta]
  split_ifs <;> omega

/-- A correct verifier gains between one and `MAX_POS_DELTA` points, an incorrect one
loses between one and `MAX_NEG_DELTA`, whatever the stake and history. -/
theorem computeReputationDelta_bounds (params : ReputationDeltaParams) :
    if params.isCorrect then
      1 ≤ computeReputationDelta params ∧ computeReputationDelta params ≤ maxPosDelta
    else
      -maxNegDelta ≤ computeReputationDelta params ∧ computeReputationDelta params ≤ -1 := by
  unfold computeReputationDelta
  cases params.isCorrect
  · exact clampDelta_of_neg (amplifiedPenalty_neg _ _)
  · exact clampDelta_of_pos (dampenedGain_pos (one_le_minimumRaw params))

theorem limitedStake_mono {a b : JsNumber} (le : a ≤ b) : limitedStake a ≤ limitedStake b := by
  change a.ble b = true at le
  cases a <;> cases b <;> simp only [JsNumber.ble, decide_eq_true_eq, Bool.false_eq_true] at le <;>
    simp only [limitedStake]
  case finite.finite => exact min_le_min_right _ (Int.toNat_le_toNat (Int.floor_mono le))
  case finite.posInfinity => exact min_le_right _ _
  all_goals first | exact Nat.zero_le _ | exact le_rfl

theorem stakeFactor_mono {a b : JsNumber} (le : a ≤ b) : stakeFactor a ≤ stakeFactor b :=
  Nat.add_le_add_left (Nat.log_mono_right (Nat.add_le_add_left (limitedStake_mono le) 1)) 1

theorem reliabilityFactor_nonneg {total correct : ℚ} (totalNonneg : 0 ≤ total)
    (correctNonneg : 0 ≤ correct) : 0 ≤ reliabilityFactor total correct :=
  Int.floor_nonneg.mpr (div_nonneg (by norm_num [alpha]; positivity) (by norm_num [alpha]; positivity))

theorem reliabilityFactor_mono_correct {total correct correct' : ℚ} (totalNonneg : 0 ≤ total)
    (le : correct ≤ correct') :
    reliabilityFactor total correct ≤ reliabilityFactor total correct' :=
  Int.floor_mono (div_le_div_of_nonneg_right (by nlinarith) (by norm_num [alpha]; positivity))

theorem reliabilityFactor_antitone_total {total total' correct : ℚ} (totalNonneg : 0 ≤ total)
    (correctNonneg : 0 ≤ correct) (le : total ≤ total') :
    reliabilityFactor total' correct ≤ reliabilityFactor total correct :=
  Int.floor_mono (div_le_div_of_nonneg_left (by norm_num [alpha]; positivity)
    (by norm_num [alpha]; positivity) (by linarith))

theorem rawDelta_mono {stake stake' : ℕ} {reliability reliability' : ℤ} (stakeLe : stake ≤ stake')
    (reliabilityLe : reliability ≤ reliability') (nonneg : 0 ≤ reliability) :
    rawDelta stake reliability ≤ rawDelta stake' reliability' := by
  have product : baseDelta * stake * reliability ≤ baseDelta * stake' * reliability' := by
    have : (stake : ℤ) ≤ stake' := by exact_mod_cast stakeLe
    unfold baseDelta; nlinarith
  exact Int.floor_mono (div_le_div_of_nonneg_right (by exact_mod_cast product) (by norm_num))

theorem dampenedGain_le {oldScore oldScore' minimumRaw minimumRaw' : ℤ}
    (positive : 1 ≤ minimumRaw)
    (le : (minimumRaw : ℚ) * dampening oldScore ≤ minimumRaw' * dampening oldScore') :
    dampenedGain oldScore minimumRaw ≤ dampenedGain oldScore' minimumRaw' := by
  have raw : (0 : ℚ) ≤ minimumRaw := by exact_mod_cast (by omega : (0 : ℤ) ≤ minimumRaw)
  have floored := Int.floor_nonneg.mpr (mul_nonneg raw (dampening_pos oldScore).le)
  have floors := Int.floor_mono le
  dsimp only [dampenedGain]
  split_ifs <;> omega

theorem amplifiedPenalty_antitone_oldScore {oldScore oldScore' minimumRaw : ℤ}
    (positive : 1 ≤ minimumRaw) (le : oldScore ≤ oldScore') :
    amplifiedPenalty oldScore' minimumRaw ≤ amplifiedPenalty oldScore minimumRaw := by
  have := Int.mul_le_mul_of_nonneg_left (amplify_mono le) (by omega : 0 ≤ minimumRaw)
  unfold amplifiedPenalty
  omega

theorem amplifiedPenalty_antitone_minimumRaw {oldScore minimumRaw minimumRaw' : ℤ}
    (positive : 1 ≤ minimumRaw) (le : minimumRaw ≤ minimumRaw') :
    amplifiedPenalty oldScore minimumRaw' ≤ amplifiedPenalty oldScore minimumRaw := by
  unfold amplifiedPenalty
  rcases le_or_lt 0 (amplify oldScore) with nonneg | negative
  · have := Int.mul_le_mul_of_nonneg_right le nonneg
    omega
  · have := Int.mul_nonpos_of_nonneg_of_nonpos (by omega : 0 ≤ minimumRaw) negative.le
    omega

/-- The size of a delta grows with the minimal effect, for a fixed verdict and score. -/
theorem abs_computeReputationDelta_le {params params' : ReputationDeltaParams}
    (verdict : params'.isCorrect = params.isCorrect) (score : params'.oldScore = params.oldScore)
    (le : minimumRaw params ≤ minimumRaw params') :
    |computeReputationDelta params| ≤ |computeReputationDelta params'| := by
  have positive := one_le_minimumRaw params
  unfold computeReputationDelta
  rw [verdict, score]
  cases params.isCorrect
  · have small := clampDelta_of_neg (amplifiedPenalty_neg params.oldScore (minimumRaw params))
    have large := clampDelta_of_neg (amplifiedPenalty_neg params.oldScore (minimumRaw params'))
    have order := clampDelta_mono
      (amplifiedPenalty_antitone_minimumRaw positive le : amplifiedPenalty params.oldScore _ ≤ _)
    simp only [Bool.false_eq_true, if_false]
    rw [abs_of_neg (by omega), abs_of_neg (by omega)]
    omega
  · have gain : 1 ≤ dampenedGain params.oldScore (minimumRaw params) := dampenedGain_pos positive
    have small := clampDelta_of_pos gain
    have order := clampDelta_mono (dampenedGain_le positive
      (mul_le_mul_of_nonneg_right (by exact_mod_cast le) (dampening_pos params.oldScore).le))
    simp only [if_true]
    rw [abs_of_pos (by omega), abs_of_pos (by omega)]
    exact order

/-- Monotonicity of the delta: a higher old score never gains more nor loses less, and
the size of the change grows with the stake and the correct count and shrinks with the
total count. -/
theorem computeReputationDelta_monotone (params : ReputationDeltaParams)
    (totalNonneg : 0 ≤ params.totalVerifications) (correctNonneg : 0 ≤ params.correctVerifications) :
    (∀ oldScore, params.oldScore ≤ oldScore →
      computeReputationDelta { params with oldScore } ≤ computeReputationDelta params) ∧
    (∀ stakeAmount, params.stakeAmount ≤ stakeAmount →
      |computeReputationDelta params| ≤ |computeReputationDelta { params with stakeAmount }|) ∧
    (∀ correctVerifications, params.correctVerifications ≤ correctVerifications →
      |computeReputationDelta params| ≤
        |computeReputationDelta { params with correctVerifications }|) ∧
    (∀ totalVerifications, params.totalVerifications ≤ totalVerifications →
      |computeReputationDelta { params with totalVerifications }| ≤
        |computeReputationDelta params|) := by
  have reliable := reliabilityFactor_nonneg totalNonneg correctNonneg
  refine ⟨fun oldScore le => ?_, fun stakeAmount le => ?_, fun correct le => ?_,
    fun total le => ?_⟩
  · have positive := one_le_minimumRaw params
    have raw : (0 : ℚ) ≤ minimumRaw params := by exact_mod_cast (by omega : (0 : ℤ) ≤ _)
    dsimp only [computeReputationDelta]
    cases params.isCorrect
    · exact clampDelta_mono (amplifiedPenalty_antitone_oldScore positive le)
    · exact clampDelta_mono (dampenedGain_le positive
        (mul_le_mul_of_nonneg_left (dampening_antitone le) raw))
  · exact abs_computeReputationDelta_le rfl rfl
      (max_le_max le_rfl (rawDelta_mono (stakeFactor_mono le) le_rfl reliable))
  · exact abs_computeReputationDelta_le rfl rfl (max_le_max le_rfl
      (rawDelta_mono le_rfl (reliabilityFactor_mono_correct totalNonneg le) reliable))
  · exact abs_computeReputationDelta_le rfl rfl (max_le_max le_rfl
      (rawDelta_mono le_rfl (reliabilityFactor_antitone_total totalNonneg correctNonneg le)
        (reliabilityFactor_nonneg (by linarith) correctNonneg)))

/-- The repository's "diminishing returns for high reputation" case, as an instance. -/
theorem diminishing_returns_for_high_reputation :
    computeReputationDelta ⟨90, 20, 18, .finite 10, true⟩ ≤
      computeReputationDelta ⟨10, 20, 18, .finite 10, true⟩ :=
  (computeReputationDelta_monotone ⟨10, 20, 18, .finite 10, true⟩ (by norm_num)
    (by norm_num)).1 90 (by norm_num)

end TruthBounty
