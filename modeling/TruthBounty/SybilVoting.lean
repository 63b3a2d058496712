import TruthBounty.SybilScore

namespace TruthBounty

/-- The weighted vote of a user; the `explanation` text is not modelled. -/
structure SybilWeightedVote where
  userId : String
  baseWeight : ℚ
  sybilScore : ℚ
  multiplier : ℚ
  finalWeight : ℚ

/-- `finalWeight = baseWeight * (0.5 + 0.5 * compositeScore)`. -/
def calculateSybilWeightedVote (log1p : Log1p) (db : SybilDb) (userId : String) (baseWeight : ℚ)
    (now : ℤ) : Except String (SybilDb × SybilWeightedVote) := do
  let (db, sybilScore) ← getLatestSybilScore log1p db userId now
  let multiplier := 1 / 2 + 1 / 2 * sybilScore.compositeScore
  pure (db, ⟨userId, baseWeight, sybilScore.compositeScore, multiplier, baseWeight * multiplier⟩)

structure ImpactVote where
  userId : String
  verdict : String
  baseWeight : ℚ

structure ImpactDetail where
  userId : String
  verdict : String
  baseWeight : ℚ
  sybilScore : ℚ
  adjustedWeight : ℚ

/-- The analysis; `percentageChange` is the number printed before the `%` sign. -/
structure VotingImpactAnalysis where
  originalTotalWeight : ℚ
  sybilAdjustedTotalWeight : ℚ
  weightReduction : ℚ
  percentageChange : ℚ
  details : List ImpactDetail

/-- The loop of `getVotingImpactAnalysis`, accumulating both totals and the details. -/
def impactLoop (log1p : Log1p) (now : ℤ) :
    SybilDb × ℚ × ℚ × List ImpactDetail → List ImpactVote →
      Except String (SybilDb × ℚ × ℚ × List ImpactDetail)
  | acc, [] => .ok acc
  | (db, original, adjusted, details), vote :: votes => do
    let (db, weighted) ← calculateSybilWeightedVote log1p db vote.userId vote.baseWeight now
    impactLoop log1p now (db, original + vote.baseWeight, adjusted + weighted.finalWeight,
      details ++ [⟨vote.userId, vote.verdict, vote.baseWeight, weighted.sybilScore,
        weighted.finalWeight⟩]) votes

def getVotingImpactAnalysis (log1p : Log1p) (db : SybilDb) (votes : List ImpactVote) (now : ℤ) :
    Except String (SybilDb × VotingImpactAnalysis) := do
  let (db, original, adjusted, details) ← impactLoop log1p now (db, 0, 0, []) votes
  let weightReduction := original - adjusted
  pure (db, ⟨original, adjusted, weightReduction,
    if original > 0 then toFixed 2 (weightReduction / original * 100) else 0, details⟩)

/-- A voter without wallets whose stored Sybil score is 1/2. -/
def halfScoreDb : SybilDb :=
  ⟨fun userId => if userId = "v" then some ⟨false, []⟩ else none, [⟨"v", 0, 0, 0, 0, 0, 1 / 2⟩]⟩

/-- A user without World ID whose one wallet the database clock stamped 90 days after
the application's `Date.now()`, here `0`. -/
def futureWalletDb : SybilDb :=
  ⟨fun userId => if userId = "u" then some ⟨false, [⟨7776000000⟩]⟩ else none, []⟩

theorem future_wallet_breaks_sybil_bounds (log1p : Log1p) :
    computeSybilScore log1p futureWalletDb "u" 0 = .ok (-1 / 4, ⟨0, -1, 0, 0⟩) ∧
    (calculateSybilWeightedVote log1p futureWalletDb "u" 1 0).map (·.2.multiplier) = .ok (3 / 8) ∧
    (getVotingImpactAnalysis log1p futureWalletDb [⟨"u", "TRUE", 1⟩] 0).map
      (·.2.sybilAdjustedTotalWeight) = .ok (3 / 8) := by
  have quarter : ⌊(1 / 4 : ℚ) * 10 ^ 4 + 1 / 2⌋ = 2500 := by norm_num [Int.floor_eq_iff]
  have one : ⌊(1 : ℚ) * 10 ^ 4 + 1 / 2⌋ = 10000 := by norm_num [Int.floor_eq_iff]
  have zero : ⌊(0 : ℚ) * 10 ^ 4 + 1 / 2⌋ = 0 := by norm_num [Int.floor_eq_iff]
  have score : computeSybilScore log1p futureWalletDb "u" 0 = .ok (-1 / 4, ⟨0, -1, 0, 0⟩) := by
    simp [computeSybilScore, futureWalletDb, gatherSignals, oldestWallet, normalizeSignals,
      weightedCombination, componentScores, log1p.map_zero, walletAgeThresholdMs, worldcoinWeight,
      walletAgeWeight, stakingWeight, accuracyWeight, minClaimsForAccuracyScore]
    norm_num [toFixed, quarter, one, zero]
  have latest : getLatestSybilScore log1p futureWalletDb "u" 0 =
      .ok (⟨futureWalletDb.users, [⟨"u", 0, 0, -1, 0, 0, -1 / 4⟩]⟩, ⟨"u", 0, 0, -1, 0, 0, -1 / 4⟩) := by
    have empty : futureWalletDb.sybilScores = [] := rfl
    simp [getLatestSybilScore, recordSybilScore, score, empty]
  refine ⟨score, ?_, ?_⟩
  · simp [calculateSybilWeightedVote, latest, Except.map]
    norm_num
  · simp [getVotingImpactAnalysis, impactLoop, calculateSybilWeightedVote, latest, Except.map,
      bind, Except.bind, pure, Except.pure]
    norm_num

structure SybilEligibility where
  userId : String
  currentScore : ℚ
  minimumRequired : ℚ
  eligible : Bool

/-- The `minimumScore` both eligibility methods take when none is given. -/
def defaultMinimumScore : ℚ := 1 / 10

def meetsMinimumSybilScore (log1p : Log1p) (db : SybilDb) (userId : String)
    (minimumScore : ℚ) (now : ℤ) : Except String (SybilDb × SybilEligibility) := do
  let (db, sybilScore) ← getLatestSybilScore log1p db userId now
  pure (db, ⟨userId, sybilScore.compositeScore, minimumScore,
    decide (minimumScore ≤ sybilScore.compositeScore)⟩)

structure EligibilityDetail where
  userId : String
  currentScore : ℚ
  eligible : Bool

/-- The report; `eligibilityRate` is the number printed before the `%` sign, and
`ineligibleUsers` the JavaScript difference `userIds.length - eligibleCount`. -/
structure ParticipationEligibility where
  totalUsers : ℕ
  eligibleUsers : ℕ
  ineligibleUsers : ℤ
  eligibilityRate : ℚ
  details : List EligibilityDetail

/-- The loop of `getParticipationEligibility`, accumulating the details and `eligibleCount`. -/
def eligibilityLoop (log1p : Log1p) (minimumScore : ℚ) (now : ℤ) :
    SybilDb × List EligibilityDetail × ℕ → List String →
      Except String (SybilDb × List EligibilityDetail × ℕ)
  | acc, [] => .ok acc
  | (db, details, eligibleCount), userId :: userIds => do
    let (db, result) ← meetsMinimumSybilScore log1p db userId minimumScore now
    eligibilityLoop log1p minimumScore now (db, details ++ [⟨result.userId, result.currentScore,
      result.eligible⟩], if result.eligible then eligibleCount + 1 else eligibleCount) userIds

def getParticipationEligibility (log1p : Log1p) (db : SybilDb) (userIds : List String)
    (minimumScore : ℚ) (now : ℤ) : Except String (SybilDb × ParticipationEligibility) := do
  let (db, details, eligibleCount) ← eligibilityLoop log1p minimumScore now (db, [], 0) userIds
  pure (db, ⟨userIds.length, eligibleCount, (userIds.length : ℤ) - eligibleCount,
    if userIds.length > 0 then toFixed 2 ((eligibleCount : ℚ) / userIds.length * 100) else 0,
    details⟩)

theorem meetsMinimumSybilScore_eq {log1p : Log1p} {db db' : SybilDb} {userId : String}
    {minimumScore : ℚ} {now : ℤ} {result : SybilEligibility}
    (met : meetsMinimumSybilScore log1p db userId minimumScore now = .ok (db', result)) :
    result.userId = userId ∧ result.eligible = decide (minimumScore ≤ result.currentScore) := by
  obtain ⟨_, -, returned⟩ := bind_eq_ok met
  cases (Prod.mk.inj (Except.ok.inj returned)).2
  exact ⟨rfl, rfl⟩

/-- The loop adds one detail per user, in order, and counts exactly the eligible ones. -/
theorem eligibilityLoop_spec {log1p : Log1p} {minimumScore : ℚ} {now : ℤ}
    (userIds : List String) :
    ∀ {db : SybilDb} {details : List EligibilityDetail} {eligibleCount : ℕ}
      {result : SybilDb × List EligibilityDetail × ℕ},
      eligibilityLoop log1p minimumScore now (db, details, eligibleCount) userIds = .ok result →
      ∃ added : List EligibilityDetail, result.2.1 = details ++ added ∧
        added.map (·.userId) = userIds ∧
        result.2.2 = eligibleCount + (added.filter (·.eligible)).length ∧
        ∀ detail ∈ added, detail.eligible = decide (minimumScore ≤ detail.currentScore) := by
  induction userIds with
  | nil =>
    intro db details eligibleCount result ran
    cases ran
    exact ⟨[], by simp, rfl, rfl, fun _ member => absurd member (List.not_mem_nil _)⟩
  | cons userId userIds ih =>
    intro db details eligibleCount result ran
    obtain ⟨step, met, ran⟩ := bind_eq_ok ran
    obtain ⟨named, decided⟩ := meetsMinimumSybilScore_eq met
    obtain ⟨added, appended, users, counted, each⟩ := ih ran
    refine ⟨⟨step.2.userId, step.2.currentScore, step.2.eligible⟩ :: added,
      by simp [appended], by simp [named, users], ?_, ?_⟩
    · cases eligible : step.2.eligible <;> simp [counted, eligible]
      omega
    · rintro detail (_ | ⟨_, member⟩)
      · exact decided
      · exact each detail member

/-- A successful report lists every user once, in order, each eligible exactly when its
score reaches the minimum, and its counts add up: no user is counted twice or lost. -/
theorem getParticipationEligibility_spec {log1p : Log1p} {db db' : SybilDb}
    {userIds : List String} {minimumScore : ℚ} {now : ℤ} {report : ParticipationEligibility}
    (reported : getParticipationEligibility log1p db userIds minimumScore now = .ok (db', report)) :
    report.details.map (·.userId) = userIds ∧ report.totalUsers = userIds.length ∧
      report.eligibleUsers = (report.details.filter (·.eligible)).length ∧
      report.ineligibleUsers = (report.details.filter (!·.eligible)).length ∧
      ∀ detail ∈ report.details, detail.eligible = decide (minimumScore ≤ detail.currentScore) := by
  obtain ⟨result, ran, returned⟩ := bind_eq_ok reported
  obtain ⟨rfl, rfl⟩ := Prod.mk.inj (Except.ok.inj returned)
  obtain ⟨added, appended, users, counted, each⟩ := eligibilityLoop_spec userIds ran
  rw [List.nil_append] at appended
  have eligibleCount : result.2.2 = (result.2.1.filter (·.eligible)).length := by
    rw [counted, appended, zero_add]
  have split : result.2.1.length = (result.2.1.filter (·.eligible)).length +
      (result.2.1.filter (!·.eligible)).length := by
    simpa [List.countP_eq_length_filter] using
      @List.length_eq_countP_add_countP _ (fun detail : EligibilityDetail => detail.eligible) result.2.1
  rw [← appended] at users each
  have total : userIds.length = result.2.1.length := by rw [← users, List.length_map]
  refine ⟨users, rfl, eligibleCount, ?_, each⟩
  dsimp only
  rw [total, split, eligibleCount]
  push_cast
  ring

theorem half_score_voter_report :
    ∃ db' report, getParticipationEligibility linearLog1p halfScoreDb ["v"]
        defaultMinimumScore 0 = .ok (db', report) ∧
      report.details.map (·.userId) = ["v"] ∧ report.totalUsers = 1 ∧
      report.eligibleUsers = (report.details.filter (·.eligible)).length ∧
      report.ineligibleUsers = (report.details.filter (!·.eligible)).length ∧
      ∀ detail ∈ report.details,
        detail.eligible = decide (defaultMinimumScore ≤ detail.currentScore) := by
  cases reported : getParticipationEligibility linearLog1p halfScoreDb ["v"]
    defaultMinimumScore 0 with
  | error message =>
    simp [getParticipationEligibility, eligibilityLoop, meetsMinimumSybilScore,
      getLatestSybilScore, halfScoreDb, bind, Except.bind, pure, Except.pure] at reported
  | ok result =>
    exact ⟨result.1, result.2, rfl, getParticipationEligibility_spec reported⟩

end TruthBounty
