import TruthBounty.ReputationDelta

namespace TruthBounty

/-- A `reputation_changes` row. -/
structure ReputationChange where
  userId : String
  oldScore : ℤ
  newScore : ℤ
  delta : ℤ
  stakeAmount : Option JsNumber
  isCorrect : Bool
  verificationId : Option String

/-- The tables a reputation transaction touches: the `reputation` column of `users`,
keyed by id, and the `reputation_changes` rows in the order they were written. -/
structure ReputationDb where
  users : String → Option ℤ
  changes : List ReputationChange

/-- `Math.max(0, Math.min(MAX_SCORE, score))`. A stored score is an integer, so it is its
own `Math.floor(score || 0)`. -/
def clampScore (score : ℤ) : ℤ := max 0 (min maxScore score)

/-- One user update inside a reputation transaction: the delta as a function of the
clamped old score, and what the change row records besides the scores. -/
structure ReputationUpdate where
  userId : String
  delta : ℤ → ℤ
  stakeAmount : Option JsNumber
  isCorrect : Bool
  verificationId : Option String

/-- The row an update writes for a user whose stored score is `reputation`. -/
def ReputationUpdate.change (update : ReputationUpdate) (reputation : ℤ) : ReputationChange :=
  let oldScore := clampScore reputation
  let delta := update.delta oldScore
  { userId := update.userId, oldScore, newScore := clampScore (oldScore + delta), delta,
    stakeAmount := update.stakeAmount, isCorrect := update.isCorrect,
    verificationId := update.verificationId }

/-- Read the user, save its new score, save the change row. A missing user is skipped. -/
def ReputationUpdate.apply (update : ReputationUpdate) (db : ReputationDb) : ReputationDb :=
  match db.users update.userId with
  | none => db
  | some reputation =>
    { users := Function.update db.users update.userId (some (update.change reputation).newScore),
      changes := db.changes ++ [update.change reputation] }

def runUpdates (db : ReputationDb) (updates : List ReputationUpdate) : ReputationDb :=
  updates.foldl (fun db update => update.apply db) db

/-- The optional `meta` argument of `applyReputationUpdate`. -/
structure UpdateMeta where
  stakeAmount : Option JsNumber
  isCorrect : Option Bool
  verificationId : Option String

def ReputationUpdate.ofDelta (userId : String) (delta : ℤ) (meta : UpdateMeta) :
    ReputationUpdate :=
  { userId, delta := fun _ => delta, stakeAmount := meta.stakeAmount,
    isCorrect := meta.isCorrect.getD false, verificationId := meta.verificationId }

/-- The updated database, and the change row it returns (`null` for a missing user). -/
def applyReputationUpdate (db : ReputationDb) (userId : String) (delta : ℤ) (meta : UpdateMeta) :
    ReputationDb × Option ReputationChange :=
  ((ReputationUpdate.ofDelta userId delta meta).apply db,
    (db.users userId).map (ReputationUpdate.ofDelta userId delta meta).change)

/-- The fields of the aggregation result that the batch reads. -/
structure AggregationOutcome where
  claimId : String
  status : String

structure VerifierVerification where
  id : String
  userId : String
  verdict : String
  stakeAmount : JsNumber
  verifierTotal : Option ℚ
  verifierCorrect : Option ℚ

def isCorrectVerdict (status verdict : String) : Bool :=
  (status == "VERIFIED_TRUE" && verdict == "TRUE") ||
    (status == "VERIFIED_FALSE" && verdict == "FALSE")

/-- The update of one loop iteration of the batch. -/
def verifierUpdate (status : String) (v : VerifierVerification) : ReputationUpdate :=
  { userId := v.userId,
    delta := fun oldScore => computeReputationDelta
      { oldScore, totalVerifications := v.verifierTotal.getD 0,
        correctVerifications := v.verifierCorrect.getD 0, stakeAmount := v.stakeAmount,
        isCorrect := isCorrectVerdict status v.verdict },
    stakeAmount := some v.stakeAmount, isCorrect := isCorrectVerdict status v.verdict,
    verificationId := some v.id }

def updateBatchAfterAggregation (db : ReputationDb) (aggregationResult : AggregationOutcome)
    (verifications : List VerifierVerification) : ReputationDb :=
  runUpdates db (verifications.map (verifierUpdate aggregationResult.status))

theorem ReputationUpdate.apply_of_none {update : ReputationUpdate} {db : ReputationDb}
    (missing : db.users update.userId = none) : update.apply db = db := by
  simp only [ReputationUpdate.apply, missing]

theorem ReputationUpdate.apply_of_some {update : ReputationUpdate} {db : ReputationDb}
    {reputation : ℤ} (found : db.users update.userId = some reputation) :
    update.apply db =
      { users := Function.update db.users update.userId (some (update.change reputation).newScore),
        changes := db.changes ++ [update.change reputation] } := by
  simp only [ReputationUpdate.apply, found]

@[simp] theorem runUpdates_nil (db : ReputationDb) : runUpdates db [] = db := rfl

@[simp] theorem runUpdates_cons (db : ReputationDb) (update : ReputationUpdate)
    (updates : List ReputationUpdate) :
    runUpdates db (update :: updates) = runUpdates (update.apply db) updates := rfl

theorem clampScore_mem (score : ℤ) : 0 ≤ clampScore score ∧ clampScore score ≤ maxScore := by
  unfold clampScore maxScore
  omega

theorem clampScore_of_mem {score : ℤ} (lower : 0 ≤ score) (upper : score ≤ maxScore) :
    clampScore score = score := by
  unfold clampScore
  omega

/-- Reputations inside `[0, MAX_SCORE]`. -/
def ScoresInRange (db : ReputationDb) : Prop :=
  ∀ user reputation, db.users user = some reputation → 0 ≤ reputation ∧ reputation ≤ maxScore

theorem ReputationUpdate.apply_users_of_ne {update : ReputationUpdate} {db : ReputationDb}
    {user : String} (other : user ≠ update.userId) :
    (update.apply db).users user = db.users user := by
  unfold ReputationUpdate.apply
  split
  · rfl
  · exact Function.update_noteq other _ _

theorem ReputationUpdate.apply_users_isSome (update : ReputationUpdate) (db : ReputationDb)
    (user : String) : ((update.apply db).users user).isSome = (db.users user).isSome := by
  by_cases same : user = update.userId
  · subst same
    cases found : db.users update.userId
    · rw [ReputationUpdate.apply_of_none found, found]
    · simp [ReputationUpdate.apply_of_some found, found]
  · rw [ReputationUpdate.apply_users_of_ne same]

theorem ReputationUpdate.apply_inRange (update : ReputationUpdate) {db : ReputationDb}
    (inRange : ScoresInRange db) : ScoresInRange (update.apply db) := by
  intro user reputation found
  cases stored : db.users update.userId
  · rw [ReputationUpdate.apply_of_none stored] at found
    exact inRange user reputation found
  · rw [ReputationUpdate.apply_of_some stored] at found
    dsimp only at found
    by_cases same : user = update.userId
    · subst same
      simp only [Function.update_same, Option.some.injEq] at found
      exact found ▸ clampScore_mem _
    · rw [Function.update_noteq same] at found
      exact inRange user reputation found

theorem runUpdates_inRange (updates : List ReputationUpdate) :
    ∀ {db : ReputationDb}, ScoresInRange db → ScoresInRange (runUpdates db updates) := by
  induction updates with
  | nil => exact id
  | cons update updates ih => exact fun inRange => ih (update.apply_inRange inRange)

theorem runUpdates_users_of_not_mem (user : String) (updates : List ReputationUpdate) :
    ∀ {db : ReputationDb}, user ∉ updates.map (·.userId) →
      (runUpdates db updates).users user = db.users user := by
  induction updates with
  | nil => exact fun _ => rfl
  | cons update updates ih =>
    intro db absent
    simp only [List.map_cons, List.mem_cons, not_or] at absent
    rw [runUpdates_cons, ih absent.2, ReputationUpdate.apply_users_of_ne absent.1]

theorem runUpdates_users_isSome (user : String) (updates : List ReputationUpdate) :
    ∀ db : ReputationDb, ((runUpdates db updates).users user).isSome = (db.users user).isSome := by
  induction updates with
  | nil => exact fun _ => rfl
  | cons update updates ih => intro db; rw [runUpdates_cons, ih, update.apply_users_isSome]

/-- What the batch records for one verification of a known user. -/
def VerifierRowFacts (status : String) (v : VerifierVerification) (row : ReputationChange) :
    Prop :=
  row.userId = v.userId ∧ row.verificationId = some v.id ∧
  (row.isCorrect = true ↔ status = "VERIFIED_TRUE" ∧ v.verdict = "TRUE" ∨
    status = "VERIFIED_FALSE" ∧ v.verdict = "FALSE") ∧
  (if row.isCorrect then 1 ≤ row.delta ∧ row.delta ≤ maxPosDelta
    else -maxNegDelta ≤ row.delta ∧ row.delta ≤ -1) ∧
  row.newScore = min maxScore (max 0 (row.oldScore + row.delta)) ∧
  (row.isCorrect = true → row.oldScore < maxScore → row.oldScore < row.newScore) ∧
  (row.isCorrect = false → 0 < row.oldScore → row.newScore < row.oldScore)

/-- Clamping after a move of at least one point moves the clamped score, unless it is
already at the bound in that direction. -/
theorem clampScore_moves (reputation delta : ℤ) :
    clampScore (clampScore reputation + delta) =
      min maxScore (max 0 (clampScore reputation + delta)) ∧
    (1 ≤ delta → clampScore reputation < maxScore →
      clampScore reputation < clampScore (clampScore reputation + delta)) ∧
    (delta ≤ -1 → 0 < clampScore reputation →
      clampScore (clampScore reputation + delta) < clampScore reputation) := by
  unfold clampScore maxScore
  omega

theorem verifierUpdate_change_facts (status : String) (v : VerifierVerification)
    (reputation : ℤ) : VerifierRowFacts status v ((verifierUpdate status v).change reputation) := by
  have verdict : isCorrectVerdict status v.verdict = true ↔ status = "VERIFIED_TRUE" ∧
      v.verdict = "TRUE" ∨ status = "VERIFIED_FALSE" ∧ v.verdict = "FALSE" := by
    simp [isCorrectVerdict]
  have bounds := computeReputationDelta_bounds
    { oldScore := clampScore reputation, totalVerifications := v.verifierTotal.getD 0,
      correctVerifications := v.verifierCorrect.getD 0, stakeAmount := v.stakeAmount,
      isCorrect := isCorrectVerdict status v.verdict }
  dsimp only [VerifierRowFacts, ReputationUpdate.change, verifierUpdate] at bounds ⊢
  generalize computeReputationDelta _ = delta at bounds ⊢
  obtain ⟨formula, up, down⟩ := clampScore_moves reputation delta
  generalize isCorrectVerdict status v.verdict = correct at verdict bounds ⊢
  cases correct
  · simp only [Bool.false_eq_true, if_false] at bounds
    exact ⟨rfl, rfl, verdict, by simpa using bounds, formula, by simp, fun _ => down bounds.2⟩
  · simp only [if_true] at bounds
    exact ⟨rfl, rfl, verdict, by simpa using bounds, formula, fun _ => up bounds.1, by simp⟩

theorem updateBatch_rows (status : String) (verifications : List VerifierVerification) :
    ∀ db : ReputationDb, ∃ new,
      (runUpdates db (verifications.map (verifierUpdate status))).changes = db.changes ++ new ∧
      List.Forall₂ (VerifierRowFacts status)
        (verifications.filter fun v => (db.users v.userId).isSome) new := by
  induction verifications with
  | nil => exact fun db => ⟨[], by simp, by simp⟩
  | cons v verifications ih =>
    intro db
    obtain ⟨new, changes, facts⟩ := ih ((verifierUpdate status v).apply db)
    rw [List.filter_congr fun w _ => ReputationUpdate.apply_users_isSome _ _ w.userId] at facts
    rw [List.map_cons, runUpdates_cons]
    cases found : db.users v.userId with
    | none =>
      rw [ReputationUpdate.apply_of_none found] at changes ⊢
      exact ⟨new, changes, by simpa [found] using facts⟩
    | some reputation =>
      rw [ReputationUpdate.apply_of_some found] at changes ⊢
      refine ⟨(verifierUpdate status v).change reputation :: new, by simpa using changes, ?_⟩
      simpa [found] using List.Forall₂.cons (verifierUpdate_change_facts status v reputation) facts

/-- The score a user's rows end at when each starts where the previous one ended, from
`start`; `none` when a row breaks the chain. -/
def chainEnd (start : ℤ) : List ReputationChange → Option ℤ
  | [] => some start
  | row :: rows => if row.oldScore = start then chainEnd row.newScore rows else none

def rowsOf (user : String) (changes : List ReputationChange) : List ReputationChange :=
  changes.filter fun row => row.userId == user

theorem rowsOf_append (user : String) (first second : List ReputationChange) :
    rowsOf user (first ++ second) = rowsOf user first ++ rowsOf user second :=
  List.filter_append _ _

theorem chainEnd_append (first second : List ReputationChange) :
    ∀ start, chainEnd start (first ++ second) = (chainEnd start first).bind (chainEnd · second) := by
  induction first with
  | nil => exact fun _ => rfl
  | cons row rows ih =>
    intro start
    by_cases linked : row.oldScore = start <;> simp [chainEnd, linked, ih]

/-- The score the last of `rows` for `user` leaves, or `start` when there is none. -/
def lastScore (start : Option ℤ) (user : String) (rows : List ReputationChange) : Option ℤ :=
  match (rowsOf user rows).getLast? with
  | some row => some row.newScore
  | none => start

theorem lastScore_append (start : Option ℤ) (user : String) (first second : List ReputationChange) :
    lastScore start user (first ++ second) = lastScore (lastScore start user first) user second := by
  unfold lastScore
  rw [rowsOf_append, List.getLast?_append]
  cases (rowsOf user second).getLast? <;> rfl

/-- A change row whose old score lies in `[0, MAX_SCORE]` and whose new score is the old
score plus the delta, clamped. -/
def ReputationChange.Clamped (row : ReputationChange) : Prop :=
  0 ≤ row.oldScore ∧ row.oldScore ≤ maxScore ∧ row.newScore = clampScore (row.oldScore + row.delta)

theorem ReputationUpdate.change_clamped (update : ReputationUpdate) (reputation : ℤ) :
    (update.change reputation).Clamped :=
  ⟨(clampScore_mem _).1, (clampScore_mem _).2, rfl⟩

theorem ReputationChange.Clamped.newScore_mem {row : ReputationChange} (clamped : row.Clamped) :
    0 ≤ row.newScore ∧ row.newScore ≤ maxScore :=
  clamped.2.2 ▸ clampScore_mem _

/-- The rows one user's updates write one after another from the score `start`, each
reading the score the previous one left, and the score they leave. -/
def updateRows (start : ℤ) : List ReputationUpdate → List ReputationChange × ℤ
  | [] => ([], start)
  | update :: updates =>
    let rest := updateRows (update.change start).newScore updates
    (update.change start :: rest.1, rest.2)

theorem updateRows_append (start : ℤ) (first second : List ReputationUpdate) :
    updateRows start (first ++ second) =
      ((updateRows start first).1 ++ (updateRows (updateRows start first).2 second).1,
        (updateRows (updateRows start first).2 second).2) := by
  induction first generalizing start with
  | nil => rfl
  | cons update updates ih => simp [updateRows, ih]

/-- From a score in range, the rows of updates applied one after another chain to the
score they leave. -/
theorem chainEnd_updateRows (updates : List ReputationUpdate) :
    ∀ {start : ℤ}, 0 ≤ start → start ≤ maxScore →
      chainEnd start (updateRows start updates).1 = some (updateRows start updates).2 := by
  induction updates with
  | nil => exact fun _ _ => rfl
  | cons update updates ih =>
    intro start lower upper
    obtain ⟨lower', upper'⟩ := clampScore_mem (start + update.delta start)
    simp only [updateRows, chainEnd, ReputationUpdate.change, clampScore_of_mem lower upper, if_true]
    exact ih lower' upper'

/-- The rows appended from `before` to `after` are the updates' own rows, in order: a known
user gets one row per update of it, each from the score the previous one left, and ends at
the score the last one left; an unknown user gets no row and stays unknown. -/
def AppliesInOrder (before after : ReputationDb) (updates : List ReputationUpdate) : Prop :=
  ∃ new, after.changes = before.changes ++ new ∧ ∀ user, match before.users user with
    | none => rowsOf user new = [] ∧ after.users user = none
    | some start =>
      rowsOf user new = (updateRows start (updates.filter (·.userId == user))).1 ∧
        after.users user = some (updateRows start (updates.filter (·.userId == user))).2

theorem ReputationUpdate.apply_appliesInOrder (update : ReputationUpdate) (db : ReputationDb) :
    AppliesInOrder db (update.apply db) [update] := by
  cases found : db.users update.userId with
  | none =>
    rw [update.apply_of_none found]
    refine ⟨[], by simp, fun user => ?_⟩
    cases stored : db.users user with
    | none => exact ⟨rfl, rfl⟩
    | some start =>
      have apart : update.userId ≠ user := fun same => by rw [same, stored] at found; cases found
      simp [rowsOf, updateRows, apart]
  | some reputation =>
    rw [update.apply_of_some found]
    refine ⟨[update.change reputation], by simp, fun user => ?_⟩
    by_cases same : update.userId = user
    · subst same
      simp [found, rowsOf, updateRows, ReputationUpdate.change]
    · have apart : user ≠ update.userId := Ne.symm same
      cases stored : db.users user <;>
        simp [stored, rowsOf, updateRows, ReputationUpdate.change, same, Function.update_noteq apart]

theorem AppliesInOrder.trans {first second third : ReputationDb}
    {updates updates' : List ReputationUpdate} (head : AppliesInOrder first second updates)
    (tail : AppliesInOrder second third updates') :
    AppliesInOrder first third (updates ++ updates') := by
  obtain ⟨new, changes, rows⟩ := head
  obtain ⟨new', changes', rows'⟩ := tail
  refine ⟨new ++ new', by simp [changes', changes], fun user => ?_⟩
  have earlier := rows user
  have later := rows' user
  rw [rowsOf_append, List.filter_append]
  cases found : first.users user with
  | none =>
    simp only [found] at earlier
    simp only [earlier.2] at later
    simp [earlier.1, later.1, later.2]
  | some start =>
    simp only [found] at earlier
    simp only [earlier.2] at later
    simp [updateRows_append, earlier.1, later.1, later.2]

theorem runUpdates_appliesInOrder (updates : List ReputationUpdate) :
    ∀ db : ReputationDb, AppliesInOrder db (runUpdates db updates) updates := by
  induction updates with
  | nil =>
    exact fun db => ⟨[], by simp, fun user => by
      cases found : db.users user <;> simp [rowsOf, updateRows, found]⟩
  | cons update updates ih =>
    exact fun db => (update.apply_appliesInOrder db).trans (ih (update.apply db))

/-- From scores in range, each known user's new rows chain from its score before to its
score after: every row starts at the score the previous one left. -/
theorem AppliesInOrder.chains {before after : ReputationDb} {updates : List ReputationUpdate}
    {new : List ReputationChange} (inRange : ScoresInRange before)
    (rows : ∀ user, match before.users user with
      | none => rowsOf user new = [] ∧ after.users user = none
      | some start =>
        rowsOf user new = (updateRows start (updates.filter (·.userId == user))).1 ∧
          after.users user = some (updateRows start (updates.filter (·.userId == user))).2)
    (user : String) {start : ℤ} (found : before.users user = some start) :
    chainEnd start (rowsOf user new) = after.users user := by
  have atUser := rows user
  simp only [found] at atUser
  obtain ⟨lower, upper⟩ := inRange user start found
  rw [atUser.1, atUser.2]
  exact chainEnd_updateRows _ lower upper

/-- The per-verifier effect of a batch: unknown users are skipped and never created, users
outside the batch keep their score, scores stay in range, and each verification of a known
user appends one row whose correctness follows the verdict and whose bounded delta moves
the clamped score. Each known user's rows start from its stored score and chain to its
score after the batch, so every row's old score is the reputation its update read, and the
stored reputation ends at the last row's new score. -/
theorem updateBatchAfterAggregation_effect (db : ReputationDb) (inRange : ScoresInRange db)
    (aggregationResult : AggregationOutcome) (verifications : List VerifierVerification) :
    let after := updateBatchAfterAggregation db aggregationResult verifications
    (∀ user, db.users user = none → after.users user = none) ∧
    (∀ user, user ∉ verifications.map (·.userId) → after.users user = db.users user) ∧
    ScoresInRange after ∧
    ∃ new, after.changes = db.changes ++ new ∧
      List.Forall₂ (VerifierRowFacts aggregationResult.status)
        (verifications.filter fun v => (db.users v.userId).isSome) new ∧
      ∀ user start, db.users user = some start → chainEnd start (rowsOf user new) = after.users user := by
  obtain ⟨new, changes, facts⟩ := updateBatch_rows aggregationResult.status verifications db
  obtain ⟨new', changes', rows⟩ :=
    runUpdates_appliesInOrder (verifications.map (verifierUpdate aggregationResult.status)) db
  have same : new' = new := List.append_cancel_left (changes'.symm.trans changes)
  subst same
  refine ⟨fun user missing => ?_, fun user absent => ?_, runUpdates_inRange _ inRange,
    new', changes, facts, fun user _ found => AppliesInOrder.chains inRange rows user found⟩
  · have := rows user
    simp only [missing] at this
    exact this.2
  · exact runUpdates_users_of_not_mem user _ (by simpa [verifierUpdate] using absent)

/-- One user, `alice`, at score 50. -/
def aliceDb : ReputationDb := ⟨fun user => if user = "alice" then some 50 else none, []⟩

theorem aliceDb_inRange : ScoresInRange aliceDb := by
  intro user reputation found
  simp only [aliceDb] at found
  split at found <;> simp only [Option.some.injEq, reduceCtorEq] at found
  subst found
  norm_num [maxScore]

/-- A batch with a correct verification by `alice` and one by the unknown `bob`: `bob`
is not created and every score stays in range. -/
theorem batch_skips_unknown_bob :
    (updateBatchAfterAggregation aliceDb ⟨"claim-1", "VERIFIED_TRUE"⟩
        [⟨"v1", "alice", "TRUE", .finite 10, some 20, some 18⟩,
         ⟨"v2", "bob", "FALSE", .nan, none, none⟩]).users "bob" = none ∧
    ScoresInRange (updateBatchAfterAggregation aliceDb ⟨"claim-1", "VERIFIED_TRUE"⟩
        [⟨"v1", "alice", "TRUE", .finite 10, some 20, some 18⟩,
         ⟨"v2", "bob", "FALSE", .nan, none, none⟩]) := by
  have effect := updateBatchAfterAggregation_effect aliceDb aliceDb_inRange ⟨"claim-1", "VERIFIED_TRUE"⟩
    [⟨"v1", "alice", "TRUE", .finite 10, some 20, some 18⟩, ⟨"v2", "bob", "FALSE", .nan, none, none⟩]
  exact ⟨effect.1 "bob" (by simp [aliceDb]), effect.2.2.1⟩

/-- A reputation transaction of the service: one `applyReputationUpdate` call or one
`updateBatchAfterAggregation` batch. -/
inductive ReputationTxn where
  | applyReputationUpdate (userId : String) (delta : ℤ) (meta : UpdateMeta)
  | updateBatchAfterAggregation (aggregationResult : AggregationOutcome)
      (verifications : List VerifierVerification)

/-- The user updates a transaction makes, in order. -/
def ReputationTxn.updates : ReputationTxn → List ReputationUpdate
  | .applyReputationUpdate userId delta meta => [.ofDelta userId delta meta]
  | .updateBatchAfterAggregation aggregationResult verifications =>
    verifications.map (verifierUpdate aggregationResult.status)

/-- Transactions that run one after another, each committing before the next begins. -/
def runSerially (db : ReputationDb) (txns : List ReputationTxn) : ReputationDb :=
  txns.foldl (fun db txn => runUpdates db txn.updates) db

/-- Run one after another, the service's transactions lose no update: each known user's
rows are its own updates' rows in commit order, each reading the score the previous one
left, and its reputation ends at the last one's new score. -/
theorem runSerially_appliesInOrder (txns : List ReputationTxn) :
    ∀ db : ReputationDb, AppliesInOrder db (runSerially db txns) (txns.flatMap ReputationTxn.updates) := by
  induction txns with
  | nil => exact runUpdates_appliesInOrder []
  | cons txn txns ih =>
    exact fun db => (runUpdates_appliesInOrder txn.updates db).trans (ih (runUpdates db txn.updates))

end TruthBounty
