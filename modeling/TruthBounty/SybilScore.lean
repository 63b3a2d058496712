import Mathlib.Data.List.Forall2
import TruthBounty.JsBuiltins

namespace TruthBounty

def worldcoinWeight : ℚ := 3 / 10
def walletAgeWeight : ℚ := 1 / 4
def stakingWeight : ℚ := 1 / 4
def accuracyWeight : ℚ := 1 / 5
def walletAgeThresholdMs : ℚ := 90 * 24 * 60 * 60 * 1000
def minStakingForFullScore : ℕ := 10 ^ 18
def minClaimsForAccuracyScore : ℕ := 5

/-- `Math.log1p`, of which the model uses that it maps `0` to `0` and non-negative
arguments to non-negative values. -/
structure Log1p where
  toFun : ℚ → ℚ
  map_zero : toFun 0 = 0
  nonneg : ∀ x, 0 ≤ x → 0 ≤ toFun x

/-- A linked wallet, with its `linkedAt` time in milliseconds. -/
structure SybilWallet where
  linkedAt : ℤ

structure SybilUser where
  worldcoinVerified : Bool
  wallets : List SybilWallet

/-- A `SybilScore` row. `createdAt` is the clock of its insert in milliseconds, the value
`@default(now())` gives it; `calculationDetails` is not modelled. -/
structure SybilScoreRow where
  userId : String
  createdAt : ℤ
  worldcoinScore : ℚ
  walletAgeScore : ℚ
  stakingScore : ℚ
  accuracyScore : ℚ
  compositeScore : ℚ

/-- The `User` rows with their wallets, and the `SybilScore` rows in creation order. -/
structure SybilDb where
  users : String → Option SybilUser
  sybilScores : List SybilScoreRow

structure SybilSignals where
  worldcoinVerified : Bool
  oldestWalletAgeMs : ℤ
  totalStakedAmount : ℕ
  claimsVotedOn : ℕ
  claimsCorrect : ℕ

structure NormalizedScores where
  worldcoin : ℚ
  walletAge : ℚ
  staking : ℚ
  accuracy : ℚ

/-- `wallets.reduce(...)`: the wallet linked first, the earliest of equals. -/
def oldestWallet : List SybilWallet → Option SybilWallet
  | [] => none
  | wallet :: wallets => some (wallets.foldl
      (fun oldest w => if w.linkedAt < oldest.linkedAt then w else oldest) wallet)

/-- The signals of a user at time `now`. Staking and claim history are not integrated yet
and are zero; the Worldcoin flag is read from a second fetch of the user. -/
def gatherSignals (user : Option SybilUser) (wallets : List SybilWallet) (now : ℤ) :
    SybilSignals :=
  { worldcoinVerified := (user.map (·.worldcoinVerified)).getD false,
    oldestWalletAgeMs := match oldestWallet wallets with
      | none => 0
      | some oldest => now - oldest.linkedAt,
    totalStakedAmount := 0, claimsVotedOn := 0, claimsCorrect := 0 }

def normalizeSignals (log1p : Log1p) (signals : SybilSignals) : NormalizedScores :=
  { worldcoin := if signals.worldcoinVerified then 1 else 0,
    walletAge := min (signals.oldestWalletAgeMs / walletAgeThresholdMs) 1,
    staking := min (log1p.toFun signals.totalStakedAmount / log1p.toFun minStakingForFullScore) 1,
    accuracy := if signals.claimsVotedOn ≥ minClaimsForAccuracyScore then
        (signals.claimsCorrect : ℚ) / signals.claimsVotedOn else 0 }

def weightedCombination (scores : NormalizedScores) : ℚ :=
  scores.worldcoin * worldcoinWeight + scores.walletAge * walletAgeWeight +
    scores.staking * stakingWeight + scores.accuracy * accuracyWeight

/-- The component scores of the calculation details, each through `toFixed(4)`. -/
def componentScores (scores : NormalizedScores) : NormalizedScores :=
  ⟨toFixed 4 scores.worldcoin, toFixed 4 scores.walletAge, toFixed 4 scores.staking,
    toFixed 4 scores.accuracy⟩

/-- The rounded composite score and the rounded component scores of a user at `now`. -/
def computeSybilScore (log1p : Log1p) (db : SybilDb) (userId : String) (now : ℤ) :
    Except String (ℚ × NormalizedScores) :=
  match db.users userId with
  | none => .error s!"User {userId} not found"
  | some user =>
    let normalizedScores := normalizeSignals log1p (gatherSignals (db.users userId) user.wallets now)
    .ok (toFixed 4 (weightedCombination normalizedScores), componentScores normalizedScores)

/-- The message of Prisma's `P2002` error for the `@@unique([userId, createdAt])` index of
`SybilScore`. -/
def sybilScoreUniqueMessage : String :=
  "Unique constraint failed on the fields: (`userId`,`createdAt`)"

/-- `recordSybilScore(userId)` at clock `now`: the score, then `sybilScore.create`, which
fails with `P2002` when a row of the user created at `now` is stored. -/
def recordSybilScore (log1p : Log1p) (db : SybilDb) (userId : String) (now : ℤ) :
    Except String (SybilDb × SybilScoreRow) := do
  let (compositeScore, details) ← computeSybilScore log1p db userId now
  let row : SybilScoreRow := ⟨userId, now, details.worldcoin, details.walletAge, details.staking,
    details.accuracy, compositeScore⟩
  if db.sybilScores.any (fun stored => stored.userId == userId && stored.createdAt == now) then
    throw sybilScoreUniqueMessage
  else
    pure (⟨db.users, db.sybilScores ++ [row]⟩, row)

/-- The most recent score row of a user, computed and recorded now when there is none. -/
def getLatestSybilScore (log1p : Log1p) (db : SybilDb) (userId : String) (now : ℤ) :
    Except String (SybilDb × SybilScoreRow) :=
  match (db.sybilScores.filter (·.userId == userId)).getLast? with
  | some score => .ok (db, score)
  | none => recordSybilScore log1p db userId now

/-- A `do` block that succeeded: its first step succeeded, and the rest, run on that
step's value, gave the result. -/
theorem bind_eq_ok {α β : Type} {first : Except String α} {rest : α → Except String β}
    {result : β} (ran : first >>= rest = .ok result) :
    ∃ value, first = .ok value ∧ rest value = .ok result := by
  cases first with
  | error message => cases ran
  | ok value => exact ⟨value, rfl, ran⟩

/-- No stored score row of the user was created at `now`. -/
def SybilDb.FreeAt (db : SybilDb) (userId : String) (now : ℤ) : Prop :=
  ∀ row ∈ db.sybilScores, row.userId = userId → row.createdAt ≠ now

instance (db : SybilDb) (userId : String) (now : ℤ) : Decidable (db.FreeAt userId now) :=
  inferInstanceAs (Decidable (∀ row ∈ db.sybilScores, row.userId = userId → row.createdAt ≠ now))

theorem any_scoreAt_eq_false {db : SybilDb} {userId : String} {now : ℤ} :
    db.sybilScores.any (fun stored => stored.userId == userId && stored.createdAt == now) = false ↔
      db.FreeAt userId now := by
  simp [SybilDb.FreeAt]

theorem SybilDb.freeAt_append {users : String → Option SybilUser} {rows : List SybilScoreRow}
    {row : SybilScoreRow} {userId : String} {now : ℤ} :
    SybilDb.FreeAt ⟨users, rows ++ [row]⟩ userId now ↔
      SybilDb.FreeAt ⟨users, rows⟩ userId now ∧ (row.userId = userId → row.createdAt ≠ now) := by
  simp [SybilDb.FreeAt, or_imp, forall_and]

/-- A recorded row is the user's score computed at `now`, created at `now`, appended to a
store that held no row of the user at `now`. -/
theorem recordSybilScore_spec {log1p : Log1p} {db db' : SybilDb} {userId : String} {now : ℤ}
    {row : SybilScoreRow} (recorded : recordSybilScore log1p db userId now = .ok (db', row)) :
    ∃ components, computeSybilScore log1p db userId now = .ok (row.compositeScore, components) ∧
      row = ⟨userId, now, components.worldcoin, components.walletAge, components.staking,
        components.accuracy, row.compositeScore⟩ ∧
      db.FreeAt userId now ∧ db' = ⟨db.users, db.sybilScores ++ [row]⟩ := by
  obtain ⟨⟨compositeScore, components⟩, computed, inserted⟩ := bind_eq_ok recorded
  dsimp only at inserted
  split at inserted
  · cases inserted
  · rename_i free
    obtain ⟨rfl, rfl⟩ := Prod.mk.inj (Except.ok.inj inserted)
    exact ⟨components, computed, rfl, any_scoreAt_eq_false.mp (Bool.not_eq_true _ ▸ free), rfl⟩

/-- A failed record: the user is missing, or a row of the user created at `now` is stored. -/
theorem recordSybilScore_error {log1p : Log1p} {db : SybilDb} {userId : String} {now : ℤ}
    {message : String} (failed : recordSybilScore log1p db userId now = .error message) :
    (db.users userId = none ∧ message = "User " ++ userId ++ " not found") ∨
      ((db.users userId).isSome ∧ ¬ db.FreeAt userId now ∧ message = sybilScoreUniqueMessage) := by
  unfold recordSybilScore at failed
  cases found : db.users userId with
  | none =>
    simp only [computeSybilScore, found] at failed
    exact .inl ⟨rfl, (Except.error.inj failed).symm⟩
  | some user =>
    simp only [computeSybilScore, found] at failed
    dsimp only [bind, Except.bind] at failed
    split at failed
    · rename_i taken
      refine .inr ⟨rfl, fun free => ?_, (Except.error.inj failed).symm⟩
      rw [any_scoreAt_eq_false.mpr free] at taken
      cases taken
    · cases failed

/-- `getSybilScoreHistory(userId, limit)`: the user's latest `limit` score rows, newest
first. -/
def getSybilScoreHistory (db : SybilDb) (userId : String) (limit : ℕ) : List SybilScoreRow :=
  ((db.sybilScores.filter (·.userId == userId)).reverse).take limit

/-- The `limit` of `getSybilScoreHistory` when the caller gives none. -/
def defaultHistoryLimit : ℕ := 10

/-- What `getSybilScoreForVoting` answers; the parsed `calculationDetails` are not
modelled. -/
structure VotingScore where
  userId : String
  score : ℚ
  isVerified : Bool
  deriving DecidableEq

def getSybilScoreForVoting (log1p : Log1p) (db : SybilDb) (userId : String) (now : ℤ) :
    Except String (SybilDb × VotingScore) := do
  let (db, score) ← getLatestSybilScore log1p db userId now
  pure (db, ⟨userId, score.compositeScore, decide (0 < score.worldcoinScore)⟩)

/-- An entry of `recalculateAllScores`'s answer. -/
structure RecalculationResult where
  userId : String
  success : Bool
  score : Option ℚ
  error : Option String
  deriving DecidableEq

/-- `recalculateAllScores()` over the users `findMany` returned, each with the clock its
score reads: a user whose score cannot be recorded gets a failure entry, and the loop goes
on. -/
def recalculateAllScores (log1p : Log1p) :
    SybilDb → List (String × ℤ) → SybilDb × List RecalculationResult
  | db, [] => (db, [])
  | db, (userId, now) :: users =>
    match recordSybilScore log1p db userId now with
    | .ok (db', scoreRecord) =>
      let rest := recalculateAllScores log1p db' users
      (rest.1, ⟨userId, true, some scoreRecord.compositeScore, none⟩ :: rest.2)
    | .error message =>
      let rest := recalculateAllScores log1p db users
      (rest.1, ⟨userId, false, none, some message⟩ :: rest.2)

/-- The check `SybilResistanceController`'s handlers make on the `userId` route
parameter. -/
def requireUserId (userId : String) : Except String Unit :=
  if userId = "" || jsTrim userId = "" then .error "User ID is required" else .ok ()

/-- A handler of `SybilResistanceController` that takes a user id: the check, then its
service call. -/
def withUserId {α : Type} (userId : String) (call : Unit → Except String α) : Except String α :=
  requireUserId userId >>= call

/-- A user id that is empty or white space alone is refused with "User ID is required"
before any service call; the `!userId` test adds nothing to the `trim` one. -/
theorem withUserId_eq {α : Type} (userId : String) (call : Unit → Except String α) :
    withUserId userId call =
      if jsTrim userId = "" then .error "User ID is required" else call () := by
  by_cases blank : jsTrim userId = ""
  · simp only [withUserId, requireUserId, blank, decide_True, Bool.or_true, if_true]
    rfl
  · have filled : userId ≠ "" := fun empty => blank (by rw [empty]; rfl)
    simp only [withUserId, requireUserId, blank, filled, decide_False, Bool.or_false,
      Bool.false_eq_true, if_false]
    rfl

def SybilResistanceController.recordScore (log1p : Log1p) (db : SybilDb) (userId : String)
    (now : ℤ) : Except String (SybilDb × SybilScoreRow) :=
  withUserId userId fun _ => recordSybilScore log1p db userId now

def SybilResistanceController.getLatestScore (log1p : Log1p) (db : SybilDb) (userId : String)
    (now : ℤ) : Except String (SybilDb × SybilScoreRow) :=
  withUserId userId fun _ => getLatestSybilScore log1p db userId now

def SybilResistanceController.getScoreHistory (db : SybilDb) (userId : String) :
    Except String (List SybilScoreRow) :=
  withUserId userId fun _ => .ok (getSybilScoreHistory db userId defaultHistoryLimit)

def SybilResistanceController.getScoreForVoting (log1p : Log1p) (db : SybilDb) (userId : String)
    (now : ℤ) : Except String (SybilDb × VotingScore) :=
  withUserId userId fun _ => getSybilScoreForVoting log1p db userId now

def SybilResistanceController.recalculateAll (log1p : Log1p) (db : SybilDb)
    (users : List (String × ℤ)) : SybilDb × List RecalculationResult :=
  recalculateAllScores log1p db users

section Service

variable {log1p : Log1p} {db : SybilDb} {userId : String} {now : ℤ}

/-- A score reads the users alone, not the scores already stored. -/
theorem computeSybilScore_congr {db' : SybilDb} (sameUsers : db'.users = db.users) :
    computeSybilScore log1p db' userId now = computeSybilScore log1p db userId now := by
  simp only [computeSybilScore, sameUsers]

theorem computeSybilScore_ok (log1p : Log1p) (db : SybilDb) (userId : String) (now : ℤ)
    {user : SybilUser} (found : db.users userId = some user) :
    ∃ result, computeSybilScore log1p db userId now = .ok result := by
  simp [computeSybilScore, found]

theorem recordSybilScore_of_computed {composite : ℚ} {components : NormalizedScores}
    (computed : computeSybilScore log1p db userId now = .ok (composite, components))
    (free : db.FreeAt userId now) :
    recordSybilScore log1p db userId now =
      .ok (⟨db.users, db.sybilScores ++ [⟨userId, now, components.worldcoin, components.walletAge,
          components.staking, components.accuracy, composite⟩]⟩,
        ⟨userId, now, components.worldcoin, components.walletAge, components.staking,
          components.accuracy, composite⟩) := by
  simp only [recordSybilScore, computed, any_scoreAt_eq_false.mpr free]
  rfl

/-- The score row of `entry`'s user computed at `entry`'s clock. -/
def ScoredAt (log1p : Log1p) (db : SybilDb) (entry : String × ℤ) (row : SybilScoreRow) : Prop :=
  ∃ components, computeSybilScore log1p db entry.1 entry.2 = .ok (row.compositeScore, components) ∧
    row = ⟨entry.1, entry.2, components.worldcoin, components.walletAge, components.staking,
      components.accuracy, row.compositeScore⟩

/-- Whatever the store, `recalculateAllScores` answers one entry per user, in order, leaves
the users as they were, and appends one row per success, with its user and score, and none
for a failure; a failure reports that the user is missing or the `P2002` conflict of a row of
the user created at the same clock. -/
theorem recalculateAllScores_outcomes (log1p : Log1p) (users : List (String × ℤ)) :
    ∀ db : SybilDb, ∃ rows,
      (recalculateAllScores log1p db users).1 = ⟨db.users, db.sybilScores ++ rows⟩ ∧
      (recalculateAllScores log1p db users).2.map (·.userId) = users.map (·.1) ∧
      rows.map (fun row => (row.userId, some row.compositeScore)) =
        ((recalculateAllScores log1p db users).2.filter (·.success)).map
          (fun result => (result.userId, result.score)) ∧
      ∀ result ∈ (recalculateAllScores log1p db users).2, result.success = false →
        result.error = some ("User " ++ result.userId ++ " not found") ∨
          result.error = some sybilScoreUniqueMessage := by
  induction users with
  | nil => exact fun db => ⟨[], by simp [recalculateAllScores]⟩
  | cons entry users ih =>
    intro db
    obtain ⟨userId, now⟩ := entry
    cases recorded : recordSybilScore log1p db userId now with
    | ok result =>
      obtain ⟨db', row⟩ := result
      obtain ⟨_, -, shape, -, rfl⟩ := recordSybilScore_spec recorded
      obtain ⟨rows, ran, named, scored, failures⟩ := ih ⟨db.users, db.sybilScores ++ [row]⟩
      refine ⟨row :: rows, ?_, ?_, ?_, ?_⟩ <;>
        simp only [recalculateAllScores, recorded, List.map_cons, List.filter_cons, List.mem_cons]
      · rw [ran, List.append_assoc, List.singleton_append]
      · rw [named]
      · simp only [if_true, List.map_cons, scored, congrArg SybilScoreRow.userId shape]
      · rintro result (rfl | later) failed
        · cases failed
        · exact failures result later failed
    | error message =>
      obtain ⟨rows, ran, named, scored, failures⟩ := ih db
      refine ⟨rows, ?_, ?_, ?_, ?_⟩ <;>
        simp only [recalculateAllScores, recorded, List.map_cons, List.filter_cons, List.mem_cons]
      · exact ran
      · rw [named]
      · simpa using scored
      · rintro result (rfl | later) failed
        · rcases recordSybilScore_error recorded with ⟨-, rfl⟩ | ⟨-, -, rfl⟩
          · exact .inl rfl
          · exact .inr rfl
        · exact failures result later failed

/-- Over users that all exist, at distinct (user, clock) pairs none of which has a stored row,
`recalculateAllScores` appends one score row per user, in order, each the user's score
computed at its clock and created at it; it reports each user as a success with that score
and leaves the users as they were. -/
theorem recalculateAllScores_spec (log1p : Log1p) (users : List (String × ℤ)) :
    ∀ db : SybilDb, (∀ entry ∈ users, (db.users entry.1).isSome) → users.Nodup →
      (∀ entry ∈ users, db.FreeAt entry.1 entry.2) →
      ∃ rows, recalculateAllScores log1p db users =
          (⟨db.users, db.sybilScores ++ rows⟩,
            rows.map fun row => ⟨row.userId, true, some row.compositeScore, none⟩) ∧
        List.Forall₂ (ScoredAt log1p db) users rows := by
  induction users with
  | nil => exact fun db _ _ _ => ⟨[], by simp [recalculateAllScores], .nil⟩
  | cons entry users ih =>
    intro db present distinct free
    obtain ⟨userId, now⟩ := entry
    obtain ⟨user, found⟩ := Option.isSome_iff_exists.mp (present _ (List.mem_cons_self _ _))
    obtain ⟨⟨composite, components⟩, computed⟩ := computeSybilScore_ok log1p db userId now found
    have recorded := recordSybilScore_of_computed computed (free _ (List.mem_cons_self _ _))
    obtain ⟨head, tail⟩ := List.nodup_cons.mp distinct
    obtain ⟨rows, ran, related⟩ := ih ⟨db.users, db.sybilScores ++ [⟨userId, now,
        components.worldcoin, components.walletAge, components.staking, components.accuracy,
        composite⟩]⟩
      (fun entry member => present entry (List.mem_cons_of_mem _ member)) tail
      fun entry member => SybilDb.freeAt_append.mpr ⟨free entry (List.mem_cons_of_mem _ member),
        fun sameUser sameClock => head ((Prod.ext sameUser sameClock : (userId, now) = entry) ▸ member)⟩
    refine ⟨⟨userId, now, components.worldcoin, components.walletAge, components.staking,
      components.accuracy, composite⟩ :: rows, ?_, .cons ⟨components, computed, rfl⟩
      (related.imp fun _ _ => ?_)⟩
    · simp only [recalculateAllScores, recorded, ran, List.append_assoc, List.singleton_append,
        List.map_cons]
    · rintro ⟨components, scored, shape⟩
      exact ⟨components, (computeSybilScore_congr rfl).symm.trans scored, shape⟩

/-- The identity, standing in for `Math.log1p` where no score is computed. -/
def linearLog1p : Log1p := ⟨fun x => x, rfl, fun _ nonneg => nonneg⟩

/-- `alice`, Worldcoin verified with a wallet linked at 0, and `bob`, with no wallet. -/
def twoUsersDb : SybilDb :=
  ⟨fun userId => if userId = "alice" then some ⟨true, [⟨0⟩]⟩
    else if userId = "bob" then some ⟨false, []⟩ else none, []⟩

theorem two_users_recalculated :
    ((∀ entry ∈ [("alice", (0 : ℤ)), ("bob", 5)], (twoUsersDb.users entry.1).isSome) ∧
      [("alice", (0 : ℤ)), ("bob", 5)].Nodup ∧
      ∀ entry ∈ [("alice", (0 : ℤ)), ("bob", 5)], twoUsersDb.FreeAt entry.1 entry.2) ∧
    ∃ rows, recalculateAllScores linearLog1p twoUsersDb [("alice", 0), ("bob", 5)] =
        (⟨twoUsersDb.users, twoUsersDb.sybilScores ++ rows⟩,
          rows.map fun row => ⟨row.userId, true, some row.compositeScore, none⟩) ∧
      List.Forall₂ (ScoredAt linearLog1p twoUsersDb) [("alice", 0), ("bob", 5)] rows :=
  ⟨by decide, recalculateAllScores_spec _ _ twoUsersDb (by decide) (by decide) (by decide)⟩

end Service

end TruthBounty
