import Mathlib.Algebra.BigOperators.Group.List
import TruthBounty.JsBuiltins
import TruthBounty.Interleaving

namespace TruthBounty

/-- `RewardClaimEventDto`; `amount` is the decimal text of a `uint256`, kept as its value,
and `metadata`, which the listener never sets, is left out. -/
structure RewardClaimEventDto where
  walletAddress : String
  amount : ℕ
  claimId : String
  txHash : String
  blockNumber : ℕ
  logIndex : ℕ
  blockTimestamp : ℕ
  eventName : Option String
  deriving DecidableEq

structure RewardDistributionEventDto where
  recipients : List String
  amounts : List ℕ
  distributionId : String
  txHash : String
  blockNumber : ℕ
  logIndex : ℕ
  blockTimestamp : ℕ
  eventName : Option String
  deriving DecidableEq

/-- A `reward_claims` row; `blockTimestamp` in milliseconds. Its generated `id` and
`createdAt` are not read. -/
structure RewardClaim where
  walletAddress : String
  amount : ℕ
  claimId : String
  txHash : String
  blockNumber : ℕ
  logIndex : ℕ
  blockTimestamp : ℕ
  eventName : String
  isProcessed : Bool
  deriving DecidableEq

structure RewardDistribution where
  recipients : List String
  amounts : List ℕ
  distributionId : String
  txHash : String
  blockNumber : ℕ
  logIndex : ℕ
  blockTimestamp : ℕ
  eventName : String
  isProcessed : Bool
  deriving DecidableEq

def RewardClaimEventDto.toRow (eventDto : RewardClaimEventDto) : RewardClaim :=
  ⟨toLowerCase eventDto.walletAddress, eventDto.amount, eventDto.claimId, eventDto.txHash,
    eventDto.blockNumber, eventDto.logIndex, eventDto.blockTimestamp * 1000,
    stringOr eventDto.eventName "RewardClaimed", true⟩

def RewardDistributionEventDto.toRow (eventDto : RewardDistributionEventDto) :
    RewardDistribution :=
  ⟨eventDto.recipients.map toLowerCase, eventDto.amounts, eventDto.distributionId,
    eventDto.txHash, eventDto.blockNumber, eventDto.logIndex, eventDto.blockTimestamp * 1000,
    stringOr eventDto.eventName "RewardDistributed", true⟩

/-- The two reward tables, rows in insertion order. -/
structure RewardStore where
  claims : List RewardClaim
  distributions : List RewardDistribution
  deriving DecidableEq

inductive RewardError where
  | conflict (message : String)
  deriving DecidableEq

/-- Before `findByTxHashAndLogIndex`, or before `create`. -/
inductive RewardPc where
  | start
  | create
  deriving DecidableEq

/-- Both processors: `findByTxHashAndLogIndex`, returning the row found; else `create`, which
the unique `(txHash, logIndex)` index refuses for a key stored meanwhile (`23505`, answered
with `duplicateMessage`). -/
def processRewardEvent {Row : Type} (key : Row → String × ℕ) (duplicateMessage : String)
    (rows : List Row) (row : Row) : RewardPc → List Row × Continuation RewardPc (Except RewardError Row)
  | .start =>
    match rows.find? (key · == key row) with
    | some existing => (rows, .done (.ok existing))
    | none => (rows, .next .create)
  | .create =>
    if rows.any (key · == key row) then (rows, .done (.error (.conflict duplicateMessage)))
    else (rows ++ [row], .done (.ok row))

def RewardClaim.key (row : RewardClaim) : String × ℕ := (row.txHash, row.logIndex)

def RewardDistribution.key (row : RewardDistribution) : String × ℕ := (row.txHash, row.logIndex)

def processRewardClaim (claims : List RewardClaim) (eventDto : RewardClaimEventDto) :
    RewardPc → List RewardClaim × Continuation RewardPc (Except RewardError RewardClaim) :=
  processRewardEvent RewardClaim.key "Duplicate reward claim event" claims eventDto.toRow

def processRewardDistribution (distributions : List RewardDistribution)
    (eventDto : RewardDistributionEventDto) :
    RewardPc →
      List RewardDistribution × Continuation RewardPc (Except RewardError RewardDistribution) :=
  processRewardEvent RewardDistribution.key "Duplicate reward distribution event" distributions
    eventDto.toRow

inductive RewardRequest where
  | processRewardClaim (eventDto : RewardClaimEventDto)
  | processRewardDistribution (eventDto : RewardDistributionEventDto)
  deriving DecidableEq

inductive RewardRecord where
  | claim (row : RewardClaim)
  | distribution (row : RewardDistribution)
  deriving DecidableEq

def rewardStep (store : RewardStore) (_ : ℕ) :
    Thread RewardRequest RewardPc →
      Option (RewardStore × Continuation RewardPc (Except RewardError RewardRecord))
  | ⟨.processRewardClaim eventDto, pc⟩ =>
    let (claims, k) := processRewardClaim store.claims eventDto pc
    some (⟨claims, store.distributions⟩, k.map (Except.map .claim))
  | ⟨.processRewardDistribution eventDto, pc⟩ =>
    let (distributions, k) := processRewardDistribution store.distributions eventDto pc
    some (⟨store.claims, distributions⟩, k.map (Except.map .distribution))

def rewardService : Service RewardStore RewardRequest RewardPc (Except RewardError RewardRecord) :=
  ⟨.start, 2, rewardStep⟩

/-- `getTotalClaimedByWallet`: the sum of the amounts of the claims of the lower-cased
address, `0` when there is none. -/
def getTotalClaimedByWallet (store : RewardStore) (walletAddress : String) : ℕ :=
  ((store.claims.filter (·.walletAddress == toLowerCase walletAddress)).map (·.amount)).sum

/-- `MAX(blockNumber)` over a table, `0` when it is empty. -/
def maxBlockNumber {Row : Type} (blockNumber : Row → ℕ) (rows : List Row) : ℕ :=
  (rows.map blockNumber).foldr max 0

/-- `getLastSyncedBlock`: the larger of the two tables' last blocks. -/
def getLastSyncedBlock (store : RewardStore) : ℕ :=
  max (maxBlockNumber (·.blockNumber) store.claims)
    (maxBlockNumber (·.blockNumber) store.distributions)

/-- What one processor call does: nothing, or append its row when no row has its key; and
when it answers with a row or with the duplicate conflict, a row with its key is stored. -/
theorem processRewardEvent_spec {Row : Type} {key : Row → String × ℕ} {duplicateMessage : String}
    {rows rows' : List Row} {row : Row} {pc : RewardPc}
    {k : Continuation RewardPc (Except RewardError Row)}
    (processed : processRewardEvent key duplicateMessage rows row pc = (rows', k)) :
    (rows' = rows ∨ key row ∉ rows.map key ∧ rows' = rows ++ [row]) ∧
      ∀ result, k = .done result → key row ∈ rows'.map key := by
  cases pc <;> simp only [processRewardEvent] at processed
  case start =>
    split at processed <;> cases processed
    · rename_i existing found
      have matched := List.find?_some found
      exact ⟨.inl rfl, fun _ _ => List.mem_map.mpr
        ⟨existing, List.mem_of_find?_eq_some found, beq_iff_eq.mp matched⟩⟩
    · exact ⟨.inl rfl, nofun⟩
  case create =>
    split at processed <;> cases processed
    · refine ⟨.inl rfl, fun _ _ => ?_⟩
      obtain ⟨r, member, same⟩ := List.any_eq_true.mp ‹_›
      exact List.mem_map.mpr ⟨r, member, by simpa using same⟩
    · refine ⟨.inr ⟨fun member => ?_, rfl⟩, fun _ _ => by simp⟩
      obtain ⟨r, present, same⟩ := List.mem_map.mp member
      exact ‹¬ _› (List.any_eq_true.mpr ⟨r, present, by simpa using same⟩)

theorem processRewardEvent_grows {Row : Type} {key : Row → String × ℕ} {duplicateMessage : String}
    {rows : List Row} (row : Row) (pc : RewardPc) :
    rows <+: (processRewardEvent key duplicateMessage rows row pc).1 := by
  generalize processed : processRewardEvent key duplicateMessage rows row pc = result
  obtain ⟨rows', k⟩ := result
  rcases (processRewardEvent_spec processed).1 with rfl | ⟨-, rfl⟩
  · exact List.prefix_refl _
  · exact List.prefix_append _ _

/-- The processors only append: along every interleaved run, each table of a state is a
prefix of the same table in every later state. -/
theorem rewardRun_grows {s s' : Interleaved RewardStore RewardRequest RewardPc}
    {actions : List (ServiceAction RewardRequest)} (ran : rewardService.run s actions = some s') :
    s.db.claims <+: s'.db.claims ∧ s.db.distributions <+: s'.db.distributions := by
  refine Service.run_rel (fun store store' : RewardStore =>
      store.claims <+: store'.claims ∧ store.distributions <+: store'.distributions)
    (fun _ => ⟨List.prefix_refl _, List.prefix_refl _⟩)
    (fun first second => ⟨first.1.trans second.1, first.2.trans second.2⟩) ?_ ran
  intro store store' _ thread _ stepped
  obtain ⟨request, pc⟩ := thread
  cases request <;> simp only [rewardService, rewardStep, Option.some.injEq] at stepped <;>
    obtain ⟨rfl, -⟩ := Prod.mk.inj stepped
  · exact ⟨processRewardEvent_grows _ pc, List.prefix_refl _⟩
  · exact ⟨List.prefix_refl _, processRewardEvent_grows _ pc⟩

theorem maxBlockNumber_le_append {Row : Type} (blockNumber : Row → ℕ) (rows extra : List Row) :
    maxBlockNumber blockNumber rows ≤ maxBlockNumber blockNumber (rows ++ extra) := by
  induction rows with
  | nil => exact Nat.zero_le _
  | cons row rows ih => exact max_le_max le_rfl ih

/-- Whatever the interleaving of processor calls, neither the block a restart's backfill
resumes from nor any wallet's claimed total ever goes back along a run. -/
theorem rewardReads_mono {s s' : Interleaved RewardStore RewardRequest RewardPc}
    {actions : List (ServiceAction RewardRequest)} (ran : rewardService.run s actions = some s') :
    getLastSyncedBlock s.db ≤ getLastSyncedBlock s'.db ∧
      ∀ walletAddress, getTotalClaimedByWallet s.db walletAddress ≤
        getTotalClaimedByWallet s'.db walletAddress := by
  obtain ⟨⟨newClaims, claimsGrown⟩, ⟨newDistributions, distributionsGrown⟩⟩ := rewardRun_grows ran
  refine ⟨max_le_max ?_ ?_, fun walletAddress => ?_⟩
  · rw [← claimsGrown]
    exact maxBlockNumber_le_append _ _ _
  · rw [← distributionsGrown]
    exact maxBlockNumber_le_append _ _ _
  · simp only [getTotalClaimedByWallet, ← claimsGrown, List.filter_append, List.map_append,
      List.sum_append]
    exact Nat.le_add_right _ _

/-- A claim event of 5 for `0xAbC` in transaction `0xt`, the fourth log of block 100. -/
def sampleClaimDto : RewardClaimEventDto :=
  ⟨"0xAbC", 5, "c1", "0xt", 100, 3, 1700000000, some "RewardClaimed"⟩

/-- The first claim stored moves the resume block from 0 to 100 and the wallet's total
from 0 to 5. -/
theorem first_claim_raises_reads :
    rewardService.run ⟨⟨[], []⟩, []⟩
        [.call (.processRewardClaim sampleClaimDto), .advance 0 0, .advance 0 0] =
      some ⟨⟨[sampleClaimDto.toRow], []⟩, []⟩ ∧
    (getLastSyncedBlock ⟨[], []⟩ ≤ getLastSyncedBlock ⟨[sampleClaimDto.toRow], []⟩ ∧
      ∀ walletAddress, getTotalClaimedByWallet ⟨[], []⟩ walletAddress ≤
        getTotalClaimedByWallet ⟨[sampleClaimDto.toRow], []⟩ walletAddress) ∧
    getLastSyncedBlock ⟨[sampleClaimDto.toRow], []⟩ = 100 ∧
    getTotalClaimedByWallet ⟨[sampleClaimDto.toRow], []⟩ "0xabc" = 5 := by
  have ran : rewardService.run ⟨⟨[], []⟩, []⟩
      [.call (.processRewardClaim sampleClaimDto), .advance 0 0, .advance 0 0] =
      some ⟨⟨[sampleClaimDto.toRow], []⟩, []⟩ := rfl
  exact ⟨ran, rewardReads_mono ran, rfl, by decide⟩

/-- A row inserted unless a row with its key is stored. -/
def insertIfAbsent {Row : Type} (key : Row → String × ℕ) (rows : List Row) (row : Row) : List Row :=
  if rows.any (key · == key row) then rows else rows ++ [row]

/-- A processor call's two database calls made with nothing in between: the lookup answers
with the stored row, or the insert runs; either way the table becomes `insertIfAbsent`. -/
theorem processRewardEvent_alone {Row : Type} (key : Row → String × ℕ) (duplicateMessage : String)
    (rows : List Row) (row : Row) :
    (∃ existing, processRewardEvent key duplicateMessage rows row .start =
        (rows, .done (.ok existing)) ∧ insertIfAbsent key rows row = rows) ∨
      (processRewardEvent key duplicateMessage rows row .start = (rows, .next .create) ∧
        ∃ result, processRewardEvent key duplicateMessage rows row .create =
          (insertIfAbsent key rows row, .done result)) := by
  cases found : rows.find? (key · == key row) with
  | some existing =>
    have matched := List.find?_some found
    have stored : rows.any (key · == key row) = true :=
      List.any_eq_true.mpr ⟨existing, List.mem_of_find?_eq_some found, matched⟩
    exact .inl ⟨existing, by simp [processRewardEvent, found], by simp [insertIfAbsent, stored]⟩
  | none =>
    have absent : rows.any (key · == key row) = false :=
      List.any_eq_false.mpr (List.find?_eq_none.mp found)
    exact .inr ⟨by simp [processRewardEvent, found], .ok row,
      by simp [processRewardEvent, insertIfAbsent, absent]⟩

/-- What a processor call does to the store when no other call is in flight. -/
def RewardRequest.applyAlone (store : RewardStore) : RewardRequest → RewardStore
  | .processRewardClaim eventDto =>
    ⟨insertIfAbsent RewardClaim.key store.claims eventDto.toRow, store.distributions⟩
  | .processRewardDistribution eventDto =>
    ⟨store.claims, insertIfAbsent RewardDistribution.key store.distributions eventDto.toRow⟩

theorem callAlone_reward (store : RewardStore) (request : RewardRequest) (choice : ℕ) :
    ∃ result, rewardService.callAlone store request choice = some (request.applyAlone store, result) := by
  cases request with
  | processRewardClaim eventDto =>
    rcases processRewardEvent_alone RewardClaim.key "Duplicate reward claim event" store.claims
      eventDto.toRow with ⟨existing, first, same⟩ | ⟨first, result, second⟩
    · refine ⟨.ok (.claim existing), ?_⟩
      simp [Service.callAlone, Service.runAlone, rewardService, rewardStep, processRewardClaim,
        first, same, RewardRequest.applyAlone, Continuation.map, Except.map]
    · refine ⟨result.map .claim, ?_⟩
      simp [Service.callAlone, Service.runAlone, rewardService, rewardStep, processRewardClaim,
        first, second, RewardRequest.applyAlone, Continuation.map]
  | processRewardDistribution eventDto =>
    rcases processRewardEvent_alone RewardDistribution.key "Duplicate reward distribution event"
      store.distributions eventDto.toRow with ⟨existing, first, same⟩ | ⟨first, result, second⟩
    · refine ⟨.ok (.distribution existing), ?_⟩
      simp [Service.callAlone, Service.runAlone, rewardService, rewardStep,
        processRewardDistribution, first, same, RewardRequest.applyAlone, Continuation.map,
        Except.map]
    · refine ⟨result.map .distribution, ?_⟩
      simp [Service.callAlone, Service.runAlone, rewardService, rewardStep,
        processRewardDistribution, first, second, RewardRequest.applyAlone, Continuation.map]

/-- When every row under `row`'s key is `row` itself, inserting `row` leaves it stored. -/
theorem mem_insertIfAbsent_of_owns {Row : Type} {key : Row → String × ℕ} {rows : List Row}
    {row : Row} (owns : ∀ r ∈ rows, key r = key row → r = row) :
    row ∈ insertIfAbsent key rows row := by
  unfold insertIfAbsent
  split
  · obtain ⟨r, member, same⟩ := List.any_eq_true.mp ‹_›
    rwa [← owns r member (beq_iff_eq.mp same)]
  · simp

/-- An insert keeps `row` the only row under its key, unless it inserts another row there. -/
theorem owns_insertIfAbsent {Row : Type} {key : Row → String × ℕ} {rows : List Row}
    {row other : Row} (owns : ∀ r ∈ rows, key r = key row → r = row)
    (apart : key other = key row → other = row) :
    ∀ r ∈ insertIfAbsent key rows other, key r = key row → r = row := by
  unfold insertIfAbsent
  split
  · exact owns
  · simp only [List.mem_append, List.mem_singleton]
    rintro r (member | rfl)
    · exact owns r member
    · exact apart

theorem prefix_insertIfAbsent {Row : Type} (key : Row → String × ℕ) (rows : List Row) (row : Row) :
    rows <+: insertIfAbsent key rows row := by
  unfold insertIfAbsent
  split
  · exact List.prefix_refl rows
  · exact List.prefix_append rows [row]

/-- The row a processor call stores is in its table, block number and content included. -/
def RewardRequest.StoredIn : RewardRequest → RewardStore → Prop
  | .processRewardClaim eventDto, store => eventDto.toRow ∈ store.claims
  | .processRewardDistribution eventDto, store => eventDto.toRow ∈ store.distributions

/-- Every row under the call's key in its table is the row the call stores. -/
def RewardRequest.OwnsKeyIn : RewardRequest → RewardStore → Prop
  | .processRewardClaim eventDto, store =>
    ∀ row ∈ store.claims, row.key = eventDto.toRow.key → row = eventDto.toRow
  | .processRewardDistribution eventDto, store =>
    ∀ row ∈ store.distributions, row.key = eventDto.toRow.key → row = eventDto.toRow

instance (request : RewardRequest) (store : RewardStore) : Decidable (request.OwnsKeyIn store) :=
  match request with
  | .processRewardClaim eventDto =>
    inferInstanceAs (Decidable (∀ row ∈ store.claims, row.key = eventDto.toRow.key → row = eventDto.toRow))
  | .processRewardDistribution eventDto =>
    inferInstanceAs (Decidable (∀ row ∈ store.distributions,
      row.key = eventDto.toRow.key → row = eventDto.toRow))

/-- The call `other` stores no row but `request`'s under `request`'s key in its table. -/
def RewardRequest.KeepsKeyOf : RewardRequest → RewardRequest → Prop
  | .processRewardClaim other, .processRewardClaim eventDto =>
    other.toRow.key = eventDto.toRow.key → other.toRow = eventDto.toRow
  | .processRewardDistribution other, .processRewardDistribution eventDto =>
    other.toRow.key = eventDto.toRow.key → other.toRow = eventDto.toRow
  | _, _ => True

section OwnRow

variable {request : RewardRequest} {store : RewardStore}

theorem RewardRequest.storedIn_applyAlone (owns : request.OwnsKeyIn store) :
    request.StoredIn (request.applyAlone store) := by
  cases request <;> exact mem_insertIfAbsent_of_owns owns

theorem RewardRequest.ownsKeyIn_applyAlone {other : RewardRequest} (owns : request.OwnsKeyIn store)
    (apart : other.KeepsKeyOf request) : request.OwnsKeyIn (other.applyAlone store) := by
  cases request <;> cases other
  all_goals first
    | exact owns_insertIfAbsent owns apart
    | exact owns

theorem RewardRequest.storedIn_applyAlone_of_storedIn (other : RewardRequest)
    (stored : request.StoredIn store) : request.StoredIn (other.applyAlone store) := by
  cases request <;> cases other
  all_goals first
    | exact (prefix_insertIfAbsent _ _ _).subset stored
    | exact stored

end OwnRow

end TruthBounty
