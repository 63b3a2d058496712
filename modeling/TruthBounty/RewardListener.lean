import TruthBounty.RewardSync

namespace TruthBounty

inductive RewardEvent where
  | RewardClaimed (user : String) (amount : ℕ) (claimId : String)
  | RewardDistributed (recipients : List String) (amounts : List ℕ) (distributionId : String)
  deriving DecidableEq

/-- A contract log as ethers returns it. `index` is its position in its block, which
changes when its transaction is re-mined; `positionInTx`, its position in its transaction,
does not. `blockTimestamp` is what `getBlock` answers. -/
structure MinedLog where
  event : RewardEvent
  txHash : String
  positionInTx : ℕ
  blockNumber : ℕ
  index : ℕ
  blockTimestamp : ℕ
  deriving DecidableEq

/-- The on-chain identity of a log. -/
def MinedLog.identity (log : MinedLog) : String × ℕ := (log.txHash, log.positionInTx)

def MinedLog.isClaim (log : MinedLog) : Bool :=
  match log.event with
  | .RewardClaimed .. => true
  | .RewardDistributed .. => false

/-- The processor call `handleRewardClaimedEvent` or `handleRewardDistributedEvent` makes:
`logIndex` is ethers' `event.index`. -/
def MinedLog.request (log : MinedLog) : RewardRequest :=
  match log.event with
  | .RewardClaimed user amount claimId =>
    .processRewardClaim ⟨user, amount, claimId, log.txHash, log.blockNumber, log.index,
      log.blockTimestamp, some "RewardClaimed"⟩
  | .RewardDistributed recipients amounts distributionId =>
    .processRewardDistribution ⟨recipients, amounts, distributionId, log.txHash,
      log.blockNumber, log.index, log.blockTimestamp, some "RewardDistributed"⟩

/-- The row key a log is stored under. -/
def MinedLog.key (log : MinedLog) : String × ℕ := (log.txHash, log.index)

/-- The rows stored under a log's key in its table. -/
def storedCount (store : RewardStore) (log : MinedLog) : ℕ :=
  if log.isClaim then (store.claims.filter (·.key == log.key)).length
  else (store.distributions.filter (·.key == log.key)).length

/-- A handler: the processor call made with no other call in flight. A failing call (RPC,
`getBlock`, database, or the duplicate conflict) is only logged. -/
def handleEvent (store : RewardStore) (log : MinedLog) : RewardStore :=
  match rewardService.callAlone store log.request 0 with
  | some (store', _) => store'
  | none => store

/-- `queryFilter` for one event: the logs of that kind with a block in
`[fromBlock, toBlock]`, in chain order. -/
def queryFilter (chain : List MinedLog) (claims : Bool) (fromBlock toBlock : ℕ) : List MinedLog :=
  chain.filter fun log => log.isClaim == claims && fromBlock ≤ log.blockNumber &&
    log.blockNumber ≤ toBlock

/-- The handler calls of `processBlockRange`: the range's claims, then its distributions. -/
def processBlockRange (chain : List MinedLog) (fromBlock toBlock : ℕ) : List MinedLog :=
  queryFilter chain true fromBlock toBlock ++ queryFilter chain false fromBlock toBlock

def chunkSize : ℕ := 10000

/-- The ranges of the backfill loop from `fromBlock`: `[fromBlock, min (fromBlock +
chunkSize - 1) currentBlock]` while `fromBlock ≤ currentBlock`, at most `fuel` rounds. -/
def chunkRanges (currentBlock : ℕ) : ℕ → ℕ → List (ℕ × ℕ)
  | 0, _ => []
  | fuel + 1, fromBlock =>
    if fromBlock ≤ currentBlock then
      (fromBlock, min (fromBlock + chunkSize - 1) currentBlock) ::
        chunkRanges currentBlock fuel (fromBlock + chunkSize)
    else []

/-- The handler calls of `backfillHistoricalEvents`, for a numeric `START_BLOCK`: none when
`lastSyncedBlock || START_BLOCK` is not below the head, else each chunk's calls. The loop
makes at most `currentBlock + 1 - startBlock` rounds. -/
def backfillCalls (lastSyncedBlock startBlockSetting currentBlock : ℕ) (chain : List MinedLog) :
    List MinedLog :=
  let startBlock := if lastSyncedBlock = 0 then startBlockSetting else lastSyncedBlock
  if currentBlock ≤ startBlock then []
  else (chunkRanges currentBlock (currentBlock + 1 - startBlock) startBlock).flatMap
    fun range => processBlockRange chain range.1 range.2

/-- Handler calls made one after another, the `i`-th failing when `failed i`. -/
def runHandlers (store : RewardStore) (calls : List MinedLog) (failed : ℕ → Bool) : RewardStore :=
  (calls.enum.filter fun call => !failed call.1).foldl (fun store call => handleEvent store call.2)
    store

/-- `onModuleInit`'s backfill run to completion: resume from `getLastSyncedBlock()`, or from
`START_BLOCK` when that is 0, up to the head, no handler failing. -/
def backfillHistoricalEvents (store : RewardStore) (startBlockSetting currentBlock : ℕ)
    (chain : List MinedLog) : RewardStore :=
  runHandlers store (backfillCalls (getLastSyncedBlock store) startBlockSetting currentBlock chain)
    fun _ => false

/-- A first run from an empty store, its backfill then the live listener's deliveries,
interrupted after its first `n` handler calls, the `i`-th failing when `failed i`. -/
def interruptedRun (startBlockSetting currentBlock : ℕ) (chain live : List MinedLog) (n : ℕ)
    (failed : ℕ → Bool) : RewardStore :=
  runHandlers ⟨[], []⟩ ((backfillCalls 0 startBlockSetting currentBlock chain ++ live).take n) failed

theorem handleEvent_eq (store : RewardStore) (log : MinedLog) :
    handleEvent store log = log.request.applyAlone store := by
  obtain ⟨result, ran⟩ := callAlone_reward store log.request 0
  simp [handleEvent, ran]

/-- A chain log stores no row but `log`'s under `log`'s key, when no other log of the chain
has `log`'s kind and key. -/
theorem MinedLog.keepsKeyOf {other log : MinedLog}
    (sole : other.isClaim = log.isClaim → other.key = log.key → other = log) :
    other.request.KeepsKeyOf log.request := by
  rcases eq_or_ne other log with rfl | apart
  · unfold MinedLog.request
    cases other.event <;> exact fun _ => rfl
  · unfold MinedLog.request
    cases hOther : other.event <;> cases hLog : log.event <;>
      simp only [RewardRequest.KeepsKeyOf, RewardClaim.key, RewardDistribution.key,
        RewardClaimEventDto.toRow, RewardDistributionEventDto.toRow] <;>
      intro same <;>
      exact absurd (sole (by simp [MinedLog.isClaim, hOther, hLog]) (by simpa [MinedLog.key] using same)) apart

/-- Handling chain logs keeps `log`'s own row the only row under its key. -/
theorem foldl_handleEvent_ownsKeyIn {log : MinedLog} {chain : List MinedLog}
    (sole : ∀ other ∈ chain, other.isClaim = log.isClaim → other.key = log.key → other = log) :
    ∀ {calls : List MinedLog} {store : RewardStore}, (∀ call ∈ calls, call ∈ chain) →
      log.request.OwnsKeyIn store → log.request.OwnsKeyIn (calls.foldl handleEvent store)
  | [], _, _, owns => owns
  | call :: calls, store, fromChain, owns => by
    have kept : log.request.OwnsKeyIn (handleEvent store call) := by
      rw [handleEvent_eq]
      exact RewardRequest.ownsKeyIn_applyAlone owns
        (MinedLog.keepsKeyOf (sole call (fromChain call (List.mem_cons_self _ _))))
    rw [List.foldl_cons]
    exact foldl_handleEvent_ownsKeyIn sole
      (fun other member => fromChain other (List.mem_cons_of_mem _ member)) kept

theorem foldl_handleEvent_storedIn_of_storedIn {request : RewardRequest} :
    ∀ (calls : List MinedLog) {store : RewardStore}, request.StoredIn store →
      request.StoredIn (calls.foldl handleEvent store)
  | [], _, stored => stored
  | call :: calls, store, stored => by
    refine foldl_handleEvent_storedIn_of_storedIn calls ?_
    rw [handleEvent_eq]
    exact RewardRequest.storedIn_applyAlone_of_storedIn call.request stored

/-- Handlers run over chain logs, `log` among them, store `log`'s own row when it starts as the
only row under its key. -/
theorem foldl_handleEvent_storedIn {log : MinedLog} {chain : List MinedLog}
    (sole : ∀ other ∈ chain, other.isClaim = log.isClaim → other.key = log.key → other = log)
    {calls : List MinedLog} (fromChain : ∀ call ∈ calls, call ∈ chain) (member : log ∈ calls)
    {store : RewardStore} (owns : log.request.OwnsKeyIn store) :
    log.request.StoredIn (calls.foldl handleEvent store) := by
  obtain ⟨before, after, rfl⟩ := List.append_of_mem member
  have ownsBefore := foldl_handleEvent_ownsKeyIn sole
    (fun call inBefore => fromChain call (List.mem_append_left _ inBefore)) owns
  rw [List.foldl_append, List.foldl_cons, handleEvent_eq]
  exact foldl_handleEvent_storedIn_of_storedIn after (RewardRequest.storedIn_applyAlone ownsBefore)

theorem runHandlers_of_succeeding (store : RewardStore) (calls : List MinedLog) :
    runHandlers store calls (fun _ => false) = calls.foldl handleEvent store := by
  simp only [runHandlers, Bool.not_false, List.filter_true]
  rw [← List.foldl_map Prod.snd (fun store log => handleEvent store log), List.enum_map_snd]

/-- The backfill loop's ranges cover every block from its first to the head. -/
theorem chunkRanges_cover {currentBlock block : ℕ} :
    ∀ {fuel fromBlock : ℕ}, fromBlock ≤ block → block ≤ currentBlock →
      currentBlock + 1 - fromBlock ≤ fuel →
      ∃ range ∈ chunkRanges currentBlock fuel fromBlock, range.1 ≤ block ∧ block ≤ range.2
  | 0, _, above, below, enough => by omega
  | fuel + 1, fromBlock, above, below, enough => by
    have started : fromBlock ≤ currentBlock := above.trans below
    simp only [chunkRanges, started, if_true, List.mem_cons, exists_eq_or_imp]
    by_cases inFirst : block ≤ fromBlock + chunkSize - 1
    · exact .inl ⟨above, le_min inFirst below⟩
    · have step : 0 < chunkSize := by decide
      exact .inr (chunkRanges_cover (by omega) below (by omega))

theorem mem_processBlockRange {chain : List MinedLog} {log : MinedLog} {fromBlock toBlock : ℕ}
    (member : log ∈ chain) (above : fromBlock ≤ log.blockNumber) (below : log.blockNumber ≤ toBlock) :
    log ∈ processBlockRange chain fromBlock toBlock := by
  unfold processBlockRange queryFilter
  cases kind : log.isClaim <;> simp [member, kind, above, below]

theorem mem_of_mem_backfillCalls {lastSyncedBlock startBlockSetting currentBlock : ℕ}
    {chain : List MinedLog} {call : MinedLog}
    (member : call ∈ backfillCalls lastSyncedBlock startBlockSetting currentBlock chain) :
    call ∈ chain := by
  obtain ⟨-, inLoop⟩ := List.mem_ite_nil_left.mp member
  obtain ⟨range, -, inRange⟩ := List.mem_flatMap.mp inLoop
  simp only [processBlockRange, queryFilter, List.mem_append, List.mem_filter] at inRange
  exact inRange.elim And.left And.left

/-- The resume block of a backfill: `lastSyncedBlock || START_BLOCK`. -/
def resumeBlock (store : RewardStore) (startBlockSetting : ℕ) : ℕ :=
  if getLastSyncedBlock store = 0 then startBlockSetting else getLastSyncedBlock store

/-- A distribution at block 1, and claims at blocks 1 and 2. -/
def distributionAtOne : MinedLog := ⟨.RewardDistributed ["0xAbC"] [5] "d1", "0xb", 0, 1, 0, 1700000000⟩

def claimAtOne : MinedLog := ⟨.RewardClaimed "0xDeF" 7 "c0", "0xc", 0, 1, 0, 1700000000⟩

def claimAtTwo : MinedLog := ⟨.RewardClaimed "0xAbC" 5 "c1", "0xa", 0, 2, 0, 1700000012⟩

/-- What recovery does guarantee: a backfill that runs to completion with no failing handler
stores the own row of each log of the chain from its resume block up to the head, when it
starts below the head, no other log of the chain has the log's kind and key, and the store
holds no other row under that key. -/
theorem backfillHistoricalEvents_stores (store : RewardStore) (startBlockSetting currentBlock : ℕ)
    {chain : List MinedLog} {log : MinedLog} (member : log ∈ chain)
    (sole : ∀ other ∈ chain, other.isClaim = log.isClaim → other.key = log.key → other = log)
    (owns : log.request.OwnsKeyIn store)
    (behind : resumeBlock store startBlockSetting < currentBlock)
    (above : resumeBlock store startBlockSetting ≤ log.blockNumber)
    (below : log.blockNumber ≤ currentBlock) :
    log.request.StoredIn (backfillHistoricalEvents store startBlockSetting currentBlock chain) := by
  unfold backfillHistoricalEvents
  rw [runHandlers_of_succeeding]
  refine foldl_handleEvent_storedIn sole (fun _ => mem_of_mem_backfillCalls) ?_ owns
  unfold resumeBlock at behind above
  simp only [backfillCalls, not_le.mpr behind, if_false, List.mem_flatMap]
  obtain ⟨range, inLoop, first, last⟩ := chunkRanges_cover above below le_rfl
  exact ⟨range, inLoop, mem_processBlockRange member first last⟩

theorem backfill_from_start_stores_distribution :
    distributionAtOne.request.StoredIn
      (backfillHistoricalEvents ⟨[], []⟩ 0 3 [distributionAtOne, claimAtTwo]) :=
  backfillHistoricalEvents_stores ⟨[], []⟩ 0 3 (by decide) (by decide) (by decide) (by decide)
    (by decide) (by decide)

/-- `START_BLOCK` 0 and head 3, a restart against the same head. A crash after the claim at
block 2 is stored, before its chunk's distributions, loses the distribution at block 1; a
failing handler for the claim at block 1 loses that claim: either way the restart resumes
at block 2. -/
theorem restart_loses_reward_events :
    storedCount (backfillHistoricalEvents
      (interruptedRun 0 3 [distributionAtOne, claimAtTwo] [] 1 fun _ => false) 0 3
      [distributionAtOne, claimAtTwo]) distributionAtOne = 0 ∧
    storedCount (backfillHistoricalEvents
      (interruptedRun 0 3 [claimAtOne, claimAtTwo] [] 2 (· == 0)) 0 3
      [claimAtOne, claimAtTwo]) claimAtOne = 0 := by
  decide

/-- A `RewardClaimed` log of 5 for `0xAbC`, mined as the fourth log of block 100. -/
def claimLog : MinedLog := ⟨.RewardClaimed "0xAbC" 5 "c1", "0xt", 0, 100, 3, 1700000000⟩

/-- The same log after its transaction was re-mined as the first log of block 101. -/
def reminedClaimLog : MinedLog := ⟨.RewardClaimed "0xAbC" 5 "c1", "0xt", 0, 101, 0, 1700000012⟩

/-- The listener delivers the log, then its re-mined copy: the two deliveries carry
different `logIndex`es, so both rows stay and the wallet's total counts the claim twice. -/
theorem remined_claim_counted_twice :
    claimLog.identity = reminedClaimLog.identity ∧
    ∃ s, rewardService.run ⟨⟨[], []⟩, []⟩
        [.call claimLog.request, .advance 0 0, .advance 0 0,
         .call reminedClaimLog.request, .advance 0 0, .advance 0 0] = some s ∧
      s.inFlight = [] ∧ (s.db.claims.filter (·.txHash == "0xt")).length = 2 ∧
      getTotalClaimedByWallet s.db "0xABC" = 10 :=
  ⟨rfl, Service.exists_run_of_map (by decide)⟩

/-- The `processBlockRange` bounds of the backfill loop from `fromBlock`, as JavaScript
computes `fromBlock <= currentBlock`, `Math.min(fromBlock + CHUNK_SIZE - 1, currentBlock)`
and `fromBlock += CHUNK_SIZE`; `none` when `fuel` rounds do not end the loop. -/
def backfillLoop (currentBlock : ℕ) : ℕ → JsValue → Option (List (JsValue × JsNumber))
  | 0, _ => none
  | fuel + 1, fromBlock =>
    if fromBlock.toNumber.ble (.finite currentBlock) then
      let toBlock := ((fromBlock.addNat chunkSize).toNumber.add (.finite (-1))).min
        (.finite currentBlock)
      (backfillLoop currentBlock fuel (fromBlock.addNat chunkSize)).map ((fromBlock, toBlock) :: ·)
    else some []

/-- `lastSyncedBlock || this.configService.get('START_BLOCK', 0)`: `ConfigService` answers
the raw environment text when `START_BLOCK` is set, and the default `0` when it is not. -/
def backfillStart (lastSyncedBlock : ℕ) (startBlockEnv : Option String) : JsValue :=
  if lastSyncedBlock = 0 then
    match startBlockEnv with
    | some text => .string text
    | none => .number (.finite 0)
  else .number (.finite lastSyncedBlock)

/-- The `processBlockRange` bounds of `backfillHistoricalEvents`: none when
`startBlock >= currentBlock`, else those of the loop from `startBlock`. -/
def backfillRanges (lastSyncedBlock : ℕ) (startBlockEnv : Option String)
    (currentBlock fuel : ℕ) : Option (List (JsValue × JsNumber)) :=
  let startBlock := backfillStart lastSyncedBlock startBlockEnv
  if (JsNumber.finite currentBlock).ble startBlock.toNumber then some []
  else backfillLoop currentBlock fuel startBlock

/-- Ranges that tile `[start, stop]` in order: each begins one block after the one before
it ends, the last ends at `stop`, and each spans at most `chunkSize` blocks. No range
tiles only the empty interval, `start = stop + 1`. -/
def Tiles : ℕ → ℕ → List (ℕ × ℕ) → Prop
  | start, stop, [] => start = stop + 1
  | start, stop, range :: ranges => range.1 = start ∧ range.1 ≤ range.2 ∧
      range.2 - range.1 < chunkSize ∧ Tiles (range.2 + 1) stop ranges

instance Tiles.decidable : (start stop : ℕ) → (ranges : List (ℕ × ℕ)) →
    Decidable (Tiles start stop ranges)
  | _, _, [] => inferInstanceAs (Decidable (_ = _))
  | _, stop, range :: ranges =>
    have := Tiles.decidable (range.2 + 1) stop ranges
    inferInstanceAs (Decidable (_ ∧ _ ∧ _ ∧ _))

/-- The numeric bounds as the loop's values. -/
def numericBounds (ranges : List (ℕ × ℕ)) : List (JsValue × JsNumber) :=
  ranges.map fun range => (.number (.finite range.1), .finite range.2)

theorem chunkRanges_past {currentBlock fromBlock : ℕ} (past : currentBlock < fromBlock) :
    ∀ fuel, chunkRanges currentBlock fuel fromBlock = []
  | 0 => rfl
  | _ + 1 => by simp [chunkRanges, Nat.not_le.mpr past]

/-- Past the rounds the ranges need, more fuel changes nothing. -/
theorem chunkRanges_fuel {currentBlock : ℕ} (fuel : ℕ) :
    ∀ {fuel' fromBlock : ℕ}, currentBlock + 1 - fromBlock ≤ fuel →
      currentBlock + 1 - fromBlock ≤ fuel' →
      chunkRanges currentBlock fuel fromBlock = chunkRanges currentBlock fuel' fromBlock := by
  induction fuel with
  | zero =>
    intro fuel' fromBlock enough enough'
    rw [chunkRanges_past (by omega), chunkRanges_past (by omega)]
  | succ fuel ih =>
    intro fuel' fromBlock enough enough'
    by_cases started : fromBlock ≤ currentBlock
    · obtain ⟨fuel', rfl⟩ : ∃ rest, fuel' = rest + 1 := ⟨fuel' - 1, by omega⟩
      have chunk : chunkSize = 10000 := rfl
      simp only [chunkRanges, started, if_true]
      rw [ih (by omega : currentBlock + 1 - (fromBlock + chunkSize) ≤ fuel)
        (by omega : currentBlock + 1 - (fromBlock + chunkSize) ≤ fuel')]
    · rw [chunkRanges_past (by omega), chunkRanges_past (by omega)]

/-- The numeric loop's ranges tile everything from its first block to the head. -/
theorem chunkRanges_tiles {currentBlock : ℕ} (fuel : ℕ) :
    ∀ {fromBlock : ℕ}, fromBlock ≤ currentBlock + 1 → currentBlock + 1 - fromBlock ≤ fuel →
      Tiles fromBlock currentBlock (chunkRanges currentBlock fuel fromBlock) := by
  have chunk : chunkSize = 10000 := rfl
  induction fuel with
  | zero =>
    intro fromBlock within enough
    rw [chunkRanges_past (by omega)]
    show fromBlock = currentBlock + 1
    omega
  | succ fuel ih =>
    intro fromBlock within enough
    by_cases started : fromBlock ≤ currentBlock
    · simp only [chunkRanges, started, if_true, Tiles]
      refine ⟨trivial, le_min (by omega) started, by omega, ?_⟩
      by_cases last : currentBlock ≤ fromBlock + chunkSize - 1
      · rw [min_eq_right last, chunkRanges_past (by omega)]
        rfl
      · rw [min_eq_left (by omega), show fromBlock + chunkSize - 1 + 1 = fromBlock + chunkSize by omega]
        exact ih (by omega) (by omega)
    · rw [chunkRanges_past (by omega)]
      show fromBlock = currentBlock + 1
      omega

/-- On a number, the loop computes the numeric model's ranges. -/
theorem backfillLoop_number {currentBlock : ℕ} (fuel : ℕ) :
    ∀ {fromBlock : ℕ}, currentBlock + 1 - fromBlock < fuel →
      backfillLoop currentBlock fuel (.number (.finite fromBlock)) =
        some (numericBounds (chunkRanges currentBlock fuel fromBlock)) := by
  have chunk : chunkSize = 10000 := rfl
  induction fuel with
  | zero => intro fromBlock enough; omega
  | succ fuel ih =>
    intro fromBlock enough
    by_cases started : fromBlock ≤ currentBlock
    · have next := ih (by omega : currentBlock + 1 - (fromBlock + chunkSize) < fuel)
      have toBlock : ((fromBlock + chunkSize - 1 : ℕ) : ℚ) = fromBlock + chunkSize + -1 := by
        push_cast [show 1 ≤ fromBlock + chunkSize by omega]; ring
      push_cast at next
      simp only [backfillLoop, JsValue.toNumber_number, JsNumber.ble_finite, Nat.cast_le, started,
        decide_True, if_true, JsValue.addNat_number, JsNumber.add_finite, JsNumber.min_finite, next,
        numericBounds, Option.map_some', chunkRanges, List.map_cons, Nat.cast_min, toBlock]
    · simp [backfillLoop, chunkRanges, started, numericBounds]

/-- On a string, `fromBlock += CHUNK_SIZE` appends to the string, so every bound the loop
passes as `fromBlock` is a string. -/
theorem backfillLoop_string {currentBlock : ℕ} (fuel : ℕ) :
    ∀ {text : String} {ranges : List (JsValue × JsNumber)},
      backfillLoop currentBlock fuel (.string text) = some ranges →
        ∀ range ∈ ranges, ∃ bound, range.1 = .string bound := by
  induction fuel with
  | zero => intro text ranges ran; cases ran
  | succ fuel ih =>
    intro text ranges ran
    simp only [backfillLoop, JsValue.addNat_string] at ran
    split at ran
    · obtain ⟨rest, looped, rfl⟩ := Option.map_eq_some'.mp ran
      rintro range (_ | ⟨_, member⟩)
      · exact ⟨text, rfl⟩
      · exact ih looped range member
    · cases ran
      nofun

/-- With a numeric resume block the bounds are numeric: none from the head on, else the
numeric model's chunks. -/
theorem backfillRanges_number {lastSyncedBlock : ℕ} {startBlockEnv : Option String}
    {start : ℕ} (currentBlock : ℕ) {fuel : ℕ}
    (numeric : backfillStart lastSyncedBlock startBlockEnv = .number (.finite start))
    (enough : currentBlock + 1 - start < fuel) :
    backfillRanges lastSyncedBlock startBlockEnv currentBlock fuel = some (numericBounds
      (if currentBlock ≤ start then [] else chunkRanges currentBlock fuel start)) := by
  by_cases ahead : currentBlock ≤ start
  · simp [backfillRanges, numeric, ahead, numericBounds]
  · simp [backfillRanges, numeric, ahead, backfillLoop_number fuel enough]

/-- The numeric model of the backfill, `START_BLOCK` read as `0`, makes its calls over the
bounds of the loop as JavaScript runs it, whenever the resume block is a number. -/
theorem backfillCalls_eq_backfillRanges {lastSyncedBlock : ℕ} {startBlockEnv : Option String}
    {start : ℕ} (currentBlock : ℕ) {fuel : ℕ} (chain : List MinedLog)
    (numeric : backfillStart lastSyncedBlock startBlockEnv = .number (.finite start))
    (enough : currentBlock + 1 - start < fuel) :
    ∃ ranges, backfillRanges lastSyncedBlock startBlockEnv currentBlock fuel =
      some (numericBounds ranges) ∧ backfillCalls lastSyncedBlock 0 currentBlock chain =
        ranges.flatMap fun range => processBlockRange chain range.1 range.2 := by
  have resumed : (if lastSyncedBlock = 0 then 0 else lastSyncedBlock) = start := by
    unfold backfillStart at numeric
    split at numeric
    · cases startBlockEnv <;> simp_all
      exact_mod_cast numeric
    · simp_all
  refine ⟨_, backfillRanges_number currentBlock numeric enough, ?_⟩
  simp only [backfillCalls, resumed]
  split
  · rfl
  · rw [chunkRanges_fuel (currentBlock + 1 - start) le_rfl enough.le]

/-- The backfill makes no call when it resumes at the head. With nothing synced and
`START_BLOCK` set, each call's lower bound is a string, never a number; for `"17000000"`
and head `17020000` its one call spans 20001 blocks. -/
theorem backfill_skips_head_and_splices_start_text :
    (∀ (block fuel : ℕ) (startBlockEnv : Option String), 0 < block →
        backfillRanges block startBlockEnv block fuel = some []) ∧
    (∀ (text : String) (currentBlock fuel : ℕ) (ranges : List (JsValue × JsNumber)),
        backfillRanges 0 (some text) currentBlock fuel = some ranges →
        ∀ range ∈ ranges, ∃ bound, range.1 = .string bound) ∧
    backfillRanges 0 (some "17000000") 17020000 2 =
      some [(.string "17000000", .finite 17020000)] := by
  refine ⟨fun block fuel startBlockEnv synced => ?_,
    fun text currentBlock fuel ranges ran => ?_, ?_⟩
  · simp [backfillRanges, backfillStart, synced.ne']
  · simp only [backfillRanges, backfillStart, if_true] at ran
    split at ran
    · cases ran
      nofun
    · exact backfillLoop_string fuel ran
  · have spliced : (JsValue.string "17000000").addNat chunkSize = .string "1700000010000" := by
      decide
    have start : stringToNumber "17000000" = .finite 17000000 := by decide
    have next : stringToNumber "1700000010000" = .finite 1700000010000 := by decide
    simp [backfillRanges, backfillStart, backfillLoop, spliced, start, next]
    norm_num

/-- A backfill that resumes at a number below the head ends, and its calls tile
`[start, currentBlock]` with numeric bounds, in chunks of at most `chunkSize` blocks. -/
theorem backfillRanges_tile (lastSyncedBlock : ℕ) (startBlockEnv : Option String)
    (start currentBlock fuel : ℕ)
    (numeric : backfillStart lastSyncedBlock startBlockEnv = .number (.finite start))
    (behind : start < currentBlock) (enough : currentBlock + 1 - start < fuel) :
    ∃ ranges, backfillRanges lastSyncedBlock startBlockEnv currentBlock fuel =
      some (numericBounds ranges) ∧ Tiles start currentBlock ranges := by
  refine ⟨chunkRanges currentBlock fuel start, ?_, chunkRanges_tiles fuel (by omega) (by omega)⟩
  rw [backfillRanges_number currentBlock numeric enough, if_neg (by omega)]

theorem synced_backfill_tiles :
    ∃ ranges, backfillRanges 17000000 (some "17000000") 17025000 25002 =
      some (numericBounds ranges) ∧ Tiles 17000000 17025000 ranges :=
  backfillRanges_tile 17000000 (some "17000000") 17000000 17025000 25002 rfl (by decide)
    (by decide)

end TruthBounty
