import TruthBounty.JsBuiltins

namespace TruthBounty

structure RateLimitConfig where
  ttl : ℕ
  limit : ℕ
  deriving DecidableEq

/-- The registered `throttler` configuration. Its `redis` entry has no `limit`, so
`canActivate` never takes a rate limit from it. -/
structure ThrottlerConfig where
  claims : RateLimitConfig
  votes : RateLimitConfig
  disputes : RateLimitConfig
  default : RateLimitConfig
  deriving DecidableEq

/-- `throttlerConfig` with no `RATE_LIMIT_` variable set. -/
def throttlerConfig : ThrottlerConfig where
  claims := ⟨60 * 1000, 5⟩
  votes := ⟨60 * 1000, 20⟩
  disputes := ⟨60 * 1000, 3⟩
  default := ⟨60000, 10⟩

/-- `config[throttleType]` when it is an object with a `limit`. -/
def ThrottlerConfig.typeConfig (config : ThrottlerConfig) : String → Option RateLimitConfig
  | "claims" => some config.claims
  | "votes" => some config.votes
  | "disputes" => some config.disputes
  | "default" => some config.default
  | _ => none

/-- The limit and ttl of `canActivate`: the default ones, or 10 and 60000 without a
configuration, replaced by the rate limit a non-empty throttle type names. -/
def rateLimitFor (config : Option ThrottlerConfig) (throttleType : Option String) :
    RateLimitConfig :=
  let fallback : RateLimitConfig := match config with
    | some config => config.default
    | none => ⟨60000, 10⟩
  match config, throttleType with
  | some config, some throttleType =>
    if throttleType = "" then fallback else (config.typeConfig throttleType).getD fallback
  | _, _ => fallback

/-- A stored hit counter of `ThrottlerMemoryStorage`. -/
structure ThrottleEntry where
  count : ℕ
  expiresAt : ℕ
  deriving DecidableEq

/-- The map of `ThrottlerMemoryStorage`, from keys to hit counters. -/
abbrev ThrottlerStorage := String → Option ThrottleEntry

structure ThrottlerStorageRecord where
  totalHits : ℕ
  timeToExpire : ℕ
  isBlocked : Bool
  timeToBlockExpire : ℕ
  deriving DecidableEq

/-- A stored counter as it stands at clock `now`: gone once it expired. -/
def liveEntry (now : ℕ) : Option ThrottleEntry → Option ThrottleEntry
  | some entry => if entry.expiresAt < now then none else some entry
  | none => none

/-- `cleanup` at clock `now`: every counter that expired before `now` is deleted. -/
def ThrottlerStorage.cleanup (storage : ThrottlerStorage) (now : ℕ) : ThrottlerStorage :=
  fun key => liveEntry now (storage key)

/-- The `Math.random() < 0.01` branch of `increment`: `some now` runs `cleanup`, whose
own `Date.now()` reads `now`. -/
def ThrottlerStorage.randomCleanup (storage : ThrottlerStorage) : Option ℕ → ThrottlerStorage
  | some now => storage.cleanup now
  | none => storage

/-- `ThrottlerMemoryStorage.increment` at clock `now`. The counter is read before the
cleanup and written back after it. -/
def ThrottlerStorage.increment (storage : ThrottlerStorage) (key : String) (ttl now : ℕ)
    (cleanupClock : Option ℕ) : ThrottlerStorageRecord × ThrottlerStorage :=
  let record := storage key
  let storage := storage.randomCleanup cleanupClock
  match record with
  | some record =>
    if record.expiresAt < now then
      (⟨1, ttl, false, 0⟩, Function.update storage key (some ⟨1, now + ttl⟩))
    else
      (⟨record.count + 1, record.expiresAt - now, false, 0⟩,
        Function.update storage key (some ⟨record.count + 1, record.expiresAt⟩))
  | none => (⟨1, ttl, false, 0⟩, Function.update storage key (some ⟨1, now + ttl⟩))

/-- The wallet fields `getTracker` reads, and the client's address. -/
structure ThrottledRequest where
  walletHeader : Option String
  bodyWalletAddress : Option String
  bodyWallet : Option String
  queryWalletAddress : Option String
  queryWallet : Option String
  ip : String
  deriving DecidableEq

/-- `WalletThrottlerGuard.getTracker`: the first non-empty wallet field, else the address. -/
def getTracker (req : ThrottledRequest) : String :=
  stringOr req.walletHeader <| stringOr req.bodyWalletAddress <| stringOr req.bodyWallet <|
    stringOr req.queryWalletAddress <| stringOr req.queryWallet req.ip

/-- One guarded request: the clock `increment` reads, the clock of its cleanup if one
runs, the request, and its handler's `throttle_type`. -/
structure GuardCall where
  now : ℕ
  cleanupClock : Option ℕ
  request : ThrottledRequest
  throttleType : Option String
  deriving DecidableEq

def rateLimitExceeded (tracker : String) (ttl : ℕ) : String :=
  let seconds := (ttl + 999) / 1000
  s!"Rate limit exceeded for wallet: {tracker}. Try again in {seconds} seconds."

/-- `WalletThrottlerGuard.canActivate`: count the hit under the tracker and the throttle
type, and refuse the call once the counter passes the limit. -/
def canActivate (config : Option ThrottlerConfig) (storage : ThrottlerStorage)
    (call : GuardCall) : Except String Bool × ThrottlerStorage :=
  let tracker := getTracker call.request
  let rate := rateLimitFor config call.throttleType
  let key := tracker ++ ":" ++ stringOr call.throttleType "default"
  let result := storage.increment key rate.ttl call.now call.cleanupClock
  if rate.limit < result.1.totalHits then (.error (rateLimitExceeded tracker rate.ttl), result.2)
  else (.ok true, result.2)

/-- The guard in front of a sequence of requests, all sharing one storage. -/
def guardRun (config : Option ThrottlerConfig) :
    ThrottlerStorage → List GuardCall → List (Except String Bool)
  | _, [] => []
  | storage, call :: calls =>
    let step := canActivate config storage call
    step.1 :: guardRun config step.2 calls

/-- The key a call's hits are counted under. -/
def throttleKey (call : GuardCall) : String :=
  getTracker call.request ++ ":" ++ stringOr call.throttleType "default"

/-- One hit on a fixed window opened at `start`: one more in the window live at `now`, or a
new window of `ttl` from `start`. -/
def hitFrom (ttl now start : ℕ) (entry : Option ThrottleEntry) : ThrottleEntry :=
  match liveEntry now entry with
  | some entry => ⟨entry.count + 1, entry.expiresAt⟩
  | none => ⟨1, start + ttl⟩

/-- One hit on a fixed window that a new hit opens at its own clock. -/
def hit (ttl now : ℕ) : Option ThrottleEntry → ThrottleEntry := hitFrom ttl now now

/-- The answer to a call whose hit is the `totalHits`-th of its window. -/
def verdict (config : Option ThrottlerConfig) (call : GuardCall) (totalHits : ℕ) :
    Except String Bool :=
  let rate := rateLimitFor config call.throttleType
  if rate.limit < totalHits then .error (rateLimitExceeded (getTracker call.request) rate.ttl)
  else .ok true

/-- The guard as designed: a fixed-window counter per key, which only that key's calls
touch and nothing else removes. -/
def windowGuard (config : Option ThrottlerConfig) :
    ThrottlerStorage → List GuardCall → List (Except String Bool)
  | _, [] => []
  | counters, call :: calls =>
    let entry := hit (rateLimitFor config call.throttleType).ttl call.now
      (counters (throttleKey call))
    verdict config call entry.count ::
      windowGuard config (Function.update counters (throttleKey call) (some entry)) calls

/-- The clock reads of a run are in order: a call's `now`, its cleanup's clock, then the
next call's `now`. -/
def Clocked : ℕ → List GuardCall → Prop
  | _, [] => True
  | clock, call :: calls => clock ≤ call.now ∧ call.now ≤ call.cleanupClock.getD call.now ∧
      Clocked (call.cleanupClock.getD call.now) calls

instance Clocked.decidable : (clock : ℕ) → (calls : List GuardCall) →
    Decidable (Clocked clock calls)
  | _, [] => isTrue trivial
  | _, call :: calls =>
    have := Clocked.decidable (call.cleanupClock.getD call.now) calls
    inferInstanceAs (Decidable (_ ∧ _ ∧ _))

/-- Two storages that hold the same live counters at clock `now`. -/
def Agree (now : ℕ) (storage counters : ThrottlerStorage) : Prop :=
  ∀ key, liveEntry now (storage key) = liveEntry now (counters key)

theorem liveEntry_liveEntry {now later : ℕ} (entry : Option ThrottleEntry) (ordered : now ≤ later) :
    liveEntry later (liveEntry now entry) = liveEntry later entry := by
  match entry with
  | none => rfl
  | some entry =>
    by_cases expired : entry.expiresAt < now
    · have expiredLater : entry.expiresAt < later := by omega
      simp [liveEntry, expired, expiredLater]
    · simp [liveEntry, expired]

theorem ThrottlerStorage.randomCleanup_apply (storage : ThrottlerStorage) (cleanupClock : Option ℕ)
    (key : String) : storage.randomCleanup cleanupClock key = none ∨
      storage.randomCleanup cleanupClock key = storage key := by
  cases cleanupClock with
  | none => exact .inr rfl
  | some now =>
    show liveEntry now (storage key) = none ∨ liveEntry now (storage key) = storage key
    rcases storage key with _ | entry
    · exact .inl rfl
    · by_cases expired : entry.expiresAt < now <;> simp [liveEntry, expired]

theorem ThrottlerStorage.liveEntry_randomCleanup (storage : ThrottlerStorage) (now : ℕ)
    (cleanupClock : Option ℕ) (key : String) :
    liveEntry (cleanupClock.getD now) (storage.randomCleanup cleanupClock key) =
      liveEntry (cleanupClock.getD now) (storage key) := by
  cases cleanupClock with
  | none => rfl
  | some clock => exact liveEntry_liveEntry _ le_rfl

theorem Agree.mono {now later : ℕ} {storage counters : ThrottlerStorage}
    (agree : Agree now storage counters) (ordered : now ≤ later) : Agree later storage counters :=
  fun key => by rw [← liveEntry_liveEntry _ ordered, agree key, liveEntry_liveEntry _ ordered]

theorem hit_congr (ttl : ℕ) {now : ℕ} {entry entry' : Option ThrottleEntry}
    (same : liveEntry now entry = liveEntry now entry') : hit ttl now entry = hit ttl now entry' := by
  simp only [hit, hitFrom, same]

/-- `increment` is one hit on the key's window, over a storage the cleanup may have swept. -/
theorem ThrottlerStorage.increment_eq (storage : ThrottlerStorage) (key : String) (ttl now : ℕ)
    (cleanupClock : Option ℕ) :
    storage.increment key ttl now cleanupClock =
      (⟨(hit ttl now (storage key)).count, (hit ttl now (storage key)).expiresAt - now, false, 0⟩,
        Function.update (storage.randomCleanup cleanupClock) key
          (some (hit ttl now (storage key)))) := by
  unfold increment hit hitFrom
  rcases stored : storage key with _ | entry
  · simp [liveEntry]
  · by_cases expired : entry.expiresAt < now <;> simp [liveEntry, expired]

theorem canActivate_eq (config : Option ThrottlerConfig) (storage : ThrottlerStorage)
    (call : GuardCall) :
    canActivate config storage call =
      (verdict config call
        (hit (rateLimitFor config call.throttleType).ttl call.now (storage (throttleKey call))).count,
        (storage.increment (throttleKey call) (rateLimitFor config call.throttleType).ttl call.now
          call.cleanupClock).2) := by
  simp only [canActivate, verdict, throttleKey, ThrottlerStorage.increment_eq]
  split <;> rfl

section Guard

variable (config : Option ThrottlerConfig)

/-- One call keeps the code's storage and the designed counters in agreement, and both
answer it alike. -/
theorem Agree.canActivate {storage counters : ThrottlerStorage} {call : GuardCall}
    (agree : Agree call.now storage counters) (ordered : call.now ≤ call.cleanupClock.getD call.now) :
    let entry := hit (rateLimitFor config call.throttleType).ttl call.now
      (counters (throttleKey call))
    (canActivate config storage call).1 = verdict config call entry.count ∧
      Agree (call.cleanupClock.getD call.now) (canActivate config storage call).2
        (Function.update counters (throttleKey call) (some entry)) := by
  have sameHit := hit_congr (rateLimitFor config call.throttleType).ttl (agree (throttleKey call))
  rw [canActivate_eq, ThrottlerStorage.increment_eq, sameHit]
  refine ⟨rfl, fun key => ?_⟩
  by_cases touched : key = throttleKey call
  · subst touched; simp
  · simp only [Function.update_noteq touched, ThrottlerStorage.liveEntry_randomCleanup]
    exact agree.mono ordered key

/-- The code's guard, with its shared storage and its random cleanups, answers every
in-order run as the designed per-key windows do. -/
theorem guardRun_eq_windowGuard (calls : List GuardCall) :
    ∀ (clock : ℕ) (storage counters : ThrottlerStorage), Clocked clock calls →
      Agree clock storage counters → guardRun config storage calls = windowGuard config counters calls := by
  induction calls with
  | nil => intros; rfl
  | cons call calls ih =>
    rintro clock storage counters ⟨started, ordered, clocked⟩ agree
    obtain ⟨answered, agreeAfter⟩ := (agree.mono started).canActivate config ordered
    simp only [guardRun, windowGuard, answered, ih _ _ _ clocked agreeAfter]

theorem windowGuard_update_of_ne (calls : List GuardCall) :
    ∀ (counters : ThrottlerStorage) (key : String) (entry : Option ThrottleEntry),
      (∀ call ∈ calls, throttleKey call ≠ key) →
        windowGuard config (Function.update counters key entry) calls = windowGuard config counters calls := by
  induction calls with
  | nil => intros; rfl
  | cons call calls ih =>
    intro counters key entry others
    have other : throttleKey call ≠ key := others call (List.mem_cons_self _ _)
    simp only [windowGuard, Function.update_noteq other]
    rw [Function.update_comm other.symm, ih _ _ _ fun call' member => others call' (List.mem_cons_of_mem _ member)]

/-- A key's answers depend on that key's calls alone: the others neither use up nor reset
its window. -/
theorem windowGuard_filter (key : String) (calls : List GuardCall) :
    ∀ counters : ThrottlerStorage,
      ((calls.zip (windowGuard config counters calls)).filter (throttleKey ·.1 = key)).map Prod.snd =
        windowGuard config counters (calls.filter (throttleKey · = key)) := by
  induction calls with
  | nil => intros; rfl
  | cons call calls ih =>
    intro counters
    by_cases mine : throttleKey call = key
    · simp [windowGuard, mine, ih]
    · have others : ∀ other ∈ calls.filter (throttleKey · = key),
          throttleKey other ≠ throttleKey call := fun other member same =>
        mine (same ▸ of_decide_eq_true (List.mem_filter.mp member).2)
      simp only [windowGuard, List.zip_cons_cons, List.filter_cons, mine, decide_False,
        Bool.false_eq_true, if_false]
      rw [ih, windowGuard_update_of_ne config _ _ _ _ others]

/-- Calls of one key that find its window live, with `count` hits so far, until its end:
they take the window's remaining hits, then are refused. -/
theorem windowGuard_counting (key tracker : String) (rate : RateLimitConfig)
    (calls : List GuardCall) (oneWallet : ∀ call ∈ calls, throttleKey call = key ∧
      getTracker call.request = tracker ∧ rateLimitFor config call.throttleType = rate)
    (expiresAt : ℕ) (within : ∀ call ∈ calls, call.now ≤ expiresAt) :
    ∀ (counters : ThrottlerStorage) (count : ℕ), counters key = some ⟨count, expiresAt⟩ →
      windowGuard config counters calls =
        List.replicate (min calls.length (rate.limit - count)) (.ok true) ++
          List.replicate (calls.length - (rate.limit - count))
            (.error (rateLimitExceeded tracker rate.ttl)) := by
  induction calls with
  | nil => intros; simp [windowGuard]
  | cons call calls ih =>
    intro counters count live
    obtain ⟨sameKey, sameTracker, sameRate⟩ := oneWallet call (List.mem_cons_self _ _)
    have alive : ¬expiresAt < call.now := Nat.not_lt.mpr (within call (List.mem_cons_self _ _))
    have counted : hit rate.ttl call.now (counters key) = ⟨count + 1, expiresAt⟩ := by
      simp [hit, hitFrom, live, liveEntry, alive]
    simp only [windowGuard, sameKey, sameRate, counted, verdict, sameTracker, List.length_cons]
    rw [ih (fun other member => oneWallet other (List.mem_cons_of_mem _ member))
      (fun other member => within other (List.mem_cons_of_mem _ member)) _ (count + 1)
      (Function.update_same _ _ _)]
    by_cases under : count < rate.limit
    · have kept : min (calls.length + 1) (rate.limit - count) =
          min calls.length (rate.limit - (count + 1)) + 1 := by omega
      have refused : calls.length + 1 - (rate.limit - count) =
          calls.length - (rate.limit - (count + 1)) := by omega
      simp [kept, refused, List.replicate_succ, show ¬rate.limit < count + 1 by omega]
    · have spent : rate.limit - count = 0 := by omega
      have spentAfter : rate.limit - (count + 1) = 0 := by omega
      simp [spent, spentAfter, List.replicate_succ, show rate.limit < count + 1 by omega]

/-- A key's calls within `ttl` of the first, which finds no live window: the first `limit`
pass and the others are refused. -/
theorem windowGuard_window (key tracker : String) (rate : RateLimitConfig)
    (counters : ThrottlerStorage) (first : GuardCall) (rest : List GuardCall)
    (oneWallet : ∀ call ∈ first :: rest, throttleKey call = key ∧
      getTracker call.request = tracker ∧ rateLimitFor config call.throttleType = rate)
    (fresh : liveEntry first.now (counters key) = none)
    (within : ∀ call ∈ rest, call.now ≤ first.now + rate.ttl) :
    windowGuard config counters (first :: rest) =
      List.replicate (min (rest.length + 1) rate.limit) (.ok true) ++
        List.replicate (rest.length + 1 - rate.limit)
          (.error (rateLimitExceeded tracker rate.ttl)) := by
  obtain ⟨sameKey, -, sameRate⟩ := oneWallet first (List.mem_cons_self _ _)
  -- The first call opens the window a counter at zero ending at `first.now + ttl` would.
  have opened : windowGuard config counters (first :: rest) = windowGuard config
      (Function.update counters key (some ⟨0, first.now + rate.ttl⟩)) (first :: rest) := by
    have fromFresh : hit rate.ttl first.now (counters key) = ⟨1, first.now + rate.ttl⟩ := by
      simp only [hit, hitFrom, fresh]
    have fromZero : hit rate.ttl first.now (some ⟨0, first.now + rate.ttl⟩) =
        ⟨1, first.now + rate.ttl⟩ := by
      simp [hit, hitFrom, liveEntry]
    subst sameKey
    simp only [windowGuard, sameRate, Function.update_same, fromFresh, fromZero,
      Function.update_idem]
  have allWithin : ∀ call ∈ first :: rest, call.now ≤ first.now + rate.ttl := by
    simpa using within
  rw [opened, windowGuard_counting config key tracker rate _ oneWallet _ allWithin _ 0
    (Function.update_same _ _ _)]
  simp

/-- Whatever other wallets send and whenever the storage is swept, the requests of one
wallet and type within `ttl` of the first of them, which finds no live counter: the first
`limit` pass and every later one is refused, whichever client sent it. -/
theorem guardRun_window (key tracker : String) (rate : RateLimitConfig)
    (storage : ThrottlerStorage) (calls : List GuardCall) (clock : ℕ) (first : GuardCall)
    (rest : List GuardCall) (clocked : Clocked clock calls)
    (mine : calls.filter (throttleKey · = key) = first :: rest)
    (oneWallet : ∀ call ∈ first :: rest, throttleKey call = key ∧
      getTracker call.request = tracker ∧ rateLimitFor config call.throttleType = rate)
    (fresh : liveEntry first.now (storage key) = none)
    (within : ∀ call ∈ rest, call.now ≤ first.now + rate.ttl) :
    ((calls.zip (guardRun config storage calls)).filter (throttleKey ·.1 = key)).map Prod.snd =
      List.replicate (min (rest.length + 1) rate.limit) (.ok true) ++
        List.replicate (rest.length + 1 - rate.limit)
          (.error (rateLimitExceeded tracker rate.ttl)) := by
  rw [guardRun_eq_windowGuard config calls clock storage storage clocked fun _ => rfl,
    windowGuard_filter, mine]
  exact windowGuard_window config key tracker rate storage first rest oneWallet fresh within

/-- A request naming the wallet in its `x-wallet-address` header, of type `disputes`. -/
def disputeCall (now : ℕ) (wallet ip : String) : GuardCall :=
  ⟨now, none, ⟨some wallet, none, none, none, none, ip⟩, some "disputes"⟩

/-- Two clients name wallet `0xA`, one in the body, and another wallet's request sweeps
the storage in between. -/
def sharedWalletCalls : List GuardCall :=
  [disputeCall 0 "0xA" "1.1.1.1",
    ⟨10, some 20, ⟨some "0xB", none, none, none, none, "3.3.3.3"⟩, some "disputes"⟩,
    disputeCall 30 "0xA" "1.1.1.1",
    ⟨40, none, ⟨none, some "0xA", none, none, none, "2.2.2.2"⟩, some "disputes"⟩,
    disputeCall 50 "0xA" "2.2.2.2"]

theorem shared_wallet_budget :
    ((sharedWalletCalls.zip (guardRun (some throttlerConfig) (fun _ => none) sharedWalletCalls)).filter
        (throttleKey ·.1 = "0xA:disputes")).map Prod.snd =
      List.replicate 3 (.ok true) ++ List.replicate 1 (.error (rateLimitExceeded "0xA" 60000)) :=
  guardRun_window (some throttlerConfig) "0xA:disputes" "0xA" ⟨60000, 3⟩ (fun _ => none)
    sharedWalletCalls 0 (disputeCall 0 "0xA" "1.1.1.1")
    [disputeCall 30 "0xA" "1.1.1.1",
      ⟨40, none, ⟨none, some "0xA", none, none, none, "2.2.2.2"⟩, some "disputes"⟩,
      disputeCall 50 "0xA" "2.2.2.2"]
    (by decide) (by decide) (by decide) (by decide) (by decide)

/-- Requests under pairwise different keys, none live in the storage when it comes, all
pass once every limit is at least one: a client that names a new wallet in each request
is never refused. -/
theorem guardRun_distinct_keys (storage : ThrottlerStorage) (calls : List GuardCall)
    (distinct : (calls.map throttleKey).Nodup)
    (unseen : ∀ call ∈ calls, liveEntry call.now (storage (throttleKey call)) = none)
    (positive : ∀ call ∈ calls, 0 < (rateLimitFor config call.throttleType).limit) :
    guardRun config storage calls = calls.map fun _ => .ok true := by
  induction calls generalizing storage with
  | nil => rfl
  | cons call calls ih =>
    rw [List.map_cons, List.nodup_cons] at distinct
    have passed : (canActivate config storage call).1 = .ok true := by
      simp [canActivate_eq, verdict, hit, hitFrom, unseen call (List.mem_cons_self _ _), Nat.lt_one_iff,
        (positive call (List.mem_cons_self _ _)).ne']
    simp only [guardRun, passed, List.map_cons]
    refine congrArg _ (ih _ distinct.2 (fun other member => ?_)
      fun other member => positive other (List.mem_cons_of_mem _ member))
    have apart : throttleKey other ≠ throttleKey call :=
      fun same => distinct.1 (same ▸ List.mem_map_of_mem _ member)
    simp only [canActivate_eq, ThrottlerStorage.increment_eq, Function.update_noteq apart]
    rcases storage.randomCleanup_apply call.cleanupClock (throttleKey other) with swept | kept
    · rw [swept]; rfl
    · rw [kept]; exact unseen other (List.mem_cons_of_mem _ member)

/-- One client naming a new wallet in each of four `disputes` requests, one more than the
limit of three. -/
def newWalletCalls : List GuardCall :=
  [disputeCall 0 "0x1" "1.1.1.1", disputeCall 1 "0x2" "1.1.1.1",
    disputeCall 2 "0x3" "1.1.1.1", disputeCall 3 "0x4" "1.1.1.1"]

theorem new_wallet_each_request_passes :
    guardRun (some throttlerConfig) (fun _ => none) newWalletCalls =
      newWalletCalls.map fun _ => .ok true :=
  guardRun_distinct_keys (some throttlerConfig) (fun _ => none) newWalletCalls
    (by decide) (by decide) (by decide)

end Guard

end TruthBounty
