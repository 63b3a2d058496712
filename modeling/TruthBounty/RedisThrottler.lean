import TruthBounty.Interleaving
import TruthBounty.Redis
import TruthBounty.WalletThrottler

namespace TruthBounty

inductive RedisIncrementPc where
  | start
  /-- The `MULTI` answered `totalHits` for a key with no expiry: `pexpire` is next. -/
  | pexpire (totalHits : ℕ)
  deriving DecidableEq

/-- `ThrottlerRedisStorage.increment` cut at its awaits, a command at clock `now`: the
`MULTI` of `INCR` and `PTTL`, then `PEXPIRE` when `PTTL` answered -1. -/
def ThrottlerRedisStorage.increment (keys : RedisKeys ℕ) (key : String) (ttl now : ℕ) :
    RedisIncrementPc → RedisKeys ℕ × Continuation RedisIncrementPc ThrottlerStorageRecord
  | .start =>
    let results := incr keys key now
    let timeToExpire := pttl results.2 key now
    if timeToExpire = -1 then (results.2, .next (.pexpire results.1))
    else (results.2, .done ⟨results.1, timeToExpire.toNat, false, 0⟩)
  | .pexpire totalHits => (pexpire keys key ttl now, .done ⟨totalHits, ttl, false, 0⟩)

/-- A reply of `INCR`: its key, the clock it ran at, and the value it answered. -/
structure IncrReply where
  key : String
  clock : ℕ
  value : ℕ
  deriving DecidableEq

/-- Redis under the throttler: its keys, its clock, and, as history, the replies `INCR`
gave so far, oldest first. -/
structure RedisDb where
  keys : RedisKeys ℕ
  clock : ℕ
  incrLog : List IncrReply

/-- The next command of an increment in flight, run at clock `choice` unless the clock is
already past it. `window key` is the ttl the guard passes with `key`: that of the throttle
type the key names. -/
def redisIncrementStep (window : String → ℕ) (db : RedisDb) (choice : ℕ) :
    Thread String RedisIncrementPc →
      Option (RedisDb × Continuation RedisIncrementPc ThrottlerStorageRecord)
  | ⟨key, .start⟩ =>
    let now := max db.clock choice
    let stepped := ThrottlerRedisStorage.increment db.keys key (window key) now .start
    some (⟨stepped.1, now, db.incrLog ++ [⟨key, now, (incr db.keys key now).1⟩]⟩, stepped.2)
  | ⟨key, .pexpire totalHits⟩ =>
    let now := max db.clock choice
    let stepped := ThrottlerRedisStorage.increment db.keys key (window key) now (.pexpire totalHits)
    some (⟨stepped.1, now, db.incrLog⟩, stepped.2)

/-- The increments of every app instance sharing one Redis, interleaved at their commands. -/
def redisStorageService (window : String → ℕ) :
    Service RedisDb String RedisIncrementPc ThrottlerStorageRecord :=
  ⟨.start, 2, redisIncrementStep window⟩

/-- Which storage `createThrottlerStorage` returns: Redis when `REDIS_HOST` is set and the
`PING` of the configured Redis answered, else the memory storage. -/
inductive ThrottlerStorageKind where
  | memory
  | redis
  deriving DecidableEq

def createThrottlerStorage (redisHost : Option String) (pingAnswered : Bool) :
    ThrottlerStorageKind :=
  match redisHost with
  | some host => if host = "" then .memory else if pingAnswered then .redis else .memory
  | none => .memory

/-- The `retryStrategy` of the client `createThrottlerStorage` makes. -/
def throttlerRetryStrategy : ℕ → Option ℕ := cappedRetryDelay 100 3000

theorem throttlerRetryStrategy_eq (times : ℕ) :
    throttlerRetryStrategy times = if times > 3 then none else some (times * 100) :=
  cappedRetryDelay_eq (by norm_num) times

section Commands

variable {now : ℕ} {keys : RedisKeys ℕ} {key : String}

@[simp] theorem increment_pexpire (ttl totalHits : ℕ) :
    ThrottlerRedisStorage.increment keys key ttl now (.pexpire totalHits) =
      (pexpire keys key ttl now, .done ⟨totalHits, ttl, false, 0⟩) := rfl

theorem increment_start_fst (ttl : ℕ) :
    (ThrottlerRedisStorage.increment keys key ttl now .start).1 = (incr keys key now).2 := by
  simp only [ThrottlerRedisStorage.increment]
  split <;> rfl

/-- The `MULTI` of an increment: `PTTL` answers -1 exactly when the counter `INCR` left has
no expiry, and the milliseconds left otherwise. -/
theorem increment_start (ttl : ℕ) :
    ThrottlerRedisStorage.increment keys key ttl now .start =
      ((incr keys key now).2, match (incrEntry now (keys key)).expireAt with
        | none => .next (.pexpire (incrEntry now (keys key)).value)
        | some expireAt => .done ⟨(incrEntry now (keys key)).value, expireAt - now, false, 0⟩) := by
  have alive := liveRedisEntry_incrEntry now (keys key)
  simp only [ThrottlerRedisStorage.increment, pttl, incr, Function.update_same, alive]
  generalize incrEntry now (keys key) = entry at alive ⊢
  obtain ⟨value, _ | expireAt⟩ := entry
  · simp
  · have before := (liveRedisEntry_eq_some.mp alive).2 expireAt rfl
    have notMinusOne : ((expireAt : ℤ) - now) ≠ -1 := by omega
    simp only [notMinusOne, if_false, Prod.mk.injEq, true_and, Continuation.done.injEq,
      ThrottlerStorageRecord.mk.injEq, and_true]
    omega

end Commands

/-- The `INCR` replies for `key` at clock `since` or later, oldest first. -/
def repliesSince (incrLog : List IncrReply) (key : String) (since : ℕ) : List ℕ :=
  (incrLog.filter fun reply => reply.key = key ∧ since ≤ reply.clock).map (·.value)

/-- A key's counter against the replies Redis gave for it, with a window of `window`: every
reply is in the past, and before the clock once the key is gone; while the key is live, the
replies since its creation at `created` are `1, 2, …, value`, and an expiry, once set, is at
least a window after `created` and after every reply. -/
structure Counted (window : ℕ) (db : RedisDb) (key : String) : Prop where
  past : ∀ reply ∈ db.incrLog, reply.key = key → reply.clock ≤ db.clock
  gone : liveRedisEntry db.clock (db.keys key) = none →
    ∀ reply ∈ db.incrLog, reply.key = key → reply.clock < db.clock
  live : ∀ entry, liveRedisEntry db.clock (db.keys key) = some entry →
    ∃ created ≤ db.clock, repliesSince db.incrLog key created = List.range' 1 entry.value ∧
      ∀ expireAt ∈ entry.expireAt, created + window ≤ expireAt ∧
        ∀ reply ∈ db.incrLog, reply.key = key → reply.clock ≤ expireAt

/-- Every key with no expiry has an increment of it in flight, past its `MULTI` and before
its `PEXPIRE`. -/
def ExpiryPending (s : Interleaved RedisDb String RedisIncrementPc) : Prop :=
  ∀ key value, s.db.keys key = some ⟨value, none⟩ →
    ∃ totalHits, (⟨key, .pexpire totalHits⟩ : Thread String RedisIncrementPc) ∈ s.inFlight

section History

variable {log : List IncrReply} {key : String} {since : ℕ}

theorem repliesSince_append_of_ne {reply : IncrReply} (apart : reply.key ≠ key) :
    repliesSince (log ++ [reply]) key since = repliesSince log key since := by
  simp [repliesSince, List.filter_append, apart]

theorem repliesSince_append_self {clock value : ℕ} (after : since ≤ clock) :
    repliesSince (log ++ [⟨key, clock, value⟩]) key since = repliesSince log key since ++ [value] := by
  simp [repliesSince, List.filter_append, after]

theorem repliesSince_eq_nil (before : ∀ reply ∈ log, reply.key = key → reply.clock < since) :
    repliesSince log key since = [] := by
  simp only [repliesSince, List.map_eq_nil_iff, List.filter_eq_nil_iff, decide_eq_true_eq,
    not_and, Nat.not_le]
  exact before

theorem mem_of_mem_append_of_key_ne {reply new : IncrReply} (member : reply ∈ log ++ [new])
    (mine : reply.key = key) (apart : new.key ≠ key) : reply ∈ log := by
  rcases List.mem_append.mp member with old | fresh
  · exact old
  · exact absurd (List.mem_singleton.mp fresh ▸ mine) apart

end History

section Counting

variable {window : ℕ} {db : RedisDb} {key : String}

theorem Counted.congr_keys {target : String} (counted : Counted window db target) {keys : RedisKeys ℕ}
    (same : keys target = db.keys target) : Counted window {db with keys := keys} target where
  past := counted.past
  gone gone := counted.gone (same ▸ gone)
  live entry alive := counted.live entry (same ▸ alive)

/-- The clock moving on keeps the count: a key that expired meanwhile was last answered
before its expiry. -/
theorem Counted.tick (counted : Counted window db key) {now : ℕ} (ordered : db.clock ≤ now) :
    Counted window {db with clock := now} key where
  past reply member mine := (counted.past reply member mine).trans ordered
  gone gone reply member mine := by
    cases alive : liveRedisEntry db.clock (db.keys key) with
    | none => exact (counted.gone alive reply member mine).trans_le ordered
    | some entry =>
      obtain ⟨expireAt, expiry, expired⟩ := liveRedisEntry_expired alive gone
      obtain ⟨_, _, _, bounds⟩ := counted.live entry alive
      exact ((bounds expireAt expiry).2 reply member mine).trans_lt expired
  live entry alive := by
    obtain ⟨created, before, replies, bounds⟩ := counted.live entry (liveRedisEntry_mono ordered alive)
    exact ⟨created, before.trans ordered, replies, bounds⟩

/-- An `INCR` at the clock keeps every key's count: the key it hits counts one more, or
starts a new window at 1. -/
theorem Counted.incr_step {target : String} (counted : Counted window db target) :
    Counted window ⟨(incr db.keys key db.clock).2, db.clock,
      db.incrLog ++ [⟨key, db.clock, (incr db.keys key db.clock).1⟩]⟩ target := by
  by_cases same : target = key
  · subst same
    have alive := liveRedisEntry_incrEntry db.clock (db.keys target)
    refine ⟨fun reply member mine => ?_, fun gone => by simp [alive] at gone, fun entry found => ?_⟩
    · rcases List.mem_append.mp member with old | fresh
      · exact counted.past reply old mine
      · rw [List.mem_singleton.mp fresh]
    simp only [incr_self, alive, Option.some.injEq] at found
    subst found
    cases before : liveRedisEntry db.clock (db.keys target) with
    | none =>
      have fresh : incrEntry db.clock (db.keys target) = ⟨1, none⟩ := by simp [incrEntry, before]
      refine ⟨db.clock, le_rfl, ?_, by simp [fresh]⟩
      rw [TruthBounty.incr, fresh, repliesSince_append_self le_rfl,
        repliesSince_eq_nil (counted.gone before)]
      rfl
    | some entry =>
      have counted' : incrEntry db.clock (db.keys target) = ⟨entry.value + 1, entry.expireAt⟩ := by
        simp [incrEntry, before]
      obtain ⟨created, early, replies, bounds⟩ := counted.live entry before
      rw [TruthBounty.incr, counted']
      refine ⟨created, early, ?_, fun expireAt expiry => ⟨(bounds expireAt expiry).1,
        fun reply member mine => ?_⟩⟩
      · rw [repliesSince_append_self early, replies, List.range'_concat]
        simp [Nat.add_comm]
      · rcases List.mem_append.mp member with old | fresh
        · exact (bounds expireAt expiry).2 reply old mine
        · rw [List.mem_singleton.mp fresh]
          exact (liveRedisEntry_eq_some.mp before).2 expireAt expiry
  · have apart : (⟨key, db.clock, (incr db.keys key db.clock).1⟩ : IncrReply).key ≠ target :=
      Ne.symm same
    have unchanged : (TruthBounty.incr db.keys key db.clock).2 target = db.keys target :=
      TruthBounty.incr_of_ne same
    refine ⟨fun reply member mine => counted.past reply
        (mem_of_mem_append_of_key_ne member mine apart) mine,
      fun gone reply member mine => counted.gone (unchanged ▸ gone) reply
        (mem_of_mem_append_of_key_ne member mine apart) mine,
      fun entry alive => ?_⟩
    obtain ⟨created, early, replies, bounds⟩ := counted.live entry (unchanged ▸ alive)
    refine ⟨created, early, by rw [repliesSince_append_of_ne apart, replies],
      fun expireAt expiry => ⟨(bounds expireAt expiry).1, fun reply member mine =>
        (bounds expireAt expiry).2 reply (mem_of_mem_append_of_key_ne member mine apart) mine⟩⟩

/-- A `PEXPIRE` at the clock by a key's own positive window keeps every key's count: the
window it sets starts after the key's creation and after its replies. -/
theorem Counted.pexpire_step {target : String} {ms : ℕ} (counted : Counted window db target)
    (ownWindow : key = target → ms = window) (positive : 0 < window) :
    Counted window {db with keys := pexpire db.keys key ms db.clock} target := by
  by_cases same : target = key
  · subst same
    cases alive : liveRedisEntry db.clock (db.keys target) with
    | none => exact counted.congr_keys (by rw [pexpire_self_of_gone alive])
    | some entry =>
      have expiring := pexpire_self_of_live positive alive
      rw [ownWindow rfl]
      refine ⟨counted.past, fun gone => by simp [expiring, liveRedisEntry] at gone, ?_⟩
      intro live found
      have sameEntry : live = ⟨entry.value, some (db.clock + window)⟩ := by
        simp [expiring, liveRedisEntry] at found
        exact found.symm
      subst sameEntry
      obtain ⟨created, early, replies, -⟩ := counted.live entry alive
      refine ⟨created, early, replies, fun expireAt expiry => ?_⟩
      cases expiry
      exact ⟨by omega, fun reply member mine => (counted.past reply member mine).trans le_self_add⟩
  · exact counted.congr_keys (pexpire_of_ne same)

end Counting

section Runs

variable {window : String → ℕ}

/-- One command of an increment: it runs at the later of the clock and its `choice`; a
`MULTI` makes the `INCR` and logs its reply, a `PEXPIRE` answers with the window. -/
theorem redisIncrementStep_cases {db db' : RedisDb} {choice : ℕ} {key : String}
    {pc : RedisIncrementPc} {k : Continuation RedisIncrementPc ThrottlerStorageRecord}
    (stepped : (redisStorageService window).step db choice ⟨key, pc⟩ = some (db', k)) :
    match pc with
    | .start => db' = ⟨(incr db.keys key (max db.clock choice)).2, max db.clock choice,
          db.incrLog ++ [⟨key, max db.clock choice, (incr db.keys key (max db.clock choice)).1⟩]⟩ ∧
        k = (ThrottlerRedisStorage.increment db.keys key (window key) (max db.clock choice) .start).2
    | .pexpire totalHits => db' = ⟨pexpire db.keys key (window key) (max db.clock choice),
          max db.clock choice, db.incrLog⟩ ∧ k = .done ⟨totalHits, window key, false, 0⟩ := by
  cases pc <;> obtain ⟨rfl, rfl⟩ := Prod.mk.inj (Option.some.inj stepped)
  · exact ⟨by rw [increment_start_fst], rfl⟩
  · exact ⟨rfl, rfl⟩

theorem counted_of_reach {key : String} (positive : 0 < window key) {initial : RedisDb}
    (start : Counted (window key) initial key) {s : Interleaved RedisDb String RedisIncrementPc}
    (reach : (redisStorageService window).Reach initial s) : Counted (window key) s.db key := by
  refine reach.invariant (fun db => Counted (window key) db key) start
    fun {db db' choice thread k} counted stepped => ?_
  obtain ⟨request, pc⟩ := thread
  have ticked := counted.tick (le_max_left db.clock choice)
  cases pc with
  | start =>
    obtain ⟨rfl, -⟩ := redisIncrementStep_cases stepped
    exact ticked.incr_step
  | pexpire totalHits =>
    obtain ⟨rfl, -⟩ := redisIncrementStep_cases stepped
    exact ticked.pexpire_step (fun same => same ▸ rfl) positive

/-- Whatever the interleaving of the increments of any number of app instances, a live
throttler key counts its window exactly: the `INCR` replies since its creation are
`1, 2, …, value`, so no two requests of one window get the same `totalHits`, and its
expiry, once set, is at least one window after its creation. -/
theorem incrReplies_of_reach (key : String) (positive : 0 < window key) (clock : ℕ)
    {s : Interleaved RedisDb String RedisIncrementPc}
    (reach : (redisStorageService window).Reach ⟨fun _ => none, clock, []⟩ s) {entry : RedisEntry ℕ}
    (alive : liveRedisEntry s.db.clock (s.db.keys key) = some entry) :
    ∃ created ≤ s.db.clock, repliesSince s.db.incrLog key created = List.range' 1 entry.value ∧
      ∀ expireAt ∈ entry.expireAt, created + window key ≤ expireAt := by
  have start : Counted (window key) ⟨fun _ => none, clock, []⟩ key :=
    ⟨nofun, fun _ => nofun, fun _ found => by cases found⟩
  obtain ⟨created, early, replies, bounds⟩ := (counted_of_reach positive start reach).live entry alive
  exact ⟨created, early, replies, fun expireAt expiry => (bounds expireAt expiry).1⟩

/-- Whatever the interleaving, a key with no expiry has one of its increments between the
`MULTI` and the `PEXPIRE`: once no increment is in flight, every throttler key expires, and
an increment that never sends its `PEXPIRE` leaves the next one of its key to set it. -/
theorem expiryPending_of_reach {initial : RedisDb}
    (expiring : ∀ key value, initial.keys key ≠ some ⟨value, none⟩)
    {s : Interleaved RedisDb String RedisIncrementPc}
    (reach : (redisStorageService window).Reach initial s) : ExpiryPending s := by
  induction reach with
  | init => exact fun key value stored => absurd stored (expiring key value)
  | act _ _ acted ih =>
    intro key value stored
    rcases Service.act_inFlight acted with ⟨same, kept⟩ | ⟨choice, ⟨request, pc⟩, k, stepped, kept, moved⟩
    · obtain ⟨totalHits, member⟩ := ih key value (same ▸ stored)
      exact ⟨totalHits, kept _ member⟩
    cases pc with
    | start =>
      obtain ⟨stepDb, rfl⟩ := redisIncrementStep_cases stepped
      simp only [stepDb] at stored
      by_cases same : key = request
      · subst same
        simp only [incr_self, Option.some.injEq] at stored
        refine ⟨value, moved _ ?_⟩
        rw [increment_start, stored]
      · obtain ⟨totalHits, member⟩ := ih key value (by rwa [incr_of_ne same] at stored)
        exact ⟨totalHits, kept _ member (by simp)⟩
    | pexpire totalHits =>
      obtain ⟨stepDb, -⟩ := redisIncrementStep_cases stepped
      simp only [stepDb] at stored
      by_cases same : key = request
      · subst same
        exact absurd stored pexpire_self_ne
      · obtain ⟨totalHits', member⟩ := ih key value (by rwa [pexpire_of_ne same] at stored)
        exact ⟨totalHits', kept _ member (by simp [same])⟩

end Runs

/-- A memory-storage counter as a Redis key: its count, expiring at its `expiresAt`. -/
def ThrottleEntry.toRedis (entry : ThrottleEntry) : RedisEntry ℕ := ⟨entry.count, some entry.expiresAt⟩

/-- Redis holds the counters of a memory storage that are live at `now`, each with its
expiry. -/
def RedisAgree (now : ℕ) (keys : RedisKeys ℕ) (counters : ThrottlerStorage) : Prop :=
  ∀ key, liveRedisEntry now (keys key) = (liveEntry now (counters key)).map ThrottleEntry.toRedis

/-- A guarded request on Redis: the call, whose `MULTI` runs at its `now`, and the clock of
the `PEXPIRE` that follows it when the counter is new. -/
structure RedisGuardCall where
  call : GuardCall
  pexpireClock : ℕ
  deriving DecidableEq

/-- `canActivate` over `ThrottlerRedisStorage`, requests made one at a time, each increment's
`MULTI` at its request's clock and its `PEXPIRE` at its own: the comparison of
`canActivate_eq`, on the record's `totalHits`. -/
def redisGuardRun (config : Option ThrottlerConfig) (window : String → ℕ) :
    RedisDb → List RedisGuardCall → Option (List (Except String Bool))
  | _, [] => some []
  | db, call :: calls =>
    match (redisStorageService window).runAloneWith [call.call.now, call.pexpireClock] db
        ⟨throttleKey call.call, .start⟩ with
    | some (db', record) =>
      (redisGuardRun config window db' calls).map (verdict config call.call record.totalHits :: ·)
    | none => none

/-- The guard over the storage the throttler module's factory picked, requests made one at a
time; the memory storage has no `PEXPIRE`. -/
def throttledRun (config : Option ThrottlerConfig) (window : String → ℕ)
    (kind : ThrottlerStorageKind) (db : RedisDb) (storage : ThrottlerStorage)
    (calls : List RedisGuardCall) : Option (List (Except String Bool)) :=
  match kind with
  | .memory => some (guardRun config storage (calls.map (·.call)))
  | .redis => redisGuardRun config window db calls

/-- Fixed windows per key, a call counted at its `now` and a new window opened at
`windowStart` of the call. -/
def windowGuardFrom (config : Option ThrottlerConfig) (windowStart : RedisGuardCall → ℕ) :
    ThrottlerStorage → List RedisGuardCall → List (Except String Bool)
  | _, [] => []
  | counters, call :: calls =>
    let entry := hitFrom (rateLimitFor config call.call.throttleType).ttl call.call.now
      (windowStart call) (counters (throttleKey call.call))
    verdict config call.call entry.count ::
      windowGuardFrom config windowStart
        (Function.update counters (throttleKey call.call) (some entry)) calls

/-- The clock a storage opens a new window at: the increment's on memory, the `PEXPIRE`'s on
Redis. -/
def ThrottlerStorageKind.windowStart : ThrottlerStorageKind → RedisGuardCall → ℕ
  | .memory, call => call.call.now
  | .redis, call => call.pexpireClock

/-- The clocks of a run on Redis are in order: a call's `MULTI`, its `PEXPIRE`, then the next
call's `MULTI`. -/
def RedisClocked : ℕ → List RedisGuardCall → Prop
  | _, [] => True
  | clock, call :: calls => clock ≤ call.call.now ∧ call.call.now ≤ call.pexpireClock ∧
      RedisClocked call.pexpireClock calls

instance RedisClocked.decidable : (clock : ℕ) → (calls : List RedisGuardCall) →
    Decidable (RedisClocked clock calls)
  | _, [] => isTrue trivial
  | _, call :: calls =>
    have := RedisClocked.decidable call.pexpireClock calls
    inferInstanceAs (Decidable (_ ∧ _ ∧ _))

section Serial

variable {window : String → ℕ} {now : ℕ}

theorem liveRedisEntry_toRedis (entry : Option ThrottleEntry) :
    liveRedisEntry now (entry.map ThrottleEntry.toRedis) = (liveEntry now entry).map ThrottleEntry.toRedis := by
  match entry with
  | none => rfl
  | some entry =>
    by_cases expired : entry.expiresAt < now <;>
      simp [liveRedisEntry, liveEntry, ThrottleEntry.toRedis, expired]

theorem RedisAgree.mono {later : ℕ} {keys : RedisKeys ℕ} {counters : ThrottlerStorage}
    (agree : RedisAgree now keys counters) (ordered : now ≤ later) : RedisAgree later keys counters :=
  fun key => by
    rw [← liveRedisEntry_liveRedisEntry _ ordered, agree key, liveRedisEntry_toRedis,
      liveEntry_liveEntry _ ordered]

/-- Redis agreeing before a call, and holding a counter at its key after it while the
other keys stay, agrees with the counters that hold it. -/
theorem RedisAgree.set {keys keys' : RedisKeys ℕ} {counters : ThrottlerStorage} {key : String}
    {entry : ThrottleEntry} (agree : RedisAgree now keys counters)
    (stored : keys' key = some entry.toRedis)
    (others : ∀ other, other ≠ key → keys' other = keys other) :
    RedisAgree now keys' (Function.update counters key (some entry)) := by
  intro other
  by_cases same : other = key
  · subst same
    rw [stored, Function.update_same, ← Option.map_some', liveRedisEntry_toRedis]
  · rw [others other same, Function.update_noteq same]
    exact agree other

/-- An increment run alone, its `MULTI` at `now` and its `PEXPIRE` at `later`, on Redis
holding the live counters of `counters`: it answers one hit on a window that a new counter
opens at `later`, and leaves Redis holding that counter. -/
theorem RedisAgree.runAloneWith (window : String → ℕ) {db : RedisDb} {counters : ThrottlerStorage}
    {key : String} {later : ℕ} (agree : RedisAgree now db.keys counters) (behind : db.clock ≤ now)
    (lagged : now ≤ later) (positive : 0 < window key) :
    ∃ db' record, (redisStorageService window).runAloneWith [now, later] db ⟨key, .start⟩ =
        some (db', record) ∧
      record.totalHits = (hitFrom (window key) now later (counters key)).count ∧ db'.clock ≤ later ∧
      RedisAgree later db'.keys
        (Function.update counters key (some (hitFrom (window key) now later (counters key)))) := by
  have atNow : max db.clock now = now := max_eq_right behind
  have stored := agree key
  cases live : liveEntry now (counters key) with
  | none =>
    simp only [live, Option.map_none'] at stored
    have fresh : incrEntry now (db.keys key) = ⟨1, none⟩ := by simp [incrEntry, stored]
    have counter : hitFrom (window key) now later (counters key) = ⟨1, later + window key⟩ := by
      simp [hitFrom, live]
    have created : (incr db.keys key now).2 key = some ⟨1, none⟩ := by rw [incr_self, fresh]
    refine ⟨⟨pexpire (incr db.keys key now).2 key (window key) later, later,
      db.incrLog ++ [⟨key, now, (incr db.keys key now).1⟩]⟩, ⟨1, window key, false, 0⟩, ?_,
      by rw [counter], le_rfl, (agree.mono lagged).set ?_ fun other apart => ?_⟩
    · simp [Service.runAloneWith, redisStorageService, redisIncrementStep, atNow, max_eq_right lagged,
        increment_start, increment_start_fst, fresh, increment_pexpire]
    · dsimp only
      rw [pexpire_self_of_live positive (by rw [created]; rfl), counter]
      rfl
    · exact (pexpire_of_ne apart).trans (incr_of_ne apart)
  | some entry =>
    rw [live] at stored
    have counted' : incrEntry now (db.keys key) = ⟨entry.count + 1, some entry.expiresAt⟩ := by
      simp [incrEntry, stored, ThrottleEntry.toRedis]
    have counter : hitFrom (window key) now later (counters key) = ⟨entry.count + 1, entry.expiresAt⟩ := by
      simp [hitFrom, live]
    refine ⟨⟨(incr db.keys key now).2, now, db.incrLog ++ [⟨key, now, (incr db.keys key now).1⟩]⟩,
      ⟨entry.count + 1, entry.expiresAt - now, false, 0⟩, ?_, by rw [counter], lagged,
      (agree.set ?_ fun other apart => incr_of_ne apart).mono lagged⟩
    · simp [Service.runAloneWith, redisStorageService, redisIncrementStep, atNow,
        increment_start, increment_start_fst, counted']
    · rw [incr_self, counted', counter]
      rfl

end Serial

section Guard

variable (config : Option ThrottlerConfig) (window : String → ℕ)

/-- The memory storage's windows open at the clock of the call that counts them. -/
theorem windowGuardFrom_now (calls : List RedisGuardCall) :
    ∀ counters : ThrottlerStorage, windowGuardFrom config (·.call.now) counters calls =
      windowGuard config counters (calls.map (·.call)) := by
  induction calls with
  | nil => exact fun _ => rfl
  | cons call calls ih => exact fun counters => congrArg _ (ih _)

theorem windowGuardFrom_congr {start start' : RedisGuardCall → ℕ} (calls : List RedisGuardCall)
    (same : ∀ call ∈ calls, start call = start' call) :
    ∀ counters : ThrottlerStorage,
      windowGuardFrom config start counters calls = windowGuardFrom config start' counters calls := by
  induction calls with
  | nil => exact fun _ => rfl
  | cons call calls ih =>
    intro counters
    simp only [windowGuardFrom, same call (List.mem_cons_self _ _),
      ih fun other member => same other (List.mem_cons_of_mem _ member)]

/-- Served one request at a time, the guard over `ThrottlerRedisStorage` answers as fixed
windows that a new counter opens at its `PEXPIRE`. -/
theorem redisGuardRun_eq_windowGuardFrom (calls : List RedisGuardCall) :
    ∀ (clock : ℕ) (db : RedisDb) (counters : ThrottlerStorage), RedisClocked clock calls →
      db.clock ≤ clock → RedisAgree clock db.keys counters →
      (∀ call ∈ calls, window (throttleKey call.call) = (rateLimitFor config call.call.throttleType).ttl ∧
        0 < window (throttleKey call.call)) →
      redisGuardRun config window db calls =
        some (windowGuardFrom config (·.pexpireClock) counters calls) := by
  induction calls with
  | nil => intros; rfl
  | cons call calls ih =>
    rintro clock db counters ⟨started, lagged, clocked⟩ behind agree windows
    obtain ⟨sameWindow, positive⟩ := windows call (List.mem_cons_self _ _)
    obtain ⟨db', record, called, hits, atPexpire, agreeAfter⟩ :=
      (agree.mono started).runAloneWith window (behind.trans started) lagged positive
    rw [sameWindow] at hits agreeAfter
    have rest := ih _ db' _ clocked atPexpire agreeAfter
      fun other member => windows other (List.mem_cons_of_mem _ member)
    simp only [redisGuardRun, windowGuardFrom, called, rest, hits, Option.map_some']

/-- Served one request at a time, whichever storage `createThrottlerStorage` picks, the guard
answers as fixed windows per key that open at the storage's window start: the clock of the
increment on memory, whose random cleanups change no answer, and the clock of the `PEXPIRE`
on Redis, for windows of at least a millisecond. When each `PEXPIRE` runs at its `MULTI`'s
clock, the two storages answer alike. -/
theorem throttledRun_createThrottlerStorage (redisHost : Option String) (pingAnswered : Bool)
    (calls : List RedisGuardCall) (clock : ℕ) (db : RedisDb) (storage : ThrottlerStorage)
    (clocked : Clocked clock (calls.map (·.call))) (redisClocked : RedisClocked clock calls)
    (behind : db.clock ≤ clock) (agree : RedisAgree clock db.keys storage)
    (windows : ∀ call ∈ calls,
      window (throttleKey call.call) = (rateLimitFor config call.call.throttleType).ttl ∧
        0 < window (throttleKey call.call)) :
    throttledRun config window (createThrottlerStorage redisHost pingAnswered) db storage calls =
        some (windowGuardFrom config (createThrottlerStorage redisHost pingAnswered).windowStart
          storage calls) ∧
      ((∀ call ∈ calls, call.pexpireClock = call.call.now) →
        throttledRun config window (createThrottlerStorage redisHost pingAnswered) db storage calls =
          some (guardRun config storage (calls.map (·.call)))) := by
  have memory : guardRun config storage (calls.map (·.call)) =
      windowGuardFrom config ThrottlerStorageKind.memory.windowStart storage calls := by
    rw [guardRun_eq_windowGuard config _ clock storage storage clocked fun _ => rfl]
    exact (windowGuardFrom_now config calls storage).symm
  cases createThrottlerStorage redisHost pingAnswered with
  | memory => exact ⟨congrArg some memory, fun _ => rfl⟩
  | redis =>
    have onRedis := redisGuardRun_eq_windowGuardFrom config window calls clock db storage
      redisClocked behind agree windows
    refine ⟨onRedis, fun prompt => ?_⟩
    rw [throttledRun, onRedis, memory, windowGuardFrom_congr config calls prompt]
    rfl

/-- Four `disputes` requests of wallet `0xA` (limit 3, a minute's window) at 0, 1, 2 and
60001, the first counter's `PEXPIRE` a millisecond after its `MULTI`. -/
def laggedDisputeCalls : List RedisGuardCall :=
  [⟨disputeCall 0 "0xA" "1.1.1.1", 1⟩, ⟨disputeCall 1 "0xA" "1.1.1.1", 1⟩,
    ⟨disputeCall 2 "0xA" "1.1.1.1", 2⟩, ⟨disputeCall 60001 "0xA" "1.1.1.1", 60001⟩]

/-- A `PEXPIRE` a millisecond late moves Redis's window on by that millisecond: the fourth
request, just past the memory storage's window, passes there and is refused on Redis. -/
theorem lagged_pexpire_diverges :
    throttledRun (some throttlerConfig) (fun _ => 60000) (createThrottlerStorage none false)
        ⟨fun _ => none, 0, []⟩ (fun _ => none) laggedDisputeCalls =
      some [.ok true, .ok true, .ok true, .ok true] ∧
    throttledRun (some throttlerConfig) (fun _ => 60000) (createThrottlerStorage (some "redis") true)
        ⟨fun _ => none, 0, []⟩ (fun _ => none) laggedDisputeCalls =
      some [.ok true, .ok true, .ok true, .error (rateLimitExceeded "0xA" 60000)] :=
  ⟨(throttledRun_createThrottlerStorage (some throttlerConfig) (fun _ => 60000) none false
      laggedDisputeCalls 0 ⟨fun _ => none, 0, []⟩ (fun _ => none) (by decide) (by decide) le_rfl
      (fun _ => rfl) (by decide)).1.trans (congrArg some (by decide)),
    (throttledRun_createThrottlerStorage (some throttlerConfig) (fun _ => 60000) (some "redis") true
      laggedDisputeCalls 0 ⟨fun _ => none, 0, []⟩ (fun _ => none) (by decide) (by decide) le_rfl
      (fun _ => rfl) (by decide)).1.trans (congrArg some (by decide))⟩

end Guard

/-- Two increments of one key race: the second `MULTI` runs before the first `PEXPIRE`,
which comes last and pushes the expiry on. -/
def racingIncrementsSchedule : List (ServiceAction String) :=
  [.call "0xA:votes", .call "0xA:votes", .advance 0 5, .advance 1 7, .advance 1 9, .advance 0 12]

theorem racing_increments_count_once :
    ∃ s, (redisStorageService fun _ => 1000).Reach ⟨fun _ => none, 0, []⟩ s ∧ s.inFlight = [] ∧
      liveRedisEntry s.db.clock (s.db.keys "0xA:votes") = some ⟨2, some 1012⟩ ∧
      ∃ created ≤ s.db.clock, repliesSince s.db.incrLog "0xA:votes" created = List.range' 1 2 ∧
        created + 1000 ≤ 1012 := by
  obtain ⟨s, reach, idle, alive⟩ : ∃ s, (redisStorageService fun _ => 1000).Reach
      ⟨fun _ => none, 0, []⟩ s ∧ s.inFlight = [] ∧
      liveRedisEntry s.db.clock (s.db.keys "0xA:votes") = some ⟨2, some 1012⟩ :=
    Service.Reach.of_run racingIncrementsSchedule (by decide)
  obtain ⟨created, early, replies, bounds⟩ := incrReplies_of_reach "0xA:votes" (by decide) 0 reach alive
  exact ⟨s, reach, idle, alive, created, early, replies, bounds 1012 rfl⟩

/-- An increment stops after its `MULTI`, before its `PEXPIRE`. -/
def stalledIncrementSchedule : List (ServiceAction String) :=
  [.call "0xA:votes", .advance 0 5]

theorem stalled_increment_keeps_key_pending :
    ∃ s, (redisStorageService fun _ => 1000).Reach ⟨fun _ => none, 0, []⟩ s ∧
      s.db.keys "0xA:votes" = some ⟨1, none⟩ ∧
      ∃ totalHits, (⟨"0xA:votes", .pexpire totalHits⟩ : Thread String RedisIncrementPc) ∈ s.inFlight := by
  obtain ⟨s, ran, stalled⟩ : ∃ s, (redisStorageService fun _ => 1000).run
      ⟨⟨fun _ => none, 0, []⟩, []⟩ stalledIncrementSchedule = some s ∧
        s.db.keys "0xA:votes" = some ⟨1, none⟩ :=
    Service.exists_run_of_map (by decide)
  have reach := Service.Reach.init.run ran
  exact ⟨s, reach, stalled, expiryPending_of_reach (fun _ _ stored => Option.noConfusion stored) reach _ _ stalled⟩

end TruthBounty
