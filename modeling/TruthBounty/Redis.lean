import TruthBounty.JsBuiltins

namespace TruthBounty

/-- A Redis key's value and its expiry in milliseconds, `none` while the key has no time
to live. -/
structure RedisEntry (α : Type) where
  value : α
  expireAt : Option ℕ
  deriving DecidableEq

/-- The keys of a Redis database. An entry stays stored past its expiry; commands see it
through `liveRedisEntry`. -/
abbrev RedisKeys (α : Type) := String → Option (RedisEntry α)

/-- A key as a command at clock `now` sees it: Redis treats a key whose expiry has passed
as missing. -/
def liveRedisEntry {α : Type} (now : ℕ) : Option (RedisEntry α) → Option (RedisEntry α)
  | some ⟨value, some expireAt⟩ => if expireAt < now then none else some ⟨value, some expireAt⟩
  | entry => entry

/-- The counter `INCR` leaves: one more on a live key, which keeps its expiry, else a new
counter at 1 with no expiry. -/
def incrEntry (now : ℕ) (entry : Option (RedisEntry ℕ)) : RedisEntry ℕ :=
  match liveRedisEntry now entry with
  | some entry => ⟨entry.value + 1, entry.expireAt⟩
  | none => ⟨1, none⟩

/-- `INCR key` at clock `now`, answering the new value. -/
def incr (keys : RedisKeys ℕ) (key : String) (now : ℕ) : ℕ × RedisKeys ℕ :=
  ((incrEntry now (keys key)).value, Function.update keys key (some (incrEntry now (keys key))))

/-- `PTTL key` at clock `now`: -2 for a missing key, -1 for a key with no expiry, else the
milliseconds left. -/
def pttl {α : Type} (keys : RedisKeys α) (key : String) (now : ℕ) : ℤ :=
  match liveRedisEntry now (keys key) with
  | none => -2
  | some ⟨_, none⟩ => -1
  | some ⟨_, some expireAt⟩ => (expireAt : ℤ) - now

/-- `PEXPIRE key ms` at clock `now`: nothing for a missing key; a live key expires at
`now + ms`, and is deleted at once when that is not after `now`. -/
def pexpire {α : Type} (keys : RedisKeys α) (key : String) (ms now : ℕ) : RedisKeys α :=
  match liveRedisEntry now (keys key) with
  | none => keys
  | some entry =>
    Function.update keys key (if ms = 0 then none else some ⟨entry.value, some (now + ms)⟩)

/-- `GET key` at clock `now`. -/
def redisGet (keys : RedisKeys String) (key : String) (now : ℕ) : Option String :=
  (liveRedisEntry now (keys key)).map (·.value)

/-- `SET key value`: the value with no expiry, whatever the key held before, its expiry
included. -/
def redisSet (keys : RedisKeys String) (key value : String) : RedisKeys String :=
  Function.update keys key (some ⟨value, none⟩)

/-- The seconds `SETEX` takes from the text ioredis sends for a number: a positive
integer, else the command fails. -/
def setexSeconds : JsNumber → Option ℕ
  | .finite seconds => if seconds.den = 1 ∧ 0 < seconds then some seconds.num.toNat else none
  | _ => none

/-- `SETEX key seconds value` at clock `now`: `none`, the command's error, unless `seconds`
is a positive integer; else the value, expiring `seconds` later. -/
def setex (keys : RedisKeys String) (key : String) (seconds : JsNumber) (value : String)
    (now : ℕ) : Option (RedisKeys String) :=
  (setexSeconds seconds).map fun seconds =>
    Function.update keys key (some ⟨value, some (now + seconds * 1000)⟩)

/-- An ioredis `retryStrategy` of the form both clients use: give up after the third retry,
else wait `times * step` milliseconds, capped at `cap`. -/
def cappedRetryDelay (step cap times : ℕ) : Option ℕ :=
  if times > 3 then none else some (min (times * step) cap)

/-- `DEL key`. -/
def redisDel {α : Type} (keys : RedisKeys α) (key : String) : RedisKeys α :=
  Function.update keys key none

section Commands

variable {α : Type} {now : ℕ} {key : String}

theorem liveRedisEntry_eq_some {entry : Option (RedisEntry α)} {live : RedisEntry α} :
    liveRedisEntry now entry = some live ↔
      entry = some live ∧ ∀ expireAt ∈ live.expireAt, now ≤ expireAt := by
  match entry with
  | none => simp [liveRedisEntry]
  | some ⟨value, none⟩ =>
    simp only [liveRedisEntry, Option.some.injEq]
    exact ⟨fun same => ⟨same, by subst same; simp⟩, And.left⟩
  | some ⟨value, some expireAt⟩ =>
    by_cases expired : expireAt < now
    · simp only [liveRedisEntry, expired, if_true, reduceCtorEq, false_iff, not_and,
        Option.some.injEq]
      rintro rfl
      simpa using expired
    · simp only [liveRedisEntry, expired, if_false, Option.some.injEq]
      exact ⟨fun same => ⟨same, by subst same; simpa using expired⟩, And.left⟩

theorem liveRedisEntry_mono {later : ℕ} {entry : Option (RedisEntry α)} {live : RedisEntry α}
    (ordered : now ≤ later) (alive : liveRedisEntry later entry = some live) :
    liveRedisEntry now entry = some live := by
  obtain ⟨stored, before⟩ := liveRedisEntry_eq_some.mp alive
  exact liveRedisEntry_eq_some.mpr ⟨stored, fun expireAt member => (ordered.trans (before _ member))⟩

/-- A key gone at a later clock is one whose expiry came in between. -/
theorem liveRedisEntry_expired {later : ℕ} {entry : Option (RedisEntry α)} {live : RedisEntry α}
    (alive : liveRedisEntry now entry = some live) (gone : liveRedisEntry later entry = none) :
    ∃ expireAt, live.expireAt = some expireAt ∧ expireAt < later := by
  obtain ⟨rfl, -⟩ := liveRedisEntry_eq_some.mp alive
  match live with
  | ⟨_, none⟩ => simp [liveRedisEntry] at gone
  | ⟨_, some expireAt⟩ =>
    by_cases expired : expireAt < later
    · exact ⟨expireAt, rfl, expired⟩
    · simp [liveRedisEntry, expired] at gone

@[simp] theorem liveRedisEntry_none_expiry (value : α) :
    liveRedisEntry now (some ⟨value, none⟩) = some ⟨value, none⟩ := rfl

theorem liveRedisEntry_incrEntry (now : ℕ) (entry : Option (RedisEntry ℕ)) :
    liveRedisEntry now (some (incrEntry now entry)) = some (incrEntry now entry) := by
  unfold incrEntry
  split
  · rename_i live alive
    obtain ⟨-, before⟩ := liveRedisEntry_eq_some.mp alive
    exact liveRedisEntry_eq_some.mpr ⟨rfl, before⟩
  · rfl

@[simp] theorem incr_self {keys : RedisKeys ℕ} : (incr keys key now).2 key = some (incrEntry now (keys key)) := by
  simp [incr]

theorem incr_of_ne {keys : RedisKeys ℕ} {other : String} (apart : other ≠ key) :
    (incr keys key now).2 other = keys other := by
  simp [incr, apart]

theorem pexpire_of_ne {keys : RedisKeys α} {other : String} {ms : ℕ} (apart : other ≠ key) :
    pexpire keys key ms now other = keys other := by
  unfold pexpire
  cases liveRedisEntry now (keys key) <;> simp [apart]

/-- After `PEXPIRE`, the key has an expiry or is gone. -/
theorem pexpire_self_ne {keys : RedisKeys α} {ms : ℕ} {value : α} :
    pexpire keys key ms now key ≠ some ⟨value, none⟩ := by
  unfold pexpire
  cases alive : liveRedisEntry now (keys key) with
  | none =>
    show keys key ≠ _
    intro stored
    simp [stored] at alive
  | some entry => split <;> simp

/-- A live key after `PEXPIRE` by a positive `ms`: its counter, expiring at `now + ms`. -/
theorem pexpire_self_of_live {keys : RedisKeys α} {ms : ℕ} {entry : RedisEntry α} (positive : 0 < ms)
    (alive : liveRedisEntry now (keys key) = some entry) :
    pexpire keys key ms now key = some ⟨entry.value, some (now + ms)⟩ := by
  simp [pexpire, alive, positive.ne']

theorem pexpire_self_of_gone {keys : RedisKeys α} {ms : ℕ}
    (gone : liveRedisEntry now (keys key) = none) :
    pexpire keys key ms now = keys := by
  simp [pexpire, gone]

theorem liveRedisEntry_liveRedisEntry {later : ℕ} (entry : Option (RedisEntry α))
    (ordered : now ≤ later) :
    liveRedisEntry later (liveRedisEntry now entry) = liveRedisEntry later entry := by
  match entry with
  | some ⟨value, some expireAt⟩ =>
    by_cases expired : expireAt < now
    · have expiredLater : expireAt < later := by omega
      simp [liveRedisEntry, expired, expiredLater]
    · simp [liveRedisEntry, expired]
  | none => rfl
  | some ⟨value, none⟩ => rfl

/-- `GET` of a stored string: its value until its expiry, `nil` after. -/
theorem redisGet_of_stored {keys : RedisKeys String} {value : String} {expireAt : Option ℕ}
    (stored : keys key = some ⟨value, expireAt⟩) :
    redisGet keys key now = if ∀ e ∈ expireAt, now ≤ e then some value else none := by
  cases expireAt with
  | none => simp [redisGet, stored]
  | some e =>
    by_cases expired : e < now
    · simp [redisGet, stored, liveRedisEntry, expired, Nat.not_le.mpr expired]
    · simp [redisGet, stored, liveRedisEntry, expired, Nat.le_of_not_lt expired]

end Commands

/-- A client gives up after three retries, and when three steps stay under the cap the cap
is never reached: it waits `step`, `2 * step`, then `3 * step`. -/
theorem cappedRetryDelay_eq {step cap : ℕ} (underCap : 3 * step < cap) (times : ℕ) :
    cappedRetryDelay step cap times = if times > 3 then none else some (times * step) := by
  unfold cappedRetryDelay
  split
  · rfl
  · rw [min_eq_left ((Nat.mul_le_mul_right step (by omega)).trans underCap.le)]

end TruthBounty
