import TruthBounty.Redis

namespace TruthBounty

/-- `RedisService` and the Redis server it talks to: whether `onModuleInit` created a client,
whose event handlers stay registered; the `client` field, `null` once the first `PING`
failed; the `isConnected` flag the client's events set; and the server's keys. -/
structure RedisServiceState where
  created : Bool
  client : Bool
  isConnected : Bool
  keys : RedisKeys String

/-- What happens to `RedisService`: its lifecycle hooks, the client's events, and its calls.
`answered` is whether the client's command got its reply; a command without one was not
run by the server. `reply` is what `PING` answered, `none` when it threw. -/
inductive RedisServiceEvent where
  | onModuleInit (redisEnabled : Option String) (pingAnswered : Bool)
  | connect
  | error
  | close
  | onModuleDestroy
  | get (key : String) (answered : Bool)
  | set (key value : String) (ttlSeconds : Option JsNumber) (answered : Bool)
  | del (key : String) (answered : Bool)
  | isHealthy (reply : Option String)

inductive RedisServiceAnswer where
  | done
  | value (value : Option String)
  | flag (ok : Bool)
  deriving DecidableEq

/-- The `!this.client || !this.isConnected` test every call makes first. -/
def RedisServiceState.available (state : RedisServiceState) : Bool :=
  state.client && state.isConnected

/-- `getStatus()`. -/
def RedisServiceState.getStatus (state : RedisServiceState) : Bool × Bool :=
  (state.isConnected, state.client)

/-- The `retryStrategy` of `RedisService`'s client. -/
def RedisService.retryStrategy : ℕ → Option ℕ := cappedRetryDelay 50 2000

theorem RedisService.retryStrategy_eq (times : ℕ) :
    RedisService.retryStrategy times = if times > 3 then none else some (times * 50) :=
  cappedRetryDelay_eq (by norm_num) times

/-- `set(key, value, ttlSeconds)` once the client is available and answers: `SETEX` for a
truthy `ttlSeconds`, `SET` otherwise. -/
def RedisService.setCommand (keys : RedisKeys String) (key value : String)
    (ttlSeconds : Option JsNumber) (now : ℕ) : Option (RedisKeys String) :=
  if numberTruthy ttlSeconds then setex keys key (ttlSeconds.getD .nan) value now
  else some (redisSet keys key value)

/-- The expiry `set` gives its key at clock `now`: `SETEX`'s seconds later for a truthy
`ttlSeconds`, none for `SET`. -/
def RedisService.setExpiry (ttlSeconds : Option JsNumber) (now : ℕ) : Option ℕ :=
  if numberTruthy ttlSeconds then (setexSeconds (ttlSeconds.getD .nan)).map (now + · * 1000)
  else none

/-- A `set` that the server ran stores the value under the key, with the expiry
`setExpiry` gives, and touches no other key. -/
theorem RedisService.setCommand_eq {keys keys' : RedisKeys String} {key value : String}
    {ttlSeconds : Option JsNumber} {now : ℕ}
    (ran : RedisService.setCommand keys key value ttlSeconds now = some keys') :
    keys' = Function.update keys key (some ⟨value, RedisService.setExpiry ttlSeconds now⟩) := by
  unfold RedisService.setCommand setex at ran
  split at ran
  · obtain ⟨seconds, parsed, rfl⟩ := Option.map_eq_some'.mp ran
    simp [RedisService.setExpiry, *]
  · cases ran
    simp [RedisService.setExpiry, redisSet, *]

/-- One event at clock `now`. -/
def redisServiceStep (state : RedisServiceState) (now : ℕ) :
    RedisServiceEvent → RedisServiceState × RedisServiceAnswer
  | .onModuleInit redisEnabled pingAnswered =>
    if redisEnabled.getD "true" = "true" then ({ state with created := true, client := pingAnswered }, .done)
    else (state, .done)
  | .connect => ({ state with isConnected := state.created || state.isConnected }, .done)
  | .error | .close => ({ state with isConnected := !state.created && state.isConnected }, .done)
  | .onModuleDestroy => (state, .done)
  | .get key answered =>
    (state, .value (if state.available && answered then redisGet state.keys key now else none))
  | .set key value ttlSeconds answered =>
    if state.available && answered then
      match RedisService.setCommand state.keys key value ttlSeconds now with
      | some keys => ({ state with keys := keys }, .flag true)
      | none => (state, .flag false)
    else (state, .flag false)
  | .del key answered =>
    if state.available && answered then ({ state with keys := redisDel state.keys key }, .flag true)
    else (state, .flag false)
  | .isHealthy reply => (state, .flag (state.available && reply == some "PONG"))

/-- Events one after another, each at its clock, with the answers. -/
def redisServiceRun : RedisServiceState → List (ℕ × RedisServiceEvent) →
    RedisServiceState × List RedisServiceAnswer
  | state, [] => (state, [])
  | state, (now, event) :: events =>
    let stepped := redisServiceStep state now event
    let rest := redisServiceRun stepped.1 events
    (rest.1, stepped.2 :: rest.2)

/-- Whether an event is a `set` or a `del` of `key`, the calls that write it. -/
def RedisServiceEvent.writes (key : String) : RedisServiceEvent → Bool
  | .set written .. | .del written _ => written == key
  | _ => false

/-- An event that does not write `key` leaves it as it was. -/
theorem redisServiceStep_keys_of_not_writes {state : RedisServiceState} (now : ℕ)
    {event : RedisServiceEvent} {key : String} (untouched : event.writes key = false) :
    (redisServiceStep state now event).1.keys key = state.keys key := by
  cases event with
  | set written value ttlSeconds answered =>
    have apart : key ≠ written := fun same => by simp [RedisServiceEvent.writes, same] at untouched
    simp only [redisServiceStep]
    split
    · split
      · rename_i keys' ran
        rw [RedisService.setCommand_eq ran]
        exact Function.update_noteq apart _ _
      · rfl
    · rfl
  | del written answered =>
    have apart : key ≠ written := fun same => by simp [RedisServiceEvent.writes, same] at untouched
    simp only [redisServiceStep]
    split
    · exact Function.update_noteq apart _ _
    · rfl
  | onModuleInit => simp only [redisServiceStep]; split <;> rfl
  | _ => rfl

theorem redisServiceRun_keys_of_not_writes {key : String} (events : List (ℕ × RedisServiceEvent))
    (untouched : ∀ event ∈ events, event.2.writes key = false) :
    ∀ state : RedisServiceState, (redisServiceRun state events).1.keys key = state.keys key := by
  induction events with
  | nil => exact fun _ => rfl
  | cons event events ih =>
    intro state
    exact (ih (fun other member => untouched other (List.mem_cons_of_mem _ member)) _).trans
      (redisServiceStep_keys_of_not_writes event.1 (untouched event (List.mem_cons_self _ _)))

/-- Read-your-writes: after a `set` the server ran, whatever events follow, as long as none
writes the key, a `get` of it answers the value while the client is available and the
expiry `set` gave has not passed, and `null` otherwise. A `ttlSeconds` of `0` or `NaN`,
being falsy, takes the `SET` branch, so the value never expires. -/
theorem redisService_get_after_set {state written final : RedisServiceState} {now later : ℕ}
    {key value : String} {ttlSeconds : Option JsNumber} {answered reached : Bool}
    (set : redisServiceStep state now (.set key value ttlSeconds answered) = (written, .flag true))
    (events : List (ℕ × RedisServiceEvent)) (untouched : ∀ event ∈ events, event.2.writes key = false)
    (ran : (redisServiceRun written events).1 = final) :
    (redisServiceStep final later (.get key reached)).2 =
      .value (if final.available ∧ reached ∧ ∀ expireAt ∈ RedisService.setExpiry ttlSeconds now,
        later ≤ expireAt then some value else none) := by
  have stored : written.keys key = some ⟨value, RedisService.setExpiry ttlSeconds now⟩ := by
    simp only [redisServiceStep] at set
    split at set
    · split at set
      · rename_i keys' command
        cases set
        simp [RedisService.setCommand_eq command]
      · cases set
    · cases set
  subst ran
  have kept := (redisServiceRun_keys_of_not_writes events untouched written).trans stored
  simp only [redisServiceStep, redisGet_of_stored kept, Bool.and_eq_true, ite_and]

/-- A connected service with no keys. -/
def connectedRedisService : RedisServiceState := ⟨true, true, true, fun _ => none⟩

/-- A value set with a `ttlSeconds` of `0` is still read a day later, after another key is
written and the connection drops and comes back. -/
theorem zero_ttl_value_never_expires :
    (redisServiceStep connectedRedisService 0 (.set "k" "v" (some (.finite 0)) true)).2 = .flag true ∧
      (redisServiceStep (redisServiceRun
          (redisServiceStep connectedRedisService 0 (.set "k" "v" (some (.finite 0)) true)).1
          [(5, .set "other" "w" (some (.finite 1)) true), (6, .close), (7, .connect)]).1
          86400000 (.get "k" true)).2 = .value (some "v") := by
  have set : redisServiceStep connectedRedisService 0 (.set "k" "v" (some (.finite 0)) true) =
      ((redisServiceStep connectedRedisService 0 (.set "k" "v" (some (.finite 0)) true)).1,
        .flag true) := Prod.ext rfl rfl
  refine ⟨rfl, ?_⟩
  rw [redisService_get_after_set set _ (by decide) rfl]
  decide

end TruthBounty
