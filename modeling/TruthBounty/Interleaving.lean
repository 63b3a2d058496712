import Mathlib.Data.List.Nodup

namespace TruthBounty

/-- Service answers are compared in decided traces. -/
instance exceptDecidableEq {ε α : Type} [DecidableEq ε] [DecidableEq α] :
    DecidableEq (Except ε α)
  | .error e, .error e' => decidable_of_iff (e = e') ⟨congrArg _, Except.error.inj⟩
  | .ok a, .ok a' => decidable_of_iff (a = a') ⟨congrArg _, Except.ok.inj⟩
  | .error _, .ok _ => isFalse nofun
  | .ok _, .error _ => isFalse nofun

/-- A request either waits at its handler's next database call or has answered. -/
inductive Continuation (Pc Result : Type) where
  | next (pc : Pc)
  | done (result : Result)

def Continuation.map {Pc α β : Type} (f : α → β) : Continuation Pc α → Continuation Pc β
  | .next pc => .next pc
  | .done result => .done (f result)

/-- A request in flight: what the client sent and where its handler stands. -/
structure Thread (Request Pc : Type) where
  request : Request
  pc : Pc
  deriving DecidableEq

/-- A service's handlers cut at their awaits. `step db choice thread` makes the thread's
next database call atomically and runs its code up to the following call; `choice` picks
among the rows an unordered lookup may return; `none` when the call cannot happen. Every
handler answers within `calls` database calls. -/
structure Service (Db Request Pc Result : Type) where
  start : Pc
  calls : ℕ
  step : Db → ℕ → Thread Request Pc → Option (Db × Continuation Pc Result)

/-- The database and the requests in flight, oldest first. -/
structure Interleaved (Db Request Pc : Type) where
  db : Db
  inFlight : List (Thread Request Pc)

inductive ServiceAction (Request : Type) where
  /-- A client sends a request. -/
  | call (request : Request)
  /-- The request at `index` makes its next database call; an answered request leaves. -/
  | advance (index choice : ℕ)

/-- An insert of a row whose key is not stored keeps a unique index. -/
theorem nodup_map_append {Row Key : Type} {key : Row → Key} {rows : List Row} {row : Row}
    (unique : (rows.map key).Nodup) (fresh : key row ∉ rows.map key) :
    ((rows ++ [row]).map key).Nodup := by
  rw [List.map_append, List.map_singleton, ← List.concat_eq_append]
  exact unique.concat fresh

namespace Service

variable {Db Request Pc Result : Type} (service : Service Db Request Pc Result)

def act (s : Interleaved Db Request Pc) :
    ServiceAction Request → Option (Interleaved Db Request Pc)
  | .call request => some ⟨s.db, s.inFlight ++ [⟨request, service.start⟩]⟩
  | .advance index choice =>
    (s.inFlight.get? index).bind fun thread =>
      (service.step s.db choice thread).map fun
        | (db, .next pc) => ⟨db, s.inFlight.set index ⟨thread.request, pc⟩⟩
        | (db, .done _) => ⟨db, s.inFlight.eraseIdx index⟩

/-- The states reachable from `initial` by any requests, interleaved at their database
calls. -/
inductive Reach (initial : Db) : Interleaved Db Request Pc → Prop
  | init : Reach initial ⟨initial, []⟩
  | act {s s' : Interleaved Db Request Pc} (action : ServiceAction Request) :
      Reach initial s → service.act s action = some s' → Reach initial s'

def run (s : Interleaved Db Request Pc) :
    List (ServiceAction Request) → Option (Interleaved Db Request Pc)
  | [] => some s
  | action :: actions => (service.act s action).bind (run · actions)

/-- A request run with no other request in flight. -/
def runAlone (choice : ℕ) : ℕ → Db → Thread Request Pc → Option (Db × Result)
  | 0, _, _ => none
  | fuel + 1, db, thread =>
    match service.step db choice thread with
    | none => none
    | some (db', .done result) => some (db', result)
    | some (db', .next pc) => runAlone choice fuel db' ⟨thread.request, pc⟩

/-- A request run with no other request in flight, its database calls made with the
`choices` in turn. -/
def runAloneWith : List ℕ → Db → Thread Request Pc → Option (Db × Result)
  | [], _, _ => none
  | choice :: choices, db, thread =>
    match service.step db choice thread with
    | none => none
    | some (db', .done result) => some (db', result)
    | some (db', .next pc) => runAloneWith choices db' ⟨thread.request, pc⟩

/-- A service call made while no other request is in flight. -/
def callAlone (db : Db) (request : Request) (choice : ℕ) : Option (Db × Result) :=
  service.runAlone choice service.calls db ⟨request, service.start⟩

/-- Calls made one at a time, each with its choice. -/
def callsAlone (db : Db) : List (Request × ℕ) → Option Db
  | [] => some db
  | call :: calls => (service.callAlone db call.1 call.2).bind (callsAlone ·.1 calls)

/-- The databases reachable from `initial` by calls made one at a time. -/
inductive SerialReach (initial : Db) : Db → Prop
  | init : SerialReach initial initial
  | call {db db' : Db} {request : Request} {choice : ℕ} {result : Result} :
      SerialReach initial db → service.callAlone db request choice = some (db', result) →
      SerialReach initial db'

variable {service} {initial : Db}

theorem act_step {s s' : Interleaved Db Request Pc} {action : ServiceAction Request}
    (acted : service.act s action = some s') :
    s'.db = s.db ∨ ∃ choice thread k, service.step s.db choice thread = some (s'.db, k) := by
  cases action with
  | call => cases acted; exact .inl rfl
  | advance index choice =>
    simp only [act, Option.bind_eq_some, Option.map_eq_some'] at acted
    obtain ⟨thread, -, ⟨db, k⟩, stepped, rfl⟩ := acted
    exact .inr ⟨choice, thread, k, by cases k <;> exact stepped⟩

/-- What an action does to the requests in flight: a call keeps the database and every
request; an advance makes one request's next call, keeps the others, and keeps that one at
its new `pc` unless it answered. -/
theorem act_inFlight {s s' : Interleaved Db Request Pc} {action : ServiceAction Request}
    (acted : service.act s action = some s') :
    (s'.db = s.db ∧ ∀ thread ∈ s.inFlight, thread ∈ s'.inFlight) ∨
      ∃ choice thread k, service.step s.db choice thread = some (s'.db, k) ∧
        (∀ other ∈ s.inFlight, other ≠ thread → other ∈ s'.inFlight) ∧
        ∀ pc, k = .next pc → ⟨thread.request, pc⟩ ∈ s'.inFlight := by
  cases action with
  | call => cases acted; exact .inl ⟨rfl, fun _ member => List.mem_append_left _ member⟩
  | advance index choice =>
    simp only [act, Option.bind_eq_some, Option.map_eq_some', List.get?_eq_getElem?] at acted
    obtain ⟨thread, found, ⟨db, k⟩, stepped, rfl⟩ := acted
    have elsewhere : ∀ other ∈ s.inFlight, other ≠ thread → ∃ i ≠ index, s.inFlight[i]? = some other := by
      intro other member apart
      obtain ⟨i, atI⟩ := List.mem_iff_getElem?.mp member
      exact ⟨i, fun same => apart (Option.some.inj (atI.symm.trans (same ▸ found))), atI⟩
    refine .inr ⟨choice, thread, k, by cases k <;> exact stepped, fun other member apart => ?_, ?_⟩
    · obtain ⟨i, moved, atI⟩ := elsewhere other member apart
      cases k with
      | next => exact List.mem_iff_getElem?.mpr ⟨i, by rw [List.getElem?_set_ne (Ne.symm moved), atI]⟩
      | done => exact List.mem_eraseIdx_iff_getElem?.mpr ⟨i, moved, atI⟩
    · rintro pc rfl
      exact List.mem_iff_getElem?.mpr
        ⟨index, List.getElem?_set_self (List.getElem?_eq_some_iff.mp found).1⟩

theorem Reach.run :
    ∀ {s s' : Interleaved Db Request Pc} {actions : List (ServiceAction Request)},
      service.Reach initial s → service.run s actions = some s' → service.Reach initial s'
  | _, _, [], reach, ran => by cases ran; exact reach
  | _, _, action :: actions, reach, ran => by
    simp only [Service.run, Option.bind_eq_some] at ran
    obtain ⟨next, acted, rest⟩ := ran
    exact Reach.run (reach.act action acted) rest

/-- A reflexive and transitive relation that every call respects holds between a state's
database and the database of every state a run reaches from it. -/
theorem run_rel (R : Db → Db → Prop) (refl : ∀ db, R db db)
    (trans : ∀ {a b c}, R a b → R b c → R a c)
    (steps : ∀ {db db' choice thread k}, service.step db choice thread = some (db', k) → R db db') :
    ∀ {s s' : Interleaved Db Request Pc} {actions : List (ServiceAction Request)},
      service.run s actions = some s' → R s.db s'.db
  | _, _, [], ran => by cases ran; exact refl _
  | s, _, action :: actions, ran => by
    simp only [Service.run, Option.bind_eq_some] at ran
    obtain ⟨next, acted, rest⟩ := ran
    have first : R s.db next.db := by
      rcases act_step acted with same | ⟨_, _, _, stepped⟩
      · rw [same]; exact refl _
      · exact steps stepped
    exact trans first (run_rel R refl trans steps rest)

/-- A schedule whose run ends in a state with the decidable property `p`, read off a run
evaluated once. -/
theorem exists_run_of_map {p : Interleaved Db Request Pc → Prop} [DecidablePred p]
    {s : Interleaved Db Request Pc} {actions : List (ServiceAction Request)}
    (ran : (service.run s actions).map (fun s => decide (p s)) = some true) :
    ∃ s', service.run s actions = some s' ∧ p s' := by
  cases final : service.run s actions with
  | none => simp [final] at ran
  | some s' =>
    simp only [final, Option.map_some', Option.some.injEq, decide_eq_true_eq] at ran
    exact ⟨s', rfl, ran⟩

/-- A schedule run from `initial` that ends with no request in flight in a state with
property `p` shows such a state reachable. -/
theorem Reach.of_run [DecidableEq Request] [DecidableEq Pc]
    {p : Interleaved Db Request Pc → Prop} [DecidablePred p] (actions : List (ServiceAction Request))
    (ran : (service.run ⟨initial, []⟩ actions).map (fun s => decide (s.inFlight = [] ∧ p s)) =
      some true) :
    ∃ s, service.Reach initial s ∧ s.inFlight = [] ∧ p s :=
  let ⟨s, final, holds⟩ := exists_run_of_map ran
  ⟨s, Reach.init.run final, holds⟩

/-- A database invariant that every call keeps holds in every reachable state. -/
theorem Reach.invariant (inv : Db → Prop) (holds : inv initial)
    (keeps : ∀ {db db' choice thread k}, inv db → service.step db choice thread = some (db', k) →
      inv db')
    {s : Interleaved Db Request Pc} (reach : service.Reach initial s) : inv s.db := by
  induction reach with
  | init => exact holds
  | act _ _ acted ih =>
    rcases act_step acted with same | ⟨_, _, _, stepped⟩
    · exact same ▸ ih
    · exact keeps ih stepped

/-- A request run alone is one of the interleavings. -/
theorem Reach.runAlone {choice : ℕ} {result : Result} :
    ∀ {fuel : ℕ} {db db' : Db} {thread : Thread Request Pc},
      service.Reach initial ⟨db, [thread]⟩ →
      service.runAlone choice fuel db thread = some (db', result) →
      service.Reach initial ⟨db', []⟩
  | 0, _, _, _, _, ran => by cases ran
  | fuel + 1, db, _, thread, reach, ran => by
    simp only [Service.runAlone] at ran
    split at ran
    · cases ran
    · cases ran
      exact reach.act (.advance 0 choice) (by simp [Service.act, *])
    · exact Reach.runAlone (reach.act (.advance 0 choice) (by simp [Service.act, *])) ran

theorem SerialReach.reach {db : Db} (serial : service.SerialReach initial db) :
    service.Reach initial ⟨db, []⟩ := by
  induction serial with
  | init => exact .init
  | call _ ran ih => exact (ih.act (.call _) rfl).runAlone ran

theorem SerialReach.of_callsAlone :
    ∀ {db db' : Db}, service.SerialReach initial db → (calls : List (Request × ℕ)) →
      service.callsAlone db calls = some db' → service.SerialReach initial db'
  | _, _, serial, [], ran => by cases ran; exact serial
  | _, _, serial, _ :: calls, ran => by
    simp only [callsAlone, Option.bind_eq_some] at ran
    obtain ⟨⟨db, _⟩, called, rest⟩ := ran
    exact SerialReach.of_callsAlone (serial.call called) calls rest

/-- An invariant of the database kept by a request running alone, with what its handler
has established so far (`cleared`), holds after every call made one at a time. -/
theorem runAlone_invariant (inv : Db → Prop) (cleared : Db → Thread Request Pc → Prop)
    (keeps : ∀ {db db' choice thread k}, inv db → cleared db thread →
      service.step db choice thread = some (db', k) →
      inv db' ∧ ∀ pc, k = .next pc → cleared db' ⟨thread.request, pc⟩)
    {choice : ℕ} {result : Result} :
    ∀ {fuel : ℕ} {db db' : Db} {thread : Thread Request Pc}, inv db → cleared db thread →
      service.runAlone choice fuel db thread = some (db', result) → inv db'
  | 0, _, _, _, _, _, ran => by cases ran
  | fuel + 1, db, _, thread, holds, established, ran => by
    simp only [Service.runAlone] at ran
    split at ran
    · cases ran
    · cases ran
      exact (keeps holds established ‹_›).1
    · obtain ⟨holds', cleared'⟩ := keeps holds established ‹_›
      exact runAlone_invariant inv cleared keeps holds' (cleared' _ rfl) ran

theorem SerialReach.invariant (inv : Db → Prop) (cleared : Db → Thread Request Pc → Prop)
    (holds : inv initial) (starts : ∀ db request, cleared db ⟨request, service.start⟩)
    (keeps : ∀ {db db' choice thread k}, inv db → cleared db thread →
      service.step db choice thread = some (db', k) →
      inv db' ∧ ∀ pc, k = .next pc → cleared db' ⟨thread.request, pc⟩)
    {db : Db} (serial : service.SerialReach initial db) : inv db := by
  induction serial with
  | init => exact holds
  | call _ ran ih => exact runAlone_invariant inv cleared keeps ih (starts _ _) ran

end Service

end TruthBounty
