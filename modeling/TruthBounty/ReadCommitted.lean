import TruthBounty.ReputationLedger

namespace TruthBounty

/-- Where a running transaction stands in its current user update: about to read the
user, about to save it after reading `reputation`, or about to save the change row. -/
inductive UpdatePhase where
  | read
  | save (reputation : ℤ)
  | record (change : ReputationChange)

/-- A reputation transaction in flight: the updates it has still to make, its uncommitted
user writes, whose rows it keeps locked until it commits, and its uncommitted rows. -/
structure RunningTxn where
  pending : List ReputationUpdate
  phase : UpdatePhase
  writes : String → Option ℤ
  rows : List ReputationChange

def RunningTxn.start (txn : ReputationTxn) : RunningTxn := ⟨txn.updates, .read, fun _ => none, []⟩

/-- A table with a transaction's writes laid over it. -/
def overlay (writes users : String → Option ℤ) (user : String) : Option ℤ :=
  match writes user with
  | some reputation => some reputation
  | none => users user

/-- Under READ COMMITTED a statement sees the transaction's own writes and otherwise the
committed table. -/
def RunningTxn.view (txn : RunningTxn) (db : ReputationDb) : String → Option ℤ :=
  overlay txn.writes db.users

def RunningTxn.commit (txn : RunningTxn) (db : ReputationDb) : ReputationDb :=
  { users := txn.view db, changes := db.changes ++ txn.rows }

/-- The committed tables and the transactions in flight. -/
structure RcState where
  db : ReputationDb
  running : List RunningTxn

inductive RcAction where
  | begin (txn : ReputationTxn)
  | advance (index : ℕ)

/-- Whether a transaction other than the `index`-th holds the row lock of `user`. -/
def RcState.lockedByOther (s : RcState) (index : ℕ) (user : String) : Bool :=
  (s.running.eraseIdx index).any fun txn => (txn.writes user).isSome

/-- One statement of one transaction: a read of the user, the save of the user (which
waits while another transaction holds its row lock), the save of the change row, or the
commit. `none` when the statement cannot run now. -/
def RcState.step (s : RcState) : RcAction → Option RcState
  | .begin txn => some ⟨s.db, s.running ++ [RunningTxn.start txn]⟩
  | .advance index =>
    match s.running.get? index with
    | none => none
    | some txn =>
      match txn.pending, txn.phase with
      | [], _ => some ⟨txn.commit s.db, s.running.eraseIdx index⟩
      | update :: rest, .read =>
        match txn.view s.db update.userId with
        | none => some ⟨s.db, s.running.set index { txn with pending := rest }⟩
        | some reputation =>
          some ⟨s.db, s.running.set index { txn with phase := .save reputation }⟩
      | update :: _, .save reputation =>
        if s.lockedByOther index update.userId then none
        else some ⟨s.db, s.running.set index
          { txn with phase := .record (update.change reputation),
                     writes := Function.update txn.writes update.userId
                       (some (update.change reputation).newScore) }⟩
      | _ :: rest, .record change =>
        some ⟨s.db, s.running.set index
          { txn with pending := rest, phase := .read, rows := txn.rows ++ [change] }⟩

/-- The states reachable from the committed tables `db` by any interleaving. -/
inductive RcReach (db : ReputationDb) : RcState → Prop
  | init : RcReach db ⟨db, []⟩
  | step {s s' : RcState} (action : RcAction) : RcReach db s → s.step action = some s' →
      RcReach db s'

def RcState.run (s : RcState) : List RcAction → Option RcState
  | [] => some s
  | action :: actions => (s.step action).bind (·.run actions)

theorem RcReach.run {db : ReputationDb} :
    ∀ {s s' : RcState} {actions : List RcAction}, RcReach db s → s.run actions = some s' →
      RcReach db s'
  | _, _, [], reach, ran => by cases ran; exact reach
  | s, _, action :: actions, reach, ran => by
    simp only [RcState.run, Option.bind_eq_some] at ran
    obtain ⟨next, stepped, rest⟩ := ran
    exact RcReach.run (reach.step action stepped) rest

theorem overlay_none (users : String → Option ℤ) : overlay (fun _ => none) users = users := rfl

theorem overlay_update (writes users : String → Option ℤ) (user : String) (reputation : ℤ) :
    overlay (Function.update writes user (some reputation)) users =
      Function.update (overlay writes users) user (some reputation) := by
  funext other
  by_cases same : other = user
  · subst same; simp [overlay]
  · simp [overlay, Function.update_noteq same]

/-- The change row a transaction has saved its user for and not yet recorded. -/
def RunningTxn.staged (txn : RunningTxn) : List ReputationChange :=
  match txn.phase with
  | .record change => [change]
  | _ => []

/-- A statement of a transaction that does not commit, as `RcState.step` runs it: it changes
that transaction alone. `others` are the other transactions in flight. -/
inductive TxnMove (db : ReputationDb) (others : List RunningTxn) : RunningTxn → RunningTxn → Prop
  | skip {txn : RunningTxn} {update : ReputationUpdate} {rest : List ReputationUpdate} :
      txn.pending = update :: rest → txn.phase = .read → txn.view db update.userId = none →
      TxnMove db others txn { txn with pending := rest }
  | read {txn : RunningTxn} {update : ReputationUpdate} {rest : List ReputationUpdate}
      {reputation : ℤ} :
      txn.pending = update :: rest → txn.phase = .read →
      txn.view db update.userId = some reputation →
      TxnMove db others txn { txn with phase := .save reputation }
  | save {txn : RunningTxn} {update : ReputationUpdate} {rest : List ReputationUpdate}
      {reputation : ℤ} :
      txn.pending = update :: rest → txn.phase = .save reputation →
      (∀ other ∈ others, other.writes update.userId = none) →
      TxnMove db others txn
        { txn with phase := .record (update.change reputation),
                   writes := Function.update txn.writes update.userId
                     (some (update.change reputation).newScore) }
  | record {txn : RunningTxn} {update : ReputationUpdate} {rest : List ReputationUpdate}
      {change : ReputationChange} :
      txn.pending = update :: rest → txn.phase = .record change →
      TxnMove db others txn { txn with pending := rest, phase := .read, rows := txn.rows ++ [change] }

theorem exists_middle_of_get? {α : Type} {xs : List α} {index : ℕ} {x : α}
    (found : xs.get? index = some x) :
    ∃ before after, xs = before ++ x :: after ∧ before.length = index := by
  obtain ⟨bound, rfl⟩ := List.getElem?_eq_some_iff.mp (List.get?_eq_getElem? xs index ▸ found)
  exact ⟨xs.take index, xs.drop (index + 1),
    by rw [← List.drop_eq_getElem_cons bound, List.take_append_drop], by simp [bound.le]⟩

/-- What one step can do: begin a transaction; commit one whose updates are done; or run one
statement of one transaction, leaving the others and the committed tables as they are. -/
theorem RcState.step_cases {s s' : RcState} {action : RcAction} (stepped : s.step action = some s') :
    (∃ txn, action = .begin txn ∧ s' = ⟨s.db, s.running ++ [RunningTxn.start txn]⟩) ∨
    ∃ before txn after, s.running = before ++ txn :: after ∧
      ((txn.pending = [] ∧ s' = ⟨txn.commit s.db, before ++ after⟩) ∨
        ∃ txn', TxnMove s.db (before ++ after) txn txn' ∧ s' = ⟨s.db, before ++ txn' :: after⟩) := by
  obtain ⟨db, running⟩ := s
  cases action with
  | begin txn => exact .inl ⟨txn, rfl, (Option.some.inj stepped).symm⟩
  | advance index =>
    simp only [RcState.step] at stepped
    split at stepped
    · cases stepped
    rename_i txn found
    obtain ⟨before, after, rfl, rfl⟩ := exists_middle_of_get? found
    have erased : (before ++ txn :: after).eraseIdx before.length = before ++ after := by
      rw [List.eraseIdx_append_of_length_le le_rfl]; simp
    have set (txn' : RunningTxn) : (before ++ txn :: after).set before.length txn' =
        before ++ txn' :: after := by simp
    simp only [set, erased] at stepped
    refine .inr ⟨before, txn, after, rfl, ?_⟩
    split at stepped
    · exact .inl ⟨‹_›, (Option.some.inj stepped).symm⟩
    · split at stepped
      · exact .inr ⟨_, .skip ‹_› ‹_› ‹_›, (Option.some.inj stepped).symm⟩
      · exact .inr ⟨_, .read ‹_› ‹_› ‹_›, (Option.some.inj stepped).symm⟩
    · split at stepped
      · cases stepped
      rename_i free
      refine .inr ⟨_, .save ‹_› ‹_› fun other member => ?_, (Option.some.inj stepped).symm⟩
      simp only [RcState.lockedByOther, erased, List.any_eq_false, Bool.not_eq_true] at free
      exact Option.not_isSome_iff_eq_none.mp (by simp [free other member])
    · exact .inr ⟨_, .record ‹_› ‹_›, (Option.some.inj stepped).symm⟩

theorem RcState.run_append (s : RcState) (first second : List RcAction) :
    s.run (first ++ second) = (s.run first).bind (·.run second) := by
  induction first generalizing s with
  | nil => rfl
  | cons action actions ih =>
    show (s.step action).bind (·.run (actions ++ second)) = _
    simp only [RcState.run, ih, Option.bind_assoc]

/-- The statements of one transaction running alone on committed users `users`: a read of
each update's user and, for a user found, its save and its row; then the commit. -/
def soloSchedule (users : String → Option ℤ) : List ReputationUpdate → List RcAction
  | [] => [.advance 0]
  | update :: updates =>
    match users update.userId with
    | none => .advance 0 :: soloSchedule users updates
    | some reputation =>
      .advance 0 :: .advance 0 :: .advance 0 ::
        soloSchedule (Function.update users update.userId (some (update.change reputation).newScore))
          updates

/-- The schedule of transactions run one after another: each begins once the previous one
committed, and runs its statements alone. -/
def serialSchedule : ReputationDb → List ReputationTxn → List RcAction
  | _, [] => []
  | db, txn :: txns =>
    .begin txn :: (soloSchedule db.users txn.updates ++ serialSchedule (runUpdates db txn.updates) txns)

/-- A transaction running alone commits what the functional model computes for its
remaining updates on the tables it sees. -/
theorem RcState.run_soloSchedule (db : ReputationDb) (updates : List ReputationUpdate) :
    ∀ (writes : String → Option ℤ) (rows : List ReputationChange),
      RcState.run ⟨db, [⟨updates, .read, writes, rows⟩]⟩ (soloSchedule (overlay writes db.users) updates) =
        some ⟨runUpdates ⟨overlay writes db.users, db.changes ++ rows⟩ updates, []⟩ := by
  induction updates with
  | nil => exact fun _ _ => rfl
  | cons update rest ih =>
    intro writes rows
    cases found : overlay writes db.users update.userId with
    | none =>
      have read : RcState.step ⟨db, [⟨update :: rest, .read, writes, rows⟩]⟩ (.advance 0) =
          some ⟨db, [⟨rest, .read, writes, rows⟩]⟩ := by
        simp [RcState.step, RunningTxn.view, found]
      simp only [soloSchedule, found, RcState.run, read, Option.some_bind]
      rw [runUpdates_cons, @ReputationUpdate.apply_of_none update ⟨_, _⟩ found]
      exact ih writes rows
    | some reputation =>
      have steps : RcState.run ⟨db, [⟨update :: rest, .read, writes, rows⟩]⟩
          [.advance 0, .advance 0, .advance 0] = some ⟨db, [⟨rest, .read,
            Function.update writes update.userId (some (update.change reputation).newScore),
            rows ++ [update.change reputation]⟩]⟩ := by
        simp [RcState.run, RcState.step, RunningTxn.view, found, RcState.lockedByOther]
      have split : soloSchedule (overlay writes db.users) (update :: rest) =
          [.advance 0, .advance 0, .advance 0] ++ soloSchedule (overlay
            (Function.update writes update.userId (some (update.change reputation).newScore))
            db.users) rest := by
        simp [soloSchedule, found, overlay_update]
      rw [split, RcState.run_append, steps, Option.some_bind, ih, runUpdates_cons,
        @ReputationUpdate.apply_of_some update ⟨_, _⟩ _ found]
      simp [overlay_update]

/-- The serial schedule is a run of the READ COMMITTED model, and it ends, with no
transaction in flight, in the tables of the serial composition `runSerially`. -/
theorem run_serialSchedule (txns : List ReputationTxn) :
    ∀ db : ReputationDb, RcState.run ⟨db, []⟩ (serialSchedule db txns) = some ⟨runSerially db txns, []⟩ := by
  induction txns with
  | nil => exact fun _ => rfl
  | cons txn txns ih =>
    intro db
    have solo := RcState.run_soloSchedule db txn.updates (fun _ => none) []
    simp only [overlay_none, List.append_nil] at solo
    simp only [serialSchedule, RcState.run, RcState.step, Option.some_bind, List.nil_append]
    rw [RcState.run_append, show RunningTxn.start txn = ⟨txn.updates, .read, fun _ => none, []⟩ from rfl,
      solo, Option.some_bind, ih]
    rfl

/-- Two `applyReputationUpdate` calls for `alice`, `+2` and `-5`, that both read her
committed score 50 before either saves. The first saves 52 and commits; the second then
gets the row lock and saves 45, with a change row that starts from 50. -/
def lostUpdateSchedule : List RcAction :=
  [.begin (.applyReputationUpdate "alice" 2 ⟨none, none, none⟩),
   .begin (.applyReputationUpdate "alice" (-5) ⟨none, none, none⟩),
   .advance 0, .advance 1, .advance 0, .advance 0, .advance 0, .advance 0, .advance 0,
   .advance 0]

/-- Under READ COMMITTED an update is lost: both transactions commit, `alice`'s second row
starts from 50 although the first left her at 52, and she ends at 45 instead of the 47 that
`+2` then `-5` give; her rows are not her updates' rows in commit order. -/
theorem reputation_update_lost_under_read_committed :
    ∃ s, RcState.run ⟨aliceDb, []⟩ lostUpdateSchedule = some s ∧ s.running = [] ∧
      (rowsOf "alice" s.db.changes).map (fun row => (row.oldScore, row.delta, row.newScore)) =
        [(50, 2, 52), (50, -5, 45)] ∧
      s.db.users "alice" = some 45 ∧
      (updateRows 50 [.ofDelta "alice" 2 ⟨none, none, none⟩,
        .ofDelta "alice" (-5) ⟨none, none, none⟩]).2 = 47 ∧
      ¬ AppliesInOrder aliceDb s.db [.ofDelta "alice" 2 ⟨none, none, none⟩,
        .ofDelta "alice" (-5) ⟨none, none, none⟩] := by
  have ran : (RcState.run ⟨aliceDb, []⟩ lostUpdateSchedule).map (fun s => (s.running.length,
      (rowsOf "alice" s.db.changes).map (fun row => (row.oldScore, row.delta, row.newScore)),
      s.db.users "alice")) = some (0, [(50, 2, 52), (50, -5, 45)], some 45) := by decide
  cases final : RcState.run ⟨aliceDb, []⟩ lostUpdateSchedule with
  | none => simp [final] at ran
  | some s =>
    simp only [final, Option.map_some', Option.some.injEq, Prod.mk.injEq,
      List.length_eq_zero] at ran
    obtain ⟨idle, rows, score⟩ := ran
    refine ⟨s, rfl, idle, rows, score, by decide, fun ⟨new, changes, applied⟩ => ?_⟩
    have atAlice := applied "alice"
    simp only [aliceDb, if_true, List.nil_append] at changes atAlice
    rw [← changes, score] at atAlice
    have := congrArg (List.map fun row => (row.oldScore, row.delta, row.newScore)) atAlice.1
    rw [rows] at this
    exact absurd this (by decide)

/-- What holds of every transaction in flight. -/
structure RunningTxn.Consistent (txn : RunningTxn) : Prop where
  /-- It commits only once its last change is recorded. -/
  phased : txn.pending = [] → txn.phase = .read
  /-- Its rows, the staged one included, are clamped. -/
  clamped : ∀ row ∈ txn.rows ++ txn.staged, row.Clamped
  /-- Its write of a user is the new score of its last row for that user. -/
  writes : ∀ user, txn.writes user = ((rowsOf user (txn.rows ++ txn.staged)).getLast?).map (·.newScore)

theorem RunningTxn.start_consistent (txn : ReputationTxn) : (RunningTxn.start txn).Consistent :=
  ⟨fun _ => rfl, by simp [RunningTxn.start, RunningTxn.staged], fun _ => rfl⟩

@[simp] theorem RunningTxn.staged_of_read {txn : RunningTxn} (read : txn.phase = .read) :
    txn.staged = [] := by
  simp [RunningTxn.staged, read]

theorem TxnMove.consistent {db : ReputationDb} {others : List RunningTxn} {txn txn' : RunningTxn}
    (move : TxnMove db others txn txn') (consistent : txn.Consistent) : txn'.Consistent := by
  obtain ⟨phased, clamped, writes⟩ := consistent
  cases move with
  | skip pending read _ =>
    exact ⟨fun _ => read, by simpa [RunningTxn.staged, read] using clamped,
      by simpa [RunningTxn.staged, read] using writes⟩
  | read pending read _ =>
    refine ⟨fun done => ?_, by simpa [RunningTxn.staged, read] using clamped,
      by simpa [RunningTxn.staged, read] using writes⟩
    simp [pending] at done
  | @save update rest reputation pending saved _ =>
    have unstaged : txn.staged = [] := by simp [RunningTxn.staged, saved]
    refine ⟨fun done => by simp [pending] at done, ?_, fun user => ?_⟩
    · simp only [RunningTxn.staged, List.mem_append, List.mem_singleton]
      rintro row (old | rfl)
      · exact clamped row (by simp [unstaged, old])
      · exact update.change_clamped reputation
    · simp only [RunningTxn.staged, rowsOf_append]
      by_cases same : user = update.userId
      · subst same
        simp [rowsOf, ReputationUpdate.change]
      · have other : (update.change reputation).userId ≠ user := Ne.symm same
        simp [Function.update_noteq same, writes user, unstaged, rowsOf, other]
  | @record update rest change pending recorded =>
    have sameRows : txn.rows ++ txn.staged = (txn.rows ++ [change]) ++ [] := by
      simp [RunningTxn.staged, recorded]
    exact ⟨fun _ => rfl, by simpa [sameRows] using clamped, by simpa [sameRows] using writes⟩

/-- A consistent transaction that is done reading sees, for each user, the new score of its
last row for the user, or the committed score. -/
theorem RunningTxn.Consistent.view_eq {txn : RunningTxn} (consistent : txn.Consistent)
    (read : txn.phase = .read) (db : ReputationDb) (user : String) :
    txn.view db user = lastScore (db.users user) user txn.rows := by
  have written := consistent.writes user
  simp only [RunningTxn.staged_of_read read, List.append_nil] at written
  unfold RunningTxn.view overlay lastScore
  rw [written]
  cases (rowsOf user txn.rows).getLast? <;> rfl

/-- What holds of every transaction in flight still holds when a step replaces one of them
by a transaction that has it too. -/
theorem forall_running_replace {P : RunningTxn → Prop} {before after : List RunningTxn}
    {txn txn' : RunningTxn} (all : ∀ other ∈ before ++ txn :: after, P other) (moved : P txn') :
    ∀ other ∈ before ++ txn' :: after, P other := by
  simp only [List.mem_append, List.mem_cons] at all ⊢
  rintro other (early | rfl | late)
  · exact all other (.inl early)
  · exact moved
  · exact all other (.inr (.inr late))

/-- What every run from the committed tables `db` keeps, once it has committed the rows `new`. -/
structure RcLedger (db : ReputationDb) (new : List ReputationChange) (s : RcState) : Prop where
  /-- The committed rows are those of `db`, then `new`. -/
  changes : s.db.changes = db.changes ++ new
  /-- Every committed row is clamped. -/
  clamped : ∀ row ∈ new, row.Clamped
  /-- A user's committed score is the new score of its last committed row, else its score
  in `db`. -/
  lastRow : ∀ user, s.db.users user = lastScore (db.users user) user new
  /-- Every transaction in flight is consistent. -/
  running : ∀ txn ∈ s.running, txn.Consistent

theorem RcLedger.init (db : ReputationDb) : RcLedger db [] ⟨db, []⟩ :=
  ⟨by simp, by simp, fun _ => by simp [lastScore, rowsOf], by simp⟩

theorem RcLedger.step {db : ReputationDb} {new : List ReputationChange} {s s' : RcState}
    {action : RcAction} (ledger : RcLedger db new s) (stepped : s.step action = some s') :
    ∃ added, s'.db.changes = s.db.changes ++ added ∧ RcLedger db (new ++ added) s' := by
  obtain ⟨changes, clamped, lastRow, running⟩ := ledger
  rcases RcState.step_cases stepped with ⟨txn, -, rfl⟩ | ⟨before, txn, after, split, commit | move⟩
  · refine ⟨[], by simp, ?_⟩
    rw [List.append_nil]
    refine ⟨changes, clamped, lastRow, fun txn' member => ?_⟩
    rcases List.mem_append.mp member with old | fresh
    · exact running txn' old
    · rw [List.mem_singleton.mp fresh]; exact RunningTxn.start_consistent txn
  · obtain ⟨done, rfl⟩ := commit
    have consistent := running txn (by simp [split])
    have read := consistent.phased done
    refine ⟨txn.rows, rfl, by simp [RunningTxn.commit, changes], fun row member => ?_,
      fun user => ?_, fun txn' member => running txn' (by simp [split] at member ⊢; tauto)⟩
    · rcases List.mem_append.mp member with old | own
      · exact clamped row old
      · exact consistent.clamped row (by simp [RunningTxn.staged_of_read read, own])
    · show txn.view s.db user = _
      rw [consistent.view_eq read, lastRow, lastScore_append]
  · obtain ⟨txn', moved, rfl⟩ := move
    rw [split] at running
    refine ⟨[], by simp, ?_⟩
    rw [List.append_nil]
    exact ⟨changes, clamped, lastRow,
      forall_running_replace running (moved.consistent (running txn (by simp)))⟩

/-- A transaction touches the users it has still to update and those whose rows it has
locked. -/
def RunningTxn.Touches (txn : RunningTxn) (user : String) : Prop :=
  user ∈ txn.pending.map (·.userId) ∨ (txn.writes user).isSome

instance (txn : RunningTxn) (user : String) : Decidable (txn.Touches user) :=
  inferInstanceAs (Decidable (_ ∨ _))

/-- Two transactions in flight that touch no common user. -/
def RunningTxn.Apart (txn other : RunningTxn) : Prop :=
  ∀ user, txn.Touches user → ¬ other.Touches user

/-- The states reachable from `db` when a transaction begins only while no transaction in
flight touches a user it updates: no two overlapping transactions update one user. -/
inductive RcReachApart (db : ReputationDb) : RcState → Prop
  | init : RcReachApart db ⟨db, []⟩
  | step {s s' : RcState} (action : RcAction) : RcReachApart db s → s.step action = some s' →
      (∀ txn, action = .begin txn → ∀ running ∈ s.running, ∀ update ∈ txn.updates,
        ¬ running.Touches update.userId) →
      RcReachApart db s'

theorem RcReachApart.rcReach {db : ReputationDb} {s : RcState} (reach : RcReachApart db s) :
    RcReach db s := by
  induction reach with
  | init => exact .init
  | step action _ stepped _ ih => exact ih.step action stepped

/-- What a transaction in flight has seen of the committed tables `db`: its rows for a user
chain from the user's committed score to the score it sees, and a score it read and has
still to save is the score it sees. -/
structure RunningTxn.ChainsFrom (txn : RunningTxn) (db : ReputationDb) : Prop where
  chained : ∀ user start, db.users user = some start →
    chainEnd start (rowsOf user (txn.rows ++ txn.staged)) = txn.view db user
  saved : ∀ update rest reputation, txn.pending = update :: rest → txn.phase = .save reputation →
    txn.view db update.userId = some reputation

theorem RunningTxn.start_chainsFrom (txn : ReputationTxn) (db : ReputationDb) :
    (RunningTxn.start txn).ChainsFrom db :=
  ⟨fun _ _ found => found.symm, fun _ _ _ _ phase => by cases phase⟩

theorem RunningTxn.Consistent.view_inRange {txn : RunningTxn} {db : ReputationDb}
    (consistent : txn.Consistent) (inRange : ScoresInRange db) {user : String} {reputation : ℤ}
    (seen : txn.view db user = some reputation) : 0 ≤ reputation ∧ reputation ≤ maxScore := by
  unfold RunningTxn.view overlay at seen
  rw [consistent.writes user] at seen
  cases last : (rowsOf user (txn.rows ++ txn.staged)).getLast? with
  | none => simp only [last, Option.map_none'] at seen; exact inRange user reputation seen
  | some row =>
    simp only [last, Option.map_some', Option.some.injEq] at seen
    subst seen
    exact (consistent.clamped row
      (List.mem_filter.mp (List.mem_of_getLast?_eq_some last)).1).newScore_mem

theorem TxnMove.chainsFrom {db : ReputationDb} {others : List RunningTxn} {txn txn' : RunningTxn}
    (move : TxnMove db others txn txn') (consistent : txn.Consistent) (inRange : ScoresInRange db)
    (chains : txn.ChainsFrom db) : txn'.ChainsFrom db := by
  obtain ⟨chained, saved⟩ := chains
  cases move with
  | skip _ read _ => exact ⟨chained, fun _ _ _ _ phase => by simp [read] at phase⟩
  | @read update rest reputation pending read seen =>
    refine ⟨by simpa [RunningTxn.staged, read] using chained, fun update' rest' reputation' pending' phase => ?_⟩
    obtain ⟨rfl, -⟩ := List.cons.inj (pending.symm.trans pending')
    cases phase
    exact seen
  | @save update rest reputation pending phase _ =>
    have unstaged : txn.staged = [] := by simp [RunningTxn.staged, phase]
    have seen := saved update rest reputation pending phase
    have exact : clampScore reputation = reputation :=
      clampScore_of_mem (consistent.view_inRange inRange seen).1 (consistent.view_inRange inRange seen).2
    refine ⟨fun user start found => ?_, fun _ _ _ _ phase' => by cases phase'⟩
    have before := chained user start found
    simp only [unstaged, List.append_nil] at before
    simp only [RunningTxn.staged, RunningTxn.view, rowsOf_append]
    by_cases same : user = update.userId
    · subst same
      have own : rowsOf update.userId [update.change reputation] = [update.change reputation] := by
        simp [rowsOf, ReputationUpdate.change]
      rw [own, chainEnd_append, before, seen, overlay_update]
      simp [chainEnd, ReputationUpdate.change, exact]
    · have other : rowsOf user [update.change reputation] = [] := by
        simp [rowsOf, ReputationUpdate.change, Ne.symm same]
      rw [other, List.append_nil, before]
      simp [RunningTxn.view, overlay, Function.update_noteq same]
  | @record update rest change pending recorded =>
    have sameRows : txn.rows ++ txn.staged = (txn.rows ++ [change]) ++ [] := by
      simp [RunningTxn.staged, recorded]
    exact ⟨by simpa [sameRows] using chained, fun _ _ _ _ phase => by cases phase⟩

theorem RunningTxn.view_commit_of_none {txn other : RunningTxn} {db : ReputationDb} {user : String}
    (unwritten : txn.writes user = none) : other.view (txn.commit db) user = other.view db user := by
  simp [RunningTxn.view, RunningTxn.commit, overlay, unwritten]

/-- A commit leaves what another transaction has seen unchanged when the two touch no
common user. -/
theorem RunningTxn.ChainsFrom.commit {txn other : RunningTxn} {db : ReputationDb}
    (chains : other.ChainsFrom db) (consistent : other.Consistent)
    (apart : ∀ user, txn.Touches user → ¬ other.Touches user) : other.ChainsFrom (txn.commit db) := by
  have unwritten : ∀ user, other.Touches user → txn.writes user = none := fun user touched =>
    Option.not_isSome_iff_eq_none.mp fun written => apart user (.inr written) touched
  refine ⟨fun user start found => ?_, fun update rest reputation pending phase => ?_⟩
  · by_cases touched : other.Touches user
    · rw [RunningTxn.view_commit_of_none (unwritten user touched)]
      have stored : (txn.commit db).users user = db.users user := by
        simp [RunningTxn.commit, RunningTxn.view, overlay, unwritten user touched]
      exact chains.chained user start (stored ▸ found)
    · have noWrite : other.writes user = none :=
        Option.not_isSome_iff_eq_none.mp fun written => touched (.inr written)
      have noRows : rowsOf user (other.rows ++ other.staged) = [] := by
        simpa [noWrite] using (consistent.writes user).symm
      simp [noRows, chainEnd, RunningTxn.view, overlay, noWrite, found]
  · rw [RunningTxn.view_commit_of_none (unwritten _ (.inl (by simp [pending])))]
    exact chains.saved update rest reputation pending phase

theorem TxnMove.touches {db : ReputationDb} {others : List RunningTxn} {txn txn' : RunningTxn}
    (move : TxnMove db others txn txn') {user : String} (touched : txn'.Touches user) :
    txn.Touches user := by
  cases move with
  | skip pending =>
    rcases touched with later | written
    · exact .inl (by simp [pending, later])
    · exact .inr written
  | read => exact touched
  | @save update rest reputation pending =>
    rcases touched with later | written
    · exact .inl later
    · by_cases same : user = update.userId
      · exact .inl (by simp [pending, same])
      · exact .inr (by simpa [Function.update_noteq same] using written)
  | record pending =>
    rcases touched with later | written
    · exact .inl (by simp [pending, later])
    · exact .inr written

/-- Replacing a transaction by one that touches fewer users keeps the transactions apart. -/
theorem pairwise_apart_replace {before after : List RunningTxn} {txn txn' : RunningTxn}
    (fewer : ∀ user, txn'.Touches user → txn.Touches user)
    (apart : (before ++ txn :: after).Pairwise RunningTxn.Apart) :
    (before ++ txn' :: after).Pairwise RunningTxn.Apart := by
  simp only [List.pairwise_append, List.pairwise_cons, List.mem_cons] at apart ⊢
  obtain ⟨early, ⟨fromTxn, late⟩, across⟩ := apart
  refine ⟨early, ⟨fun other member user touched => fromTxn other member user (fewer user touched),
    late⟩, fun other member other' member' => ?_⟩
  rcases member' with rfl | member'
  · exact fun user touched touched' => across other member txn (.inl rfl) user touched (fewer user touched')
  · exact across other member other' (.inr member')

/-- Two transactions of a list kept apart touch no common user, whichever comes first. -/
theorem apart_of_middle {before after : List RunningTxn} {txn other : RunningTxn}
    (apart : (before ++ txn :: after).Pairwise RunningTxn.Apart) (member : other ∈ before ++ after) :
    ∀ user, txn.Touches user → ¬ other.Touches user := by
  simp only [List.pairwise_append, List.pairwise_cons, List.mem_cons] at apart
  obtain ⟨-, ⟨fromTxn, -⟩, across⟩ := apart
  rcases List.mem_append.mp member with early | late
  · exact fun user touched touched' => across other early txn (.inl rfl) user touched' touched
  · exact fromTxn other late

/-- What a run from `db` keeps, once it has committed the rows `new`, when no two overlapping
transactions update one user. -/
structure RcChains (db : ReputationDb) (new : List ReputationChange) (s : RcState) : Prop where
  /-- Each user's committed rows chain from its score in `db` to its committed score. -/
  chained : ∀ user start, db.users user = some start →
    chainEnd start (rowsOf user new) = s.db.users user
  /-- Every transaction in flight chains from the committed tables. -/
  running : ∀ txn ∈ s.running, txn.ChainsFrom s.db
  /-- No two transactions in flight touch one user. -/
  apart : s.running.Pairwise RunningTxn.Apart

theorem RcChains.init (db : ReputationDb) : RcChains db [] ⟨db, []⟩ :=
  ⟨fun _ _ found => found.symm, by simp, .nil⟩

theorem RcLedger.users_inRange {db : ReputationDb} {new : List ReputationChange} {s : RcState}
    (inRange : ScoresInRange db) (ledger : RcLedger db new s) : ScoresInRange s.db := by
  intro user reputation found
  rw [ledger.lastRow, lastScore] at found
  split at found
  · rename_i row last
    cases found
    exact (ledger.clamped row (List.mem_filter.mp (List.mem_of_getLast?_eq_some last)).1).newScore_mem
  · exact inRange user reputation found

theorem RcChains.step {db : ReputationDb} {new added : List ReputationChange} {s s' : RcState}
    {action : RcAction} (inRange : ScoresInRange db) (ledger : RcLedger db new s)
    (chains : RcChains db new s) (stepped : s.step action = some s')
    (grown : s'.db.changes = s.db.changes ++ added)
    (fresh : ∀ txn, action = .begin txn → ∀ running ∈ s.running, ∀ update ∈ txn.updates,
      ¬ running.Touches update.userId) :
    RcChains db (new ++ added) s' := by
  obtain ⟨chained, running, apart⟩ := chains
  have visible := ledger.users_inRange inRange
  rcases RcState.step_cases stepped with ⟨txn, rfl, rfl⟩ | ⟨before, txn, after, split, commit | move⟩
  · obtain rfl : added = [] := by simpa using grown
    rw [List.append_nil]
    refine ⟨chained, fun txn' member => ?_, List.pairwise_append.mpr ⟨apart, List.pairwise_singleton _ _,
      fun other member fresh' onlyFresh user touched started => ?_⟩⟩
    · rcases List.mem_append.mp member with old | new
      · exact running txn' old
      · rw [List.mem_singleton.mp new]; exact RunningTxn.start_chainsFrom txn s.db
    · rw [List.mem_singleton.mp onlyFresh] at started
      rcases started with pending | written
      · obtain ⟨update, member', rfl⟩ := List.mem_map.mp pending
        exact fresh txn rfl other member update member' touched
      · cases written
  · obtain ⟨done, rfl⟩ := commit
    obtain rfl : added = txn.rows := List.append_cancel_left (grown.symm.trans rfl)
    have inFlight : txn ∈ s.running := by simp [split]
    have read := (ledger.running txn inFlight).phased done
    have dropped : List.Sublist (before ++ after) s.running :=
      split ▸ (List.sublist_cons_self txn after).append_left before
    rw [split] at apart
    refine ⟨fun user start found => ?_, fun other member => ?_,
      apart.sublist ((List.sublist_cons_self txn after).append_left before)⟩
    · have known : ∃ current, s.db.users user = some current := by
        rw [ledger.lastRow user, found, lastScore]
        split <;> exact ⟨_, rfl⟩
      obtain ⟨current, current_eq⟩ := known
      have own := (running txn inFlight).chained user current current_eq
      rw [RunningTxn.staged_of_read read, List.append_nil] at own
      rw [rowsOf_append, chainEnd_append, chained user start found, current_eq]
      exact own
    · exact (running other (dropped.subset member)).commit
        (ledger.running other (dropped.subset member)) (apart_of_middle apart member)
  · obtain ⟨txn', moved, rfl⟩ := move
    obtain rfl : added = [] := by simpa using grown
    rw [List.append_nil]
    have consistent := ledger.running txn (by simp [split])
    rw [split] at apart running
    exact ⟨chained, forall_running_replace running
      (moved.chainsFrom consistent visible (running txn (by simp))),
      pairwise_apart_replace (fun _ => moved.touches) apart⟩

/-- When no two overlapping transactions update one user, no update is lost under READ
COMMITTED: from reputations in `[0, MAX_SCORE]`, each user's committed rows, in commit order,
chain from its reputation before the run to its committed reputation, every committed row is
clamped, and the committed reputation is the new score of the user's last row. -/
theorem rcReachApart_chains {db : ReputationDb} {s : RcState} (inRange : ScoresInRange db)
    (reach : RcReachApart db s) :
    ∃ new, s.db.changes = db.changes ++ new ∧ (∀ row ∈ new, row.Clamped) ∧
      (∀ user, s.db.users user = lastScore (db.users user) user new) ∧
      ∀ user start, db.users user = some start → chainEnd start (rowsOf user new) = s.db.users user := by
  suffices ∃ new, RcLedger db new s ∧ RcChains db new s from
    let ⟨new, ledger, chains⟩ := this
    ⟨new, ledger.changes, ledger.clamped, ledger.lastRow, chains.chained⟩
  induction reach with
  | init => exact ⟨[], RcLedger.init db, RcChains.init db⟩
  | step action _ stepped fresh ih =>
    obtain ⟨new, ledger, chains⟩ := ih
    obtain ⟨added, grown, ledger'⟩ := ledger.step stepped
    exact ⟨_, ledger', chains.step inRange ledger stepped grown fresh⟩

/-- A run that refuses to begin a transaction while one in flight touches a user it
updates. -/
def RcState.runApart (s : RcState) : List RcAction → Option RcState
  | [] => some s
  | .begin txn :: actions =>
    if ∀ running ∈ s.running, ∀ update ∈ txn.updates, ¬ running.Touches update.userId then
      (s.step (.begin txn)).bind (·.runApart actions)
    else none
  | .advance index :: actions => (s.step (.advance index)).bind (·.runApart actions)

theorem RcReachApart.runApart {db : ReputationDb} :
    ∀ {s s' : RcState} {actions : List RcAction}, RcReachApart db s → s.runApart actions = some s' →
      RcReachApart db s'
  | _, _, [], reach, ran => by cases ran; exact reach
  | s, _, .begin txn :: actions, reach, ran => by
    simp only [RcState.runApart] at ran
    split at ran
    · rename_i fresh
      obtain ⟨next, stepped, rest⟩ := Option.bind_eq_some.mp ran
      exact RcReachApart.runApart (reach.step _ stepped fun _ same => by cases same; exact fresh) rest
    · cases ran
  | s, _, .advance index :: actions, reach, ran => by
    obtain ⟨next, stepped, rest⟩ := Option.bind_eq_some.mp ran
    exact RcReachApart.runApart (reach.step _ stepped fun _ same => by cases same) rest

/-- `alice` at 50 and `bob` at 30. -/
def aliceBobDb : ReputationDb :=
  ⟨fun user => if user = "alice" then some 50 else if user = "bob" then some 30 else none, []⟩

/-- `alice`'s `+2` and `bob`'s `-5`, statement by statement side by side. -/
def sideBySideSchedule : List RcAction :=
  [.begin (.applyReputationUpdate "alice" 2 ⟨none, none, none⟩),
   .begin (.applyReputationUpdate "bob" (-5) ⟨none, none, none⟩),
   .advance 0, .advance 1, .advance 0, .advance 1, .advance 0, .advance 1, .advance 0, .advance 0]

theorem side_by_side_updates_chain :
    ∃ s, RcState.runApart ⟨aliceBobDb, []⟩ sideBySideSchedule = some s ∧
      ∃ new, s.db.changes = aliceBobDb.changes ++ new ∧ (∀ row ∈ new, row.Clamped) ∧
        (∀ user, s.db.users user = lastScore (aliceBobDb.users user) user new) ∧
        ∀ user start, aliceBobDb.users user = some start →
          chainEnd start (rowsOf user new) = s.db.users user := by
  have inRange : ScoresInRange aliceBobDb := by
    intro user reputation found
    simp only [aliceBobDb] at found
    split at found
    · cases found; norm_num [maxScore]
    split at found <;> cases found
    norm_num [maxScore]
  obtain ⟨s, ran⟩ := Option.isSome_iff_exists.mp
    (show (RcState.runApart ⟨aliceBobDb, []⟩ sideBySideSchedule).isSome by decide)
  exact ⟨s, ran, rcReachApart_chains inRange (RcReachApart.init.runApart ran)⟩

end TruthBounty
