import TruthBounty.JsBuiltins
import TruthBounty.Interleaving

namespace TruthBounty

/-- `verifyDto.proof` as the client sends it. -/
structure WorldcoinProof where
  merkleRoot : String
  nullifierHash : String
  proof : String
  verificationLevel : String
  deriving DecidableEq

structure VerifyWorldcoinProofDto where
  proof : WorldcoinProof
  action : String
  signal : Option String
  deriving DecidableEq

/-- The `WORLDCOIN_APP_ID` and `WORLDCOIN_ACTION` settings, `none` when unset. -/
structure WorldcoinConfig where
  appId : Option String
  expectedAction : Option String

/-- A `world_id_verifications` row; its generated `id` and `verifiedAt` are not read. -/
structure WorldIdVerification where
  userId : String
  nullifierHash : String
  verificationLevel : String
  worldcoinAppId : Option String
  worldcoinAction : String
  merkleRoot : String
  proof : String
  deriving DecidableEq

/-- The `app_id` handed to the SDK: `appId`, prefixed with `app_` when it lacks it. -/
def sdkAppId (appId : String) : String :=
  if startsWith appId "app_" then appId else "app_" ++ appId

/-- `verifyWorldcoinProof`: `false` when a setting is unset or empty, else the SDK's answer
(a throwing SDK call answers `false` too). `WORLDCOIN_ACTION` is only checked to be set. -/
def verifyWorldcoinProof (verifyCloudProof : WorldcoinProof → String → String → Option String → Bool)
    (config : WorldcoinConfig) (proof : WorldcoinProof) (action : String)
    (signal : Option String) : Bool :=
  match config.appId, config.expectedAction with
  | some appId, some expectedAction =>
    appId != "" && expectedAction != "" && verifyCloudProof proof (sdkAppId appId) action signal
  | _, _ => false

inductive WorldIdError where
  | badRequest (message : String)
  | conflict (message : String)
  /-- TypeORM's `QueryFailedError` on the unique `nullifier_hash` index. -/
  | uniqueViolation
  deriving DecidableEq

/-- `verifyProof(userId, verifyDto)`. -/
structure VerifyProofRequest where
  userId : String
  verifyDto : VerifyWorldcoinProofDto
  deriving DecidableEq

/-- Before the proof check and `findOne`, or before `save`. -/
inductive WorldIdPc where
  | start
  | save
  deriving DecidableEq

def verificationRow (config : WorldcoinConfig) (request : VerifyProofRequest) :
    WorldIdVerification :=
  let proof := request.verifyDto.proof
  ⟨request.userId, proof.nullifierHash, proof.verificationLevel, config.appId,
    request.verifyDto.action, proof.merkleRoot, proof.proof⟩

/-- `verifyProof` cut at its awaits: the proof check with the `findOne` on the nullifier
hash, then the `save`, which the unique index refuses for a hash already stored. -/
def verifyProofStep (verifyCloudProof : WorldcoinProof → String → String → Option String → Bool)
    (config : WorldcoinConfig) (rows : List WorldIdVerification) (_ : ℕ) :
    Thread VerifyProofRequest WorldIdPc →
      Option (List WorldIdVerification ×
        Continuation WorldIdPc (Except WorldIdError WorldIdVerification))
  | ⟨request, .start⟩ =>
    let dto := request.verifyDto
    if !verifyWorldcoinProof verifyCloudProof config dto.proof dto.action dto.signal then
      some (rows, .done (.error (.badRequest "Invalid Worldcoin proof")))
    else if rows.any (·.nullifierHash == dto.proof.nullifierHash) then
      some (rows, .done (.error (.conflict "This Worldcoin proof has already been used")))
    else some (rows, .next .save)
  | ⟨request, .save⟩ =>
    if rows.any (·.nullifierHash == request.verifyDto.proof.nullifierHash) then
      some (rows, .done (.error .uniqueViolation))
    else some (rows ++ [verificationRow config request], .done (.ok (verificationRow config request)))

def worldIdService (verifyCloudProof : WorldcoinProof → String → String → Option String → Bool)
    (config : WorldcoinConfig) :
    Service (List WorldIdVerification) VerifyProofRequest WorldIdPc
      (Except WorldIdError WorldIdVerification) :=
  ⟨.start, 2, verifyProofStep verifyCloudProof config⟩

/-- The store's shape: nullifier hashes are unique, and every row names the configured
app. -/
def VerificationsWellFormed (config : WorldcoinConfig) (rows : List WorldIdVerification) : Prop :=
  (rows.map (·.nullifierHash)).Nodup ∧ ∀ r ∈ rows, r.worldcoinAppId = config.appId

theorem verifyProofStep_wellFormed
    {verifyCloudProof : WorldcoinProof → String → String → Option String → Bool}
    {config : WorldcoinConfig} {rows rows' : List WorldIdVerification} {choice : ℕ}
    {thread : Thread VerifyProofRequest WorldIdPc}
    {k : Continuation WorldIdPc (Except WorldIdError WorldIdVerification)}
    (wellFormed : VerificationsWellFormed config rows)
    (stepped : (worldIdService verifyCloudProof config).step rows choice thread = some (rows', k)) :
    VerificationsWellFormed config rows' := by
  obtain ⟨request, pc⟩ := thread
  cases pc <;> simp only [worldIdService, verifyProofStep] at stepped
  case start =>
    repeat' split at stepped
    all_goals cases stepped; exact wellFormed
  case save =>
    split at stepped <;> cases stepped
    · exact wellFormed
    rename_i fresh
    obtain ⟨unique, named⟩ := wellFormed
    refine ⟨nodup_map_append unique fun stored => fresh ?_, fun r member => ?_⟩
    · obtain ⟨r, present, same⟩ := List.mem_map.mp stored
      exact List.any_eq_true.mpr ⟨r, present, beq_iff_eq.mpr same⟩
    · rcases List.mem_append.mp member with member | member
      · exact named r member
      · rw [List.mem_singleton.mp member]; rfl

theorem verificationsWellFormed_of_reach
    {verifyCloudProof : WorldcoinProof → String → String → Option String → Bool}
    {config : WorldcoinConfig}
    {s : Interleaved (List WorldIdVerification) VerifyProofRequest WorldIdPc}
    (reach : (worldIdService verifyCloudProof config).Reach [] s) :
    VerificationsWellFormed config s.db :=
  reach.invariant (VerificationsWellFormed config) (by exact ⟨List.nodup_nil, nofun⟩)
    verifyProofStep_wellFormed

/-- World ID's guarantees for `verifyCloudProof`: a proof verifies for `(appId, action)`
only when some holder made it, and then its nullifier hash is `nullifier holder appId action`,
which tells holders apart and differs across actions. -/
structure WorldIdModel (Holder : Type) where
  nullifier : Holder → String → String → String
  verifyCloudProof : WorldcoinProof → String → String → Option String → Bool
  sound : ∀ proof appId action signal, verifyCloudProof proof appId action signal = true →
    ∃ holder, proof.nullifierHash = nullifier holder appId action
  injective : ∀ appId action, Function.Injective fun holder => nullifier holder appId action
  separates : ∀ holder holder' appId action action', action ≠ action' →
    nullifier holder appId action ≠ nullifier holder' appId action'

/-- The row's proof was made by `holder`. -/
def WorldIdModel.cameFrom {Holder : Type} (model : WorldIdModel Holder) (holder : Holder)
    (row : WorldIdVerification) : Bool :=
  match row.worldcoinAppId with
  | some appId => row.nullifierHash == model.nullifier holder (sdkAppId appId) row.worldcoinAction
  | none => false

/-- Two holders, `true` and `false`; a holder's nullifier hash for `(appId, action)` is its
bit before `appId/action`. -/
def bitNullifier (holder : Bool) (appId action : String) : String :=
  ⟨(if holder then '1' else '0') :: (appId ++ "/" ++ action).data⟩

theorem bitNullifier_injective (holder holder' : Bool) (appId action action' : String)
    (same : bitNullifier holder appId action = bitNullifier holder' appId action') :
    holder = holder' ∧ action = action' := by
  have data : (if holder then '1' else '0') :: ((appId ++ "/").data ++ action.data) =
      (if holder' then '1' else '0') :: ((appId ++ "/").data ++ action'.data) :=
    congrArg String.data same
  obtain ⟨bit, rest⟩ := List.cons.inj data
  refine ⟨?_, String.ext (List.append_cancel_left rest)⟩
  cases holder <;> cases holder' <;> first | rfl | exact absurd bit (by decide)

/-- The SDK of the bit model: a proof verifies when its nullifier hash is a holder's. -/
def bitWorldId : WorldIdModel Bool where
  nullifier := bitNullifier
  verifyCloudProof proof appId action _ :=
    proof.nullifierHash == bitNullifier true appId action ||
      proof.nullifierHash == bitNullifier false appId action
  sound proof appId action _ verified := by
    simp only [Bool.or_eq_true, beq_iff_eq] at verified
    exact verified.elim (⟨true, ·⟩) (⟨false, ·⟩)
  injective appId action holder holder' same :=
    (bitNullifier_injective holder holder' appId action action same).1
  separates holder holder' appId action action' different same :=
    different (bitNullifier_injective holder holder' appId action action' same).2

def sampleWorldcoinConfig : WorldcoinConfig := ⟨some "app_truthbounty", some "truthbounty-verify"⟩

/-- Holder `true`'s proof for an action of the client's choosing. -/
def holderProof (action : String) : VerifyWorldcoinProofDto :=
  ⟨⟨"0xroot", bitNullifier true "app_truthbounty" action, "0xproof", "orb"⟩, action, none⟩

/-- `u1` verifies with the configured action, then `u2` with another action. -/
def twoActionsSchedule : List (ServiceAction VerifyProofRequest) :=
  [.call ⟨"u1", holderProof "truthbounty-verify"⟩, .advance 0 0, .advance 0 0,
   .call ⟨"u2", holderProof "truthbounty-verify-again"⟩, .advance 0 0, .advance 0 0]

/-- The configured `WORLDCOIN_ACTION` is never compared with the client's `action`, so one
holder verifies two users with proofs for two actions. -/
theorem one_holder_verifies_two_users :
    ∃ s, (worldIdService bitWorldId.verifyCloudProof sampleWorldcoinConfig).Reach [] s ∧
      s.inFlight = [] ∧ ∃ r ∈ s.db, ∃ r' ∈ s.db, r.userId ≠ r'.userId ∧
        bitWorldId.cameFrom true r = true ∧ bitWorldId.cameFrom true r' = true :=
  Service.Reach.of_run twoActionsSchedule (by decide)

/-- `getVerificationStatus(userId)`: the user's row with the latest `verifiedAt`, which is
the last one saved. -/
def getVerificationStatus (rows : List WorldIdVerification) (userId : String) :
    Option WorldIdVerification :=
  (rows.filter (·.userId == userId)).getLast?

def getVerificationByNullifierHash (rows : List WorldIdVerification) (nullifierHash : String) :
    Option WorldIdVerification :=
  rows.find? (·.nullifierHash == nullifierHash)

def isUserVerified (rows : List WorldIdVerification) (userId : String) : Bool :=
  (getVerificationStatus rows userId).isSome

/-- The status endpoint's answer; the fields it copies from the row are the row's. -/
structure VerificationStatusResponse where
  verified : Bool
  verification : Option WorldIdVerification
  deriving DecidableEq

/-- `WorldcoinController.getVerificationStatus`: the record read on table `first`, then
`isUserVerified` read on table `second`, a later one. -/
def WorldcoinController.getVerificationStatus (first second : List WorldIdVerification)
    (userId : String) : VerificationStatusResponse :=
  ⟨isUserVerified second userId, TruthBounty.getVerificationStatus first userId⟩

section Reads

variable {verifyCloudProof : WorldcoinProof → String → String → Option String → Bool}
  {config : WorldcoinConfig}

/-- `verifyProof` only ever appends to the table. -/
theorem verifyProofStep_grows {rows rows' : List WorldIdVerification} {choice : ℕ}
    {thread : Thread VerifyProofRequest WorldIdPc}
    {k : Continuation WorldIdPc (Except WorldIdError WorldIdVerification)}
    (stepped : (worldIdService verifyCloudProof config).step rows choice thread = some (rows', k)) :
    rows <+: rows' := by
  obtain ⟨request, pc⟩ := thread
  cases pc <;> simp only [worldIdService, verifyProofStep] at stepped
  case start =>
    repeat' split at stepped
    all_goals cases stepped; exact List.prefix_refl _
  case save =>
    split at stepped <;> cases stepped
    · exact List.prefix_refl _
    · exact List.prefix_append _ _

theorem worldIdRun_grows {s s' : Interleaved (List WorldIdVerification) VerifyProofRequest WorldIdPc}
    {actions : List (ServiceAction VerifyProofRequest)}
    (ran : (worldIdService verifyCloudProof config).run s actions = some s') : s.db <+: s'.db :=
  Service.run_rel (· <+: ·) List.prefix_refl (fun first second => first.trans second)
    verifyProofStep_grows ran

theorem find?_key_of_nodup {Row Key : Type} [BEq Key] [LawfulBEq Key] {key : Row → Key}
    {rows : List Row} {row : Row} (unique : (rows.map key).Nodup) (member : row ∈ rows) :
    rows.find? (key · == key row) = some row := by
  have present : (rows.find? (key · == key row)).isSome :=
    List.find?_isSome.mpr ⟨row, member, beq_self_eq_true _⟩
  obtain ⟨found, foundRow⟩ := Option.isSome_iff_exists.mp present
  have sameKey := List.find?_some foundRow
  rw [foundRow]
  exact congrArg some (List.inj_on_of_nodup_map unique (List.mem_of_find?_eq_some foundRow) member
    (beq_iff_eq.mp sameKey))

/-- Whatever the interleaving, a saved verification stays the answer to the lookup by its
nullifier hash, and its user stays verified, in every state a run reaches later. -/
theorem getVerificationByNullifierHash_of_saved
    {s s' : Interleaved (List WorldIdVerification) VerifyProofRequest WorldIdPc}
    {actions : List (ServiceAction VerifyProofRequest)}
    (reach : (worldIdService verifyCloudProof config).Reach [] s)
    (ran : (worldIdService verifyCloudProof config).run s actions = some s')
    {row : WorldIdVerification} (saved : row ∈ s.db) :
    getVerificationByNullifierHash s'.db row.nullifierHash = some row ∧
      isUserVerified s'.db row.userId = true := by
  have kept := (worldIdRun_grows ran).subset saved
  refine ⟨find?_key_of_nodup (verificationsWellFormed_of_reach (reach.run ran)).1 kept, ?_⟩
  simp only [isUserVerified, getVerificationStatus, Option.isSome_iff_ne_none, ne_eq,
    List.getLast?_eq_none_iff, List.filter_eq_nil_iff, not_forall, beq_iff_eq, not_not]
  exact ⟨row, kept, rfl⟩

/-- Whatever runs between its two reads, the status endpoint never answers `verified:
false` with a record: the record it read is still stored at its second read. -/
theorem getVerificationStatus_record_verified
    {s s' : Interleaved (List WorldIdVerification) VerifyProofRequest WorldIdPc}
    {actions : List (ServiceAction VerifyProofRequest)}
    (ran : (worldIdService verifyCloudProof config).run s actions = some s') (userId : String)
    {row : WorldIdVerification}
    (answered : (WorldcoinController.getVerificationStatus s.db s'.db userId).verification = some row) :
    (WorldcoinController.getVerificationStatus s.db s'.db userId).verified = true ∧ row ∈ s'.db := by
  have member := List.mem_of_getLast?_eq_some answered
  have kept := (worldIdRun_grows ran).subset (List.mem_filter.mp member).1
  refine ⟨?_, kept⟩
  simp only [WorldcoinController.getVerificationStatus, isUserVerified, getVerificationStatus,
    Option.isSome_iff_ne_none, ne_eq, List.getLast?_eq_none_iff, List.filter_eq_nil_iff,
    not_forall, not_not]
  exact ⟨row, kept, (List.mem_filter.mp member).2⟩

end Reads

/-- `u1` verifies with the configured action. -/
def firstVerificationSchedule : List (ServiceAction VerifyProofRequest) :=
  [.call ⟨"u1", holderProof "truthbounty-verify"⟩, .advance 0 0, .advance 0 0]

/-- `u2` replays `u1`'s proof, then verifies with the same holder's proof for another action. -/
def laterVerificationsSchedule : List (ServiceAction VerifyProofRequest) :=
  [.call ⟨"u2", holderProof "truthbounty-verify"⟩, .advance 0 0,
   .call ⟨"u2", holderProof "truthbounty-verify-again"⟩, .advance 0 0, .advance 0 0]

def firstVerification : WorldIdVerification :=
  verificationRow sampleWorldcoinConfig ⟨"u1", holderProof "truthbounty-verify"⟩

def secondVerification : WorldIdVerification :=
  verificationRow sampleWorldcoinConfig ⟨"u2", holderProof "truthbounty-verify-again"⟩

theorem first_verification_found_later :
    getVerificationByNullifierHash [firstVerification, secondVerification]
        firstVerification.nullifierHash = some firstVerification ∧
      isUserVerified [firstVerification, secondVerification] firstVerification.userId = true := by
  have first : (worldIdService bitWorldId.verifyCloudProof sampleWorldcoinConfig).run ⟨[], []⟩
      firstVerificationSchedule = some ⟨[firstVerification], []⟩ := rfl
  have later : (worldIdService bitWorldId.verifyCloudProof sampleWorldcoinConfig).run
      ⟨[firstVerification], []⟩ laterVerificationsSchedule =
        some ⟨[firstVerification, secondVerification], []⟩ := rfl
  exact getVerificationByNullifierHash_of_saved (Service.Reach.init.run first) later
    (List.mem_singleton_self _)

theorem verified_status_after_replays :
    WorldcoinController.getVerificationStatus [firstVerification]
        [firstVerification, secondVerification] "u1" = ⟨true, some firstVerification⟩ ∧
      firstVerification ∈ [firstVerification, secondVerification] := by
  have later : (worldIdService bitWorldId.verifyCloudProof sampleWorldcoinConfig).run
      ⟨[firstVerification], []⟩ laterVerificationsSchedule =
        some ⟨[firstVerification, secondVerification], []⟩ := rfl
  obtain ⟨verified, kept⟩ := getVerificationStatus_record_verified later "u1" rfl
  exact ⟨by rw [VerificationStatusResponse.mk.injEq]; exact ⟨verified, rfl⟩, kept⟩

end TruthBounty
