import TruthBounty.JsBuiltins
import TruthBounty.Interleaving

namespace TruthBounty

structure LinkWalletDto where
  address : String
  chain : String
  signature : String
  message : String
  deriving DecidableEq

/-- A `Wallet` row; its `id` and `linkedAt` are not read by the identity service. -/
structure WalletRow where
  address : String
  chain : String
  userId : String
  deriving DecidableEq

/-- The `User` ids and the `Wallet` rows in insertion order. SQLite compares the text of
`Wallet_address_chain_key` exactly, letter case included. -/
structure IdentityDb where
  users : List String
  wallets : List WalletRow
  deriving DecidableEq

inductive IdentityError where
  | badRequest (message : String)
  | conflict (message : String)
  | notFound (message : String)
  /-- Prisma's `P2002` on `Wallet_address_chain_key`. -/
  | uniqueViolation
  /-- Prisma's `P2025`: the row to delete does not exist. -/
  | recordNotFound
  deriving DecidableEq

inductive IdentityReply where
  | user (id : String)
  | wallet (row : WalletRow)
  deriving DecidableEq

inductive IdentityRequest where
  /-- `createUser`, with the id the database generates. -/
  | createUser (id : String)
  | linkWallet (userId : String) (dto : LinkWalletDto)
  | unlinkWallet (userId address chain : String)
  deriving DecidableEq

/-- Where a request stands: before its first database call, or before the user lookup,
the insert, the count or the delete. -/
inductive IdentityPc where
  | start
  | findUser
  | create
  | count
  | delete
  deriving DecidableEq

/-- `prisma.wallet.findFirst({ where: { address } })`: with no order, any row with exactly
that address; `choice` picks which. -/
def findFirstByAddress (wallets : List WalletRow) (address : String) (choice : ℕ) :
    Option WalletRow :=
  let matching := wallets.filter (·.address == address)
  matching.get? (choice % matching.length)

/-- `findUnique({ where: { address_chain } })`. -/
def findByAddressChain (wallets : List WalletRow) (address chain : String) : Option WalletRow :=
  wallets.find? fun w => w.address == address && w.chain == chain

/-- `createUser`, `linkWallet` and `unlinkWallet` cut at their awaits: one database call and
the code up to the next. `none` when the call cannot happen (a generated user id taken). -/
def identityStep (verifyMessage : String → String → Option String) (db : IdentityDb)
    (choice : ℕ) :
    Thread IdentityRequest IdentityPc →
      Option (IdentityDb × Continuation IdentityPc (Except IdentityError IdentityReply))
  | ⟨.createUser id, .start⟩ =>
    if id ∈ db.users then none else some (⟨db.users ++ [id], db.wallets⟩, .done (.ok (.user id)))
  | ⟨.linkWallet userId dto, .start⟩ =>
    match verifyMessage dto.message dto.signature with
    | none => some (db, .done (.error (.badRequest "Invalid signature format")))
    | some recovered =>
      if toLowerCase recovered ≠ toLowerCase dto.address then
        some (db, .done (.error (.badRequest "Signature verification failed. Address mismatch.")))
      else match findFirstByAddress db.wallets dto.address choice with
        | some existing =>
          if existing.userId ≠ userId then
            some (db, .done (.error (.conflict "Wallet is already linked to another user.")))
          else if existing.chain = dto.chain then some (db, .done (.ok (.wallet existing)))
          else some (db, .next .findUser)
        | none => some (db, .next .findUser)
  | ⟨.linkWallet userId _, .findUser⟩ =>
    if userId ∈ db.users then some (db, .next .create)
    else some (db, .done (.error (.notFound "User not found")))
  | ⟨.linkWallet userId dto, .create⟩ =>
    match findByAddressChain db.wallets dto.address dto.chain with
    | some _ => some (db, .done (.error .uniqueViolation))
    | none => some (⟨db.users, db.wallets ++ [⟨dto.address, dto.chain, userId⟩]⟩,
        .done (.ok (.wallet ⟨dto.address, dto.chain, userId⟩)))
  | ⟨.unlinkWallet userId address chain, .start⟩ =>
    match findByAddressChain db.wallets address chain with
    | none => some (db, .done (.error (.notFound "Wallet not found")))
    | some wallet =>
      if wallet.userId ≠ userId then
        some (db, .done (.error (.badRequest "Wallet does not belong to this user")))
      else some (db, .next .count)
  | ⟨.unlinkWallet _ _ _, .count⟩ => some (db, .next .delete)
  | ⟨.unlinkWallet _ address chain, .delete⟩ =>
    match findByAddressChain db.wallets address chain with
    | none => some (db, .done (.error .recordNotFound))
    | some wallet => some (⟨db.users, db.wallets.erase wallet⟩, .done (.ok (.wallet wallet)))
  | _ => none

def identityService (verifyMessage : String → String → Option String) :
    Service IdentityDb IdentityRequest IdentityPc (Except IdentityError IdentityReply) :=
  ⟨.start, 3, identityStep verifyMessage⟩

/-- A signer whose key controls the account `0xAbC`: its signature of "Link me" recovers
the checksummed address. -/
def sampleVerifyMessage (message signature : String) : Option String :=
  if message = "Link me" ∧ signature = "0xsig" then some "0xAbC" else none

def linkDto (address chain : String) : LinkWalletDto := ⟨address, chain, "0xsig", "Link me"⟩

/-- The e2e test's user links the account on ETH, then on OPT. -/
def twoChainsSchedule : List (ServiceAction IdentityRequest) :=
  [.call (.createUser "u1"), .advance 0 0,
   .call (.linkWallet "u1" (linkDto "0xAbC" "ETH")), .advance 0 0, .advance 0 0, .advance 0 0,
   .call (.linkWallet "u1" (linkDto "0xAbC" "OPT")), .advance 0 0, .advance 0 0, .advance 0 0]

theorem findByAddressChain_eq_none {wallets : List WalletRow} {address chain : String} :
    findByAddressChain wallets address chain = none ↔
      ∀ w ∈ wallets, ¬ (w.address = address ∧ w.chain = chain) := by
  simp [findByAddressChain]

theorem findFirstByAddress_some {wallets : List WalletRow} {address : String} {choice : ℕ}
    {wallet : WalletRow} (found : findFirstByAddress wallets address choice = some wallet) :
    wallet ∈ wallets ∧ wallet.address = address := by
  simpa using List.get?_mem found

theorem findFirstByAddress_none {wallets : List WalletRow} {address : String} {choice : ℕ}
    (missing : findFirstByAddress wallets address choice = none) :
    ∀ w ∈ wallets, w.address ≠ address := by
  intro w member same
  have short := List.get?_eq_none.mp missing
  have present : 0 < (wallets.filter (·.address == address)).length :=
    List.length_pos_of_mem (List.mem_filter.mpr ⟨member, by simpa using same⟩)
  exact absurd short (not_le.mpr (Nat.mod_lt _ present))

/-- Wallet rows with one exact address belong to one user. -/
def AddressOwned (db : IdentityDb) : Prop :=
  ∀ w ∈ db.wallets, ∀ w' ∈ db.wallets, w.address = w'.address → w.userId = w'.userId

/-- A link request past its `findFirst` found its address free, or linked to its user. -/
def LinkCleared (db : IdentityDb) : Thread IdentityRequest IdentityPc → Prop
  | ⟨.linkWallet userId dto, .findUser⟩ | ⟨.linkWallet userId dto, .create⟩ =>
    ∀ w ∈ db.wallets, w.address = dto.address → w.userId = userId
  | _ => True

theorem LinkCleared.start (db : IdentityDb) (request : IdentityRequest) :
    LinkCleared db ⟨request, .start⟩ := by
  cases request <;> trivial

theorem AddressOwned.sublist {db db' : IdentityDb} (owned : AddressOwned db)
    (sub : db'.wallets.Sublist db.wallets) : AddressOwned db' :=
  fun w member w' member' => owned w (sub.subset member) w' (sub.subset member')

/-- One call of a request running alone keeps exact addresses owned by one user, and a
link request that goes on has cleared its address. -/
theorem identityStep_addressOwned {verifyMessage : String → String → Option String}
    {db db' : IdentityDb} {choice : ℕ} {thread : Thread IdentityRequest IdentityPc}
    {k : Continuation IdentityPc (Except IdentityError IdentityReply)}
    (owned : AddressOwned db) (cleared : LinkCleared db thread)
    (stepped : identityStep verifyMessage db choice thread = some (db', k)) :
    AddressOwned db' ∧ ∀ pc, k = .next pc → LinkCleared db' ⟨thread.request, pc⟩ := by
  obtain ⟨request, pc⟩ := thread
  cases request <;> cases pc <;> simp only [identityStep, reduceCtorEq] at stepped
  case createUser.start =>
    split at stepped <;> cases stepped
    exact ⟨owned, fun _ _ => trivial⟩
  case linkWallet.start userId dto =>
    repeat' split at stepped
    all_goals cases stepped; refine ⟨owned, fun pc next => ?_⟩; cases next
    case h_2.isFalse.h_1.isFalse.isFalse existing found sameUser _ =>
      intro w member same
      obtain ⟨present, address⟩ := findFirstByAddress_some found
      exact (owned w member existing present (same.trans address.symm)).trans (not_not.mp sameUser)
    case h_2.isFalse.h_2 missing =>
      exact fun w member same => absurd same (findFirstByAddress_none missing w member)
  case linkWallet.findUser =>
    split at stepped <;> cases stepped
    · exact ⟨owned, fun pc next => by cases next; exact cleared⟩
    · exact ⟨owned, nofun⟩
  case linkWallet.create userId dto =>
    split at stepped <;> cases stepped
    · exact ⟨owned, nofun⟩
    refine ⟨fun w member w' member' same => ?_, nofun⟩
    simp only [List.mem_append, List.mem_singleton] at member member'
    rcases member with member | rfl <;> rcases member' with member' | rfl
    · exact owned w member w' member' same
    · exact cleared w member same
    · exact (cleared w' member' same.symm).symm
    · rfl
  case unlinkWallet.start | unlinkWallet.count =>
    repeat' split at stepped
    all_goals cases stepped; exact ⟨owned, fun _ _ => trivial⟩
  case unlinkWallet.delete =>
    split at stepped <;> cases stepped
    · exact ⟨owned, fun _ _ => trivial⟩
    · exact ⟨owned.sublist (List.erase_sublist _ _), fun _ _ => trivial⟩

/-- When calls do not overlap, the `findFirst` check keeps every exact address with one
user. -/
theorem addressOwned_of_serialReach {verifyMessage : String → String → Option String}
    {db : IdentityDb} (serial : (identityService verifyMessage).SerialReach ⟨[], []⟩ db) :
    AddressOwned db :=
  serial.invariant AddressOwned LinkCleared (fun w member => absurd member (List.not_mem_nil w))
    LinkCleared.start identityStep_addressOwned

theorem two_chains_one_owner :
    AddressOwned ⟨["u1"], [⟨"0xAbC", "ETH", "u1"⟩, ⟨"0xAbC", "OPT", "u1"⟩]⟩ :=
  addressOwned_of_serialReach (Service.SerialReach.init.of_callsAlone
    [(.createUser "u1", 0), (.linkWallet "u1" (linkDto "0xAbC" "ETH"), 0),
      (.linkWallet "u1" (linkDto "0xAbC" "OPT"), 0)] (by decide) :
    (identityService sampleVerifyMessage).SerialReach ⟨[], []⟩ _)

/-- Every call of a link request whose row already exists leaves the tables as they are:
an insert, if reached, hits the unique index. -/
theorem identityStep_relink {verifyMessage : String → String → Option String}
    {db db' : IdentityDb} {choice : ℕ} {userId : String} {dto : LinkWalletDto}
    {thread : Thread IdentityRequest IdentityPc}
    {k : Continuation IdentityPc (Except IdentityError IdentityReply)}
    (isLink : thread.request = .linkWallet userId dto)
    (linked : (⟨dto.address, dto.chain, userId⟩ : WalletRow) ∈ db.wallets)
    (stepped : identityStep verifyMessage db choice thread = some (db', k)) : db' = db := by
  obtain ⟨_, pc⟩ := thread
  subst isLink
  cases pc <;> simp only [identityStep, reduceCtorEq] at stepped
  case start =>
    repeat' split at stepped
    all_goals cases stepped; rfl
  case findUser => split at stepped <;> cases stepped <;> rfl
  case create =>
    split at stepped
    · cases stepped; rfl
    · exact absurd ⟨rfl, rfl⟩ (findByAddressChain_eq_none.mp ‹_› _ linked)

theorem findFirstByAddress_of_only {wallets : List WalletRow} {row : WalletRow} (choice : ℕ)
    (member : row ∈ wallets) (only : ∀ w ∈ wallets, w.address = row.address → w = row) :
    findFirstByAddress wallets row.address choice = some row := by
  have present : 0 < (wallets.filter (·.address == row.address)).length :=
    List.length_pos_of_mem (List.mem_filter.mpr ⟨member, by simp⟩)
  obtain ⟨w, found⟩ := Option.ne_none_iff_exists'.mp
    (mt List.get?_eq_none.mp (not_le.mpr (Nat.mod_lt choice present)))
  obtain ⟨present', address⟩ := findFirstByAddress_some found
  exact found.trans (congrArg some (only w present' address))

/-- What of idempotent relinking holds: relinking an existing link never changes the
tables, and it returns the link whenever it is its address's only row, whichever row
`findFirst` is free to return. -/
theorem callAlone_relink {verifyMessage : String → String → Option String} {db : IdentityDb}
    {userId recovered : String} {dto : LinkWalletDto}
    (linked : (⟨dto.address, dto.chain, userId⟩ : WalletRow) ∈ db.wallets)
    (signed : verifyMessage dto.message dto.signature = some recovered)
    (recovers : toLowerCase recovered = toLowerCase dto.address) (choice : ℕ) :
    (∀ db' result, (identityService verifyMessage).callAlone db (.linkWallet userId dto) choice =
      some (db', result) → db' = db) ∧
    ((∀ w ∈ db.wallets, w.address = dto.address → w = ⟨dto.address, dto.chain, userId⟩) →
      (identityService verifyMessage).callAlone db (.linkWallet userId dto) choice =
        some (db, .ok (.wallet ⟨dto.address, dto.chain, userId⟩))) := by
  refine ⟨fun _ _ ran => ?_, fun only => ?_⟩
  · refine Service.runAlone_invariant (fun db' => db' = db)
      (fun db' thread => thread.request = .linkWallet userId dto ∧
        (⟨dto.address, dto.chain, userId⟩ : WalletRow) ∈ db'.wallets)
      (fun same ⟨isLink, present⟩ stepped => ?_) rfl ⟨rfl, linked⟩ ran
    obtain rfl := identityStep_relink isLink present stepped
    exact ⟨same, fun _ _ => ⟨isLink, present⟩⟩
  · have found := findFirstByAddress_of_only choice linked only
    simp [Service.callAlone, Service.runAlone, identityService, identityStep, signed, recovers,
      found]

theorem relink_only_row_returns_it :
    (identityService sampleVerifyMessage).callAlone ⟨["u1"], [⟨"0xAbC", "ETH", "u1"⟩]⟩
      (.linkWallet "u1" (linkDto "0xAbC" "ETH")) 0 =
      some (⟨["u1"], [⟨"0xAbC", "ETH", "u1"⟩]⟩, .ok (.wallet ⟨"0xAbC", "ETH", "u1"⟩)) :=
  (callAlone_relink (by decide) (by decide : sampleVerifyMessage "Link me" "0xsig" = some "0xAbC")
    (by decide) 0).2 (by decide)

/-- Wallet rows whose addresses agree ignoring letter case, one EVM account, belong to one
user. -/
def OneUserPerAccount (db : IdentityDb) : Prop :=
  ∀ w ∈ db.wallets, ∀ w' ∈ db.wallets,
    toLowerCase w.address = toLowerCase w'.address → w.userId = w'.userId

instance (db : IdentityDb) : Decidable (OneUserPerAccount db) :=
  inferInstanceAs (Decidable (∀ w ∈ db.wallets, ∀ w' ∈ db.wallets,
    toLowerCase w.address = toLowerCase w'.address → w.userId = w'.userId))

/-- Users `u1` and `u2`; `u1` links the account on ETH, then `u2` links it written in lower
case. -/
def caseVariantSchedule : List (ServiceAction IdentityRequest) :=
  [.call (.createUser "u1"), .advance 0 0, .call (.createUser "u2"), .advance 0 0,
   .call (.linkWallet "u1" (linkDto "0xAbC" "ETH")), .advance 0 0, .advance 0 0, .advance 0 0,
   .call (.linkWallet "u2" (linkDto "0xabc" "ETH")), .advance 0 0, .advance 0 0, .advance 0 0]

/-- `u1` links the account on ETH and `u2` on OPT; both pass `findFirst` before either
inserts. -/
def racingLinksSchedule : List (ServiceAction IdentityRequest) :=
  [.call (.createUser "u1"), .advance 0 0, .call (.createUser "u2"), .advance 0 0,
   .call (.linkWallet "u1" (linkDto "0xAbC" "ETH")),
   .call (.linkWallet "u2" (linkDto "0xAbC" "OPT")),
   .advance 0 0, .advance 1 0, .advance 0 0, .advance 0 0, .advance 0 0, .advance 0 0]

/-- One account ends up linked to two users, by a lower-case address in calls made one at
a time, and by two links racing past `findFirst` with the exact address. -/
theorem wallet_linked_to_two_users :
    (∃ s, (identityService sampleVerifyMessage).Reach ⟨[], []⟩ s ∧ s.inFlight = [] ∧
      (⟨"0xAbC", "ETH", "u1"⟩ : WalletRow) ∈ s.db.wallets ∧
      (⟨"0xabc", "ETH", "u2"⟩ : WalletRow) ∈ s.db.wallets ∧ ¬ OneUserPerAccount s.db) ∧
    (∃ s, (identityService sampleVerifyMessage).Reach ⟨[], []⟩ s ∧ s.inFlight = [] ∧
      (⟨"0xAbC", "ETH", "u1"⟩ : WalletRow) ∈ s.db.wallets ∧
      (⟨"0xAbC", "OPT", "u2"⟩ : WalletRow) ∈ s.db.wallets ∧ ¬ OneUserPerAccount s.db) :=
  ⟨Service.Reach.of_run caseVariantSchedule (by decide),
   Service.Reach.of_run racingLinksSchedule (by decide)⟩

/-- Linking the OPT wallet again: `findFirst` returns the older ETH row, the chains differ,
and the insert hits the unique index. -/
theorem relink_on_second_chain_fails :
    ∃ s, (identityService sampleVerifyMessage).Reach ⟨[], []⟩ s ∧ s.inFlight = [] ∧
      (⟨"0xAbC", "OPT", "u1"⟩ : WalletRow) ∈ s.db.wallets ∧
      (identityService sampleVerifyMessage).callAlone s.db
        (.linkWallet "u1" (linkDto "0xAbC" "OPT")) 0 = some (s.db, .error .uniqueViolation) :=
  Service.Reach.of_run twoChainsSchedule (by decide)

end TruthBounty
