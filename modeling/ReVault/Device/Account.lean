import ReVault.Core.Summary
import ReVault.Integrity.Chain
import ReVault.Ledger.Refinement
import ReVault.Runs.Capacity

/-!
# Accounts

What a container at rest is to those who have its password: the metadata in the clear, the
password in force, the admin's signing key, the number of records on its chain, and the
ledger. Every handle on a container that holds an account answers as the account says.
-/

namespace ReVault

open Foundation Primitives

/-- A container, without bytes and keys. -/
structure Account where
  summary : VaultSummary
  password : String
  adminSigningPubkey : ByteArr 32
  records : Nat
  ledger : Ledger
  deriving DecidableEq

namespace Account

/-- The bytes of a container of a capacity: its regions and its blocks. -/
def containerSize (capacityBytes : UInt64) : Nat :=
  headerSize + (capacityBytes.toNat / 4096 + 7) / 8 +
    (Vault.newMaxFiles capacityBytes).toNat * entrySizeConst.toNat +
    maxRecipientsConst.toNat * recipientSlotSizeConst.toNat +
    (Vault.newMaxChainRecords (Vault.newMaxFiles capacityBytes)).toNat *
      chainRecordSizeConst.toNat +
    capacityBytes.toNat / 4096 * 4096

/-- The account of a new container: no files, no peers, and the record of its creation. -/
def new [Primitives] (name description : String) (capacityBytes : UInt64) (password : String)
    (admin : Identity) (draws : Draws) : Account where
  summary := ⟨name, description, capacityBytes, draws.recordTime⟩
  password := password
  adminSigningPubkey := admin.peerId.signingPublic
  records := 1
  ledger := Ledger.empty (capacityBytes.toNat / 4096) (Vault.newMaxFiles capacityBytes).toNat
    maxRecipientsConst.toNat

/-- What creating a container comes to. -/
def create [Primitives] (name description : String) (capacityBytes : UInt64) (password : String)
    (admin : Identity) (draws : Draws) : Except VaultError Account :=
  if (utf8 name).length > maxNameLen then .error .fieldTooLong
  else if (utf8 description).length > maxDescLen then .error .fieldTooLong
  else if capacityBytes.toNat / 4096 = 0 then .error .capacityTooSmall
  else if containerSize capacityBytes > ioLimit then .error .io
  else .ok (new name description capacityBytes password admin draws)

/-- An account is created with its password. -/
theorem password_of_create [Primitives] {name description password : String}
    {capacityBytes : UInt64} {admin : Identity} {draws : Draws} {account : Account}
    (made : create name description capacityBytes password admin draws = .ok account) :
    account.password = password := by
  rw [create] at made
  split at made
  · cases made
  split at made
  · cases made
  split at made
  · cases made
  split at made
  · cases made
  cases made
  rfl

/-- What an operation on the admin's handle comes to. -/
def apply (op : Op) (draws : Draws) (account : Account) : Except VaultError Account :=
  (account.ledger.apply op draws).map fun ledger =>
    { account with
      password := Step.setsPassword ⟨op, draws, true⟩ account.password
      records := if op.mutates then account.records + 1 else account.records
      ledger := ledger }

/-- The password changes with a revocation only, to the one it is given. -/
theorem password_of_apply {op : Op} {draws : Draws} {account next : Account}
    (applied : account.apply op draws = .ok next) : next.password = account.password ∨
      ∃ signingPubkey, op = .revokeAccess signingPubkey next.password := by
  rw [apply] at applied
  cases stepped : account.ledger.apply op draws with
  | error error =>
      rw [stepped] at applied
      cases applied
  | ok ledger =>
      rw [stepped] at applied
      cases applied
      cases op with
      | revokeAccess signingPubkey password => exact Or.inr ⟨signingPubkey, rfl⟩
      | _ => exact Or.inl rfl

/-- The bytes that the contents take. -/
def usedBytes (account : Account) : Nat := defaultBlockSize.toNat * account.ledger.used

end Account

/-- The metadata and the parameters of a container never change. -/
theorem SameShape.metadata_eq {h h' : Header} (same : SameShape h h') :
    h'.summary = h.summary ∧ h'.blockSize = h.blockSize ∧ h'.argon2Params = h.argon2Params ∧
      h'.salt = h.salt := by
  rw [SameShape] at same
  rw [same]
  exact ⟨rfl, rfl, rfl, rfl⟩

variable [Primitives]

/-- What the ghosts of a vault say of its account. -/
structure Account.Of (account : Account) (v : Vault) (d : Disk) (files : Files) : Prop where
  sound : Sound v d files
  keyring : ∃ granted, Keyring v d account.password granted
  ring : ∃ history, Ring v.header d history ∧ history.length = account.records
  ledger : account.ledger.Of v.header d files
  summary : v.summary = account.summary
  adminSigningPubkey : v.header.adminSigningPubkey = account.adminSigningPubkey
  admin : ∀ identity, v.adminIdentity = some identity →
    identity.peerId.signingPublic = v.header.adminSigningPubkey
  blockSize : v.header.blockSize = defaultBlockSize
  fits : v.header.Fits
  argon2Params : v.header.argon2Params = Argon2Params.default

/-- A vault whose container holds an account. -/
def Vault.Holds (v : Vault) (account : Account) : Prop := ∃ d files, account.Of v d files

/-- A file that holds an account. -/
def Account.In (account : Account) (file : Bytes) : Prop :=
  ∃ v : Vault, v.file = file ∧ v.Holds account

/-- The identity that a handle keeps: the local one, when it is the admin's. -/
def Account.authorize (account : Account) (identity : Identity) : Option Identity :=
  if identity.peerId.signingPublic = account.adminSigningPubkey then some identity else none

namespace Account.Of

variable {account : Account} {v v' : Vault} {d d' : Disk} {files files' : Files}

/-- Another handle on the same container. -/
theorem of_container (of : account.Of v d files) (file : v'.file = v.file)
    (header : v'.header = v.header) (allocator : v'.allocator = v.allocator)
    (key : v'.key = v.key) (admin : ∀ identity, v'.adminIdentity = some identity →
      identity.peerId.signingPublic = v'.header.adminSigningPubkey) : account.Of v' d files where
  sound := of.sound.of_container file header allocator key
  keyring := by
    obtain ⟨granted, keyring⟩ := of.keyring
    exact ⟨granted, keyring.frame (by rw [header]; exact SameShape.refl _)
      ⟨key, by rw [header], rfl⟩⟩
  ring := by rw [header]; exact of.ring
  ledger := by rw [header]; exact of.ledger
  summary := by rw [Vault.summary, header]; exact of.summary
  adminSigningPubkey := by rw [header]; exact of.adminSigningPubkey
  admin := admin
  blockSize := by rw [header]; exact of.blockSize
  fits := by rw [header]; exact of.fits
  argon2Params := by rw [header]; exact of.argon2Params

/-- An accepted operation leads to the next account. -/
theorem step [Lawful] (of : account.Of v d files) {op : Op} {draws : Draws} {ledger : Ledger}
    (took : Took draws v d files op v' d' files') (next : ledger.Of v'.header d' files') :
    Account.Of { account with
      password := Step.setsPassword ⟨op, draws, true⟩ account.password
      records := if op.mutates then account.records + 1 else account.records
      ledger := ledger } v' d' files' where
  sound := took.sound of.sound
  keyring := by
    obtain ⟨granted, keyring⟩ := of.keyring
    exact ⟨_, Took.keyring ⟨op, draws, true⟩ took keyring⟩
  ring := by
    obtain ⟨history, ring, length⟩ := of.ring
    cases appends : op.chainOp with
    | some chainOp =>
        obtain ⟨identity, _, _, _, authorized, commits⟩ := took.commits_as appends
        have mutates : op.mutates = true := by rw [← op.isSome_chainOp, appends]; rfl
        refine ⟨_, ring.push (of.admin identity authorized) commits, ?_⟩
        simp [mutates, length]
    | none =>
        have reads : op.mutates = false := by rw [← op.isSome_chainOp, appends]; rfl
        obtain ⟨_, header, rfl, _⟩ := took.container reads
        exact ⟨history, by rw [header]; exact ring, by simp [reads, length]⟩
  ledger := next
  summary := took.sameShape.metadata_eq.1.trans of.summary
  adminSigningPubkey := by rw [took.sameShape.ring_eq.1]; exact of.adminSigningPubkey
  admin := took.admin of.admin
  blockSize := took.sameShape.metadata_eq.2.1.trans of.blockSize
  fits := took.sameShape.fits of.fits
  argon2Params := took.sameShape.metadata_eq.2.2.1.trans of.argon2Params

end Account.Of

/-! ## A new container -/

omit [Primitives] in
/-- A capacity is too small when it has no block. -/
theorem Account.blocks_iff (capacityBytes : UInt64) :
    capacityBytes / defaultBlockSize.toUInt64 = 0 ↔ capacityBytes.toNat / 4096 = 0 := by
  have quotient : (capacityBytes / defaultBlockSize.toUInt64).toNat =
      capacityBytes.toNat / 4096 := UInt64.toNat_div ..
  rw [← quotient, ← UInt64.toNat_inj]
  rfl

section Create

variable [Lawful] {name description password : String} {capacityBytes : UInt64}
  {admin : Identity} {draws : Draws}

omit [Lawful] in
/-- The header of a new container, with its offsets. -/
private theorem header_of_created {v : Vault}
    (created : Vault.Created v name description capacityBytes password admin draws) :
    ∃ slot, v.header = Vault.newHeader name description capacityBytes
        (Vault.newMaxFiles capacityBytes)
        (Vault.newMaxChainRecords (Vault.newMaxFiles capacityBytes)) slot admin.peerId
        (Vault.genesisRecord name description capacityBytes admin draws) draws ∧
      Vault.NewOffsets v.header := by
  obtain ⟨slot, header⟩ := created.header
  refine ⟨slot, header, ?_⟩
  rw [header]
  exact Vault.newHeader_offsets _ _ _ _ _ _ _ (Vault.newMaxFiles_bounds capacityBytes).2
    (Vault.newMaxChainRecords_bounds _).2

/-- A new container holds a new account. -/
theorem Vault.Created.holds {v : Vault}
    (created : Vault.Created v name description capacityBytes password admin draws)
    (small : capacityBytes.toNat < Vault.capacityLimit) :
    v.Holds (Account.new name description capacityBytes password admin draws) := by
  obtain ⟨slot, header, offsets⟩ := header_of_created created
  have sized := (Vault.sized_iff_of_newHeader header offsets).mpr small
  refine ⟨_, _, {
    sound := created.sound
    keyring := ⟨_, created.keyring⟩
    ring := ⟨_, Run.ring_created created, rfl⟩
    ledger := ⟨?_, ?_, ?_⟩
    summary := ?_
    adminSigningPubkey := ?_
    admin := ?_
    blockSize := ?_
    fits := Vault.fits_of_sized created.sized sized
    argon2Params := ?_ }⟩
  · exact (Vault.blockCount_of_newHeader header).symm
  · rw [header]
    rfl
  · rw [header]
    exact congrArg (Slots.tabulate _) (funext fun _ => RecipientSlot.holder_empty.symm)
  · rw [Vault.summary, header]
    rfl
  · rw [header]
    rfl
  · intro identity held
    rw [created.adminIdentity] at held
    cases held
    rw [header]
    rfl
  · rw [header]
    rfl
  · rw [header]
    rfl

/-- Creating a container comes to what creating its account comes to. -/
theorem Vault.create_follows (name description : String) (admin : Identity)
    (small : capacityBytes.toNat < Vault.capacityLimit)
    (derives : argon2id (utf8 password) draws.salt Argon2Params.default ≠ none) :
    match Account.create name description capacityBytes password admin draws with
    | .ok account => ∃ v, Vault.create name description capacityBytes password admin draws =
        .ok v ∧ v.Holds account
    | .error error => Vault.create name description capacityBytes password admin draws =
        .error (.error error) := by
  obtain ⟨kek, derived⟩ := Option.ne_none_iff_exists'.mp derives
  rw [Account.create]
  by_cases nameFits : (utf8 name).length > maxNameLen
  · rw [if_pos nameFits]
    exact if_pos nameFits
  by_cases descriptionFits : (utf8 description).length > maxDescLen
  · rw [if_neg nameFits, if_pos descriptionFits]
    exact (if_neg nameFits).trans (if_pos descriptionFits)
  rw [if_neg nameFits, if_neg descriptionFits]
  by_cases blocks : capacityBytes / defaultBlockSize.toUInt64 = 0
  · rw [if_pos ((Account.blocks_iff _).mp blocks)]
    exact (if_neg nameFits).trans ((if_neg descriptionFits).trans (if_pos blocks))
  rw [if_neg (mt (Account.blocks_iff _).mpr blocks)]
  obtain ⟨slot, h, regions, header, layout, offsets, _, made⟩ := Vault.create_eq admin
    (Nat.not_lt.mp nameFits) (Nat.not_lt.mp descriptionFits) blocks derived
  have sized := (Vault.sized_iff_of_newHeader header offsets).mpr small
  have blockSize : h.blockSize.toNat = 4096 := by
    rw [header]
    rfl
  have total : h.totalContainerSize.toNat = Account.containerSize capacityBytes := by
    rw [Vault.toNat_totalContainerSize sized, Vault.dataOffset_of_newHeader header offsets,
      Vault.blockCount_of_newHeader header, blockSize]
    rfl
  rw [total] at made
  by_cases large : Account.containerSize capacityBytes > ioLimit
  · rw [if_pos large] at made ⊢
    exact made
  · rw [if_neg large] at made ⊢
    exact ⟨_, made, (Vault.create_spec made).holds small⟩

end Create

end ReVault
