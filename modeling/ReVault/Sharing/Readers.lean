import ReVault.Runs.Refinement

/-!
# Who can open a reachable vault

As long as every revocation is given the vault's own password, the content key is
wrapped for that password and for exactly the granted peers. Each of them opens the
container and reads the same files as the live handle.
-/

namespace ReVault

open Foundation Primitives

/-- Revoking with the vault's own password leaves the password in force. -/
theorem passwordAfter_eq {password : String} {trace : List Step}
    (own : ∀ step ∈ trace, ∀ signingPubkey other,
      step.op = .revokeAccess signingPubkey other → other = password) :
    passwordAfter password trace = password := by
  unfold passwordAfter Step.fold
  induction trace with
  | nil => rfl
  | cons step rest ih =>
      have here : (if step.accepted then step.setsPassword password else password) = password := by
        split
        · unfold Step.setsPassword
          split
          · rename_i signingPubkey other revokes
            exact own step List.mem_cons_self signingPubkey other revokes
          · rfl
        · rfl
      rw [List.foldl_cons, here]
      exact ih fun later member => own later (List.mem_cons_of_mem step member)

section

variable [Primitives]

namespace Vault

/-- Two handles list the same files and read the same contents. -/
def SameFiles (v w : Vault) : Prop :=
  w.listFiles = v.listFiles ∧ ∀ name, w.readFile name = v.readFile name

/-- A vault whose content key is wrapped for a password and for the given peers, and
under whose content key every block in use decrypts. -/
structure SharedWith (v : Vault) (password : String) (granted : List PeerId) : Prop where
  unwraps : unwrapWithPassword v.header password = .ok v.key
  slots : ∀ idx slot, idx < v.header.maxRecipients.toNat → v.readRecipientSlot idx = .ok slot →
    slot.isOccupied = true → ∀ identity : Identity,
      identity.peerId.encryptionPublic = slot.encryptionPubkey →
      unwrapAsRecipient slot identity = .ok v.key
  blocks : ∀ idx entry, idx < v.header.maxFiles.toNat → v.readSlot idx = .ok entry →
    entry.isOccupied = true → ∃ blocks, v.collectAllBlocks entry = .ok blocks ∧
      ∀ block ∈ blocks, ∃ plaintext, v.readPhysicalBlock block entry.id = .ok plaintext
  distinct : ∀ idx idx' slot slot', idx < v.header.maxRecipients.toNat →
    idx' < v.header.maxRecipients.toNat → v.readRecipientSlot idx = .ok slot →
    v.readRecipientSlot idx' = .ok slot' → slot.isOccupied = true → slot'.isOccupied = true →
    slot.signingPubkey = slot'.signingPubkey → idx = idx'
  listed : ∃ infos, v.listRecipients = .ok infos ∧
    ∀ peer, (∃ info ∈ infos, info.peerId = peer) ↔ peer ∈ granted
  opens : ∀ identity, ∃ w, openWithPassword v.file password identity = .ok w ∧ v.SameFiles w
  reads : ∀ identity : Identity, identity.peerId ∈ granted →
    ∃ w, openAsRecipient v.file identity = .ok w ∧ v.SameFiles w

/-- All sixteen recipient slots are occupied. -/
def KeyringFull (v : Vault) : Prop :=
  ∀ idx, idx < 16 → ∃ slot, v.readRecipientSlot idx = .ok slot ∧ slot.isOccupied = true

/-- A handle that grants access to every peer, except to one whose signing key is granted
and when all slots are occupied. -/
structure Admits (v : Vault) (granted : List PeerId) : Prop where
  already : ∀ peer : PeerId, (∃ other ∈ granted, other.signingPublic = peer.signingPublic) →
    ∀ draws, grantAccess peer draws v = .error (.error .alreadyGranted) v
  full : ∀ peer : PeerId, (∀ other ∈ granted, other.signingPublic ≠ peer.signingPublic) →
    v.KeyringFull → ∀ draws, grantAccess peer draws v = .error (.error .recipientTableFull) v
  admitted : ∀ peer : PeerId, (∀ other ∈ granted, other.signingPublic ≠ peer.signingPublic) →
    ¬ v.KeyringFull → ∀ draws, ∃ v', grantAccess peer draws v = .ok () v'

end Vault

variable {v : Vault} {d : Disk} {files : Files} {password : String} {granted : List PeerId}

/-! ## Keyrings and granted peers -/

/-- Some occupied slot shows a peer with a property exactly when some granted peer has it. -/
theorem Keyring.exists_slot_iff (keyring : Keyring v d password granted)
    (property : PeerId → Prop) :
    (∃ idx, d.Occupies v.header idx ∧
      property ⟨(d.recipients idx).signingPubkey, (d.recipients idx).encryptionPubkey⟩) ↔
      ∃ peer ∈ granted, property peer := by
  constructor
  · rintro ⟨idx, occupies, holds⟩
    exact ⟨_, (keyring.granted _).mp ⟨idx, occupies, rfl⟩, holds⟩
  · rintro ⟨peer, member, holds⟩
    obtain ⟨idx, occupies, rfl⟩ := (keyring.granted peer).mpr member
    exact ⟨idx, occupies, holds⟩

/-- A signing key has a slot exactly when a granted peer has it. -/
theorem Keyring.hasSigner_iff (keyring : Keyring v d password granted)
    (signingPubkey : ByteArr 32) : d.HasSigner v.header signingPubkey ↔
      ∃ peer ∈ granted, peer.signingPublic = signingPubkey :=
  keyring.exists_slot_iff fun peer => peer.signingPublic = signingPubkey

/-- So has an encryption key. -/
theorem Keyring.hasReader_iff (keyring : Keyring v d password granted)
    (encryptionPubkey : ByteArr 32) : d.HasReader v.header encryptionPubkey ↔
      ∃ peer ∈ granted, peer.encryptionPublic = encryptionPubkey :=
  keyring.exists_slot_iff fun peer => peer.encryptionPublic = encryptionPubkey

/-- A keyring of fewer than sixteen peers is not full. -/
theorem Keyring.not_full (keyring : Keyring v d password granted)
    (tracks : Tracks v.header v.file d) (size : v.header.maxRecipients.toNat = 16)
    (few : granted.length < 16) : ¬ v.KeyringFull := by
  intro full
  have occupies : ∀ idx ∈ List.range 16, d.Occupies v.header idx := by
    intro idx member
    have below := List.mem_range.mp member
    obtain ⟨slot, read, occupied⟩ := full idx below
    rw [← size] at below
    rw [Vault.readRecipientSlot_eq tracks below] at read
    cases read
    exact ⟨below, occupied⟩
  have nodup : ((List.range 16).map fun idx => (d.recipients idx).peer).Nodup := by
    refine List.nodup_range.map_on fun first inFirst second inSecond same => ?_
    exact keyring.distinct first second (occupies first inFirst) (occupies second inSecond)
      (congrArg PeerId.signingPublic same)
  have inside : ((List.range 16).map fun idx => (d.recipients idx).peer) ⊆ granted := by
    intro peer member
    obtain ⟨idx, inRange, rfl⟩ := List.mem_map.mp member
    exact (keyring.granted _).mp ⟨idx, occupies idx inRange, rfl⟩
  have counted := (nodup.subperm inside).length_le
  rw [List.length_map, List.length_range] at counted
  omega

namespace Sound

variable [Lawful] (sound : Sound v d files)

include sound

/-- Handles that are sound for the same files show the same files. -/
theorem sameFiles {w : Vault} {d' : Disk} (other : Sound w d' files)
    (shape : SameShape v.header w.header) : v.SameFiles w := by
  constructor
  · have slots : w.slotIndices = v.slotIndices := by
      unfold Vault.slotIndices
      rw [shape.maxFiles_eq]
    rw [other.listFiles_eq, sound.listFiles_eq, slots]
  · intro name
    rcases files.absent_or_present name with absent | ⟨idx, file, present⟩
    · rw [other.readFile_of_absent absent, sound.readFile_of_absent absent]
    · rw [other.readFile_of_present present, sound.readFile_of_present present]

/-- A sound vault with a sound keyring is shared with its password and its peers. -/
theorem sharedWith (keyring : Keyring v d password granted) : v.SharedWith password granted where
  unwraps := keyring.password.unwraps
  slots := by
    intro idx slot inTable read occupied identity matching
    rw [Vault.readRecipientSlot_eq sound.tracks inTable] at read
    cases read
    exact (keyring.wraps idx ⟨inTable, occupied⟩).unwraps.2 identity matching
  blocks := by
    intro idx entry inTable read occupied
    obtain ⟨file, found, rfl⟩ := sound.exists_stored inTable read occupied
    have stored := sound.stored idx file found
    obtain ⟨all, collected, perm⟩ := stored.collectAllBlocks_eq sound.tracks
    refine ⟨all, collected, fun block member => ?_⟩
    obtain ⟨use, inUses, rfl⟩ := stored.exists_use (perm.mem_iff.mp member)
    rw [← StoredFile.fileId_of_mem_uses inUses]
    exact ⟨use.plaintext, stored.readPhysicalBlock_eq sound.tracks inUses⟩
  distinct := by
    intro idx idx' slot slot' inTable inTable' read read' occupied occupied' same
    rw [Vault.readRecipientSlot_eq sound.tracks inTable] at read
    rw [Vault.readRecipientSlot_eq sound.tracks inTable'] at read'
    cases read
    cases read'
    exact keyring.distinct idx idx' ⟨inTable, occupied⟩ ⟨inTable', occupied'⟩ same
  listed := by
    obtain ⟨infos, listed, peers⟩ := Vault.listRecipients_eq sound.tracks
    exact ⟨infos, listed, fun peer => (peers peer).trans (keyring.granted peer)⟩
  opens := by
    intro identity
    obtain ⟨w, opened, other, header⟩ := sound.exists_opened keyring.password identity
    exact ⟨w, opened, sound.sameFiles other (by rw [header]; exact SameShape.refl _)⟩
  reads := by
    intro identity member
    have present := (keyring.hasReader_iff _).mpr ⟨_, member, rfl⟩
    exact ⟨_, sound.openAsRecipient_eq keyring.wraps present,
      sound.sameFiles (sound.reopened none) (SameShape.refl _)⟩

/-- The admin's handle grants access exactly when it can. -/
theorem admits (keyring : Keyring v d password granted)
    (size : v.header.maxRecipients.toNat = 16) {admin : Identity}
    (authorized : v.adminIdentity = some admin) : v.Admits granted := by
  have fullIff : v.KeyringFull ↔ ∀ idx, idx < v.header.maxRecipients.toNat →
      d.Occupies v.header idx := by
    unfold Vault.KeyringFull
    rw [size]
    refine forall₂_congr fun idx below => ?_
    rw [← size] at below
    rw [Vault.readRecipientSlot_eq sound.tracks below]
    constructor
    · rintro ⟨slot, read, occupied⟩
      cases read
      exact ⟨below, occupied⟩
    · exact fun occupies => ⟨_, rfl, occupies.2⟩
  have signerIff := keyring.hasSigner_iff
  refine ⟨?_, ?_, ?_⟩
  all_goals intro peer
  · intro present draws
    have outcome := Vault.grantAccess_yields sound authorized peer draws
    unfold Yields at outcome
    split at outcome
    · exact absurd ((signerIff _).mpr present) outcome.1
    · rename_i fault v' ran
      obtain ⟨rfl, ⟨rfl, _⟩ | ⟨_, absent, _⟩⟩ := outcome
      · exact ran
      · exact absurd ((signerIff _).mpr present) absent
  · intro absent isFull draws
    have outcome := Vault.grantAccess_yields sound authorized peer draws
    unfold Yields at outcome
    split at outcome
    · obtain ⟨_, idx, _, inTable, vacant, _⟩ := outcome
      have occupies := fullIff.mp isFull idx inTable
      rw [occupies.2] at vacant
      cases vacant
    · rename_i fault v' ran
      obtain ⟨rfl, ⟨_, present⟩ | ⟨rfl, _⟩⟩ := outcome
      · obtain ⟨other, member, same⟩ := (signerIff _).mp present
        exact absurd same (absent other member)
      · exact ran
  · intro absent notFull draws
    have outcome := Vault.grantAccess_yields sound authorized peer draws
    unfold Yields at outcome
    split at outcome
    · rename_i v' ran
      exact ⟨v', ran⟩
    · obtain ⟨_, ⟨_, present⟩ | ⟨_, _, all⟩⟩ := outcome
      · obtain ⟨other, member, same⟩ := (signerIff _).mp present
        exact absurd same (absent other member)
      · exact absurd (fullIff.mpr all) notFull

end Sound

/-! ## Reachable vaults -/

/-- A new vault has sixteen slots for recipients. -/
theorem Vault.Created.maxRecipients_eq {origin : Vault} {name description : String}
    {capacityBytes : UInt64} {admin : Identity} {draws : Draws}
    (created : Vault.Created origin name description capacityBytes password admin draws) :
    origin.header.maxRecipients.toNat = 16 := by
  obtain ⟨slot, header⟩ := created.header
  rw [header]
  rfl

namespace Run

variable [Lawful] {origin : Vault} {trace : List Step} {name description : String}
  {capacityBytes : UInt64} {admin : Identity} {draws : Draws}

/-- The admin's handle of every reachable vault grants access exactly when it can. -/
theorem admits
    (created : Vault.create name description capacityBytes password admin draws = .ok origin)
    (run : Run password origin trace v) (isAdmin : v.isAdmin = true) :
    v.Admits (grantedAfter trace) := by
  obtain ⟨d, files, healthy⟩ := run.healthy created
  obtain ⟨identity, authorized⟩ := Option.isSome_iff_exists.mp isAdmin
  refine healthy.sound.admits healthy.keyring ?_ authorized
  rw [healthy.shape.maxRecipients_eq]
  exact (Vault.create_spec created).maxRecipients_eq

/-- A peer with a new signing key can be granted access to a vault with few peers. -/
theorem exists_grant
    (created : Vault.create name description capacityBytes password admin draws = .ok origin)
    (run : Run password origin trace v) (isAdmin : v.isAdmin = true) {peer : PeerId}
    (fresh : ∀ other ∈ grantedAfter trace, other.signingPublic ≠ peer.signingPublic)
    (few : (grantedAfter trace).length < 16) (draws' : Draws) :
    ∃ v', Run password origin (trace ++ [⟨.grantAccess peer, draws', true⟩]) v' := by
  obtain ⟨d, files, healthy⟩ := run.healthy created
  have size := (Vault.create_spec created).maxRecipients_eq
  rw [← healthy.shape.maxRecipients_eq] at size
  obtain ⟨v', ran⟩ := (run.admits created isAdmin).admitted peer fresh
    (healthy.keyring.not_full healthy.sound.tracks size few) draws'
  exact ⟨v', Run.accept run ran⟩

/-- A granted peer can be revoked with a password from which a key derives. -/
theorem exists_revocation
    (created : Vault.create name description capacityBytes password admin draws = .ok origin)
    (run : Run password origin trace v) (isAdmin : v.isAdmin = true)
    {signingPubkey : ByteArr 32}
    (granted : ∃ peer ∈ grantedAfter trace, peer.signingPublic = signingPubkey) {other : String}
    {kek : MasterKey}
    (derived : MasterKey.derive (utf8 other) v.header.salt v.header.argon2Params = .ok kek)
    (draws' : Draws) :
    ∃ v', Run password origin
      (trace ++ [⟨.revokeAccess signingPubkey other, draws', true⟩]) v' := by
  obtain ⟨d, files, healthy⟩ := run.healthy created
  obtain ⟨identity, authorized⟩ := Option.isSome_iff_exists.mp isAdmin
  have present := (healthy.keyring.hasSigner_iff signingPubkey).mpr granted
  obtain ⟨v', _, _, ran, _⟩ :=
    Vault.revokeAccess_eq healthy.sound authorized present derived draws'
  exact ⟨v', Run.accept run ran⟩

/-- **Keyring.** When every revocation is given the vault's password, every reachable
vault is shared with that password and with exactly the granted peers. -/
theorem shares_key
    (created : Vault.create name description capacityBytes password admin draws = .ok origin)
    (run : Run password origin trace v)
    (own : ∀ step ∈ trace, ∀ signingPubkey other,
      step.op = .revokeAccess signingPubkey other → other = password) :
    v.SharedWith password (grantedAfter trace) ∧
      (v.isAdmin = true → v.Admits (grantedAfter trace)) := by
  obtain ⟨d, files, healthy⟩ := run.healthy created
  have keyring := healthy.keyring
  rw [passwordAfter_eq own] at keyring
  exact ⟨healthy.sound.sharedWith keyring, run.admits created⟩

end Run

end

namespace Transparent

/-- A peer can be granted access to the sample container. -/
theorem exists_granted : ∃ origin v,
    Vault.create "v" "" 65536 "p" (identity 1) (draws 1) = .ok origin ∧
    Run "p" origin [⟨.addFile "a" [1, 2, 3], draws 2, true⟩,
      ⟨.grantAccess (identity 2).peerId, draws 3, true⟩] v := by
  obtain ⟨origin, v, created, _, run⟩ := exists_added
  have isAdmin := Run.isAdmin created (show Run _ _ ([] ++ [_]) _ from run) rfl rfl
  obtain ⟨v', run'⟩ := run.exists_grant created isAdmin
    (fun other member => absurd member List.not_mem_nil) (by decide) (draws 3)
  exact ⟨origin, v', created, run'⟩

/-- A granted peer shares the key. -/
theorem shares_key_granted : ∃ origin v,
    Vault.create "v" "" 65536 "p" (identity 1) (draws 1) = .ok origin ∧
    Run "p" origin [⟨.addFile "a" [1, 2, 3], draws 2, true⟩,
      ⟨.grantAccess (identity 2).peerId, draws 3, true⟩] v ∧
    v.SharedWith "p" [(identity 2).peerId] ∧
    (v.isAdmin = true → v.Admits [(identity 2).peerId]) := by
  obtain ⟨origin, v, created, run⟩ := exists_granted
  refine ⟨origin, v, created, run, Run.shares_key created run fun step member => ?_⟩
  rcases List.mem_cons.mp member with rfl | later
  · intro signingPubkey other impossible
    cases impossible
  · rw [List.mem_singleton.mp later]
    intro signingPubkey other impossible
    cases impossible

end Transparent

end ReVault
