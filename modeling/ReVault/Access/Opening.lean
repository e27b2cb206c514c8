import ReVault.Access.Revocation

/-!
# Opening a container

Opening the container of a sound vault, with the password or as a granted peer, gives
a handle with the same header, bitmap and content key. A peer whose encryption key no
slot holds is turned away.
-/

namespace ReVault

open Foundation Primitives

/-- A slot is held under an encryption key. -/
def Disk.HasReader (d : Disk) (h : Header) (encryptionPubkey : ByteArr 32) : Prop :=
  ∃ idx, d.Occupies h idx ∧ (d.recipients idx).encryptionPubkey = encryptionPubkey

/-- A fresh handle on the container of a vault. -/
def Vault.reopened (v : Vault) (adminIdentity : Option Identity) : Vault :=
  { v with adminIdentity := adminIdentity, changeLog := [], seals := [] }

variable [Primitives]

namespace Sound

variable {v : Vault} {d : Disk} {files : Files} (sound : Sound v d files)

include sound

/-- The header of the handle is in its container. -/
theorem readHeader_eq : readHeader v.file = .ok v.header := by
  rw [← sound.header]
  exact sound.tracks.readHeader_eq

/-- So is its bitmap. -/
theorem readAllocator_eq : readAllocator v.file v.header = .ok v.allocator := by
  rw [sound.tracks.readAllocator_eq, sound.bitmap, ← sound.counted]
  exact congrArg Except.ok v.allocator.fromBytes_asBytes

/-- A fresh handle is as sound as the vault. -/
theorem reopened (adminIdentity : Option Identity) : Sound (v.reopened adminIdentity) d files :=
  sound.of_container rfl rfl rfl rfl

/-- Opening with a password fails when the key slot does not unwrap. -/
theorem openWithPassword_error {password : String} {fault : Fault}
    (fails : Vault.unwrapWithPassword v.header password = .error fault) (identity : Identity) :
    Vault.openWithPassword v.file password identity = .error fault := by
  unfold Vault.openWithPassword
  rw [except_bind_of_ok sound.readHeader_eq, except_bind_of_error fails]

/-- Opening with a password that unwraps some key. -/
theorem openWithPassword_of_unwraps {password : String} {key : MasterKey}
    (unwraps : Vault.unwrapWithPassword v.header password = .ok key) (identity : Identity) :
    Vault.openWithPassword v.file password identity = .ok { v with
      key := key
      adminIdentity :=
        if identity.peerId.signingPublic = v.header.adminSigningPubkey then some identity
        else none
      changeLog := []
      seals := [] } := by
  unfold Vault.openWithPassword
  rw [except_bind_of_ok sound.readHeader_eq, except_bind_of_ok unwraps,
    except_bind_of_ok sound.readAllocator_eq]

/-- **Opening with the password** of a sound keyring gives the vault back. -/
theorem openWithPassword_eq [Lawful] {password : String}
    (wraps : WrapsForPassword v.header password v.key) (identity : Identity) :
    Vault.openWithPassword v.file password identity = .ok (v.reopened
      (if identity.peerId.signingPublic = v.header.adminSigningPubkey then some identity
        else none)) :=
  sound.openWithPassword_of_unwraps wraps.unwraps identity

/-- The handle that the password opens is sound for the same files. -/
theorem exists_opened [Lawful] {password : String}
    (wraps : WrapsForPassword v.header password v.key) (identity : Identity) :
    ∃ w, Vault.openWithPassword v.file password identity = .ok w ∧ Sound w d files ∧
      w.header = v.header :=
  ⟨_, sound.openWithPassword_eq wraps identity, sound.reopened _, rfl⟩

/-- Opening reads every slot for a recipient. -/
private theorem readRecipients : ∀ idx ∈ List.range v.header.maxRecipients.toNat,
    Vault.readRecipientSlotAt v.file v.header idx = .ok (d.recipients idx) :=
  fun _ member => sound.tracks.readRecipientSlotAt_eq (List.mem_range.mp member)

omit [Primitives] sound in
/-- The slots that a search for an encryption key stops at. -/
private theorem reader_iff (encryptionPubkey : ByteArr 32) {idx : Nat}
    (inTable : idx < v.header.maxRecipients.toNat) :
    ((d.recipients idx).isOccupied &&
        (d.recipients idx).encryptionPubkey == encryptionPubkey) = true ↔
      d.Occupies v.header idx ∧ (d.recipients idx).encryptionPubkey = encryptionPubkey := by
  rw [Bool.and_eq_true, beq_iff_eq]
  exact ⟨fun ⟨occupied, same⟩ => ⟨⟨inTable, occupied⟩, same⟩,
    fun ⟨occupies, same⟩ => ⟨occupies.2, same⟩⟩

/-- An identity whose encryption key no slot holds is turned away. -/
theorem openAsRecipient_of_absent {identity : Identity}
    (absent : ¬ d.HasReader v.header identity.peerId.encryptionPublic) :
    Vault.openAsRecipient v.file identity = .error (.error .accessNotGranted) := by
  unfold Vault.openAsRecipient
  rw [except_bind_of_ok sound.readHeader_eq, findSlot_eq sound.readRecipients,
    List.find?_eq_none.mpr]
  · rfl
  · intro idx member isMatch
    exact absent ⟨idx, (reader_iff _ (List.mem_range.mp member)).mp isMatch⟩

/-- **Opening as a recipient** whose encryption key some slot holds gives the vault back,
without the admin's rights. -/
theorem openAsRecipient_eq [Lawful] {identity : Identity}
    (wraps : ∀ idx, d.Occupies v.header idx → WrapsKey v.key (d.recipients idx))
    (present : d.HasReader v.header identity.peerId.encryptionPublic) :
    Vault.openAsRecipient v.file identity = .ok (v.reopened none) := by
  obtain ⟨idx, occupies, same⟩ := present
  unfold Vault.openAsRecipient
  rw [except_bind_of_ok sound.readHeader_eq, findSlot_eq sound.readRecipients]
  cases searched : (List.range v.header.maxRecipients.toNat).find? fun idx =>
      (d.recipients idx).isOccupied &&
        (d.recipients idx).encryptionPubkey == identity.peerId.encryptionPublic with
  | none =>
      have missed := List.find?_eq_none.mp searched idx (List.mem_range.mpr occupies.1)
      exact absurd ((reader_iff _ occupies.1).mpr ⟨occupies, same⟩) missed
  | some found =>
      have inTable := List.mem_range.mp (List.mem_of_find?_eq_some searched)
      have isMatch := List.find?_some searched
      obtain ⟨held, reader⟩ := (reader_iff _ inTable).mp isMatch
      have unwrapped := (wraps found held).unwraps.2 identity reader.symm
      change (Vault.unwrapAsRecipient (d.recipients found) identity >>= _) = _
      rw [except_bind_of_ok unwrapped, except_bind_of_ok sound.readAllocator_eq]
      rfl

end Sound

end ReVault
