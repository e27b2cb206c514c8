import ReVault.Files.Operations

/-!
# The keyring

The content key is wrapped once for the admin's password and once for every granted
peer. A keyring is sound when each of these wraps unwraps to the current content key
and the occupied slots are those of the granted peers, with distinct signing keys.
-/

namespace ReVault

open Foundation Primitives

/-- The peer a slot was granted to. -/
def RecipientSlot.peer (slot : RecipientSlot) : PeerId :=
  ⟨slot.signingPubkey, slot.encryptionPubkey⟩

/-- A slot that a grant has written is occupied. -/
theorem RecipientSlot.isOccupied_of_flags {slot : RecipientSlot}
    (flags : slot.flags = recipientFlagOccupied) : slot.isOccupied = true := by
  unfold isOccupied
  rw [flags]
  decide

/-- A slot that is occupied. -/
def Disk.Occupies (d : Disk) (h : Header) (idx : Nat) : Prop :=
  idx < h.maxRecipients.toNat ∧ (d.recipients idx).isOccupied = true

/-- The peers that hold a slot. -/
def Disk.HasPeer (d : Disk) (h : Header) (peer : PeerId) : Prop :=
  ∃ idx, d.Occupies h idx ∧ (d.recipients idx).peer = peer

variable [Primitives]

/-- A slot whose wrapped key was made from a content key for its encryption key. -/
def WrapsKey (key : MasterKey) (slot : RecipientSlot) : Prop :=
  ∃ ephemeral nonce, wrapDekForRecipient ephemeral nonce slot.encryptionPubkey key =
    .ok slot.wrappedDek

/-- A header whose key slot was made from a content key for a password. -/
def WrapsForPassword (h : Header) (password : String) (key : MasterKey) : Prop :=
  ∃ kek nonce, MasterKey.derive (utf8 password) h.salt h.argon2Params = .ok kek ∧
    kek.encryptRandomNonce nonce key.toList adminKeySlotAad = .ok h.adminKeySlot

/-- The wraps of the content key: for the password, and for exactly the granted peers. -/
structure Keyring (v : Vault) (d : Disk) (password : String) (granted : List PeerId) :
    Prop where
  password : WrapsForPassword v.header password v.key
  wraps : ∀ idx, d.Occupies v.header idx → WrapsKey v.key (d.recipients idx)
  distinct : ∀ idx idx', d.Occupies v.header idx → d.Occupies v.header idx' →
    (d.recipients idx).signingPubkey = (d.recipients idx').signingPubkey → idx = idx'
  granted : ∀ peer, d.HasPeer v.header peer ↔ peer ∈ granted

/-- A peer is granted under a signing key. -/
def Disk.HasSigner (d : Disk) (h : Header) (signingPubkey : ByteArr 32) : Prop :=
  ∃ idx, d.Occupies h idx ∧ (d.recipients idx).signingPubkey = signingPubkey

/-! ## Unwrapping -/

section Unwrap

variable [Lawful]

/-- The wrapped key of a slot has the fixed length and unwraps with the matching secret. -/
theorem WrapsKey.unwraps {key : MasterKey} {slot : RecipientSlot} (wraps : WrapsKey key slot) :
    slot.wrappedDek.length = wrappedDekLen ∧
      ∀ identity : Identity, identity.peerId.encryptionPublic = slot.encryptionPubkey →
        Vault.unwrapAsRecipient slot identity = .ok key := by
  obtain ⟨ephemeral, nonce, wrapped⟩ := wraps
  obtain ⟨made, wrapped', sized, unwraps⟩ :=
    wrapDekForRecipient_spec ephemeral nonce slot.encryptionPubkey key
  rw [wrapped] at wrapped'
  cases wrapped'
  refine ⟨sized, fun identity matching => ?_⟩
  unfold Vault.unwrapAsRecipient
  rw [if_neg (not_not_intro sized)]
  exact unwraps identity.encryption matching

/-- The key slot of a header unwraps with its password. -/
theorem WrapsForPassword.unwraps {h : Header} {password : String} {key : MasterKey}
    (wraps : WrapsForPassword h password key) :
    Vault.unwrapWithPassword h password = .ok key := by
  obtain ⟨kek, nonce, derived, encrypted⟩ := wraps
  obtain ⟨blob, encrypted', _, decrypted⟩ := encryptRandomNonce_spec kek nonce key adminKeySlotAad
  rw [encrypted] at encrypted'
  cases encrypted'
  unfold Vault.unwrapWithPassword
  rw [except_bind_of_ok derived, except_bind_of_ok decrypted, toArr?_toList]

end Unwrap

/-! ## Scanning the keyring -/

namespace Vault

variable {v : Vault} {d : Disk}

/-- Every slot for a recipient is read back. -/
theorem readRecipients (tracks : Tracks v.header v.file d) :
    ∀ idx ∈ v.recipientIndices, v.readRecipientSlot idx = .ok (d.recipients idx) :=
  fun _ member => readRecipientSlot_eq tracks (List.mem_range.mp member)

omit [Primitives] in
/-- The slots that a search for a signing key stops at. -/
private theorem signer_iff (signingPubkey : ByteArr 32) {idx : Nat}
    (inTable : idx < v.header.maxRecipients.toNat) :
    ((d.recipients idx).isOccupied && (d.recipients idx).signingPubkey == signingPubkey) = true ↔
      d.Occupies v.header idx ∧ (d.recipients idx).signingPubkey = signingPubkey := by
  rw [Bool.and_eq_true, beq_iff_eq]
  exact ⟨fun ⟨occupied, same⟩ => ⟨⟨inTable, occupied⟩, same⟩,
    fun ⟨occupies, same⟩ => ⟨occupies.2, same⟩⟩

/-- A search for a peer without a slot finds nothing. -/
theorem findRecipientSlot_of_absent (tracks : Tracks v.header v.file d)
    {signingPubkey : ByteArr 32} (absent : ¬ d.HasSigner v.header signingPubkey) :
    v.findRecipientSlotBySigningKey signingPubkey = .ok none := by
  unfold findRecipientSlotBySigningKey
  rw [findSlot_eq (readRecipients tracks), List.find?_eq_none.mpr]
  · rfl
  · intro idx member isMatch
    exact absent ⟨idx, (signer_iff signingPubkey (List.mem_range.mp member)).mp isMatch⟩

/-- A search for a peer with a slot finds one of them. -/
theorem findRecipientSlot_of_present (tracks : Tracks v.header v.file d)
    {signingPubkey : ByteArr 32} (present : d.HasSigner v.header signingPubkey) :
    ∃ idx, v.findRecipientSlotBySigningKey signingPubkey = .ok (some (idx, d.recipients idx)) ∧
      d.Occupies v.header idx ∧ (d.recipients idx).signingPubkey = signingPubkey := by
  obtain ⟨idx, occupies, same⟩ := present
  unfold findRecipientSlotBySigningKey
  rw [findSlot_eq (readRecipients tracks)]
  cases searched : v.recipientIndices.find? fun idx =>
      (d.recipients idx).isOccupied && (d.recipients idx).signingPubkey == signingPubkey with
  | none =>
      have missed := List.find?_eq_none.mp searched idx (List.mem_range.mpr occupies.1)
      exact absurd ((signer_iff signingPubkey occupies.1).mpr ⟨occupies, same⟩) missed
  | some found =>
      have inTable := List.mem_range.mp (List.mem_of_find?_eq_some searched)
      have isMatch := List.find?_some searched
      exact ⟨found, rfl, (signer_iff signingPubkey inTable).mp isMatch⟩

/-- The search for a free recipient slot fails exactly when all are occupied. -/
theorem findFreeRecipientSlot_eq (tracks : Tracks v.header v.file d) :
    (∃ idx, v.findFreeRecipientSlot = .ok (some (idx, d.recipients idx)) ∧
      idx < v.header.maxRecipients.toNat ∧ (d.recipients idx).isOccupied = false) ∨
    (v.findFreeRecipientSlot = .ok none ∧
      ∀ idx, idx < v.header.maxRecipients.toNat → (d.recipients idx).isOccupied = true) := by
  unfold findFreeRecipientSlot
  rw [findSlot_eq (readRecipients tracks)]
  cases searched : v.recipientIndices.find? fun idx => !(d.recipients idx).isOccupied with
  | none =>
      refine Or.inr ⟨rfl, fun idx inTable => ?_⟩
      have missed := List.find?_eq_none.mp searched idx (List.mem_range.mpr inTable)
      rwa [Bool.not_eq_true', Bool.not_eq_false] at missed
  | some idx =>
      have isFree := List.find?_some searched
      rw [Bool.not_eq_true'] at isFree
      exact Or.inl ⟨idx, rfl, List.mem_range.mp (List.mem_of_find?_eq_some searched), isFree⟩

/-- Listing the recipients returns the peers of the occupied slots. -/
theorem listRecipients_eq (tracks : Tracks v.header v.file d) :
    ∃ infos, v.listRecipients = .ok infos ∧
      ∀ peer, (∃ info ∈ infos, info.peerId = peer) ↔ d.HasPeer v.header peer := by
  refine ⟨_, except_bind_of_ok (keepSlots_eq (readRecipients tracks) _), fun peer => ?_⟩
  constructor
  · rintro ⟨info, member, rfl⟩
    obtain ⟨slot, kept, rfl⟩ := List.mem_map.mp member
    obtain ⟨idx, inFilter, rfl⟩ := List.mem_map.mp kept
    obtain ⟨inTable, occupied⟩ := List.mem_filter.mp inFilter
    exact ⟨idx, ⟨List.mem_range.mp inTable, occupied⟩, rfl⟩
  · rintro ⟨idx, occupies, rfl⟩
    refine ⟨_, List.mem_map.mpr ⟨(idx, d.recipients idx), List.mem_map.mpr ⟨idx, ?_, rfl⟩, rfl⟩,
      rfl⟩
    exact List.mem_filter.mpr ⟨List.mem_range.mpr occupies.1, occupies.2⟩

end Vault

/-! ## What leaves the stored files alone -/

/-- A vault stays sound when its files, its bitmap and its content key are untouched. -/
theorem Sound.frame {v v' : Vault} {d d' : Disk} {files : Files} (sound : Sound v d files)
    (tracks : Tracks v'.header v'.file d') (shape : SameShape v.header v'.header)
    (header : d'.header = v'.header) (key : v'.key = v.key)
    (allocator : v'.allocator = v.allocator) (entries : d'.entries = d.entries)
    (bitmap : d'.bitmap = d.bitmap) (blocks : d'.blocks = d.blocks) : Sound v' d' files where
  tracks := tracks
  counted := by rw [allocator, shape.blockCount_eq, sound.counted]
  shown := by
    intro idx file found
    rw [entries, shape.maxFiles_eq]
    exact sound.shown idx file found
  stored := by
    intro idx file found
    rw [key]
    exact ((sound.stored idx file found).of_sameShape shape).of_blocks fun block _ => by
      rw [blocks]
  named := sound.named
  owned := by
    rw [allocator]
    exact sound.owned
  header := header
  bitmap := by rw [bitmap, allocator, sound.bitmap]
  vacant := by
    intro idx inTable vacant
    rw [shape.maxFiles_eq] at inTable
    rw [entries]
    exact sound.vacant idx inTable vacant

/-- Soundness is about the container and the header, bitmap and key of its handle. -/
theorem Sound.of_container {v v' : Vault} {d : Disk} {files : Files} (sound : Sound v d files)
    (file : v'.file = v.file) (header : v'.header = v.header)
    (allocator : v'.allocator = v.allocator) (key : v'.key = v.key) : Sound v' d files := by
  have shape : SameShape v.header v'.header := by
    rw [header]
    exact SameShape.refl _
  refine sound.frame ?_ shape (sound.header.trans header.symm) key allocator rfl rfl rfl
  rw [header, file]
  exact sound.tracks

omit [Primitives] in
/-- The table of recipients keeps its length. -/
theorem SameShape.maxRecipients_eq {h h' : Header} (same : SameShape h h') :
    h'.maxRecipients = h.maxRecipients := by
  unfold SameShape at same
  rw [same]

omit [Primitives] in
/-- Which slots are occupied depends on the recipients only. -/
theorem SameShape.occupies_iff {h h' : Header} (same : SameShape h h') {d d' : Disk}
    (recipients : d'.recipients = d.recipients) (idx : Nat) :
    d'.Occupies h' idx ↔ d.Occupies h idx := by
  unfold Disk.Occupies
  rw [same.maxRecipients_eq, recipients]

/-- The wrapped key is still the one of the password. -/
theorem WrapsForPassword.of_sameShape {h h' : Header} (same : SameShape h h')
    (slot : h'.adminKeySlot = h.adminKeySlot) {password : String} {key : MasterKey}
    (wraps : WrapsForPassword h password key) : WrapsForPassword h' password key := by
  obtain ⟨kek, nonce, derived, encrypted⟩ := wraps
  refine ⟨kek, nonce, ?_, by rw [slot]; exact encrypted⟩
  unfold SameShape at same
  rw [same]
  exact derived

/-- A keyring survives what leaves the keys alone. -/
theorem Keyring.frame {v v' : Vault} {d d' : Disk} {password : String} {granted : List PeerId}
    (keyring : Keyring v d password granted) (shape : SameShape v.header v'.header)
    (keeps : KeepsKeys v v' d d') : Keyring v' d' password granted where
  password := by
    rw [keeps.key]
    exact keyring.password.of_sameShape shape keeps.adminKeySlot
  wraps := by
    intro idx occupies
    rw [shape.occupies_iff keeps.recipients] at occupies
    rw [keeps.key, keeps.recipients]
    exact keyring.wraps idx occupies
  distinct := by
    intro idx idx' occupies occupies'
    rw [shape.occupies_iff keeps.recipients] at occupies occupies'
    rw [keeps.recipients]
    exact keyring.distinct idx idx' occupies occupies'
  granted := by
    intro peer
    rw [← keyring.granted]
    unfold Disk.HasPeer
    simp only [shape.occupies_iff keeps.recipients, keeps.recipients]

/-! ## Granting -/

namespace Vault

variable {v : Vault} {d : Disk} {files : Files}

/-- What granting access does: one free slot takes a wrap of the content key. -/
structure Grants (v v' : Vault) (d d' : Disk) (files : Files) (idx : Nat) (peer : PeerId)
    (record : ChainRecord) : Prop where
  commits : Commits v v' d d' record
  key : v'.key = v.key
  adminKeySlot : v'.header.adminKeySlot = v.header.adminKeySlot
  sound : Sound v' d' files
  seals : v'.seals = v.seals
  recipients : ∃ slot : RecipientSlot, slot.peer = peer ∧ slot.isOccupied = true ∧
    WrapsKey v.key slot ∧ d'.recipients = Function.update d.recipients idx slot

/-- Granting access fills the slot that the checks find. -/
theorem grantAccess_of_slot [Lawful] (sound : Sound v d files) {admin : Identity}
    (authorized : v.adminIdentity = some admin) {peer : PeerId} {idx : Nat}
    (found : v.slotForPeer peer = .ok idx) (inTable : idx < v.header.maxRecipients.toNat)
    (draws : Draws) : ∃ v' d', grantAccess peer draws v = .ok () v' ∧
      Grants v v' d d' files idx peer
        (signedRecord v admin .accessGranted (peerTargetId peer.signingPublic)
          (sha256Concat [peer.signingPublic.toList, peer.encryptionPublic.toList])
          draws.recordTime) := by
  have observed : observe (fun v : Vault => v.slotForPeer peer) v = .ok idx v :=
    observe_of_ok found
  obtain ⟨wrapped, wrappedIs, sized, _⟩ := wrapDekForRecipient_spec (draws.wraps idx).1
    (draws.wraps idx).2 peer.encryptionPublic v.key
  have wrapping : observe (fun v : Vault => wrapDekForRecipient (draws.wraps idx).1
      (draws.wraps idx).2 peer.encryptionPublic v.key) v = .ok wrapped v :=
    observe_of_ok wrappedIs
  obtain ⟨slot, slotIs⟩ : ∃ slot : RecipientSlot, slot =
      { signingPubkey := peer.signingPublic, encryptionPubkey := peer.encryptionPublic,
        wrappedDek := wrapped, grantedAt := draws.slotTime,
        flags := recipientFlagOccupied } := ⟨_, rfl⟩
  have fits : slot.wrappedDek.length ≤ wrappedDekLen := by
    rw [slotIs]
    exact Nat.le_of_eq sized
  obtain ⟨file₁, log₁, wrote, tracks₁, _⟩ := writeRecipientSlot_eq sound.tracks inTable fits
  obtain ⟨file₂, log₂, record, recordIs, appended, tracks₂, _⟩ := appendSignedChainRecord_eq
    (v := { v with file := file₁, changeLog := log₁ }) tracks₁ authorized .accessGranted
    (peerTargetId peer.signingPublic)
    (sha256Concat [peer.signingPublic.toList, peer.encryptionPublic.toList]) draws.recordTime
  have same : record = signedRecord v admin .accessGranted (peerTargetId peer.signingPublic)
    (sha256Concat [peer.signingPublic.toList, peer.encryptionPublic.toList])
    draws.recordTime := recordIs
  subst same
  have ran : grantAccess peer draws v = appendSignedChainRecord .accessGranted
      (peerTargetId peer.signingPublic)
      (sha256Concat [peer.signingPublic.toList, peer.encryptionPublic.toList]) draws.recordTime
      { v with file := file₁, changeLog := log₁ } := by
    unfold grantAccess
    rw [bind_of_ok observed, bind_of_ok wrapping, ← slotIs, bind_of_ok wrote]
  refine ⟨_, _, ran.trans appended, ⟨tracks₂, rfl, rfl, rfl, rfl⟩, rfl, rfl, ?_, rfl, slot,
    by rw [slotIs]; rfl, ?_, ?_, rfl⟩
  · exact sound.frame tracks₂ rfl rfl rfl rfl rfl rfl rfl
  · exact RecipientSlot.isOccupied_of_flags (by rw [slotIs])
  · rw [slotIs]
    exact ⟨_, _, wrappedIs⟩

/-- **Granting access** fills a free slot, or fails because the signing key is already
granted or the table is full; a failure changes nothing. -/
theorem grantAccess_yields [Lawful] (sound : Sound v d files) {admin : Identity}
    (authorized : v.adminIdentity = some admin) (peer : PeerId) (draws : Draws) :
    Yields (grantAccess peer draws) v
      (fun _ v' => ¬ d.HasSigner v.header peer.signingPublic ∧ ∃ idx d',
        idx < v.header.maxRecipients.toNat ∧ (d.recipients idx).isOccupied = false ∧
        Grants v v' d d' files idx peer
          (signedRecord v admin .accessGranted (peerTargetId peer.signingPublic)
            (sha256Concat [peer.signingPublic.toList, peer.encryptionPublic.toList])
            draws.recordTime))
      (fun error v' => v' = v ∧
        ((error = .error .alreadyGranted ∧ d.HasSigner v.header peer.signingPublic) ∨
        (error = .error .recipientTableFull ∧ ¬ d.HasSigner v.header peer.signingPublic ∧
          ∀ idx, idx < v.header.maxRecipients.toNat → d.Occupies v.header idx))) := by
  by_cases present : d.HasSigner v.header peer.signingPublic
  · obtain ⟨idx, found, _⟩ := findRecipientSlot_of_present sound.tracks present
    have failed : observe (fun v : Vault => v.slotForPeer peer) v =
        .error (.error .alreadyGranted) v := by
      apply observe_of_error
      unfold slotForPeer
      rw [except_bind_of_ok (requireAdmin_eq authorized), except_bind_of_ok found]
    unfold grantAccess
    exact Yields.of_error (bind_of_error failed) ⟨rfl, Or.inl ⟨rfl, present⟩⟩
  · have notFound := findRecipientSlot_of_absent sound.tracks present
    rcases findFreeRecipientSlot_eq sound.tracks with ⟨idx, free, inTable, vacant⟩ | ⟨full, all⟩
    · have found : v.slotForPeer peer = .ok idx := by
        unfold slotForPeer
        rw [except_bind_of_ok (requireAdmin_eq authorized), except_bind_of_ok notFound]
        exact except_bind_of_ok free
      obtain ⟨v', d', ran, grants⟩ := grantAccess_of_slot sound authorized found inTable draws
      exact Yields.of_ok ran ⟨present, idx, d', inTable, vacant, grants⟩
    · have failed : observe (fun v : Vault => v.slotForPeer peer) v =
          .error (.error .recipientTableFull) v := by
        apply observe_of_error
        unfold slotForPeer
        rw [except_bind_of_ok (requireAdmin_eq authorized), except_bind_of_ok notFound]
        exact except_bind_of_ok full
      unfold grantAccess
      exact Yields.of_error (bind_of_error failed)
        ⟨rfl, Or.inr ⟨rfl, present, fun idx inTable => ⟨inTable, all idx inTable⟩⟩⟩

end Vault

/-- A keyring after a grant. -/
theorem Keyring.grant {v v' : Vault} {d d' : Disk} {files : Files} {password : String}
    {granted : List PeerId} (keyring : Keyring v d password granted) {idx : Nat} {peer : PeerId}
    {record : ChainRecord} (inTable : idx < v.header.maxRecipients.toNat)
    (vacant : (d.recipients idx).isOccupied = false)
    (fresh : ¬ d.HasSigner v.header peer.signingPublic)
    (grants : Vault.Grants v v' d d' files idx peer record) :
    Keyring v' d' password (peer :: granted) := by
  obtain ⟨slot, slotPeer, occupied, wraps, recipients⟩ := grants.recipients
  have shape := grants.commits.sameShape
  have occupies : ∀ other, d'.Occupies v'.header other ↔
      other = idx ∨ d.Occupies v.header other := by
    intro other
    unfold Disk.Occupies
    rw [shape.maxRecipients_eq, recipients]
    by_cases same : other = idx
    · rw [same, Function.update_self]
      simp only [inTable, occupied, and_self, true_or]
    · rw [Function.update_of_ne same]
      simp only [same, false_or]
  have notIdx : ∀ other, d.Occupies v.header other → other ≠ idx := by
    rintro other held rfl
    rw [held.2] at vacant
    cases vacant
  refine ⟨?_, ?_, ?_, ?_⟩
  · rw [grants.key]
    exact keyring.password.of_sameShape shape grants.adminKeySlot
  · intro other held
    rw [grants.key, recipients]
    rcases (occupies other).mp held with rfl | before
    · rw [Function.update_self]
      exact wraps
    · rw [Function.update_of_ne (notIdx other before)]
      exact keyring.wraps other before
  · intro first second heldFirst heldSecond sameKey
    rw [recipients] at sameKey
    have signer : slot.signingPubkey = peer.signingPublic := by
      rw [← slotPeer]
      rfl
    rcases (occupies first).mp heldFirst with rfl | before
    · rcases (occupies second).mp heldSecond with rfl | before'
      · rfl
      · rw [Function.update_self, Function.update_of_ne (notIdx second before'), signer] at sameKey
        exact absurd ⟨second, before', sameKey.symm⟩ fresh
    · rcases (occupies second).mp heldSecond with rfl | before'
      · rw [Function.update_self, Function.update_of_ne (notIdx first before), signer] at sameKey
        exact absurd ⟨first, before, sameKey⟩ fresh
      · rw [Function.update_of_ne (notIdx first before),
          Function.update_of_ne (notIdx second before')] at sameKey
        exact keyring.distinct first second before before' sameKey
  · intro other
    rw [List.mem_cons, ← keyring.granted]
    constructor
    · rintro ⟨at', held, samePeer⟩
      rw [recipients] at samePeer
      rcases (occupies at').mp held with rfl | before
      · rw [Function.update_self, slotPeer] at samePeer
        exact Or.inl samePeer.symm
      · rw [Function.update_of_ne (notIdx at' before)] at samePeer
        exact Or.inr ⟨at', before, samePeer⟩
    · rintro (rfl | ⟨at', before, samePeer⟩)
      · refine ⟨idx, (occupies idx).mpr (Or.inl rfl), ?_⟩
        rw [recipients, Function.update_self]
        exact slotPeer
      · refine ⟨at', (occupies at').mpr (Or.inr before), ?_⟩
        rw [recipients, Function.update_of_ne (notIdx at' before)]
        exact samePeer

end ReVault
