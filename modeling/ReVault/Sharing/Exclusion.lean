import ReVault.Sharing.Lockout

/-!
# What a revoked peer can still do

A revocation seals every block in use again under a new key and drops the slot with the
peer's signing key. Nothing in the container decrypts under the old key from then on. But
slots are opened by encryption key, so the peer is turned away exactly as long as nobody
with its encryption key is granted.
-/

namespace ReVault

open Foundation Primitives

/-- The key in use is the one a trace started with or one that a revocation drew. -/
theorem keyAfter_drawn (start : MasterKey) (trace : List Step) : keyAfter start trace = start ∨
    ∃ step ∈ trace, (∃ signingPubkey password, step.op = .revokeAccess signingPubkey password) ∧
      keyAfter start trace = step.draws.dek := by
  unfold keyAfter Step.fold
  induction trace generalizing start with
  | nil => exact Or.inl rfl
  | cons step rest ih =>
      rw [List.foldl_cons]
      rcases ih (if step.accepted then step.setsKey start else start) with kept | drawn
      · rw [kept]
        split
        · unfold Step.setsKey
          split
          · rename_i signingPubkey password revokes
            exact Or.inr ⟨step, List.mem_cons_self, ⟨_, _, revokes⟩, rfl⟩
          · exact Or.inl rfl
        · exact Or.inl rfl
      · obtain ⟨later, member, revokes, same⟩ := drawn
        exact Or.inr ⟨later, List.mem_cons_of_mem step member, revokes, same⟩

/-- After an accepted revocation the key in use is one drawn since. -/
theorem keyAfter_of_revocation (start : MasterKey) (before later : List Step) {step : Step}
    (accepted : step.accepted = true) {signingPubkey : ByteArr 32} {password : String}
    (revokes : step.op = .revokeAccess signingPubkey password) :
    ∃ drawn ∈ step :: later, (∃ signingPubkey password,
        drawn.op = .revokeAccess signingPubkey password) ∧
      keyAfter start (before ++ step :: later) = drawn.draws.dek := by
  have split : keyAfter start (before ++ step :: later) = keyAfter step.draws.dek later := by
    unfold keyAfter
    rw [Step.fold_append]
    unfold Step.fold
    rw [List.foldl_cons, if_pos accepted]
    unfold Step.setsKey
    rw [revokes]
  rw [split]
  rcases keyAfter_drawn step.draws.dek later with kept | ⟨drawn, member, wasRevocation, same⟩
  · exact ⟨step, List.mem_cons_self, ⟨_, _, revokes⟩, kept⟩
  · exact ⟨drawn, List.mem_cons_of_mem step member, wasRevocation, same⟩

section

variable [Primitives]

namespace Vault

/-- The keys that wrap the content key: that of the password, and one for each slot. -/
inductive WrapsUnder (v : Vault) (password : String) : MasterKey → Prop
  | password {kek : MasterKey}
      (derived : argon2id (utf8 password) v.header.salt v.header.argon2Params = some kek) :
      WrapsUnder v password kek
  | slot {idx : Nat} {slot : RecipientSlot} {ephemeral : ByteArr 32}
      (inTable : idx < v.header.maxRecipients.toNat)
      (read : v.readRecipientSlot idx = .ok slot) (occupied : slot.isOccupied = true)
      (sender : slot.wrappedDek.take 32 = (x25519Public ephemeral).toList) :
      WrapsUnder v password (deriveWrapKey (x25519 ephemeral slot.encryptionPubkey))

/-- A key under which no block in use and no key slot decrypts. -/
structure Retired (v : Vault) (key : MasterKey) : Prop where
  blocks : ∀ idx entry blocks, idx < v.header.maxFiles.toNat → v.readSlot idx = .ok entry →
    entry.isOccupied = true → v.collectAllBlocks entry = .ok blocks → ∀ block ∈ blocks,
      ∃ fault, readPhysicalBlock { v with key := key } block entry.id = .error fault
  adminSlot : ∃ fault,
    key.decryptRandomNonce v.header.adminKeySlot adminKeySlotAad = .error fault
  slots : ∀ idx slot nonce, idx < v.header.maxRecipients.toNat →
    v.readRecipientSlot idx = .ok slot → slot.isOccupied = true →
    toArr? nonceLen ((slot.wrappedDek.drop 32).take nonceLen) = some nonce →
    aesGcmDecrypt key nonce [] (slot.wrappedDek.drop (32 + nonceLen)) = none

/-- A vault that turns an identity away and whose content the key it held does not open. -/
structure Excludes (v : Vault) (identity : Identity) (key : MasterKey) : Prop where
  turnedAway : openAsRecipient v.file identity = .error (.error .accessNotGranted)
  retired : v.Retired key

variable {v : Vault} {d : Disk} {files : Files} {password : String} {granted : List PeerId}
  {key : MasterKey}

end Vault

/-- A wrapped key does not unwrap under a key that rejects what its wrapping keys encrypt. -/
theorem WrapsKey.rejected {content key : MasterKey} {slot : RecipientSlot}
    (wraps : WrapsKey content slot)
    (rejects : ∀ ephemeral, slot.wrappedDek.take 32 = (x25519Public ephemeral).toList →
      Rejects (deriveWrapKey (x25519 ephemeral slot.encryptionPubkey)) key)
    {nonce : ByteArr nonceLen}
    (stored : toArr? nonceLen ((slot.wrappedDek.drop 32).take nonceLen) = some nonce) :
    aesGcmDecrypt key nonce [] (slot.wrappedDek.drop (32 + nonceLen)) = none := by
  obtain ⟨ephemeral, drawn, wrapped⟩ := wraps
  unfold wrapDekForRecipient at wrapped
  split at wrapped
  · rename_i ciphertext made
    have wrappedIs := Except.ok.inj wrapped
    have publicSize : (x25519Public ephemeral).toList.length = 32 := List.Vector.toList_length _
    have nonceSize : drawn.toList.length = nonceLen := List.Vector.toList_length drawn
    rw [← wrappedIs, List.drop_left' publicSize, List.take_left' nonceSize, toArr?_toList] at stored
    cases stored
    rw [← wrappedIs, ← List.drop_drop, List.drop_left' publicSize, List.drop_left' nonceSize]
    refine rejects ephemeral ?_ _ _ _ _ made
    rw [← wrappedIs, List.take_left' publicSize]
  · cases wrapped

/-- A key that rejects what the keys in use encrypt opens nothing. -/
theorem Sound.retired [Lawful] {v : Vault} {d : Disk} {files : Files} {password : String}
    {granted : List PeerId} {key : MasterKey} (sound : Sound v d files)
    (keyring : Keyring v d password granted)
    (rejects : ∀ other, other = v.key ∨ v.WrapsUnder password other → Rejects other key) :
    v.Retired key where
  blocks := by
    intro idx entry blocks inTable read occupied collected block member
    obtain ⟨file, found, rfl⟩ := sound.exists_stored inTable read occupied
    have stored := sound.stored idx file found
    obtain ⟨all, collected', perm⟩ := stored.collectAllBlocks_eq sound.tracks
    rw [← Except.ok.inj (collected'.symm.trans collected)] at member
    obtain ⟨use, inUses, rfl⟩ := stored.exists_use (perm.mem_iff.mp member)
    rw [← StoredFile.fileId_of_mem_uses inUses]
    have sealed : d.blocks (use.sealedUnder v.key).block = some (use.sealedUnder v.key) :=
      stored.sealed use inUses
    have rejected := Vault.readPhysicalBlock_rejected sound.tracks sealed
      (rejects v.key (Or.inl rfl))
    exact rejected
  adminSlot := by
    obtain ⟨kek, nonce, derived, encrypted⟩ := keyring.password
    have derivedKek := MasterKey.derive_eq_ok_iff.mp derived
    exact (rejects kek (Or.inr (.password derivedKek))).decryptRandomNonce encrypted
  slots := by
    intro idx slot nonce inTable read occupied stored
    have slotIs := read
    rw [Vault.readRecipientSlot_eq sound.tracks inTable] at slotIs
    cases slotIs
    exact (keyring.wraps idx ⟨inTable, occupied⟩).rejected
      (fun ephemeral sender => rejects _ (Or.inr (.slot inTable read occupied sender))) stored

/-- **Exclusion.** In every state after an accepted revocation, the key held before opens
nothing, and the identity is turned away exactly when no granted peer has its encryption
key. -/
theorem Run.excludes_iff [Lawful] {v origin : Vault} {password name description : String}
    {capacityBytes : UInt64} {admin : Identity} {draws : Draws} {before later : List Step}
    {revocation : Step} {identity : Identity} {given : String}
    (created : Vault.create name description capacityBytes password admin draws = .ok origin)
    (run : Run password origin (before ++ revocation :: later) v)
    (accepted : revocation.accepted = true)
    (revokes : revocation.op = .revokeAccess identity.peerId.signingPublic given)
    (fresh : ∀ step ∈ revocation :: later, ∀ signingPubkey other,
      step.op = .revokeAccess signingPubkey other → step.draws.dek ≠ keyAfter origin.key before)
    (apart : ∀ key, v.WrapsUnder (passwordAfter password (before ++ revocation :: later)) key →
      key ≠ keyAfter origin.key before)
    (rejects : ∀ key, key = v.key ∨
        v.WrapsUnder (passwordAfter password (before ++ revocation :: later)) key →
      key ≠ keyAfter origin.key before → Rejects key (keyAfter origin.key before)) :
    v.Excludes identity (keyAfter origin.key before) ↔
      ∀ peer ∈ grantedAfter (before ++ revocation :: later),
        peer.encryptionPublic ≠ identity.peerId.encryptionPublic := by
  obtain ⟨d, files, healthy⟩ := run.healthy created
  have keyring := healthy.keyring
  have reader := keyring.hasReader_iff identity.peerId.encryptionPublic
  constructor
  · intro excludes peer member same
    have opened := healthy.sound.openAsRecipient_eq keyring.wraps (reader.mpr ⟨peer, member, same⟩)
    rw [excludes.turnedAway] at opened
    cases opened
  · intro nobody
    refine ⟨healthy.sound.openAsRecipient_of_absent fun present => ?_, ?_⟩
    · obtain ⟨peer, member, same⟩ := reader.mp present
      exact nobody peer member same
    · refine healthy.sound.retired keyring fun key inUse => rejects key inUse ?_
      rcases inUse with rfl | wraps
      · obtain ⟨drawn, member, ⟨signingPubkey, other, wasRevocation⟩, same⟩ :=
          keyAfter_of_revocation origin.key before later accepted revokes
        rw [healthy.key, same]
        exact fresh drawn member signingPubkey other wasRevocation
      · exact apart key wraps

end

namespace Transparent

/-- A file is added, a peer granted and revoked again. -/
def revocationTrace : List Step :=
  [⟨.addFile "a" [1, 2, 3], draws 2, true⟩, ⟨.grantAccess (identity 2).peerId, draws 3, true⟩] ++
    [⟨.revokeAccess (identity 2).peerId.signingPublic "p", draws 4, true⟩]

/-- A vault with a revoked peer. -/
theorem exists_revoked : ∃ origin v,
    Vault.create "v" "" 65536 "p" (identity 1) (draws 1) = .ok origin ∧
    Run "p" origin revocationTrace v := by
  obtain ⟨origin, v, created, run⟩ := exists_granted
  have isAdmin := Run.isAdmin created (show Run _ _ ([_] ++ [_]) _ from run) rfl rfl
  obtain ⟨v', run'⟩ := run.exists_revocation created isAdmin
    ⟨_, List.mem_singleton.mpr rfl, rfl⟩
    (show MasterKey.derive (utf8 "p") _ _ = .ok (digest keyLen (utf8 "p")) from rfl) (draws 4)
  exact ⟨origin, v', created, run'⟩

/-- The revoked peer is excluded. -/
theorem excludes_iff_revoked : ∃ origin v,
    Vault.create "v" "" 65536 "p" (identity 1) (draws 1) = .ok origin ∧
    Run "p" origin revocationTrace v ∧
    (v.Excludes (identity 2) origin.key ↔ ∀ peer ∈ grantedAfter revocationTrace,
      peer.encryptionPublic ≠ (identity 2).peerId.encryptionPublic) := by
  obtain ⟨origin, v, created, run⟩ := exists_revoked
  obtain ⟨d, files, healthy⟩ := run.healthy created
  have initial : origin.key = digest keyLen [1] := (Vault.create_spec created).key
  have inForce : v.key = digest keyLen [4] := healthy.key
  -- only the password's key wraps the content key, since no peer is granted
  have wrapping : ∀ key, v.WrapsUnder "p" key → key = digest keyLen (utf8 "p") := by
    intro key wraps
    cases wraps with
    | password derived => exact (Option.some.inj ((derives v "p").symm.trans derived)).symm
    | @slot idx slot ephemeral inTable read occupied sender =>
        rw [Vault.readRecipientSlot_eq healthy.sound.tracks inTable] at read
        cases read
        have member := (healthy.keyring.granted _).mp ⟨idx, ⟨inTable, occupied⟩, rfl⟩
        exact absurd member List.not_mem_nil
  refine ⟨origin, v, created, run, ?_⟩
  refine Run.excludes_iff created run rfl rfl ?_ ?_ ?_
  · intro step member signingPubkey other _
    rw [List.mem_singleton.mp member]
    change digest keyLen [4] ≠ origin.key
    rw [initial]
    decide
  · intro key wraps
    change key ≠ origin.key
    rw [wrapping key wraps, initial]
    decide
  · intro key inUse _
    change Rejects key origin.key
    rw [initial]
    rcases inUse with rfl | wraps
    · rw [inForce]
      exact rejects_of_tag_ne (by decide)
    · rw [wrapping key wraps]
      exact rejects_of_tag_ne (by decide)

/-- A peer with a signing key of its own and the encryption key of another. -/
def twin : PeerId := ⟨digest 32 [3], (identity 2).peerId.encryptionPublic⟩

/-- Two peers with one encryption key are granted, and one is revoked. -/
def twinTrace : List Step :=
  ([⟨.addFile "a" [1, 2, 3], draws 2, true⟩, ⟨.grantAccess (identity 2).peerId, draws 3, true⟩] ++
    [⟨.grantAccess twin, draws 3, true⟩]) ++
    [⟨.revokeAccess (identity 2).peerId.signingPublic "p", draws 4, true⟩]

/-- A revoked peer opens the container through the slot of another peer with its
encryption key, and reads the file. -/
theorem revoked_peer_reads : ∃ origin v w,
    Vault.create "v" "" 65536 "p" (identity 1) (draws 1) = .ok origin ∧
    Run "p" origin twinTrace v ∧ Vault.openAsRecipient v.file (identity 2) = .ok w ∧
    w.readFile "a" = .ok [1, 2, 3] := by
  obtain ⟨origin, v₁, created, run₁⟩ := exists_granted
  have isAdmin₁ := Run.isAdmin created (show Run _ _ ([_] ++ [_]) _ from run₁) rfl rfl
  obtain ⟨v₂, run₂⟩ := run₁.exists_grant created isAdmin₁
    (show ∀ other ∈ [(identity 2).peerId], other.signingPublic ≠ twin.signingPublic by decide)
    (by decide) (draws 3)
  obtain ⟨v, run⟩ := run₂.exists_revocation created (run₂.isAdmin created rfl rfl)
    ⟨_, List.mem_cons_of_mem _ (List.mem_singleton.mpr rfl), rfl⟩
    (show MasterKey.derive (utf8 "p") _ _ = .ok (digest keyLen (utf8 "p")) from rfl) (draws 4)
  obtain ⟨d, files, healthy⟩ := run.healthy created
  have member : twin ∈ grantedAfter twinTrace := by decide
  have present := (healthy.keyring.hasReader_iff _).mpr ⟨twin, member, rfl⟩
  have opened := healthy.sound.openAsRecipient_eq healthy.keyring.wraps present
  have displays := (healthy.sound.reopened none).displays healthy.shown
  exact ⟨origin, v, _, created, run, opened, displays.reads "a"⟩

end Transparent

end ReVault
