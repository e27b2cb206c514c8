import ReVault.Access.Keyring

/-!
# Revocation

Revoking a peer reads every block in use, seals it again under a new content key,
empties the peer's slot and wraps the new key for the remaining peers and for the
given password. The stored files, their blocks and the remaining peers are those from
before.
-/

namespace ReVault

open Foundation Primitives

variable [Primitives]

/-! ## Reading the blocks in use -/

/-- A list of uses that covers the stored files, each block once. -/
structure InUse (v : Vault) (files : Files) (uses : List Vault.BlockInUse) : Prop where
  ofFile : ∀ use ∈ uses, ∃ idx file, files idx = some file ∧ use ∈ file.uses v.header
  covers : ∀ idx file, files idx = some file → ∀ use ∈ file.uses v.header, use ∈ uses
  nodup : (uses.map fun use => use.block).Nodup

section Reading

variable {v : Vault} {d : Disk} {files : Files}

/-- Reading blocks of a file returns its uses of them. -/
theorem StoredFile.Describes.readBlocks_eq {file : StoredFile}
    (described : file.Describes v.header) (reads : file.ReadsIn v) (blocks : List UInt64)
    (inFile : ∀ block ∈ blocks, block ∈ file.blocks) :
    ∃ uses, v.readBlocks file.entry.id blocks = .ok uses ∧
      uses.map (fun use => use.block) = blocks ∧ ∀ use ∈ uses, use ∈ file.uses v.header := by
  induction blocks with
  | nil => exact ⟨[], rfl, rfl, fun use member => absurd member List.not_mem_nil⟩
  | cons block rest ih =>
      obtain ⟨uses, read, blocksIs, fromFile⟩ := ih fun later member =>
        inFile later (List.mem_cons_of_mem block member)
      obtain ⟨use, inUses, rfl⟩ := described.exists_use (inFile block List.mem_cons_self)
      have plaintext := reads use inUses
      have sameId := StoredFile.fileId_of_mem_uses inUses
      rw [sameId] at plaintext
      refine ⟨use :: uses, ?_, by rw [List.map_cons, blocksIs], ?_⟩
      · rw [Vault.readBlocks, except_bind_of_ok plaintext, except_bind_of_ok read, ← sameId]
      · intro other member
        rcases List.mem_cons.mp member with rfl | later
        · exact inUses
        · exact fromFile other later

/-- Reading the entries of some slots returns the uses of their files. -/
private theorem readSlots_eq {entries : Nat → FileEntry} (legible : Legible v entries files)
    (apart : files.Apart) (indices : List Nat) (nodup : indices.Nodup) :
    ∃ uses, v.readEntries (indices.filterMap fun idx =>
        (files idx).map fun file => (idx, file.entry)) = .ok uses ∧
      (∀ use ∈ uses, ∃ idx ∈ indices, ∃ file, files idx = some file ∧
        use ∈ file.uses v.header) ∧
      (∀ idx ∈ indices, ∀ file, files idx = some file → ∀ use ∈ file.uses v.header,
        use ∈ uses) ∧
      (uses.map fun use => use.block).Nodup := by
  induction indices with
  | nil => exact ⟨[], rfl, fun use member => absurd member List.not_mem_nil,
      fun idx member => absurd member List.not_mem_nil, List.nodup_nil⟩
  | cons idx rest ih =>
      obtain ⟨notLater, restNodup⟩ := List.nodup_cons.mp nodup
      obtain ⟨later, read, ofFile, covers, laterNodup⟩ := ih restNodup
      cases found : files idx with
      | none =>
          refine ⟨later, ?_, ?_, ?_, laterNodup⟩
          · rw [List.filterMap_cons, found]
            exact read
          · intro use member
            obtain ⟨other, inRest, file, held⟩ := ofFile use member
            exact ⟨other, List.mem_cons_of_mem idx inRest, file, held⟩
          · intro other member file held
            rcases List.mem_cons.mp member with rfl | inRest
            · rw [found] at held
              cases held
            · exact covers other inRest file held
      | some file =>
          have described := legible.described idx file found
          have reads := legible.readable idx file found
          obtain ⟨all, collected, perm⟩ :=
            described.collectAllBlocks_eq legible.layout.blockSize reads
          obtain ⟨here, readHere, blocksIs, fromFile⟩ := described.readBlocks_eq reads all
            fun block member => perm.mem_iff.mp member
          refine ⟨here ++ later, ?_, ?_, ?_, ?_⟩
          · rw [List.filterMap_cons, found]
            change (v.collectAllBlocks file.entry >>= _) = _
            rw [except_bind_of_ok collected, except_bind_of_ok readHere, except_bind_of_ok read]
          · intro use member
            rcases List.mem_append.mp member with inHere | inLater
            · exact ⟨idx, List.mem_cons_self, file, found, fromFile use inHere⟩
            · obtain ⟨other, inRest, file', held⟩ := ofFile use inLater
              exact ⟨other, List.mem_cons_of_mem idx inRest, file', held⟩
          · intro other member file' held use inUses
            rcases List.mem_cons.mp member with rfl | inRest
            · rw [found] at held
              cases held
              have inAll : use.block ∈ all := perm.mem_iff.mpr (described.block_mem inUses)
              rw [← blocksIs] at inAll
              obtain ⟨use', inHere, sameBlock⟩ := List.mem_map.mp inAll
              have nodupUses : ((file.uses v.header).map fun use => use.block).Nodup := by
                rw [described.map_block_uses]
                exact described.nodup
              have same := List.inj_on_of_nodup_map nodupUses (fromFile use' inHere) inUses
                sameBlock
              rw [← same]
              exact List.mem_append_left _ inHere
            · exact List.mem_append_right _ (covers other inRest file' held use inUses)
          · rw [List.map_append, List.nodup_append, blocksIs]
            refine ⟨perm.nodup_iff.mpr described.nodup, laterNodup, ?_⟩
            rintro block inAll other inLater rfl
            obtain ⟨use, inUses, sameBlock⟩ := List.mem_map.mp inLater
            obtain ⟨idx', inRest, file', found', fromOther⟩ := ofFile use inUses
            have different : idx ≠ idx' := fun same => notLater (by rw [same]; exact inRest)
            have member' := (legible.described idx' file' found').block_mem fromOther
            rw [sameBlock] at member'
            exact apart idx idx' file file' found found' different block
              (perm.mem_iff.mp inAll) member'

/-- The entries of the file table give the uses of all stored files. -/
theorem Legible.readEntries_eq {entries : Nat → FileEntry} (legible : Legible v entries files)
    (apart : files.Apart) : ∃ listed uses, v.allOccupiedEntries = .ok listed ∧
      v.readEntries listed = .ok uses ∧ InUse v files uses := by
  obtain ⟨uses, read, ofFile, covers, nodup⟩ := readSlots_eq legible apart v.slotIndices
    List.nodup_range
  refine ⟨_, uses, legible.toListed.allOccupiedEntries_eq, read, ?_, ?_, nodup⟩
  · intro use member
    obtain ⟨idx, _, file, held⟩ := ofFile use member
    exact ⟨idx, file, held⟩
  · intro idx file found
    exact covers idx (List.mem_range.mpr (legible.shown idx file found).1) file found

/-- Sealing the blocks in use again under another key stores the same files under it. -/
theorem Stored.reseal {key : MasterKey} {uses : List Vault.BlockInUse}
    (inUse : InUse v files uses) {idx : Nat} {file : StoredFile} (found : files idx = some file)
    (stored : Stored v.header d v.key file) {d' : Disk}
    (blocks : d'.blocks = (d.setBlocks key uses).blocks) : Stored v.header d' key file where
  toDescribes := stored.toDescribes
  sealed := by
    intro use member
    rw [blocks]
    exact d.blocks_setBlocks_of_mem key inUse.nodup (inUse.covers idx file found use member)

end Reading

/-! ## Rewrapping the keyring -/

/-- A slot wrapped again: the same peer, the new key; an unoccupied slot is untouched. -/
def Rewrapped (key : MasterKey) (slot slot' : RecipientSlot) : Prop :=
  if slot.isOccupied then slot'.peer = slot.peer ∧ slot'.isOccupied = true ∧ WrapsKey key slot'
  else slot' = slot

omit [Primitives] in
/-- The regions that a revocation may fill: any but the bitmap and the file table. -/
def Region.Rotates : Region → Prop
  | .bitmap | .entry _ => False
  | .header | .recipient _ | .record _ | .block _ => True

namespace Vault

variable {v : Vault} {d : Disk} {files : Files}

section Rewrap

variable [Lawful]

/-- A slot is wrapped again if it is occupied, and left alone otherwise. -/
theorem rewrapSlot_eq (tracks : Tracks v.header v.file d) (draws : Draws) {idx : Nat}
    (inTable : idx < v.header.maxRecipients.toNat) :
    ∃ file log slot', rewrapSlot draws idx v = .ok () { v with file := file, changeLog := log } ∧
      Rewrapped v.key (d.recipients idx) slot' ∧
      Tracks v.header file (d.setRecipient idx slot') ∧
      WroteOnly v.header Region.Rotates v { v with file := file, changeLog := log } := by
  have read : observe (fun v : Vault => v.readRecipientSlot idx) v =
      .ok (d.recipients idx) v := observe_of_ok (readRecipientSlot_eq tracks inTable)
  unfold rewrapSlot Rewrapped
  rw [bind_of_ok read]
  by_cases occupied : (d.recipients idx).isOccupied
  · obtain ⟨wrapped, wrappedIs, sized, _⟩ := wrapDekForRecipient_spec (draws.wraps idx).1
      (draws.wraps idx).2 (d.recipients idx).encryptionPubkey v.key
    have wrapping : observe (fun v : Vault => wrapDekForRecipient (draws.wraps idx).1
        (draws.wraps idx).2 (d.recipients idx).encryptionPubkey v.key) v = .ok wrapped v :=
      observe_of_ok wrappedIs
    have fits : ({ d.recipients idx with wrappedDek := wrapped } : RecipientSlot).wrappedDek.length
        ≤ wrappedDekLen := Nat.le_of_eq sized
    obtain ⟨file, log, wrote, tracked, filled⟩ := writeRecipientSlot_eq tracks inTable fits
    refine ⟨file, log, _, ?_, ?_, tracked, _, filled, fun region member => ?_⟩
    · rw [if_pos occupied, bind_of_ok wrapping]
      exact wrote
    · rw [if_pos occupied]
      exact ⟨rfl, occupied, _, _, wrappedIs⟩
    · rw [List.mem_singleton.mp member]
      trivial
  · refine ⟨v.file, v.changeLog, d.recipients idx, ?_, ?_, ?_, WroteOnly.nothing rfl rfl⟩
    · rw [if_neg occupied]
      rfl
    · rw [if_neg occupied]
    · unfold Disk.setRecipient
      rw [Function.update_eq_self]
      exact tracks

/-- **Rewrapping loop.** Every slot ends up rewrapped under the vault's key. -/
theorem rewrapSlots_eq (tracks : Tracks v.header v.file d) (draws : Draws) :
    ∃ file log recipients, (v.recipientIndices.forM (rewrapSlot draws)) v =
        .ok () { v with file := file, changeLog := log } ∧
      (∀ idx, idx < v.header.maxRecipients.toNat →
        Rewrapped v.key (d.recipients idx) (recipients idx)) ∧
      Tracks v.header file { d with recipients := recipients } ∧
      WroteOnly v.header Region.Rotates v { v with file := file, changeLog := log } := by
  have nodup : v.recipientIndices.Nodup := List.nodup_range
  let invariant : List Nat → Vault → Prop := fun done state => ∃ file log recipients,
    state = { v with file := file, changeLog := log } ∧
    (∀ idx, if idx ∈ done then Rewrapped v.key (d.recipients idx) (recipients idx)
      else recipients idx = d.recipients idx) ∧
    Tracks v.header file { d with recipients := recipients } ∧
    WroteOnly v.header Region.Rotates v state
  have start : invariant [] v := ⟨v.file, v.changeLog, d.recipients, rfl, fun idx => by
    rw [if_neg List.not_mem_nil], tracks, WroteOnly.nothing rfl rfl⟩
  suffices outcome : Yields (v.recipientIndices.forM (rewrapSlot draws)) v
      (fun _ final => invariant v.recipientIndices final) (fun _ _ => False) by
    unfold Yields at outcome
    split at outcome
    · rename_i _ _ ran
      obtain ⟨file, log, recipients, rfl, rewrapped, tracked, filled⟩ := outcome
      refine ⟨file, log, recipients, ran, fun idx inTable => ?_, tracked, filled⟩
      have here := rewrapped idx
      have listed : idx ∈ v.recipientIndices := List.mem_range.mpr inTable
      rwa [if_pos listed] at here
    · exact absurd outcome id
  refine forM_yields invariant v.recipientIndices ?_ v start
  · intro done idx rest split state holds
    obtain ⟨file, log, recipients, rfl, rewrapped, tracked, filled⟩ := holds
    have inTable : idx < v.header.maxRecipients.toNat := by
      apply List.mem_range.mp
      change idx ∈ v.recipientIndices
      rw [split]
      exact List.mem_append_right _ List.mem_cons_self
    have notDone : idx ∉ done := by
      rw [split, List.nodup_append] at nodup
      exact fun member => nodup.2.2 idx member idx List.mem_cons_self rfl
    obtain ⟨file', log', slot', ran, wrapped, tracked', filled'⟩ := rewrapSlot_eq
      (v := { v with file := file, changeLog := log }) tracked draws inTable
    refine Yields.of_ok ran ⟨file', log', _, rfl, fun other => ?_, tracked',
      filled.trans filled'⟩
    have before := rewrapped other
    by_cases same : other = idx
    · rw [same, if_neg notDone] at before
      rw [same, if_pos (List.mem_append_right _ (List.mem_singleton_self idx)),
        Function.update_self]
      change Rewrapped v.key (recipients idx) slot' at wrapped
      rwa [before] at wrapped
    · have membership : other ∈ done ++ [idx] ↔ other ∈ done := by
        rw [List.mem_append, List.mem_singleton]
        simp only [same, or_false]
      simp only [membership, Function.update_of_ne same]
      exact before

/-- Wrapping the vault's key for a password and persisting the header. -/
theorem rewrapForPassword_eq (tracks : Tracks v.header v.file d) (draws : Draws)
    {password : String} {kek : MasterKey}
    (derived : MasterKey.derive (utf8 password) v.header.salt v.header.argon2Params = .ok kek) :
    ∃ file log slot, rewrapForPassword password draws v = .ok () { v with
        file := file
        changeLog := log
        header := { v.header with adminKeySlot := slot } } ∧
      kek.encryptRandomNonce draws.slotNonce v.key.toList adminKeySlotAad = .ok slot ∧
      Tracks { v.header with adminKeySlot := slot } file
        { d with header := { v.header with adminKeySlot := slot } } ∧
      WroteOnly v.header Region.Rotates v { v with
        file := file
        changeLog := log
        header := { v.header with adminKeySlot := slot } } := by
  obtain ⟨slot, encrypted, sized, _⟩ :=
    encryptRandomNonce_spec kek draws.slotNonce v.key adminKeySlotAad
  have shape : SameShape v.header { v.header with adminKeySlot := slot } := rfl
  have tracked := tracks.of_sameShape shape (by
    change slot.length ≤ 64
    rw [sized]
    decide)
  obtain ⟨file, log, wrote, tracked', filled⟩ := writeHeader_eq
    (v := { v with header := { v.header with adminKeySlot := slot } }) tracked
  have deriving' : observe (fun v : Vault =>
      MasterKey.derive (utf8 password) v.header.salt v.header.argon2Params) v = .ok kek v :=
    observe_of_ok derived
  have encrypting : observe (fun v : Vault =>
      kek.encryptRandomNonce draws.slotNonce v.key.toList adminKeySlotAad) v = .ok slot v :=
    observe_of_ok encrypted
  have back : SameShape { v.header with adminKeySlot := slot } v.header := rfl
  have switched : Wrote v.header v { v with header := { v.header with adminKeySlot := slot } } [] :=
    Wrote.nothing rfl rfl
  refine ⟨file, log, slot, ?_, encrypted, tracked', _,
    switched.trans (filled.of_sameShape back), fun region member => ?_⟩
  · unfold rewrapForPassword
    rw [bind_of_ok deriving', bind_of_ok encrypting, bind_of_ok (modify_apply _ _)]
    exact wrote
  · rw [List.mem_singleton.mp member]
    trivial

end Rewrap

/-! ## The operation -/

/-- What revoking access does. -/
structure Revokes (v v' : Vault) (d d' : Disk) (files : Files) (slotIdx : Nat)
    (newKey : MasterKey) (password : String) (record : ChainRecord) : Prop where
  commits : Commits v v' d d' record
  key : v'.key = newKey
  sound : Sound v' d' files
  password : WrapsForPassword v'.header password newKey
  dropped : d'.recipients slotIdx = RecipientSlot.empty
  others : ∀ idx, idx < v.header.maxRecipients.toNat → idx ≠ slotIdx →
    Rewrapped newKey (d.recipients idx) (d'.recipients idx)
  seals : ∃ uses, InUse v files uses ∧
    v'.seals = v.seals ++ uses.map fun use => use.sealedUnder newKey

/-- The plan of a revocation: the peer's slot and the blocks in use. -/
theorem planRevocation_eq [Lawful] (sound : Sound v d files) {admin : Identity}
    (authorized : v.adminIdentity = some admin) {signingPubkey : ByteArr 32}
    (present : d.HasSigner v.header signingPubkey) :
    ∃ slotIdx uses, v.planRevocation signingPubkey = .ok (slotIdx, uses) ∧
      d.Occupies v.header slotIdx ∧ (d.recipients slotIdx).signingPubkey = signingPubkey ∧
      InUse v files uses := by
  obtain ⟨slotIdx, found, occupies, signer⟩ := findRecipientSlot_of_present sound.tracks present
  obtain ⟨entries, uses, listed, read, inUse⟩ := sound.legible.readEntries_eq sound.apart
  refine ⟨slotIdx, uses, ?_, occupies, signer, inUse⟩
  unfold planRevocation
  rw [except_bind_of_ok (requireAdmin_eq authorized), except_bind_of_ok found]
  change (v.allOccupiedEntries >>= _) = _
  rw [except_bind_of_ok listed, except_bind_of_ok read]

/-- A peer that was never granted access cannot be revoked. -/
theorem planRevocation_refused (sound : Sound v d files) {admin : Identity}
    (authorized : v.adminIdentity = some admin) {signingPubkey : ByteArr 32}
    (absent : ¬ d.HasSigner v.header signingPubkey) :
    v.planRevocation signingPubkey = .error (.error .accessNotGranted) := by
  unfold planRevocation
  rw [except_bind_of_ok (requireAdmin_eq authorized),
    except_bind_of_ok (findRecipientSlot_of_absent sound.tracks absent)]

/-- The state in which the rotation of the content key ends. -/
def rotated (v : Vault) (newKey : MasterKey) (uses : List BlockInUse) (file : Bytes)
    (log : List (UInt64 × Bytes)) : Vault :=
  { v with
    key := newKey
    file := file
    changeLog := log
    seals := v.seals ++ uses.map fun use => use.sealedUnder newKey }

/-- **Rotating the key** seals every block in use under the new key, empties the peer's
slot and rewraps the others. -/
theorem rotateKey_eq [Lawful] (sound : Sound v d files) {admin : Identity}
    (authorized : v.adminIdentity = some admin) {signingPubkey : ByteArr 32}
    (present : d.HasSigner v.header signingPubkey) (draws : Draws) :
    ∃ slotIdx uses file log recipients,
      rotateKey signingPubkey draws v = .ok () (v.rotated draws.dek uses file log) ∧
      d.Occupies v.header slotIdx ∧ (d.recipients slotIdx).signingPubkey = signingPubkey ∧
      InUse v files uses ∧ recipients slotIdx = RecipientSlot.empty ∧
      (∀ idx, idx < v.header.maxRecipients.toNat → idx ≠ slotIdx →
        Rewrapped draws.dek (d.recipients idx) (recipients idx)) ∧
      Tracks v.header file { d.setBlocks draws.dek uses with recipients := recipients } ∧
      WroteOnly v.header Region.Rotates v (v.rotated draws.dek uses file log) := by
  obtain ⟨slotIdx, uses, planned, occupies, signer, inUse⟩ :=
    planRevocation_eq sound authorized present
  have observed : observe (fun v : Vault => v.planRevocation signingPubkey) v =
      .ok (slotIdx, uses) v := observe_of_ok planned
  have switched : (modify fun v : Vault => { v with key := draws.dek } : VaultM PUnit) v =
      .ok ⟨⟩ { v with key := draws.dek } := rfl
  -- the blocks in use, sealed again
  obtain ⟨file₁, log₁, sealedAll, tracks₁, filled₁⟩ := sealUses_eq
    (v := { v with key := draws.dek }) sound.tracks uses
    (fun use member => by
      obtain ⟨idx, file, _, fromFile⟩ := inUse.ofFile use member
      exact StoredFile.fits_of_mem_uses sound.tracks.layout.blockSize fromFile)
    (fun use member => by
      obtain ⟨idx, file, found, fromFile⟩ := inUse.ofFile use member
      exact (sound.stored idx file found).valid_of_mem sound.tracks
        ((sound.stored idx file found).block_mem fromFile))
  -- the revoked slot, emptied
  have emptyFits : RecipientSlot.empty.wrappedDek.length ≤ wrappedDekLen := Nat.zero_le _
  obtain ⟨file₂, log₂, dropped, tracks₂, filled₂⟩ := writeRecipientSlot_eq
    (v := v.rotated draws.dek uses file₁ log₁) tracks₁ occupies.1 emptyFits
  -- the remaining slots, rewrapped
  obtain ⟨file₃, log₃, recipients, rewrapped, wraps, tracks₃, filled₃⟩ := rewrapSlots_eq
    (v := v.rotated draws.dek uses file₂ log₂) tracks₂ draws
  have indices : observe (fun v : Vault => .ok v.recipientIndices)
      (v.rotated draws.dek uses file₂ log₂) =
      (.ok v.recipientIndices _ : EStateM.Result Fault Vault _) := rfl
  have switchedOnly : Wrote v.header v { v with key := draws.dek } [] := Wrote.nothing rfl rfl
  have filled : WroteOnly v.header Region.Rotates v (v.rotated draws.dek uses file₂ log₂) := by
    refine ⟨_, (switchedOnly.trans filled₁).trans filled₂, fun region member => ?_⟩
    rcases List.mem_append.mp member with sealing | dropping
    · obtain ⟨use, _, rfl⟩ := List.mem_map.mp sealing
      trivial
    · rw [List.mem_singleton.mp dropping]
      trivial
  refine ⟨slotIdx, uses, file₃, log₃, recipients, ?_, occupies, signer, inUse, ?_, ?_, tracks₃,
    filled.trans filled₃⟩
  · unfold rotateKey
    refine (bind_of_ok observed).trans ((bind_of_ok switched).trans ?_)
    refine (bind_of_ok sealedAll).trans ((bind_of_ok dropped).trans ?_)
    exact (bind_of_ok indices).trans rewrapped
  · have here := wraps slotIdx occupies.1
    unfold Rewrapped at here
    simp only [Disk.setRecipient, Function.update_self] at here
    rwa [if_neg (by decide)] at here
  · intro idx inTable different
    have here := wraps idx inTable
    simp only [Disk.setRecipient, Function.update_of_ne different,
      Disk.recipients_setBlocks] at here
    exact here

/-- **Revoking access** of a granted peer rotates the content key, whatever password is
given, as long as a key derives from it. -/
theorem revokeAccess_eq [Lawful] (sound : Sound v d files) {admin : Identity}
    (authorized : v.adminIdentity = some admin) {signingPubkey : ByteArr 32}
    (present : d.HasSigner v.header signingPubkey) {password : String} {kek : MasterKey}
    (derived : MasterKey.derive (utf8 password) v.header.salt v.header.argon2Params = .ok kek)
    (draws : Draws) :
    ∃ v' slotIdx d', revokeAccess signingPubkey password draws v = .ok () v' ∧
      d.Occupies v.header slotIdx ∧ (d.recipients slotIdx).signingPubkey = signingPubkey ∧
      Revokes v v' d d' files slotIdx draws.dek password
        (signedRecord v admin .keyRotated (peerTargetId signingPubkey)
          (sha256 signingPubkey.toList) draws.recordTime) ∧
      WroteOnly v.header Region.Rotates v v' := by
  obtain ⟨slotIdx, uses, file₁, log₁, recipients, rotated, occupies, signer, inUse, dropped,
    others, tracks₁, filled₁⟩ := rotateKey_eq sound authorized present draws
  obtain ⟨file₂, log₂, slot, rewrote, encrypted, tracks₂, filled₂⟩ := rewrapForPassword_eq
    (v := v.rotated draws.dek uses file₁ log₁) tracks₁ draws derived
  obtain ⟨file₃, log₃, record, recordIs, appended, tracks₃, filled₃⟩ := appendSignedChainRecord_eq
    (v := { v.rotated draws.dek uses file₂ log₂ with
      header := { v.header with adminKeySlot := slot } }) tracks₂ authorized
    .keyRotated (peerTargetId signingPubkey) (sha256 signingPubkey.toList) draws.recordTime
  have same : record = signedRecord v admin .keyRotated (peerTargetId signingPubkey)
    (sha256 signingPubkey.toList) draws.recordTime := recordIs
  subst same
  have shape : SameShape v.header (anchored { v.header with adminKeySlot := slot }
    (signedRecord v admin .keyRotated (peerTargetId signingPubkey)
      (sha256 signingPubkey.toList) draws.recordTime)) := rfl
  refine ⟨{ v.rotated draws.dek uses file₃ log₃ with
      header := anchored { v.header with adminKeySlot := slot } _ }, slotIdx, _, ?_, occupies,
    signer, ⟨⟨tracks₃, rfl, rfl, ?_, rfl⟩, rfl, ?_,
    ⟨kek, draws.slotNonce, derived, encrypted⟩, dropped, others, uses, inUse, rfl⟩, ?_⟩
  · unfold revokeAccess
    exact (bind_of_ok rotated).trans ((bind_of_ok rewrote).trans appended)
  · change Function.update (Disk.setBlocks d draws.dek uses).records _ _ = _
    rw [Disk.records_setBlocks]
    rfl
  · have placed : ∀ idx file, files idx = some file →
        Stored v.header (d.setBlocks draws.dek uses) draws.dek file := fun idx file found =>
      (sound.stored idx file found).reseal inUse found rfl
    exact {
      tracks := tracks₃
      counted := sound.counted
      shown := by
        intro idx file found
        have shown := sound.shown idx file found
        rw [← d.entries_setBlocks draws.dek uses] at shown
        exact shown
      stored := fun idx file found =>
        ((placed idx file found).of_sameShape shape).of_blocks fun _ _ => rfl
      named := sound.named
      owned := sound.owned
      header := rfl
      bitmap := (d.bitmap_setBlocks draws.dek uses).trans sound.bitmap
      vacant := by
        intro idx inTable vacant
        have free := sound.vacant idx inTable vacant
        rw [← d.entries_setBlocks draws.dek uses] at free
        exact free }
  · have back : SameShape { v.header with adminKeySlot := slot } v.header := rfl
    refine (filled₁.trans filled₂).trans ⟨_, filled₃.of_sameShape back, fun region member => ?_⟩
    rcases List.mem_pair.mp member with rfl | rfl <;> trivial

/-- Every outcome of revoking access: the rotation of a granted peer's key, a refusal for
a peer that is not granted, or no key derives from the password. -/
theorem revokeAccess_yields [Lawful] (sound : Sound v d files) {admin : Identity}
    (authorized : v.adminIdentity = some admin) (signingPubkey : ByteArr 32) (password : String)
    (draws : Draws) :
    Yields (revokeAccess signingPubkey password draws) v
      (fun _ v' => ∃ slotIdx d', d.Occupies v.header slotIdx ∧
        (d.recipients slotIdx).signingPubkey = signingPubkey ∧
        Revokes v v' d d' files slotIdx draws.dek password
          (signedRecord v admin .keyRotated (peerTargetId signingPubkey)
            (sha256 signingPubkey.toList) draws.recordTime) ∧
        WroteOnly v.header Region.Rotates v v')
      (fun error v' =>
        (error = .error .accessNotGranted ∧ v' = v ∧ ¬ d.HasSigner v.header signingPubkey) ∨
        (error = .error .cryptoFailure ∧ d.HasSigner v.header signingPubkey ∧
          argon2id (utf8 password) v.header.salt v.header.argon2Params = none ∧
          WroteOnly v.header Region.Rotates v v')) := by
  by_cases present : d.HasSigner v.header signingPubkey
  · cases derived : argon2id (utf8 password) v.header.salt v.header.argon2Params with
    | some kek =>
        obtain ⟨v', slotIdx, d', ran, occupies, signer, revokes, filled⟩ :=
          revokeAccess_eq sound authorized present (MasterKey.derive_eq_ok_iff.mpr derived) draws
        exact Yields.of_ok ran ⟨slotIdx, d', occupies, signer, revokes, filled⟩
    | none =>
        obtain ⟨slotIdx, uses, file, log, recipients, rotated, _, _, _, _, _, _, filled⟩ :=
          rotateKey_eq sound authorized present draws
        have failed : observe (fun v : Vault => MasterKey.derive (utf8 password) v.header.salt
            v.header.argon2Params) (v.rotated draws.dek uses file log) =
            .error (.error .cryptoFailure) (v.rotated draws.dek uses file log) := by
          apply observe_of_error
          change MasterKey.derive (utf8 password) v.header.salt v.header.argon2Params = _
          unfold MasterKey.derive
          rw [derived]
        have stopped : rewrapForPassword password draws (v.rotated draws.dek uses file log) =
            .error (.error .cryptoFailure) (v.rotated draws.dek uses file log) := by
          unfold rewrapForPassword
          exact bind_of_error failed
        unfold revokeAccess
        exact Yields.of_error ((bind_of_ok rotated).trans (bind_of_error stopped))
          (Or.inr ⟨rfl, present, rfl, filled⟩)
  · have failed : observe (fun v : Vault => v.planRevocation signingPubkey) v =
        .error (.error .accessNotGranted) v :=
      observe_of_error (planRevocation_refused sound authorized present)
    unfold revokeAccess rotateKey
    exact Yields.of_error (bind_of_error (bind_of_error failed)) (Or.inl ⟨rfl, rfl, present⟩)

end Vault

/-- A keyring after a revocation with its password: the peers that remain are those
with other signing keys. -/
theorem Keyring.revoke {v v' : Vault} {d d' : Disk} {files : Files} {password password' : String}
    {granted : List PeerId} (keyring : Keyring v d password granted) {slotIdx : Nat}
    {newKey : MasterKey} {record : ChainRecord} (occupies : d.Occupies v.header slotIdx)
    (revokes : Vault.Revokes v v' d d' files slotIdx newKey password' record) :
    Keyring v' d' password' (granted.filter fun peer =>
      peer.signingPublic ≠ (d.recipients slotIdx).signingPubkey) := by
  have shape := revokes.commits.sameShape
  have inTable : ∀ idx, idx < v'.header.maxRecipients.toNat ↔
      idx < v.header.maxRecipients.toNat := by
    intro idx
    rw [shape.maxRecipients_eq]
  -- the slots that remain are the other slots from before, with the same peers
  have remains : ∀ idx, d'.Occupies v'.header idx ↔ idx ≠ slotIdx ∧ d.Occupies v.header idx := by
    intro idx
    unfold Disk.Occupies
    rw [inTable]
    by_cases same : idx = slotIdx
    · rw [same, revokes.dropped]
      constructor
      · rintro ⟨_, occupied⟩
        exact absurd occupied (by decide)
      · rintro ⟨different, _⟩
        exact absurd rfl different
    · constructor
      · rintro ⟨below, occupied⟩
        have wrapped := revokes.others idx below same
        unfold Rewrapped at wrapped
        by_cases before : (d.recipients idx).isOccupied
        · exact ⟨same, below, before⟩
        · rw [if_neg before] at wrapped
          rw [wrapped] at occupied
          exact absurd occupied before
      · rintro ⟨_, below, occupied⟩
        have wrapped := revokes.others idx below same
        unfold Rewrapped at wrapped
        rw [if_pos occupied] at wrapped
        exact ⟨below, wrapped.2.1⟩
  have kept : ∀ idx, idx ≠ slotIdx → d.Occupies v.header idx →
      (d'.recipients idx).peer = (d.recipients idx).peer ∧
        WrapsKey newKey (d'.recipients idx) := by
    rintro idx different ⟨below, occupied⟩
    have wrapped := revokes.others idx below different
    unfold Rewrapped at wrapped
    rw [if_pos occupied] at wrapped
    exact ⟨wrapped.1, wrapped.2.2⟩
  refine ⟨?_, ?_, ?_, ?_⟩
  · rw [revokes.key]
    exact revokes.password
  · intro idx occupies'
    obtain ⟨different, before⟩ := (remains idx).mp occupies'
    rw [revokes.key]
    exact (kept idx different before).2
  · intro first second heldFirst heldSecond sameKey
    obtain ⟨different, before⟩ := (remains first).mp heldFirst
    obtain ⟨different', before'⟩ := (remains second).mp heldSecond
    have peer := congrArg PeerId.signingPublic (kept first different before).1
    have peer' := congrArg PeerId.signingPublic (kept second different' before').1
    exact keyring.distinct first second before before'
      (peer.symm.trans (sameKey.trans peer'))
  · intro peer
    rw [List.mem_filter, ← keyring.granted, decide_eq_true_eq]
    constructor
    · rintro ⟨idx, held, samePeer⟩
      obtain ⟨different, before⟩ := (remains idx).mp held
      rw [(kept idx different before).1] at samePeer
      refine ⟨⟨idx, before, samePeer⟩, fun sameSigner => different ?_⟩
      rw [← samePeer] at sameSigner
      exact keyring.distinct idx slotIdx before occupies sameSigner
    · rintro ⟨⟨idx, before, samePeer⟩, otherSigner⟩
      have different : idx ≠ slotIdx := by
        rintro rfl
        rw [← samePeer] at otherSigner
        exact otherSigner rfl
      refine ⟨idx, (remains idx).mpr ⟨different, before⟩, ?_⟩
      rw [(kept idx different before).1]
      exact samePeer

end ReVault
