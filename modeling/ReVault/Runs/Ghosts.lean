import ReVault.Foundation.Ghost
import ReVault.Runs.Steps

/-!
# The record of sealed blocks

The blocks that a handle has sealed are only recorded. No operation reads the record, so
handles that differ in it alone answer the same and write the same.
-/

namespace ReVault

open Foundation Primitives

namespace Vault

variable [Primitives]

omit [Primitives] in
/-- The handle with another record of the blocks it has sealed. -/
def sealing (seals : List BlockSeal) (v : Vault) : Vault := { v with seals := seals }

/-! ## Reading -/

section Reads

variable (seals : List BlockSeal) (v : Vault)

/-- The walk along the index blocks reads no seals. -/
theorem overflowNodes_sealing (fileId : BitVec 128) (fuel : Nat) (next : UInt64) :
    (v.sealing seals).overflowNodes fileId fuel next = v.overflowNodes fileId fuel next := by
  induction fuel generalizing next with
  | zero => rfl
  | succ fuel ih =>
      rw [overflowNodes, overflowNodes]
      simp only [ih]
      rfl

/-- Neither does collecting blocks. -/
theorem collectAllBlocks_sealing (entry : FileEntry) :
    (v.sealing seals).collectAllBlocks entry = v.collectAllBlocks entry := by
  rw [collectAllBlocks, overflowNodes_sealing]
  rfl

/-- Neither does reading blocks. -/
theorem readBlocks_sealing (fileId : BitVec 128) (blocks : List UInt64) :
    (v.sealing seals).readBlocks fileId blocks = v.readBlocks fileId blocks := by
  induction blocks with
  | nil => rfl
  | cons block rest ih =>
      rw [readBlocks, readBlocks, ih]
      rfl

/-- Neither does reading entries. -/
theorem readEntries_sealing (entries : List (Nat × FileEntry)) :
    (v.sealing seals).readEntries entries = v.readEntries entries := by
  induction entries with
  | nil => rfl
  | cons entry rest ih =>
      rw [readEntries, readEntries]
      simp only [ih, collectAllBlocks_sealing, readBlocks_sealing]

/-- Neither does planning a revocation. -/
theorem planRevocation_sealing (peerSigningPubkey : ByteArr 32) :
    (v.sealing seals).planRevocation peerSigningPubkey = v.planRevocation peerSigningPubkey := by
  unfold planRevocation
  simp only [readEntries_sealing]
  rfl

/-- Neither does locating a file. -/
theorem locate_sealing (name : String) : (v.sealing seals).locate name = v.locate name := by
  unfold locate
  simp only [collectAllBlocks_sealing]
  rfl

/-- Neither does planning an update. -/
theorem planUpdate_sealing (name : String) (newLength : Nat) :
    (v.sealing seals).planUpdate name newLength = v.planUpdate name newLength := by
  unfold planUpdate
  rw [locate_sealing]
  rfl

end Reads

/-! ## Writing -/

/-- The program does not read the record. -/
abbrev Unrecorded {α : Type} (program : VaultM α) : Prop := Oblivious sealing program

namespace Unrecorded

section Rules

variable {α β : Type} {next : α → VaultM β}

omit [Primitives]

/-- A program that reads first. -/
theorem reads {read : Vault → Except Fault α}
    (same : ∀ seals v, read (sealing seals v) = read v) (tail : ∀ value, Unrecorded (next value)) :
    Unrecorded (observe read >>= next) := (Oblivious.observe same).bind tail

/-- A program that changes the vault first. -/
theorem updates {update : Vault → Vault} {next : PUnit → VaultM β}
    (same : ∀ seals v, ∃ seals', update (sealing seals v) = sealing seals' (update v))
    (tail : ∀ value, Unrecorded (next value)) : Unrecorded (modify update >>= next) :=
  (Oblivious.modify same).bind tail

/-- A program that looks at the vault first. -/
theorem looks {next : Vault → VaultM β} (same : ∀ seals v, next (sealing seals v) = next v)
    (tail : ∀ v, Unrecorded (next v)) : Unrecorded (get >>= next) := Oblivious.get_bind same tail

/-- Writing. -/
theorem writeAt (offset : UInt64) (data : Bytes) : Unrecorded (Vault.writeAt offset data) := by
  unfold Vault.writeAt
  split
  · exact Oblivious.throw _
  · exact Oblivious.modify fun seals _ => ⟨seals, rfl⟩

/-- Writing the bitmap. -/
theorem writeBitmap : Unrecorded Vault.writeBitmap := looks (fun _ _ => rfl) fun _ => writeAt _ _

/-- Releasing blocks. -/
theorem releaseBlocks (blocks : List UInt64) : Unrecorded (Vault.releaseBlocks blocks) :=
  updates (fun seals _ => ⟨seals, rfl⟩) fun _ => writeBitmap

end Rules

/-- Writing the header. -/
theorem writeHeader : Unrecorded Vault.writeHeader := reads (fun _ _ => rfl) fun _ => writeAt _ _

/-- Writing a slot of the file table. -/
theorem writeSlot (idx : Nat) (entry : FileEntry) : Unrecorded (Vault.writeSlot idx entry) :=
  reads (fun _ _ => rfl) fun _ => looks (fun _ _ => rfl) fun _ => writeAt _ _

/-- Writing a slot for a recipient. -/
theorem writeRecipientSlot (idx : Nat) (slot : RecipientSlot) :
    Unrecorded (Vault.writeRecipientSlot idx slot) :=
  reads (fun _ _ => rfl) fun _ => looks (fun _ _ => rfl) fun _ => writeAt _ _

/-- Writing a record. -/
theorem appendSignedChainRecord (op : ChainOp) (targetId : BitVec 128) (dataHash : ByteArr 32)
    (timestamp : Int64) :
    Unrecorded (Vault.appendSignedChainRecord op targetId dataHash timestamp) := by
  apply reads fun _ _ => rfl
  intro record
  apply reads fun _ _ => rfl
  intro offset
  apply (writeAt offset record.encode).bind
  intro _
  exact updates (fun seals _ => ⟨seals, rfl⟩) fun _ => writeHeader

/-- The only program that writes the record. -/
theorem writePhysicalBlock (physicalIdx : UInt64) (fileId : BitVec 128) (plaintext : Bytes) :
    Unrecorded (Vault.writePhysicalBlock physicalIdx fileId plaintext) := by
  apply reads fun _ _ => rfl
  intro ciphertext
  apply updates fun seals v => ⟨seals ++ [⟨v.key, fileId, physicalIdx, plaintext⟩], rfl⟩
  intro _
  apply looks fun _ _ => rfl
  intro v
  split
  · exact Oblivious.throw _
  · exact writeAt _ _

/-- Writing a content. -/
theorem writeContent (header : Header) (fileId : BitVec 128) (data : Bytes)
    (dataBlocks indexBlocks : List UInt64) :
    Unrecorded (Vault.writeContent header fileId data dataBlocks indexBlocks) := by
  apply (Oblivious.forM (fun _ => writePhysicalBlock _ _ _) _).bind
  intro _
  apply Oblivious.forM
  intro node
  split
  · exact writePhysicalBlock _ _ _
  · exact Oblivious.throw _

/-- Storing a content. -/
theorem storeNewContent (fileId : BitVec 128) (data : Bytes) :
    Unrecorded (Vault.storeNewContent fileId data) := by
  apply reads fun _ _ => rfl
  rintro ⟨dataCount, indexCount⟩
  apply looks fun _ _ => rfl
  intro v
  apply updates fun seals _ => ⟨seals, rfl⟩
  intro _
  apply (writeContent _ _ _ _ _).bind
  intro _
  exact writeBitmap.bind fun _ => Oblivious.pure _

/-- Adding a file. -/
theorem addFile (name : String) (data : Bytes) (draws : Draws) :
    Unrecorded (Vault.addFile name data draws) := by
  apply reads fun _ _ => rfl
  intro slot
  apply (storeNewContent _ _).bind
  rintro ⟨directBlocks, overflowBlock, blocksUsed⟩
  exact (writeSlot _ _).bind fun _ => appendSignedChainRecord _ _ _ _

/-- Updating a file. -/
theorem updateFile (name : String) (newData : Bytes) (draws : Draws) :
    Unrecorded (Vault.updateFile name newData draws) := by
  apply reads fun seals v => planUpdate_sealing seals v name newData.length
  rintro ⟨slot, oldEntry, oldBlocks⟩
  apply (releaseBlocks oldBlocks).bind
  intro _
  apply (storeNewContent _ _).bind
  rintro ⟨directBlocks, overflowBlock, blocksUsed⟩
  exact (writeSlot _ _).bind fun _ => appendSignedChainRecord _ _ _ _

/-- Deleting a file. -/
theorem deleteFile (name : String) (draws : Draws) :
    Unrecorded (Vault.deleteFile name draws) := by
  apply reads fun seals v => locate_sealing seals v name
  rintro ⟨slot, entry, blocks⟩
  apply (releaseBlocks blocks).bind
  intro _
  exact (writeSlot _ _).bind fun _ => appendSignedChainRecord _ _ _ _

/-- Granting access. -/
theorem grantAccess (peer : PeerId) (draws : Draws) :
    Unrecorded (Vault.grantAccess peer draws) := by
  apply reads fun _ _ => rfl
  intro idx
  apply reads fun _ _ => rfl
  intro wrapped
  exact (writeRecipientSlot _ _).bind fun _ => appendSignedChainRecord _ _ _ _

/-- Wrapping a slot again. -/
theorem rewrapSlot (draws : Draws) (idx : Nat) : Unrecorded (Vault.rewrapSlot draws idx) := by
  apply reads fun _ _ => rfl
  intro slot
  split
  · exact reads (fun _ _ => rfl) fun _ => writeRecipientSlot _ _
  · exact Oblivious.pure _

/-- Replacing the key. -/
theorem rotateKey (peerSigningPubkey : ByteArr 32) (draws : Draws) :
    Unrecorded (Vault.rotateKey peerSigningPubkey draws) := by
  apply reads fun seals v => planRevocation_sealing seals v peerSigningPubkey
  rintro ⟨slotIdx, blocks⟩
  apply updates fun seals _ => ⟨seals, rfl⟩
  intro _
  apply (Oblivious.forM (fun use => writePhysicalBlock _ _ _) blocks).bind
  intro _
  apply (writeRecipientSlot _ _).bind
  intro _
  exact reads (fun _ _ => rfl) fun _ => Oblivious.forM (rewrapSlot draws) _

/-- Wrapping for a password again. -/
theorem rewrapForPassword (password : String) (draws : Draws) :
    Unrecorded (Vault.rewrapForPassword password draws) := by
  apply reads fun _ _ => rfl
  intro kek
  apply reads fun _ _ => rfl
  intro adminKeySlot
  exact updates (fun seals _ => ⟨seals, rfl⟩) fun _ => writeHeader

/-- Revoking access. -/
theorem revokeAccess (peerSigningPubkey : ByteArr 32) (password : String) (draws : Draws) :
    Unrecorded (Vault.revokeAccess peerSigningPubkey password draws) :=
  (rotateKey peerSigningPubkey draws).bind fun _ =>
    (rewrapForPassword password draws).bind fun _ => appendSignedChainRecord _ _ _ _

end Unrecorded

/-- **No operation reads the record** of the blocks that were sealed. -/
theorem unrecorded_exec (op : Op) (mutates : op.mutates = true) (password : String)
    (draws : Draws) : Unrecorded (op.exec password draws) := by
  cases op with
  | addFile name data => exact Unrecorded.addFile name data draws
  | updateFile name data => exact Unrecorded.updateFile name data draws
  | deleteFile name => exact Unrecorded.deleteFile name draws
  | grantAccess peer => exact Unrecorded.grantAccess peer draws
  | revokeAccess signingPubkey password =>
      exact Unrecorded.revokeAccess signingPubkey password draws
  | _ => cases mutates

end Vault

end ReVault
