import ReVault.Core.Exact
import ReVault.Core.Vault
import ReVault.Files.Walk

/-!
# Reading with checked arithmetic

Opening, listing, reading and verifying with checked arithmetic. The buffer for the content of a
file is moreover asserted to be no longer than one can be. The checked operations guard those of
the model.
-/

namespace ReVault

open Foundation Primitives

section

variable [Primitives]

/-! ## The operations -/

/-- Reads a header. One that is accepted has had the ends of its regions added up. -/
def exactReadHeader (file : Bytes) : Except Fault Header := do
  let header ← readHeader file
  header.exactEnds
  .ok header

namespace Vault

/-- `read_recipient_slot`, with checked arithmetic. -/
def exactReadRecipientSlotAt (file : Bytes) (header : Header) (idx : Nat) :
    Except Fault RecipientSlot := do
  let offset ← header.exactRecipientSlotOffset idx
  let buf ← readExact file offset header.recipientSlotSize.toNat
  checked (RecipientSlot.decode buf)

/-- `open`, with checked arithmetic. -/
def exactOpenWithPassword (file : Bytes) (password : String) (localIdentity : Identity) :
    Except Fault Vault := do
  let header ← exactReadHeader file
  let key ← unwrapWithPassword header password
  let adminIdentity :=
    if localIdentity.peerId.signingPublic = header.adminSigningPubkey then some localIdentity
    else none
  let allocator ← readAllocator file header
  .ok { file, header, allocator, key, adminIdentity, changeLog := [], seals := [] }

/-- `open_as_recipient`, with checked arithmetic. -/
def exactOpenAsRecipient (file : Bytes) (localIdentity : Identity) : Except Fault Vault := do
  let header ← exactReadHeader file
  let found ← findSlot (exactReadRecipientSlotAt file header)
    (fun slot => slot.isOccupied &&
      slot.encryptionPubkey == localIdentity.peerId.encryptionPublic)
    (List.range header.maxRecipients.toNat)
  match found with
  | none => .error (.error .accessNotGranted)
  | some (_, slot) => do
      let key ← unwrapAsRecipient slot localIdentity
      let allocator ← readAllocator file header
      .ok { file, header, allocator, key, adminIdentity := none, changeLog := [], seals := [] }

/-- `read_slot`, with checked arithmetic. -/
def exactReadSlot (v : Vault) (idx : Nat) : Except Fault FileEntry := do
  let offset ← v.header.exactSlotOffset idx
  let buf ← readExact v.file offset v.header.entrySize.toNat
  checked (FileEntry.decode buf)

/-- `list_files`, with checked arithmetic. -/
def exactListFiles (v : Vault) : Except Fault (List FileInfo) := do
  let entries ← keepSlots v.exactReadSlot (fun entry => entry.isOccupied) v.slotIndices
  .ok (entries.map fun slot =>
    { name := slot.2.name, size := slot.2.size, createdAt := slot.2.createdAt,
      modifiedAt := slot.2.modifiedAt })

/-- The plaintext framed in the bytes of a block, after the sums that bound the frame. -/
def exactOpenBlock (key : MasterKey) (physicalIdx : UInt64) (fileId : BitVec 128)
    (buf : Bytes) : Except Fault Bytes := do
  let plainLen := UInt64.ofNat (ofLE (buf.take 4))
  let _ ← Exact.add 4 plainLen
  let _ ← Exact.add plainLen 16
  openBlock key physicalIdx fileId buf

/-- `read_physical_block`, with checked arithmetic. -/
def exactReadPhysicalBlock (v : Vault) (physicalIdx : UInt64) (fileId : BitVec 128) :
    Except Fault Bytes := do
  let offset ← v.header.exactBlockOffset physicalIdx
  let buf ← readExact v.file offset v.header.blockSize.toNat
  exactOpenBlock v.key physicalIdx fileId buf

/-- A position in an index payload is at most the length of the payload. -/
def exactReadIndexBlock (v : Vault) (physicalIdx : UInt64) (fileId : BitVec 128) :
    Except Fault (UInt64 × List UInt64) := do
  let payload ← v.exactReadPhysicalBlock physicalIdx fileId
  parseIndexPayload payload

/-- The walk along the index blocks, with checked arithmetic. -/
def exactOverflowNodes (v : Vault) (fileId : BitVec 128) (next : UInt64) :
    Except Fault (List (UInt64 × List UInt64)) :=
  chase (fun block => v.exactReadIndexBlock block fileId) 0 .diverge walkFuel next

/-- `collect_data_blocks`, with checked arithmetic. -/
def exactCollectDataBlocks (v : Vault) (entry : FileEntry) : Except Fault (List UInt64) := do
  let dataBlocks ← v.header.exactDataBlockCount entry.size.toNat
  let nodes ← v.exactOverflowNodes entry.id entry.overflowBlock
  let blocks := usedDirectBlocks entry dataBlocks ++ nodes.flatMap fun node => node.2
  if blocks.length ≠ dataBlocks then
    .error (.error
      (.corruptContainer "file entry block count does not match recorded size"))
  else .ok blocks

/-- The content of the blocks, with checked arithmetic. -/
def exactReadContent (v : Vault) (fileId : BitVec 128) : List UInt64 → Except Fault Bytes
  | [] => .ok []
  | block :: rest => do
      let chunk ← v.exactReadPhysicalBlock block fileId
      let later ← exactReadContent v fileId rest
      .ok (chunk ++ later)

/-- The content of a file entry. The buffer for it is as long as the entry says. -/
def exactReadEntry (v : Vault) (entry : FileEntry) : Except Fault Bytes :=
  if entry.size = 0 then
    if entry.fileHash ≠ sha256 [] then
      .error (.error (.integrityViolation "empty file hash mismatch"))
    else .ok []
  else do
    let blocks ← v.exactCollectDataBlocks entry
    assure .panic (entry.size.toNat ≤ ioLimit)
    let content ← v.exactReadContent entry.id blocks
    if sha256 (content.take entry.size.toNat) ≠ entry.fileHash then
      .error (.error (.integrityViolation
        "file contents do not match stored hash (corruption or tampering)"))
    else .ok (content.take entry.size.toNat)

/-- `read_file`, with checked arithmetic. -/
def exactReadFile (v : Vault) (name : String) : Except Fault Bytes := do
  let found ← findSlot v.exactReadSlot (fun entry => entry.isOccupied && entry.name == name)
    v.slotIndices
  match found with
  | none => .error (.error (.fileNotFound name))
  | some (_, entry) => v.exactReadEntry entry

omit [Primitives] in
/-- `read_chain_slot_at_seq`, with checked arithmetic. -/
def exactReadChainSlotAtSeq (v : Vault) (seq : UInt64) :
    Except Fault (Option ChainRecord) := do
  let offset ← v.header.exactChainSlotOffset seq
  let buf ← readExact v.file offset v.header.chainRecordSize.toNat
  checked (ChainRecord.decode buf)

/-- The walk along the chain, with checked arithmetic. -/
def exactVerifyChain (v : Vault) : List Nat → Option ChainRecord →
    Except Fault (Option ChainRecord)
  | [], prev => .ok prev
  | seq :: rest, prev => do
      let found ← v.exactReadChainSlotAtSeq (UInt64.ofNat seq)
      match found with
      | none => exactVerifyChain v rest prev
      | some record => do
          v.checkRecord seq prev record
          exactVerifyChain v rest (some record)

/-- Every file is read, with checked arithmetic. -/
def exactVerifyFiles (v : Vault) : List String → Except Fault Unit
  | [] => .ok ()
  | name :: rest => do
      let _ ← v.exactReadFile name
      exactVerifyFiles v rest

/-- Verification. The subtractions that give the window saturate. -/
def exactVerifyIntegrity (v : Vault) : Except Fault Unit := do
  let prev ← v.exactVerifyChain v.windowSeqs none
  v.checkAnchor prev
  let files ← v.exactListFiles
  v.exactVerifyFiles (files.map fun info => info.name)

end Vault

/-! ## What they guard -/

/-- `exactReadHeader` is `readHeader` unless it panics. -/
theorem exactReadHeader_guards (file : Bytes) :
    Guards .panic (exactReadHeader file) (readHeader file) := by
  have same : (readHeader file >>= fun header => (.ok () >>= fun _ => .ok header)) =
      readHeader file := by
    cases readHeader file <;> rfl
  rw [← same]
  exact (Guards.refl _).bind fun header _ => header.exactEnds_guards.bind fun _ _ =>
    Guards.refl _

namespace Vault

/-- `exactReadRecipientSlotAt` is `readRecipientSlotAt` unless it panics. -/
theorem exactReadRecipientSlotAt_guards (file : Bytes) (header : Header) (idx : Nat) :
    Guards .panic (exactReadRecipientSlotAt file header idx)
      (readRecipientSlotAt file header idx) :=
  (header.exactRecipientSlotOffset_guards idx).bind fun _ _ => Guards.refl _

/-- `exactOpenWithPassword` is `openWithPassword` unless it panics. -/
theorem exactOpenWithPassword_guards (file : Bytes) (password : String)
    (localIdentity : Identity) :
    Guards .panic (exactOpenWithPassword file password localIdentity)
      (openWithPassword file password localIdentity) :=
  (exactReadHeader_guards file).bind fun _ _ => Guards.refl _

/-- `exactOpenAsRecipient` is `openAsRecipient` unless it panics. -/
theorem exactOpenAsRecipient_guards (file : Bytes) (localIdentity : Identity) :
    Guards .panic (exactOpenAsRecipient file localIdentity)
      (openAsRecipient file localIdentity) :=
  (exactReadHeader_guards file).bind fun header _ =>
    (findSlot_guards (exactReadRecipientSlotAt_guards file header) _ _).bind fun _ _ =>
      Guards.refl _

/-- `exactReadSlot` is `readSlot` unless it panics. -/
theorem exactReadSlot_guards (v : Vault) (idx : Nat) :
    Guards .panic (v.exactReadSlot idx) (v.readSlot idx) :=
  (v.header.exactSlotOffset_guards idx).bind fun _ _ => Guards.refl _

/-- `exactListFiles` is `listFiles` unless it panics. -/
theorem exactListFiles_guards (v : Vault) : Guards .panic v.exactListFiles v.listFiles :=
  (keepSlots_guards v.exactReadSlot_guards _ _).bind fun _ _ => Guards.refl _

/-- The sums over the frame of a block are those of a 32-bit length. -/
theorem exactOpenBlock_eq (key : MasterKey) (physicalIdx : UInt64) (fileId : BitVec 128)
    (buf : Bytes) :
    exactOpenBlock key physicalIdx fileId buf = openBlock key physicalIdx fileId buf := by
  have framed : ofLE (buf.take 4) < 2 ^ 32 :=
    (ofLE_lt (buf.take 4)).trans_le (Nat.pow_le_pow_right (by decide) (List.length_take_le ..))
  have plainLen : (UInt64.ofNat (ofLE (buf.take 4))).toNat = ofLE (buf.take 4) :=
    UInt64.toNat_ofNat_of_lt' (framed.trans (by decide))
  have header : (4 : UInt64).toNat + (UInt64.ofNat (ofLE (buf.take 4))).toNat < 2 ^ 64 := by
    rw [plainLen]
    change 4 + _ < _
    omega
  have tag : (UInt64.ofNat (ofLE (buf.take 4))).toNat + (16 : UInt64).toNat < 2 ^ 64 := by
    rw [plainLen]
    change _ + 16 < _
    omega
  unfold exactOpenBlock
  rw [except_bind_of_ok (Exact.add_of_fits header), except_bind_of_ok (Exact.add_of_fits tag)]

/-- `exactReadPhysicalBlock` is `readPhysicalBlock` unless it panics. -/
theorem exactReadPhysicalBlock_guards (v : Vault) (physicalIdx : UInt64)
    (fileId : BitVec 128) :
    Guards .panic (v.exactReadPhysicalBlock physicalIdx fileId)
      (v.readPhysicalBlock physicalIdx fileId) := by
  refine (v.header.exactBlockOffset_guards physicalIdx).bind fun offset _ =>
    (Guards.refl _).bind fun buf _ => ?_
  rw [exactOpenBlock_eq]
  exact Guards.refl _

/-- `exactReadIndexBlock` is `readIndexBlock` unless it panics. -/
theorem exactReadIndexBlock_guards (v : Vault) (physicalIdx : UInt64) (fileId : BitVec 128) :
    Guards .panic (v.exactReadIndexBlock physicalIdx fileId)
      (v.readIndexBlock physicalIdx fileId) :=
  (v.exactReadPhysicalBlock_guards physicalIdx fileId).bind fun _ _ => Guards.refl _

/-- `exactOverflowNodes` is `overflowNodes` unless it panics. -/
theorem exactOverflowNodes_guards (v : Vault) (fileId : BitVec 128) (next : UInt64) :
    Guards .panic (v.exactOverflowNodes fileId next)
      (v.overflowNodes fileId walkFuel next) := by
  rw [overflowNodes_eq_chase]
  exact chase_guards (fun block => v.exactReadIndexBlock_guards block fileId) _ _

/-- `exactCollectDataBlocks` is `collectDataBlocks` unless it panics. -/
theorem exactCollectDataBlocks_guards (v : Vault) (entry : FileEntry) :
    Guards .panic (v.exactCollectDataBlocks entry) (v.collectDataBlocks entry) :=
  (v.header.exactDataBlockCount_guards _).bind fun _ _ =>
    (v.exactOverflowNodes_guards _ _).bind fun _ _ => Guards.refl _

/-- `exactReadContent` is `readContent` unless it panics. -/
theorem exactReadContent_guards (v : Vault) (fileId : BitVec 128) (blocks : List UInt64) :
    Guards .panic (v.exactReadContent fileId blocks) (v.readContent fileId blocks) := by
  induction blocks with
  | nil => exact Guards.refl _
  | cons block rest ih =>
      exact (v.exactReadPhysicalBlock_guards block fileId).bind fun _ _ => ih.bind fun _ _ =>
        Guards.refl _

/-- `exactReadEntry` is `readEntry` unless it panics. -/
theorem exactReadEntry_guards (v : Vault) (entry : FileEntry) :
    Guards .panic (v.exactReadEntry entry) (v.readEntry entry) := by
  unfold exactReadEntry readEntry
  split
  · exact Guards.refl _
  · exact (v.exactCollectDataBlocks_guards entry).bind fun blocks _ =>
      ((v.exactReadContent_guards entry.id blocks).bind fun _ _ => Guards.refl _).assure_bind _

/-- `exactReadFile` is `readFile` unless it panics. -/
theorem exactReadFile_guards (v : Vault) (name : String) :
    Guards .panic (v.exactReadFile name) (v.readFile name) := by
  refine (findSlot_guards v.exactReadSlot_guards _ _).bind fun found _ => ?_
  cases found with
  | none => exact Guards.refl _
  | some slot => exact v.exactReadEntry_guards slot.2

omit [Primitives] in
/-- `exactReadChainSlotAtSeq` is `readChainSlotAtSeq` unless it panics. -/
theorem exactReadChainSlotAtSeq_guards (v : Vault) (seq : UInt64) :
    Guards .panic (v.exactReadChainSlotAtSeq seq) (v.readChainSlotAtSeq seq) :=
  (v.header.exactChainSlotOffset_guards seq).bind fun _ _ => Guards.refl _

/-- `exactVerifyChain` is `verifyChain` unless it panics. -/
theorem exactVerifyChain_guards (v : Vault) (seqs : List Nat) (prev : Option ChainRecord) :
    Guards .panic (v.exactVerifyChain seqs prev) (v.verifyChain seqs prev) := by
  induction seqs generalizing prev with
  | nil => exact Guards.refl _
  | cons seq rest ih =>
      refine (v.exactReadChainSlotAtSeq_guards _).bind fun found _ => ?_
      cases found with
      | none => exact ih prev
      | some record => exact (Guards.refl _).bind fun _ _ => ih (some record)

/-- `exactVerifyFiles` is `verifyFiles` unless it panics. -/
theorem exactVerifyFiles_guards (v : Vault) (names : List String) :
    Guards .panic (v.exactVerifyFiles names) (v.verifyFiles names) := by
  induction names with
  | nil => exact Guards.refl _
  | cons name rest ih => exact (v.exactReadFile_guards name).bind fun _ _ => ih

/-- `exactVerifyIntegrity` is `verifyIntegrity` unless it panics. -/
theorem exactVerifyIntegrity_guards (v : Vault) :
    Guards .panic v.exactVerifyIntegrity v.verifyIntegrity :=
  (v.exactVerifyChain_guards _ _).bind fun _ _ => (Guards.refl _).bind fun _ _ =>
    v.exactListFiles_guards.bind fun _ _ => v.exactVerifyFiles_guards _

end Vault

end

end ReVault
