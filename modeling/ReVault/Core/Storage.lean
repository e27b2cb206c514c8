import ReVault.Core.Allocator
import ReVault.Core.Format
import ReVault.Foundation.Fallible
import ReVault.Foundation.Image
import ReVault.Foundation.Scan

/-!
# Region and block input/output of a vault

A vault handle owns its container file as a byte string. Reads are functions of
the handle; every write of a handle goes through `writeAt`, which records it in the
change log. Offsets are 64-bit and wrap; a seek or write past `ioLimit`, the
largest file offset, and a read past the end of the file are I/O errors.
-/

namespace ReVault

open Foundation Primitives

/-- One call of `MasterKey.encryptBlock`. -/
structure BlockSeal where
  key : MasterKey
  fileId : BitVec 128
  block : UInt64
  plaintext : Bytes
  deriving DecidableEq

/-- An open vault. `seals` is a ghost: the block encryptions made so far, which no
function reads. -/
structure Vault where
  file : Bytes
  header : Header
  allocator : BlockAllocator
  key : MasterKey
  adminIdentity : Option Identity
  changeLog : List (UInt64 × Bytes)
  seals : List BlockSeal

/-- Operations of a vault: they keep the state reached when they fail. -/
abbrev VaultM := EStateM Fault Vault

/-- The length and the tag that are stored with a block. -/
abbrev blockFramingOverhead : UInt64 := 4 + 16
/-- The successor and the count at the front of an index block. -/
abbrev indexBlockHeader : Nat := 12

/-- The largest file offset. -/
def ioLimit : Nat := 2 ^ 63 - 1

/-- An error of a check, as a fault. -/
def checked {α : Type} : Except VaultError α → Except Fault α
  | .ok value => .ok value
  | .error reason => .error (.error reason)

/-- A seek followed by an exact read. -/
def readExact (file : Bytes) (offset : UInt64) (length : Nat) : Except Fault Bytes :=
  if offset.toNat > ioLimit then .error (.error .io)
  else
    match readAt file offset.toNat length with
    | some window => .ok window
    | none => .error (.error .io)

namespace Header

/-! ## Offsets -/

/-- Where a slot of the file table begins. -/
def slotOffset (h : Header) (idx : Nat) : UInt64 :=
  h.fileTableOffset + UInt64.ofNat idx * h.entrySize.toUInt64

/-- Where a slot for a recipient begins. -/
def recipientSlotOffset (h : Header) (idx : Nat) : UInt64 :=
  h.recipientOffset + UInt64.ofNat idx * h.recipientSlotSize.toUInt64

/-- The ring slot of a sequence number; an empty ring divides by zero. -/
def chainSlotOffset (h : Header) (seq : UInt64) : Except Fault UInt64 :=
  if h.maxChainRecords = 0 then .error .panic
  else .ok (h.chainOffset + seq % h.maxChainRecords.toUInt64 * h.chainRecordSize.toUInt64)

/-- Where a physical block begins. -/
def blockOffset (h : Header) (physicalIdx : UInt64) : UInt64 :=
  h.dataOffset + physicalIdx * h.blockSize.toUInt64

/-- What a block holds of a file. -/
def plainChunkLen (h : Header) : UInt64 := h.blockSize.toUInt64 - blockFramingOverhead

/-- How many blocks an index block names. -/
def indexBlockCapacity (h : Header) : UInt64 :=
  (h.plainChunkLen - UInt64.ofNat indexBlockHeader) / 8

/-- The number of data blocks of a content of the given length. -/
def dataBlockCount (h : Header) (length : Nat) : Except Fault Nat :=
  if length = 0 then .ok 0
  else if h.plainChunkLen = 0 then .error .panic
  else .ok (pieceCount h.plainChunkLen.toNat length)

/-- The data and index blocks that a content of the given length takes. -/
def blocksNeeded (h : Header) (length : Nat) : Except Fault (Nat × Nat) := do
  let dataBlocks ← h.dataBlockCount length
  let excess := dataBlocks - directBlocksLen
  if excess = 0 then .ok (dataBlocks, 0)
  else if h.indexBlockCapacity = 0 then .error .panic
  else .ok (dataBlocks, pieceCount h.indexBlockCapacity.toNat excess)

/-- A block holds what its framing leaves. -/
theorem toNat_plainChunkLen {h : Header} (long : 20 ≤ h.blockSize.toNat) :
    h.plainChunkLen.toNat = h.blockSize.toNat - 20 := by
  have fits : blockFramingOverhead ≤ h.blockSize.toUInt64 := by
    rw [UInt64.le_iff_toNat_le, UInt32.toNat_toUInt64]
    exact long
  rw [plainChunkLen, UInt64.toNat_sub_of_le _ _ fits, UInt32.toNat_toUInt64]
  rfl

end Header

variable [Primitives]

/-- Reads and decodes the header of a container. -/
def readHeader (file : Bytes) : Except Fault Header := do
  let buf ← readExact file 0 headerSize
  checked (Header.decode buf)

omit [Primitives] in
/-- Reads the bitmap region that a header describes. A length beyond the address
space panics in the allocation of the buffer. -/
def readAllocator (file : Bytes) (header : Header) : Except Fault BlockAllocator :=
  if header.bitmapLen.toNat > ioLimit then .error .panic
  else do
    let buf ← readExact file header.bitmapOffset header.bitmapLen.toNat
    .ok (BlockAllocator.fromBytes buf header.blockCount)

namespace Vault

/-! ## Low-level region I/O -/

omit [Primitives] in
/-- The state after a write: the file changed, the range recorded. -/
def written (v : Vault) (offset : UInt64) (data : Bytes) : Vault :=
  { v with
    file := Foundation.writeAt v.file offset.toNat data
    changeLog := v.changeLog ++ [(offset, data)] }

omit [Primitives] in
/-- A write that ends beyond the largest file offset fails. -/
def writeAt (offset : UInt64) (data : Bytes) : VaultM Unit :=
  if offset.toNat + data.length > ioLimit then throw (.error .io)
  else modify fun v => v.written offset data

omit [Primitives] in
/-- Drains the recorded writes. -/
def takeChangeLog (v : Vault) : List (UInt64 × Bytes) × Vault :=
  (v.changeLog, { v with changeLog := [] })

omit [Primitives] in
/-- The whole container. -/
def exportFull (v : Vault) : Bytes := v.file

omit [Primitives] in
/-- One range of a remote patch; it is not recorded in the replica's own log. -/
def applyRange (range : UInt64 × Bytes) : VaultM Unit :=
  if range.1.toNat + range.2.length > ioLimit then throw (.error .io)
  else modify fun v => { v with file := Foundation.writeAt v.file range.1.toNat range.2 }

/-- Writes every range of a patch, then reloads the header and the allocator. -/
def applyRemotePatch (ranges : List (UInt64 × Bytes)) : VaultM Unit := do
  ranges.forM applyRange
  let header ← observe fun v => readHeader v.file
  modify fun v => { v with header := header }
  let allocator ← observe fun v => readAllocator v.file v.header
  modify fun v => { v with allocator := allocator }

/-- The header is written to the front of the container. -/
def writeHeader : VaultM Unit := do
  let encoded ← observe fun v => v.header.encode
  writeAt 0 encoded

omit [Primitives] in
/-- The bitmap is written as it is in memory. -/
def writeBitmap : VaultM Unit := do
  let v ← get
  writeAt v.header.bitmapOffset v.allocator.asBytes

/-- A slot of the file table. -/
def readSlot (v : Vault) (idx : Nat) : Except Fault FileEntry := do
  let buf ← readExact v.file (v.header.slotOffset idx) v.header.entrySize.toNat
  checked (FileEntry.decode buf)

/-- A slot of the file table is written. -/
def writeSlot (idx : Nat) (entry : FileEntry) : VaultM Unit := do
  let encoded ← observe fun _ => entry.encode
  let v ← get
  writeAt (v.header.slotOffset idx) encoded

/-- Reads a recipient slot of a container. -/
def readRecipientSlotAt (file : Bytes) (header : Header) (idx : Nat) :
    Except Fault RecipientSlot := do
  let buf ← readExact file (header.recipientSlotOffset idx) header.recipientSlotSize.toNat
  checked (RecipientSlot.decode buf)

/-- A slot for a recipient. -/
def readRecipientSlot (v : Vault) (idx : Nat) : Except Fault RecipientSlot :=
  readRecipientSlotAt v.file v.header idx

/-- A slot for a recipient is written. -/
def writeRecipientSlot (idx : Nat) (slot : RecipientSlot) : VaultM Unit := do
  let encoded ← observe fun _ => slot.encode
  let v ← get
  writeAt (v.header.recipientSlotOffset idx) encoded

omit [Primitives] in
/-- The record that is stored where one of this number goes. -/
def readChainSlotAtSeq (v : Vault) (seq : UInt64) : Except Fault (Option ChainRecord) := do
  let offset ← v.header.chainSlotOffset seq
  let buf ← readExact v.file offset v.header.chainRecordSize.toNat
  checked (ChainRecord.decode buf)

/-- The record that the admin would append now. -/
def nextRecord (v : Vault) (op : ChainOp) (targetId : BitVec 128) (dataHash : ByteArr 32)
    (timestamp : Int64) : Except Fault ChainRecord :=
  match v.adminIdentity with
  | none => .error (.error .notAuthorized)
  | some admin => .ok (ChainRecord.newSigned v.header.chainNextSeq v.header.chainLastHash op
      targetId dataHash timestamp admin)

/-- Appends a signed record to the ring and persists the header's anchor. -/
def appendSignedChainRecord (op : ChainOp) (targetId : BitVec 128) (dataHash : ByteArr 32)
    (timestamp : Int64) : VaultM Unit := do
  let record ← observe fun v => v.nextRecord op targetId dataHash timestamp
  let offset ← observe fun v => v.header.chainSlotOffset record.seq
  writeAt offset record.encode
  modify fun v => { v with
    header := { v.header with
      chainNextSeq := record.seq + 1
      chainLastHash := record.recordHash } }
  writeHeader

/-! ## Block-level I/O for file content -/

/-- Encrypts a block in place and writes it zero-padded to the block size. -/
def writePhysicalBlock (physicalIdx : UInt64) (fileId : BitVec 128) (plaintext : Bytes) :
    VaultM Unit := do
  let ciphertext ← observe fun v => v.key.encryptBlock fileId physicalIdx plaintext
  modify fun v => { v with seals := v.seals ++ [⟨v.key, fileId, physicalIdx, plaintext⟩] }
  let v ← get
  if 4 + ciphertext.length > v.header.blockSize.toNat then
    throw (.error (.corruptContainer "encrypted chunk exceeds block size"))
  else
    writeAt (v.header.blockOffset physicalIdx)
      (padTo v.header.blockSize.toNat (toLE 4 plaintext.length ++ ciphertext))

/-- The plaintext framed in the bytes of a block. -/
def openBlock (key : MasterKey) (physicalIdx : UInt64) (fileId : BitVec 128) (buf : Bytes) :
    Except Fault Bytes :=
  if buf.length < 4 then .error .panic
  else if 4 + ofLE (buf.take 4) > buf.length then
    .error (.error (.corruptContainer "stored block length exceeds block size"))
  else if ofLE (buf.take 4) + 16 > (buf.drop 4).length then
    .error (.error (.corruptContainer "stored block truncated"))
  else key.decryptBlock fileId physicalIdx ((buf.drop 4).take (ofLE (buf.take 4) + 16))

/-- The content of a block, unsealed for its file. -/
def readPhysicalBlock (v : Vault) (physicalIdx : UInt64) (fileId : BitVec 128) :
    Except Fault Bytes := do
  let buf ← readExact v.file (v.header.blockOffset physicalIdx) v.header.blockSize.toNat
  openBlock v.key physicalIdx fileId buf

omit [Primitives] in
/-- The payload of an index block: the next node, a count, the block indices. -/
def indexPayload (next : UInt64) (indices : List UInt64) : Bytes :=
  toLE 8 next.toNat ++ (toLE 4 indices.length ++
    (indices.map fun index => toLE 8 index.toNat).flatten)

/-- The next blocks of a file, and where they go on. -/
def writeIndexBlock (physicalIdx : UInt64) (fileId : BitVec 128) (next : UInt64)
    (indices : List UInt64) : VaultM Unit :=
  writePhysicalBlock physicalIdx fileId (indexPayload next indices)

omit [Primitives] in
/-- Reads `count` block indices from a position of an index payload. -/
def readIndices (payload : Bytes) : (count pos : Nat) → Except Fault (List UInt64)
  | 0, _ => .ok []
  | count + 1, pos =>
      if pos + 8 > payload.length then
        .error (.error (.corruptContainer "overflow index block truncated"))
      else do
        let rest ← readIndices payload count (pos + 8)
        .ok (UInt64.ofNat (ofLE ((payload.drop pos).take 8)) :: rest)

omit [Primitives] in
/-- The next node and the block indices of an index payload. -/
def parseIndexPayload (payload : Bytes) : Except Fault (UInt64 × List UInt64) :=
  if payload.length < indexBlockHeader then
    .error (.error (.corruptContainer "overflow index block too short"))
  else do
    let indices ← readIndices payload (ofLE ((payload.drop 8).take 4)) indexBlockHeader
    .ok (UInt64.ofNat (ofLE (payload.take 8)), indices)

/-- The successor of an index block and the blocks that it names. -/
def readIndexBlock (v : Vault) (physicalIdx : UInt64) (fileId : BitVec 128) :
    Except Fault (UInt64 × List UInt64) := do
  let payload ← v.readPhysicalBlock physicalIdx fileId
  parseIndexPayload payload

/-- The nodes of an overflow chain with the block indices each lists. The walk ends
at the zero pointer; it runs forever exactly when it outlasts the fuel, since it
then meets a node twice. -/
def overflowNodes (v : Vault) (fileId : BitVec 128) :
    (fuel : Nat) → (next : UInt64) → Except Fault (List (UInt64 × List UInt64))
  | 0, next => if next = 0 then .ok [] else .error .diverge
  | fuel + 1, next =>
      if next = 0 then .ok []
      else do
        let (following, indices) ← v.readIndexBlock next fileId
        let rest ← overflowNodes v fileId fuel following
        .ok ((next, indices) :: rest)

/-- As many nodes as there are 64-bit block numbers. -/
def walkFuel : Nat := 2 ^ 64

omit [Primitives] in
/-- The direct pointers in use by an entry with so many data blocks. -/
def usedDirectBlocks (entry : FileEntry) (dataBlocks : Nat) : List UInt64 :=
  entry.directBlocks.toList.take (min dataBlocks directBlocksLen)

/-- The data blocks of a file, in order. -/
def collectDataBlocks (v : Vault) (entry : FileEntry) : Except Fault (List UInt64) := do
  let dataBlocks ← v.header.dataBlockCount entry.size.toNat
  let nodes ← v.overflowNodes entry.id walkFuel entry.overflowBlock
  let blocks := usedDirectBlocks entry dataBlocks ++ nodes.flatMap fun node => node.2
  if blocks.length ≠ dataBlocks then
    .error (.error
      (.corruptContainer "file entry block count does not match recorded size"))
  else .ok blocks

/-- Every block of a file, data and index blocks alike. -/
def collectAllBlocks (v : Vault) (entry : FileEntry) : Except Fault (List UInt64) := do
  let dataBlocks ← v.header.dataBlockCount entry.size.toNat
  let nodes ← v.overflowNodes entry.id walkFuel entry.overflowBlock
  .ok (usedDirectBlocks entry dataBlocks ++ nodes.flatMap fun node => node.1 :: node.2)

/-! ## Table scans -/

omit [Primitives] in
/-- The slots of the file table. -/
def slotIndices (v : Vault) : List Nat := List.range v.header.maxFiles.toNat

omit [Primitives] in
/-- The slots for recipients. -/
def recipientIndices (v : Vault) : List Nat := List.range v.header.maxRecipients.toNat

/-- The occupied slot with this name. -/
def findSlotByName (v : Vault) (name : String) : Except Fault (Option (Nat × FileEntry)) :=
  findSlot v.readSlot (fun entry => entry.isOccupied && entry.name == name) v.slotIndices

/-- The first slot that is not occupied. -/
def findFreeSlot (v : Vault) : Except Fault (Option (Nat × FileEntry)) :=
  findSlot v.readSlot (fun entry => !entry.isOccupied) v.slotIndices

/-- The files of the vault, slot by slot. -/
def allOccupiedEntries (v : Vault) : Except Fault (List (Nat × FileEntry)) :=
  keepSlots v.readSlot (fun entry => entry.isOccupied) v.slotIndices

/-- The occupied slot with this signing key. -/
def findRecipientSlotBySigningKey (v : Vault) (signingPubkey : ByteArr 32) :
    Except Fault (Option (Nat × RecipientSlot)) :=
  findSlot v.readRecipientSlot
    (fun slot => slot.isOccupied && slot.signingPubkey == signingPubkey) v.recipientIndices

/-- The first slot without a recipient. -/
def findFreeRecipientSlot (v : Vault) : Except Fault (Option (Nat × RecipientSlot)) :=
  findSlot v.readRecipientSlot (fun slot => !slot.isOccupied) v.recipientIndices

end Vault

end ReVault
