import ReVault.Core.Storage

/-!
# The vault operations

Creation, opening, access control, file operations and verification, as the source
runs them. Each mutating operation first makes its checks, which only read, and
then commits. Random and clock values that an operation draws are passed in as
`Draws`.
-/

namespace ReVault

open Foundation Primitives

/-- The values one operation draws from the clock and the random generators. -/
structure Draws where
  /-- the clock when a slot is filled -/
  slotTime : Int64
  /-- the clock when the chain record is made -/
  recordTime : Int64
  /-- the identifier of a new file -/
  fileId : BitVec 128
  salt : ByteArr saltLen
  /-- the new content key -/
  dek : MasterKey
  /-- the nonce under which the content key is wrapped for the password -/
  slotNonce : ByteArr nonceLen
  /-- the ephemeral secret and the nonce of each key wrap -/
  wraps : Nat → ByteArr 32 × ByteArr nonceLen

/-- A file as the vault lists it. -/
structure FileInfo where
  name : String
  size : UInt64
  createdAt : Int64
  modifiedAt : Int64
  deriving DecidableEq

/-- A granted peer, as the admin sees it. -/
structure RecipientInfo where
  peerId : PeerId
  grantedAt : Int64
  deriving DecidableEq

/-- What the wrapped key of the admin is bound to. -/
def adminKeySlotAad : Bytes := "revault-admin-dek-v2".toUTF8.data.toList

namespace Header

/-- The Argon2 parameters stored in a header. -/
def argon2Params (h : Header) : Argon2Params where
  mCostKib := h.argon2MCostKib
  tCost := h.argon2TCost
  pCost := h.argon2PCost

end Header

variable [Primitives]

/-- The chain-log identifier of a peer. -/
def peerTargetId (signingPubkey : ByteArr 32) : BitVec 128 :=
  BitVec.ofNat 128 (ofLE ((sha256 signingPubkey.toList).toList.take 16))

namespace Vault

/-! ## Creation and opening -/

omit [Primitives] in
/-- Clamps a 64-bit value between two bounds. -/
def clamp (value low high : UInt64) : UInt64 :=
  if value < low then low else if high < value then high else value

omit [Primitives] in
/-- The file table scales with the capacity, within bounds. -/
def newMaxFiles (capacityBytes : UInt64) : UInt32 :=
  (clamp (capacityBytes / (16 * 1024)) 4 4096).toUInt32

omit [Primitives] in
/-- The ring holds four records for each file slot, within bounds. -/
def newMaxChainRecords (maxFiles : UInt32) : UInt32 :=
  (clamp (maxFiles.toUInt64 * 4) 8 16384).toUInt32

/-- The header of a new container with tables of the given sizes. -/
def newHeader (name description : String) (capacityBytes : UInt64)
    (maxFiles maxChainRecords : UInt32) (adminKeySlot : Bytes) (admin : PeerId)
    (genesis : ChainRecord) (draws : Draws) : Header :=
  let blockCount := capacityBytes / defaultBlockSize.toUInt64
  let bitmapLen := UInt64.ofNat (bitmapLenBytes blockCount)
  let fileTableLen := maxFiles.toUInt64 * entrySizeConst.toUInt64
  let recipientLen := maxRecipientsConst.toUInt64 * recipientSlotSizeConst.toUInt64
  let chainLen := maxChainRecords.toUInt64 * chainRecordSizeConst.toUInt64
  let bitmapOffset := UInt64.ofNat headerSize
  let fileTableOffset := bitmapOffset + bitmapLen
  let recipientOffset := fileTableOffset + fileTableLen
  let chainOffset := recipientOffset + recipientLen
  let dataOffset := chainOffset + chainLen
  { version := formatVersion, flags := 0, blockSize := defaultBlockSize, blockCount,
    capacityBytes, name, description, createdAt := draws.recordTime, salt := draws.salt,
    argon2MCostKib := Argon2Params.default.mCostKib, argon2TCost := Argon2Params.default.tCost,
    argon2PCost := Argon2Params.default.pCost, adminKeySlot,
    adminSigningPubkey := admin.signingPublic, adminEncryptionPubkey := admin.encryptionPublic,
    bitmapOffset, bitmapLen, fileTableOffset, fileTableLen, maxFiles,
    entrySize := entrySizeConst, recipientOffset, recipientLen,
    maxRecipients := maxRecipientsConst, recipientSlotSize := recipientSlotSizeConst,
    chainOffset, chainLen, maxChainRecords, chainRecordSize := chainRecordSizeConst,
    chainNextSeq := 1, chainLastHash := genesis.recordHash, dataOffset }

/-- The signed record that opens the chain of a new container. -/
def genesisRecord (name description : String) (capacityBytes : UInt64) (admin : Identity)
    (draws : Draws) : ChainRecord :=
  ChainRecord.newSigned 0 (zeroArr 32) .vaultCreated 0
    (sha256Concat [utf8 name, utf8 description, toLE 8 capacityBytes.toNat,
      admin.peerId.signingPublic.toList]) draws.recordTime admin

/-- The regions written one after the other into a new container. -/
def newRegions (header : Header) (genesis : ChainRecord) : Except Fault Bytes := do
  let encoded ← header.encode
  let entry ← FileEntry.emptySlot
  let recipient ← RecipientSlot.emptySlot
  .ok (encoded ++ (BlockAllocator.new header.blockCount).asBytes ++
    (List.replicate header.maxFiles.toNat entry).flatten ++
    (List.replicate header.maxRecipients.toNat recipient).flatten ++
    genesis.encode ++
    (List.replicate (header.maxChainRecords.toNat - 1)
      (List.replicate chainRecordSizeConst.toNat 0)).flatten)

/-- The file of a new container: grown to its full size with zeros, then the regions
written from the start. -/
def newFile (header : Header) (genesis : ChainRecord) : Except Fault Bytes := do
  if header.totalContainerSize.toNat > ioLimit then .error (.error .io)
  else do
    let regions ← newRegions header genesis
    if regions.length > ioLimit then .error (.error .io)
    else .ok (Foundation.writeAt (List.replicate header.totalContainerSize.toNat 0) 0 regions)

/-- `Vault::create`. -/
def create (name description : String) (capacityBytes : UInt64) (password : String)
    (adminIdentity : Identity) (draws : Draws) : Except Fault Vault :=
  if (utf8 name).length > maxNameLen then .error (.error .fieldTooLong)
  else if (utf8 description).length > maxDescLen then .error (.error .fieldTooLong)
  else if capacityBytes / defaultBlockSize.toUInt64 = 0 then .error (.error .capacityTooSmall)
  else do
    let kek ← MasterKey.derive (utf8 password) draws.salt Argon2Params.default
    let adminKeySlot ← kek.encryptRandomNonce draws.slotNonce draws.dek.toList adminKeySlotAad
    if adminKeySlot.length > adminKeySlotLen then
      .error (.error (.corruptContainer "admin key slot unexpectedly large"))
    else do
      let genesis := genesisRecord name description capacityBytes adminIdentity draws
      let maxFiles := newMaxFiles capacityBytes
      let header := newHeader name description capacityBytes maxFiles
        (newMaxChainRecords maxFiles) adminKeySlot adminIdentity.peerId genesis draws
      let file ← newFile header genesis
      .ok { file, header, allocator := BlockAllocator.new header.blockCount, key := draws.dek,
            adminIdentity := some adminIdentity, changeLog := [], seals := [] }

/-- The content key that a password unwraps from a header. -/
def unwrapWithPassword (header : Header) (password : String) : Except Fault MasterKey := do
  let kek ← MasterKey.derive (utf8 password) header.salt header.argon2Params
  let dekBytes ← kek.decryptRandomNonce header.adminKeySlot adminKeySlotAad
  match toArr? keyLen dekBytes with
  | some dek => .ok dek
  | none => .error (.error
      (.corruptContainer "unwrapped admin DEK has the wrong length"))

/-- `Vault::open`: the handle is the admin's when the local identity signs with the
recorded key. -/
def openWithPassword (file : Bytes) (password : String) (localIdentity : Identity) :
    Except Fault Vault := do
  let header ← readHeader file
  let key ← unwrapWithPassword header password
  let adminIdentity :=
    if localIdentity.peerId.signingPublic = header.adminSigningPubkey then some localIdentity
    else none
  let allocator ← readAllocator file header
  .ok { file, header, allocator, key, adminIdentity, changeLog := [], seals := [] }

/-- The content key that a recipient unwraps from its slot. -/
def unwrapAsRecipient (slot : RecipientSlot) (localIdentity : Identity) :
    Except Fault MasterKey :=
  if slot.wrappedDek.length ≠ wrappedDekLen then
    .error (.error (.corruptContainer "recipient wrapped DEK has the wrong length"))
  else unwrapDekForRecipient localIdentity.encryptionSecret slot.wrappedDek

/-- `Vault::open_as_recipient`: the slot is looked up by encryption key. -/
def openAsRecipient (file : Bytes) (localIdentity : Identity) : Except Fault Vault := do
  let header ← readHeader file
  let found ← findSlot (readRecipientSlotAt file header)
    (fun slot => slot.isOccupied &&
      slot.encryptionPubkey == localIdentity.peerId.encryptionPublic)
    (List.range header.maxRecipients.toNat)
  match found with
  | none => .error (.error .accessNotGranted)
  | some (_, slot) => do
      let key ← unwrapAsRecipient slot localIdentity
      let allocator ← readAllocator file header
      .ok { file, header, allocator, key, adminIdentity := none, changeLog := [], seals := [] }

omit [Primitives] in
/-- What the occupied blocks take. -/
def usedBytes (v : Vault) : UInt64 :=
  UInt64.ofNat v.allocator.occupiedCount * v.header.blockSize.toUInt64

omit [Primitives] in
/-- The next sequence number and the hash of the last record. -/
def chainState (v : Vault) : UInt64 × ByteArr 32 :=
  (v.header.chainNextSeq, v.header.chainLastHash)

omit [Primitives] in
/-- The handle belongs to the admin. -/
def isAdmin (v : Vault) : Bool := v.adminIdentity.isSome

omit [Primitives] in
/-- Only the admin's handle may change the vault. -/
def requireAdmin (v : Vault) : Except Fault Unit :=
  if v.isAdmin then .ok () else .error (.error .notAuthorized)

/-! ## Recipient access -/

/-- The recipients, slot by slot. -/
def listRecipients (v : Vault) : Except Fault (List RecipientInfo) := do
  let slots ← keepSlots v.readRecipientSlot (fun slot => slot.isOccupied) v.recipientIndices
  .ok (slots.map fun slot =>
    { peerId := ⟨slot.2.signingPubkey, slot.2.encryptionPubkey⟩, grantedAt := slot.2.grantedAt })

/-- The checks of `grant_access` and the slot it fills. -/
def slotForPeer (v : Vault) (peer : PeerId) : Except Fault Nat := do
  v.requireAdmin
  match ← v.findRecipientSlotBySigningKey peer.signingPublic with
  | some _ => .error (.error .alreadyGranted)
  | none =>
      match ← v.findFreeRecipientSlot with
      | none => .error (.error .recipientTableFull)
      | some (idx, _) => .ok idx

/-- The key is wrapped for the peer and put into a slot. -/
def grantAccess (peer : PeerId) (draws : Draws) : VaultM Unit := do
  let idx ← observe fun v => v.slotForPeer peer
  let wrapped ← observe fun v =>
    wrapDekForRecipient (draws.wraps idx).1 (draws.wraps idx).2 peer.encryptionPublic v.key
  writeRecipientSlot idx
    { signingPubkey := peer.signingPublic, encryptionPubkey := peer.encryptionPublic,
      wrappedDek := wrapped, grantedAt := draws.slotTime, flags := recipientFlagOccupied }
  appendSignedChainRecord .accessGranted (peerTargetId peer.signingPublic)
    (sha256Concat [peer.signingPublic.toList, peer.encryptionPublic.toList]) draws.recordTime

/-- A block in use, with the file it belongs to and its plaintext. -/
structure BlockInUse where
  block : UInt64
  fileId : BitVec 128
  plaintext : Bytes
  deriving DecidableEq

/-- Reads the blocks of one file. -/
def readBlocks (v : Vault) (fileId : BitVec 128) :
    List UInt64 → Except Fault (List BlockInUse)
  | [] => .ok []
  | block :: rest => do
      let plaintext ← v.readPhysicalBlock block fileId
      let later ← readBlocks v fileId rest
      .ok (⟨block, fileId, plaintext⟩ :: later)

/-- Reads every block of the listed entries. -/
def readEntries (v : Vault) : List (Nat × FileEntry) → Except Fault (List BlockInUse)
  | [] => .ok []
  | (_, entry) :: rest => do
      let blocks ← v.collectAllBlocks entry
      let here ← v.readBlocks entry.id blocks
      let later ← readEntries v rest
      .ok (here ++ later)

/-- The checks and the reads of `revoke_access`: the peer's slot and every block in
use, under the current key. -/
def planRevocation (v : Vault) (peerSigningPubkey : ByteArr 32) :
    Except Fault (Nat × List BlockInUse) := do
  v.requireAdmin
  match ← v.findRecipientSlotBySigningKey peerSigningPubkey with
  | none => .error (.error .accessNotGranted)
  | some (slotIdx, _) => do
      let entries ← v.allOccupiedEntries
      let blocks ← v.readEntries entries
      .ok (slotIdx, blocks)

/-- Rewraps the current key for the recipient of one slot, when it is occupied. -/
def rewrapSlot (draws : Draws) (idx : Nat) : VaultM Unit := do
  let slot ← observe fun v => v.readRecipientSlot idx
  if slot.isOccupied then do
    let rewrapped ← observe fun v =>
      wrapDekForRecipient (draws.wraps idx).1 (draws.wraps idx).2 slot.encryptionPubkey v.key
    writeRecipientSlot idx { slot with wrappedDek := rewrapped }
  else pure ()

/-- Rewraps the current key for the admin's password and persists the header. -/
def rewrapForPassword (password : String) (draws : Draws) : VaultM Unit := do
  let kek ← observe fun v =>
    MasterKey.derive (utf8 password) v.header.salt v.header.argon2Params
  let adminKeySlot ← observe fun v =>
    kek.encryptRandomNonce draws.slotNonce v.key.toList adminKeySlotAad
  modify fun v => { v with header := { v.header with adminKeySlot := adminKeySlot } }
  writeHeader

/-- Swaps in a new content key: seals every block in use again under it, drops the
peer's slot and rewraps the key for the remaining recipients. -/
def rotateKey (peerSigningPubkey : ByteArr 32) (draws : Draws) : VaultM Unit := do
  let (slotIdx, blocks) ← observe fun v => v.planRevocation peerSigningPubkey
  modify fun v => { v with key := draws.dek }
  blocks.forM fun use => writePhysicalBlock use.block use.fileId use.plaintext
  writeRecipientSlot slotIdx RecipientSlot.empty
  let indices ← observe fun v => .ok v.recipientIndices
  indices.forM (rewrapSlot draws)

/-- The key is replaced for everyone but the peer, and wrapped for the password. -/
def revokeAccess (peerSigningPubkey : ByteArr 32) (password : String) (draws : Draws) :
    VaultM Unit := do
  rotateKey peerSigningPubkey draws
  rewrapForPassword password draws
  appendSignedChainRecord .keyRotated (peerTargetId peerSigningPubkey)
    (sha256 peerSigningPubkey.toList) draws.recordTime

/-! ## File operations -/

/-- The files, slot by slot. -/
def listFiles (v : Vault) : Except Fault (List FileInfo) := do
  let entries ← v.allOccupiedEntries
  .ok (entries.map fun slot =>
    { name := slot.2.name, size := slot.2.size, createdAt := slot.2.createdAt,
      modifiedAt := slot.2.modifiedAt })

omit [Primitives] in
/-- The space error for a request against the blocks at hand. -/
def insufficientSpace (h : Header) (requested available : Nat) : Fault :=
  .error (.insufficientSpace (UInt64.ofNat requested * h.blockSize.toUInt64)
    (UInt64.ofNat available * h.blockSize.toUInt64))

omit [Primitives] in
/-- The data and index blocks that new content takes, when they are free. -/
def planContent (v : Vault) (length : Nat) : Except Fault (Nat × Nat) := do
  let (dataBlocks, indexBlocks) ← v.header.blocksNeeded length
  if v.allocator.freeCount < dataBlocks + indexBlocks then
    .error (insufficientSpace v.header (dataBlocks + indexBlocks) v.allocator.freeCount)
  else .ok (dataBlocks, indexBlocks)

omit [Primitives] in
/-- The direct pointers of a file: its first data blocks, then zeros. -/
def directPointers (dataBlocks : List UInt64) : List.Vector UInt64 directBlocksLen :=
  List.Vector.ofFn fun index => (dataBlocks[index.val]?).getD 0

/-- Writes the overflow chain: node `i` lists chunk `i` and points to node `i + 1`. -/
def writeOverflow (fileId : BitVec 128) (indexBlocks : List UInt64)
    (chunks : List (List UInt64)) : VaultM Unit :=
  indexBlocks.zipIdx.forM fun node =>
    match chunks[node.2]? with
    | some chunk => writeIndexBlock node.1 fileId ((indexBlocks[node.2 + 1]?).getD 0) chunk
    | none => throw .panic

/-- Writes the data blocks of a content in order, then its overflow chain. -/
def writeContent (header : Header) (fileId : BitVec 128) (data : Bytes)
    (dataBlocks indexBlocks : List UInt64) : VaultM Unit := do
  dataBlocks.zipIdx.forM fun block =>
    writePhysicalBlock block.1 fileId
      ((data.drop (block.2 * header.plainChunkLen.toNat)).take header.plainChunkLen.toNat)
  writeOverflow fileId indexBlocks
    (pieces header.indexBlockCapacity.toNat (dataBlocks.drop directBlocksLen))

/-- Allocates blocks first fit, writes the content, then the bitmap. Returns the direct
pointers, the overflow head and the blocks used. -/
def storeNewContent (fileId : BitVec 128) (data : Bytes) :
    VaultM (List.Vector UInt64 directBlocksLen × UInt64 × UInt32) := do
  let (dataCount, indexCount) ← observe fun v => v.planContent data.length
  let v ← get
  let allocated := (v.allocator.allocate (dataCount + indexCount)).2
  modify fun v => { v with allocator := (v.allocator.allocate (dataCount + indexCount)).1 }
  let dataBlocks := allocated.take dataCount
  let indexBlocks := allocated.drop dataCount
  writeContent v.header fileId data dataBlocks indexBlocks
  writeBitmap
  pure (directPointers dataBlocks, (indexBlocks[0]?).getD 0,
    UInt32.ofNat (dataCount + indexCount))

/-- The checks of `add_file` and the slot it fills. -/
def slotForNew (v : Vault) (name : String) : Except Fault Nat := do
  v.requireAdmin
  if (utf8 name).length = 0 ∨ (utf8 name).length > maxFilenameLen then
    .error (.error .fieldTooLong)
  else
    match ← v.findSlotByName name with
    | some _ => .error (.error (.fileAlreadyExists name))
    | none =>
        match ← v.findFreeSlot with
        | none => .error (.error .fileTableFull)
        | some (slot, _) => .ok slot

/-- The content is stored before the slot and the record are written. -/
def addFile (name : String) (data : Bytes) (draws : Draws) : VaultM Unit := do
  let slot ← observe fun v => v.slotForNew name
  let (directBlocks, overflowBlock, blocksUsed) ← storeNewContent draws.fileId data
  writeSlot slot
    { id := draws.fileId, name, size := UInt64.ofNat data.length, blocksUsed, directBlocks,
      overflowBlock, fileHash := sha256 data, createdAt := draws.slotTime,
      modifiedAt := draws.slotTime, flags := entryFlagOccupied }
  appendSignedChainRecord .fileAdded draws.fileId (sha256 data) draws.recordTime

/-- Reads the plaintexts of a list of blocks and joins them. -/
def readContent (v : Vault) (fileId : BitVec 128) : List UInt64 → Except Fault Bytes
  | [] => .ok []
  | block :: rest => do
      let chunk ← v.readPhysicalBlock block fileId
      let later ← readContent v fileId rest
      .ok (chunk ++ later)

/-- The content of a file entry, checked against its stored hash. -/
def readEntry (v : Vault) (entry : FileEntry) : Except Fault Bytes :=
  if entry.size = 0 then
    if entry.fileHash ≠ sha256 [] then
      .error (.error (.integrityViolation "empty file hash mismatch"))
    else .ok []
  else do
    let blocks ← v.collectDataBlocks entry
    let content ← v.readContent entry.id blocks
    if sha256 (content.take entry.size.toNat) ≠ entry.fileHash then
      .error (.error (.integrityViolation
        "file contents do not match stored hash (corruption or tampering)"))
    else .ok (content.take entry.size.toNat)

/-- The content of a file. -/
def readFile (v : Vault) (name : String) : Except Fault Bytes := do
  match ← v.findSlotByName name with
  | none => .error (.error (.fileNotFound name))
  | some (_, entry) => v.readEntry entry

/-- The slot and entry of a present file, for an admin handle, with all its blocks. -/
def locate (v : Vault) (name : String) :
    Except Fault (Nat × FileEntry × List UInt64) := do
  v.requireAdmin
  match ← v.findSlotByName name with
  | none => .error (.error (.fileNotFound name))
  | some (slot, entry) => do
      let blocks ← v.collectAllBlocks entry
      .ok (slot, entry, blocks)

/-- The checks of `update_file`: the file is present, and the free blocks with its own
suffice. -/
def planUpdate (v : Vault) (name : String) (newLength : Nat) :
    Except Fault (Nat × FileEntry × List UInt64) := do
  let (slot, oldEntry, oldBlocks) ← v.locate name
  let (dataBlocks, indexBlocks) ← v.header.blocksNeeded newLength
  if v.allocator.freeCount + oldBlocks.length < dataBlocks + indexBlocks then
    .error (insufficientSpace v.header (dataBlocks + indexBlocks)
      (v.allocator.freeCount + oldBlocks.length))
  else .ok (slot, oldEntry, oldBlocks)

omit [Primitives] in
/-- Frees blocks and writes the bitmap. -/
def releaseBlocks (blocks : List UInt64) : VaultM Unit := do
  modify fun v => { v with allocator := v.allocator.free blocks }
  writeBitmap

/-- The old blocks are released before the new content is stored. -/
def updateFile (name : String) (newData : Bytes) (draws : Draws) : VaultM Unit := do
  let (slot, oldEntry, oldBlocks) ← observe fun v => v.planUpdate name newData.length
  releaseBlocks oldBlocks
  let (directBlocks, overflowBlock, blocksUsed) ← storeNewContent oldEntry.id newData
  writeSlot slot
    { id := oldEntry.id, name := oldEntry.name, size := UInt64.ofNat newData.length, blocksUsed,
      directBlocks, overflowBlock, fileHash := sha256 newData,
      createdAt := oldEntry.createdAt, modifiedAt := draws.slotTime,
      flags := entryFlagOccupied }
  appendSignedChainRecord .fileUpdated oldEntry.id (sha256 newData) draws.recordTime

/-- The blocks are released and the slot is marked as deleted. -/
def deleteFile (name : String) (draws : Draws) : VaultM Unit := do
  let (slot, entry, blocks) ← observe fun v => v.locate name
  releaseBlocks blocks
  writeSlot slot { entry with flags := entryFlagDeleted }
  appendSignedChainRecord .fileDeleted entry.id (sha256 (utf8 entry.name)) draws.recordTime

/-! ## Verification -/

omit [Primitives] in
/-- The newest sequence number by the header. -/
def newestSeq (v : Vault) : Nat := v.header.chainNextSeq.toNat - 1

omit [Primitives] in
/-- The oldest retained sequence number by the header. -/
def oldestSeq (v : Vault) : Nat := v.newestSeq - (v.header.maxChainRecords.toNat - 1)

omit [Primitives] in
/-- The retained window, oldest first. -/
def windowSeqs (v : Vault) : List Nat :=
  (List.range (v.newestSeq + 1 - v.oldestSeq)).map fun index => v.oldestSeq + index

/-- The checks on one record: its slot, its hash, its signature, its link. -/
def checkRecord (v : Vault) (seq : Nat) (prev : Option ChainRecord) (record : ChainRecord) :
    Except Fault Unit := do
  if record.seq.toNat ≠ seq then
    .error (.error (.integrityViolation
      "chain record sequence number does not match its slot"))
  else if !record.verifySelf then
    .error (.error (.integrityViolation "chain record hash does not match its own contents"))
  else do
    checked (record.verifySignature v.header.adminSigningPubkey)
    match prev with
    | some last =>
        if record.prevHash ≠ last.recordHash then
          .error (.error (.integrityViolation
            "chain record does not link to the previous record's hash"))
        else .ok ()
    | none => .ok ()

/-- The chain loop: empty slots are skipped, the last record seen is carried. -/
def verifyChain (v : Vault) : List Nat → Option ChainRecord →
    Except Fault (Option ChainRecord)
  | [], prev => .ok prev
  | seq :: rest, prev => do
      match ← v.readChainSlotAtSeq (UInt64.ofNat seq) with
      | none => verifyChain v rest prev
      | some record => do
          v.checkRecord seq prev record
          verifyChain v rest (some record)

/-- The last record seen must be the one the header anchors. -/
def checkAnchor (v : Vault) (prev : Option ChainRecord) : Except Fault Unit :=
  match prev with
  | some last =>
      if last.recordHash ≠ v.header.chainLastHash then
        .error (.error (.integrityViolation
          "chain anchor in header does not match the latest chain record"))
      else .ok ()
  | none => .ok ()

/-- Reads every listed file. -/
def verifyFiles (v : Vault) : List String → Except Fault Unit
  | [] => .ok ()
  | name :: rest => do
      let _ ← v.readFile name
      verifyFiles v rest

/-- The chain is verified first, then the anchor, then every file is read. -/
def verifyIntegrity (v : Vault) : Except Fault Unit := do
  let prev ← v.verifyChain v.windowSeqs none
  v.checkAnchor prev
  let files ← v.listFiles
  v.verifyFiles (files.map fun info => info.name)

end Vault

end ReVault
