import ReVault.Core.Identity
import ReVault.Foundation.Cursor

/-!
# The `.rvlt` on-disk format

The fixed-size records of a container and their encoders and decoders, in the
order in which the source writes and reads the fields. A record's encoding is the
list of its written fields; an encoder's length assertion shows as a panic.
-/

namespace ReVault

open Foundation Primitives

/-- The first bytes of every container. -/
def magic : Bytes := "RVLT0001".toUTF8.data.toList
/-- The version that is written. -/
abbrev formatVersion : UInt32 := 2
/-- The oldest version that is read. -/
abbrev minSupportedVersion : UInt32 := 2
/-- The newest version that is read. -/
abbrev maxSupportedVersion : UInt32 := 2

/-- The header takes the first bytes of the container. -/
abbrev headerSize : Nat := 1024
/-- The size of a block, unless the header says otherwise. -/
abbrev defaultBlockSize : UInt32 := 4096

/-- The field for the name of a vault. -/
abbrev maxNameLen : Nat := 128
/-- The field for its description. -/
abbrev maxDescLen : Nat := 256
/-- The field for the name of a file. -/
abbrev maxFilenameLen : Nat := 128

/-- The blocks that a file entry names itself. -/
abbrev directBlocksLen : Nat := 8
/-- The field for the wrapped key of the admin. -/
abbrev adminKeySlotLen : Nat := 64
/-- The slots for recipients. -/
abbrev maxRecipientsConst : UInt32 := 16

/-- The slot holds a file. -/
abbrev entryFlagOccupied : UInt32 := (1 : UInt32) <<< 0
/-- The file in the slot was deleted. -/
abbrev entryFlagDeleted : UInt32 := (1 : UInt32) <<< 1
/-- The slot holds a recipient. -/
abbrev recipientFlagOccupied : UInt32 := (1 : UInt32) <<< 0

/-- A slot of the file table, in bytes. -/
abbrev entrySizeConst : UInt32 := 320
/-- A slot for a recipient, in bytes. -/
abbrev recipientSlotSizeConst : UInt32 := 192
/-- A record of the chain, in bytes. -/
abbrev chainRecordSizeConst : UInt32 := 224

/-- Chain record operation kinds. -/
inductive ChainOp where
  | vaultCreated
  | fileAdded
  | fileUpdated
  | fileDeleted
  | accessGranted
  | keyRotated
  deriving DecidableEq

namespace ChainOp

/-- The code of an operation. -/
def toU8 : ChainOp → UInt8
  | vaultCreated => 1
  | fileAdded => 2
  | fileUpdated => 3
  | fileDeleted => 4
  | accessGranted => 5
  | keyRotated => 6

/-- The operation of a code; no other code is one. -/
def fromU8 (code : UInt8) : Except VaultError ChainOp :=
  if code = 1 then .ok vaultCreated
  else if code = 2 then .ok fileAdded
  else if code = 3 then .ok fileUpdated
  else if code = 4 then .ok fileDeleted
  else if code = 5 then .ok accessGranted
  else if code = 6 then .ok keyRotated
  else .error (.corruptContainer "unknown chain op code")

/-- The code of an operation is read back. -/
@[simp] theorem fromU8_toU8 (op : ChainOp) : fromU8 op.toU8 = .ok op := by
  cases op <;> rfl

end ChainOp

/-! ## Byte cursors with explicit widths -/

namespace Writer

/-- One byte. -/
def u8 (value : UInt8) : Bytes := toLE 1 value.toNat
/-- Two bytes, little-endian. -/
def u16 (value : UInt16) : Bytes := toLE 2 value.toNat
/-- Four bytes, little-endian. -/
def u32 (value : UInt32) : Bytes := toLE 4 value.toNat
/-- Eight bytes, little-endian. -/
def u64 (value : UInt64) : Bytes := toLE 8 value.toNat
/-- Eight bytes of a signed number, little-endian. -/
def i64 (value : Int64) : Bytes := toLE 8 value.toUInt64.toNat
/-- Sixteen bytes, little-endian. -/
def u128 (value : BitVec 128) : Bytes := toLE 16 value.toNat

/-- Data in a fixed-width field, zero-padded. -/
def fixed (data : Bytes) (width : Nat) : Bytes := padTo width data

end Writer

namespace Reader

/-- The next bytes, if there are so many. -/
def bytes (count : Nat) : Parser VaultError Bytes :=
  Parser.take (.corruptContainer "unexpected end of record while decoding") count

/-- One byte. -/
def u8 : Parser VaultError UInt8 := do
  let raw ← bytes 1
  pure (UInt8.ofNat (ofLE raw))

/-- Two bytes, little-endian. -/
def u16 : Parser VaultError UInt16 := do
  let raw ← bytes 2
  pure (UInt16.ofNat (ofLE raw))

/-- Four bytes, little-endian. -/
def u32 : Parser VaultError UInt32 := do
  let raw ← bytes 4
  pure (UInt32.ofNat (ofLE raw))

/-- Eight bytes, little-endian. -/
def u64 : Parser VaultError UInt64 := do
  let raw ← bytes 8
  pure (UInt64.ofNat (ofLE raw))

/-- Eight bytes of a signed number, little-endian. -/
def i64 : Parser VaultError Int64 := do
  let raw ← bytes 8
  pure (Int64.ofUInt64 (UInt64.ofNat (ofLE raw)))

/-- Sixteen bytes, little-endian. -/
def u128 : Parser VaultError (BitVec 128) := do
  let raw ← bytes 16
  pure (BitVec.ofNat 128 (ofLE raw))

/-- A fixed-size array; `bytes` has checked the length. -/
def array (count : Nat) : Parser VaultError (ByteArr count) := do
  let raw ← bytes count
  pure ((toArr? count raw).getD (zeroArr count))

/-- The direct block pointers, one after the other. -/
def u64s : (count : Nat) → Parser VaultError (List.Vector UInt64 count)
  | 0 => pure List.Vector.nil
  | count + 1 => do
      let head ← u64
      let tail ← u64s count
      pure (head ::ᵥ tail)

/-- A length-prefixed field of fixed width. -/
def prefixed (width : Nat) (tooLong : String) : Parser VaultError Bytes := do
  let length ← u16
  let raw ← bytes width
  Parser.reject (length.toNat > width) (.corruptContainer tooLong)
  pure (raw.take length.toNat)

/-- A length-prefixed UTF-8 text in a field of fixed width. -/
def text (width : Nat) (tooLong notUtf8 : String) : Parser VaultError String := do
  let raw ← prefixed width tooLong
  Parser.reject ((fromUtf8? raw).isNone) (.corruptContainer notUtf8)
  pure ((fromUtf8? raw).getD "")

end Reader

/-- The length assertion of the fixed-size encoders: a longer buffer panics,
a shorter one is padded with zeros. -/
def assertFits (size : Nat) (buffer : Bytes) : Except Fault Bytes :=
  if buffer.length ≤ size then .ok (padTo size buffer) else .error .panic

/-! ## Header -/

/-- What a header says of its container. -/
structure Header where
  version : UInt32
  flags : UInt32
  blockSize : UInt32
  blockCount : UInt64
  capacityBytes : UInt64
  name : String
  description : String
  createdAt : Int64
  salt : ByteArr saltLen
  argon2MCostKib : UInt32
  argon2TCost : UInt32
  argon2PCost : UInt32
  adminKeySlot : Bytes
  adminSigningPubkey : ByteArr 32
  adminEncryptionPubkey : ByteArr 32
  bitmapOffset : UInt64
  bitmapLen : UInt64
  fileTableOffset : UInt64
  fileTableLen : UInt64
  maxFiles : UInt32
  entrySize : UInt32
  recipientOffset : UInt64
  recipientLen : UInt64
  maxRecipients : UInt32
  recipientSlotSize : UInt32
  chainOffset : UInt64
  chainLen : UInt64
  maxChainRecords : UInt32
  chainRecordSize : UInt32
  chainNextSeq : UInt64
  chainLastHash : ByteArr 32
  dataOffset : UInt64
  deriving DecidableEq

variable [Primitives]

namespace Header

/-- The written fields of a header, in order, without the checksum. -/
def fields (h : Header) : List Bytes :=
  [magic, Writer.u32 h.version, Writer.u32 h.flags, Writer.u32 h.blockSize,
    Writer.u64 h.blockCount, Writer.u64 h.capacityBytes,
    Writer.u16 (UInt16.ofNat (utf8 h.name).length), Writer.fixed (utf8 h.name) maxNameLen,
    Writer.u16 (UInt16.ofNat (utf8 h.description).length),
    Writer.fixed (utf8 h.description) maxDescLen,
    Writer.i64 h.createdAt,
    Writer.fixed h.salt.toList 16, Writer.u32 h.argon2MCostKib, Writer.u32 h.argon2TCost,
    Writer.u32 h.argon2PCost,
    Writer.u16 (UInt16.ofNat h.adminKeySlot.length), Writer.fixed h.adminKeySlot adminKeySlotLen,
    Writer.fixed h.adminSigningPubkey.toList 32, Writer.fixed h.adminEncryptionPubkey.toList 32,
    Writer.u64 h.bitmapOffset, Writer.u64 h.bitmapLen,
    Writer.u64 h.fileTableOffset, Writer.u64 h.fileTableLen, Writer.u32 h.maxFiles,
    Writer.u32 h.entrySize,
    Writer.u64 h.recipientOffset, Writer.u64 h.recipientLen, Writer.u32 h.maxRecipients,
    Writer.u32 h.recipientSlotSize,
    Writer.u64 h.chainOffset, Writer.u64 h.chainLen, Writer.u32 h.maxChainRecords,
    Writer.u32 h.chainRecordSize, Writer.u64 h.chainNextSeq,
    Writer.fixed h.chainLastHash.toList 32,
    Writer.u64 h.dataOffset]

/-- The fields, with their hash behind them, if they fit. -/
def encode (h : Header) : Except Fault Bytes :=
  assertFits headerSize
    (h.fields.flatten ++ Writer.fixed (sha256 h.fields.flatten).toList 32)

/-- Reads the fields of a header, the checksum, and checks the structure; region
ends are sums of two 64-bit values, which wrap. -/
def parse : Parser VaultError Header := do
  let found ← Reader.bytes 8
  Parser.reject (found ≠ magic) .notARvltFile
  let version ← Reader.u32
  Parser.reject (version < minSupportedVersion ∨ version > maxSupportedVersion)
    (.unsupportedVersion version minSupportedVersion maxSupportedVersion)
  let flags ← Reader.u32
  let blockSize ← Reader.u32
  let blockCount ← Reader.u64
  let capacityBytes ← Reader.u64
  let name ← Reader.text maxNameLen "name_len exceeds field width"
    "vault name is not valid UTF-8"
  let description ← Reader.text maxDescLen "desc_len exceeds field width"
    "vault description is not valid UTF-8"
  let createdAt ← Reader.i64
  let salt ← Reader.array saltLen
  let argon2MCostKib ← Reader.u32
  let argon2TCost ← Reader.u32
  let argon2PCost ← Reader.u32
  let adminKeySlot ← Reader.prefixed adminKeySlotLen "admin_key_slot_len exceeds field width"
  let adminSigningPubkey ← Reader.array 32
  let adminEncryptionPubkey ← Reader.array 32
  let bitmapOffset ← Reader.u64
  let bitmapLen ← Reader.u64
  let fileTableOffset ← Reader.u64
  let fileTableLen ← Reader.u64
  let maxFiles ← Reader.u32
  let entrySize ← Reader.u32
  let recipientOffset ← Reader.u64
  let recipientLen ← Reader.u64
  let maxRecipients ← Reader.u32
  let recipientSlotSize ← Reader.u32
  let chainOffset ← Reader.u64
  let chainLen ← Reader.u64
  let maxChainRecords ← Reader.u32
  let chainRecordSize ← Reader.u32
  let chainNextSeq ← Reader.u64
  let chainLastHash ← Reader.array 32
  let dataOffset ← Reader.u64
  let covered ← Parser.consumed
  let storedChecksum ← Reader.array 32
  Parser.reject (storedChecksum ≠ sha256 covered) (.checksumMismatch "header")
  Parser.reject (blockSize = 0 ∨ blockCount = 0)
    (.corruptContainer "block_size/block_count is zero")
  Parser.reject (blockCount.toNat * blockSize.toNat > 2 ^ 64 - 1)
    (.corruptContainer "block_count * block_size overflows u64")
  Parser.reject (bitmapOffset < UInt64.ofNat headerSize)
    (.corruptContainer "bitmap_offset overlaps header")
  Parser.reject (fileTableOffset < bitmapOffset + bitmapLen)
    (.corruptContainer "file_table_offset overlaps bitmap")
  Parser.reject (recipientOffset < fileTableOffset + fileTableLen)
    (.corruptContainer "recipient_offset overlaps file table")
  Parser.reject (chainOffset < recipientOffset + recipientLen)
    (.corruptContainer "chain_offset overlaps recipient keyring")
  Parser.reject (dataOffset < chainOffset + chainLen)
    (.corruptContainer "data_offset overlaps chain region")
  pure { version, flags, blockSize, blockCount, capacityBytes, name, description, createdAt,
         salt, argon2MCostKib, argon2TCost, argon2PCost, adminKeySlot, adminSigningPubkey,
         adminEncryptionPubkey, bitmapOffset, bitmapLen, fileTableOffset, fileTableLen,
         maxFiles, entrySize, recipientOffset, recipientLen, maxRecipients, recipientSlotSize,
         chainOffset, chainLen, maxChainRecords, chainRecordSize, chainNextSeq, chainLastHash,
         dataOffset }

/-- A header from the first bytes of a container. -/
def decode (buf : Bytes) : Except VaultError Header :=
  if buf.length < headerSize then
    .error (.corruptContainer "file too short to contain a header")
  else
    (parse ⟨buf.take headerSize, 0⟩).map Prod.fst

/-- The length of the container that the header describes. -/
def totalContainerSize (h : Header) : UInt64 :=
  h.dataOffset + h.blockCount * h.blockSize.toUInt64

end Header

/-! ## File entries -/

/-- A file of the vault: what the table says of it. -/
structure FileEntry where
  id : BitVec 128
  name : String
  size : UInt64
  blocksUsed : UInt32
  directBlocks : List.Vector UInt64 directBlocksLen
  overflowBlock : UInt64
  fileHash : ByteArr 32
  createdAt : Int64
  modifiedAt : Int64
  flags : UInt32
  deriving DecidableEq

namespace FileEntry

/-- A slot is occupied unless it was never used or its file was deleted. -/
def isOccupied (entry : FileEntry) : Bool :=
  entry.flags &&& entryFlagOccupied != 0 && entry.flags &&& entryFlagDeleted == 0

/-- The written fields of a file entry, in order, without the checksum. -/
def fields (entry : FileEntry) : List Bytes :=
  [Writer.u128 entry.id, Writer.u16 (UInt16.ofNat (utf8 entry.name).length),
    Writer.fixed (utf8 entry.name) maxFilenameLen, Writer.u64 entry.size,
    Writer.u32 entry.blocksUsed,
    (entry.directBlocks.toList.map Writer.u64).flatten,
    Writer.u64 entry.overflowBlock, Writer.fixed entry.fileHash.toList 32,
    Writer.i64 entry.createdAt, Writer.i64 entry.modifiedAt, Writer.u32 entry.flags]

/-- The fields, with the beginning of their hash behind them, if they fit. -/
def encode (entry : FileEntry) : Except Fault Bytes :=
  assertFits entrySizeConst.toNat (entry.fields.flatten ++
    Writer.fixed ((sha256 entry.fields.flatten).toList.take 4) 4)

/-- The fields of a slot, in their order. -/
def parse : Parser VaultError FileEntry := do
  let id ← Reader.u128
  let name ← Reader.text maxFilenameLen "file name_len exceeds field width"
    "file name is not valid UTF-8"
  let size ← Reader.u64
  let blocksUsed ← Reader.u32
  let directBlocks ← Reader.u64s directBlocksLen
  let overflowBlock ← Reader.u64
  let fileHash ← Reader.array 32
  let createdAt ← Reader.i64
  let modifiedAt ← Reader.i64
  let flags ← Reader.u32
  let covered ← Parser.consumed
  let storedCrc ← Reader.bytes 4
  Parser.reject (storedCrc ≠ (sha256 covered).toList.take 4) (.checksumMismatch "file entry")
  pure { id, name, size, blocksUsed, directBlocks, overflowBlock, fileHash, createdAt,
         modifiedAt, flags }

/-- A file entry from a slot. -/
def decode (buf : Bytes) : Except VaultError FileEntry :=
  if buf.length < entrySizeConst.toNat then
    .error (.corruptContainer "file entry slot too short")
  else
    (parse ⟨buf.take entrySizeConst.toNat, 0⟩).map Prod.fst

/-- The entry written into every slot of a new container. -/
def empty : FileEntry where
  id := 0
  name := ""
  size := 0
  blocksUsed := 0
  directBlocks := List.Vector.replicate directBlocksLen 0
  overflowBlock := 0
  fileHash := zeroArr 32
  createdAt := 0
  modifiedAt := 0
  flags := 0

/-- What a slot that was never used holds. -/
def emptySlot : Except Fault Bytes := empty.encode

end FileEntry

/-! ## Recipient slots -/

/-- A recipient of the vault, with the key wrapped for it. -/
structure RecipientSlot where
  signingPubkey : ByteArr 32
  encryptionPubkey : ByteArr 32
  wrappedDek : Bytes
  grantedAt : Int64
  flags : UInt32
  deriving DecidableEq

namespace RecipientSlot

/-- A recipient has the slot. -/
def isOccupied (slot : RecipientSlot) : Bool := slot.flags &&& recipientFlagOccupied != 0

/-- The written fields of a recipient slot, in order, without the checksum. -/
def fields (slot : RecipientSlot) : List Bytes :=
  [Writer.fixed slot.signingPubkey.toList 32, Writer.fixed slot.encryptionPubkey.toList 32,
    Writer.u16 (UInt16.ofNat slot.wrappedDek.length),
    Writer.fixed slot.wrappedDek wrappedDekLen, Writer.i64 slot.grantedAt,
    Writer.u32 slot.flags]

/-- The fields, with the beginning of their hash behind them, if they fit. -/
def encode (slot : RecipientSlot) : Except Fault Bytes :=
  assertFits recipientSlotSizeConst.toNat (slot.fields.flatten ++
    Writer.fixed ((sha256 slot.fields.flatten).toList.take 4) 4)

/-- The fields of a slot, in their order. -/
def parse : Parser VaultError RecipientSlot := do
  let signingPubkey ← Reader.array 32
  let encryptionPubkey ← Reader.array 32
  let wrappedDek ← Reader.prefixed wrappedDekLen
    "recipient wrapped_dek_len exceeds field width"
  let grantedAt ← Reader.i64
  let flags ← Reader.u32
  let covered ← Parser.consumed
  let storedCrc ← Reader.bytes 4
  Parser.reject (storedCrc ≠ (sha256 covered).toList.take 4) (.checksumMismatch "recipient slot")
  pure { signingPubkey, encryptionPubkey, wrappedDek, grantedAt, flags }

/-- A recipient from a slot. -/
def decode (buf : Bytes) : Except VaultError RecipientSlot :=
  if buf.length < recipientSlotSizeConst.toNat then
    .error (.corruptContainer "recipient slot too short")
  else
    (parse ⟨buf.take recipientSlotSizeConst.toNat, 0⟩).map Prod.fst

/-- The unoccupied slot. -/
def empty : RecipientSlot where
  signingPubkey := zeroArr 32
  encryptionPubkey := zeroArr 32
  wrappedDek := []
  grantedAt := 0
  flags := 0

/-- What a slot that was never used holds. -/
def emptySlot : Except Fault Bytes := empty.encode

end RecipientSlot

/-! ## Chain records -/

/-- A signed record of an operation, linked to the one before by its hash. -/
structure ChainRecord where
  seq : UInt64
  prevHash : ByteArr 32
  op : ChainOp
  targetId : BitVec 128
  dataHash : ByteArr 32
  timestamp : Int64
  recordHash : ByteArr 32
  signature : ByteArr 64
  deriving DecidableEq

namespace ChainRecord

/-- What a record signs. -/
def computeHash (seq : UInt64) (prevHash : ByteArr 32) (op : ChainOp) (targetId : BitVec 128)
    (dataHash : ByteArr 32) (timestamp : Int64) : ByteArr 32 :=
  sha256Concat [toLE 8 seq.toNat, prevHash.toList, [op.toU8], toLE 16 targetId.toNat,
    dataHash.toList, toLE 8 timestamp.toUInt64.toNat]

/-- Builds and signs a record with the given identity. -/
def newSigned (seq : UInt64) (prevHash : ByteArr 32) (op : ChainOp) (targetId : BitVec 128)
    (dataHash : ByteArr 32) (timestamp : Int64) (signer : Identity) : ChainRecord where
  seq := seq
  prevHash := prevHash
  op := op
  targetId := targetId
  dataHash := dataHash
  timestamp := timestamp
  recordHash := computeHash seq prevHash op targetId dataHash timestamp
  signature := signer.sign (computeHash seq prevHash op targetId dataHash timestamp).toList

/-- The hash of the record is that of its fields. -/
def verifySelf (record : ChainRecord) : Bool :=
  computeHash record.seq record.prevHash record.op record.targetId record.dataHash
    record.timestamp = record.recordHash

/-- Verifies the admin's signature over the record's hash. -/
def verifySignature (record : ChainRecord) (adminSigningPubkey : ByteArr 32) :
    Except VaultError Unit :=
  ReVault.verifySignature adminSigningPubkey record.recordHash.toList record.signature

omit [Primitives] in
/-- The written fields of a chain record, in order, the occupied marker last. -/
def fields (record : ChainRecord) : List Bytes :=
  [Writer.u64 record.seq, Writer.fixed record.prevHash.toList 32, Writer.u8 record.op.toU8,
    Writer.u128 record.targetId, Writer.fixed record.dataHash.toList 32,
    Writer.i64 record.timestamp, Writer.fixed record.recordHash.toList 32,
    Writer.fixed record.signature.toList 64, Writer.u8 1]

/-- The fields, and zeros up to the length of a record. -/
def encode (record : ChainRecord) : Bytes :=
  padTo chainRecordSizeConst.toNat record.fields.flatten

/-- The fields of a record, in their order, unless the slot is marked as unused. -/
def parse : Parser VaultError (Option ChainRecord) := do
  let seq ← Reader.u64
  let prevHash ← Reader.array 32
  let opByte ← Reader.u8
  let targetId ← Reader.u128
  let dataHash ← Reader.array 32
  let timestamp ← Reader.i64
  let recordHash ← Reader.array 32
  let signature ← Reader.array 64
  let occupied ← Reader.u8
  if occupied = 0 then
    pure none
  else
    let op ← StateT.lift (ChainOp.fromU8 opByte)
    pure (some { seq, prevHash, op, targetId, dataHash, timestamp, recordHash, signature })

/-- A record from a slot of the chain. -/
def decode (buf : Bytes) : Except VaultError (Option ChainRecord) :=
  if buf.length < chainRecordSizeConst.toNat then
    .error (.corruptContainer "chain record slot too short")
  else
    (parse ⟨buf.take chainRecordSizeConst.toNat, 0⟩).map Prod.fst

end ChainRecord

end ReVault
