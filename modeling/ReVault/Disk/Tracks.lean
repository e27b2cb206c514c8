import Mathlib.Logic.Function.Basic
import ReVault.Disk.Ranges

/-!
# What a container stands for

`Disk` is the decoded content of a container: one value for each region. A file
tracks a disk when every region holds the encoding of its value. Each read of a
vault then returns the value of a region, and each write replaces one value.
-/

namespace ReVault

open Foundation Primitives

/-- The decoded content of a container. Only blocks whose content is known hold a
seal. -/
structure Disk where
  header : Header
  bitmap : Bytes
  entries : Nat → FileEntry
  recipients : Nat → RecipientSlot
  records : Nat → Option ChainRecord
  blocks : UInt64 → Option BlockSeal

variable [Primitives]

/-- The bytes of a block are the framed ciphertext of a seal, zero-padded. -/
structure BlockSeal.Frames (made : BlockSeal) (blockSize : Nat) (content : Bytes) : Prop where
  fits : made.plaintext.length + 20 ≤ blockSize
  framed : ∃ ciphertext,
    made.key.encryptBlock made.fileId made.block made.plaintext = .ok ciphertext ∧
      content = padTo blockSize (toLE 4 made.plaintext.length ++ ciphertext)

namespace Disk

omit [Primitives] in
/-- The regions whose content is known. -/
def Shows (d : Disk) : Region → Prop
  | .block idx => d.blocks idx ≠ none
  | _ => True

/-- The bytes of a region encode its value. -/
def Holds (d : Disk) (blockSize : Nat) : Region → Bytes → Prop
  | .header, content => content = d.header.image ∧ d.header.Encodable ∧ d.header.Structured
  | .bitmap, content => content = d.bitmap
  | .entry idx, content => content = (d.entries idx).image ∧
      (utf8 (d.entries idx).name).length ≤ maxFilenameLen
  | .recipient idx, content => content = (d.recipients idx).image ∧
      (d.recipients idx).wrappedDek.length ≤ wrappedDekLen
  | .record idx, content => ChainRecord.decode content = .ok (d.records idx)
  | .block idx, content => ∀ made, d.blocks idx = some made →
      made.block = idx ∧ made.Frames blockSize content

omit [Primitives] in
/-- Another entry in a slot. -/
def setEntry (d : Disk) (idx : Nat) (entry : FileEntry) : Disk :=
  { d with entries := Function.update d.entries idx entry }

omit [Primitives] in
/-- Another recipient in a slot. -/
def setRecipient (d : Disk) (idx : Nat) (slot : RecipientSlot) : Disk :=
  { d with recipients := Function.update d.recipients idx slot }

omit [Primitives] in
/-- Another record in a slot. -/
def setRecord (d : Disk) (idx : Nat) (record : Option ChainRecord) : Disk :=
  { d with records := Function.update d.records idx record }

omit [Primitives] in
/-- A sealed block is stored. -/
def setBlock (d : Disk) (made : BlockSeal) : Disk :=
  { d with blocks := Function.update d.blocks made.block (some made) }

end Disk

/-- Under the layout of a header, a file holds the encoding of a disk. -/
structure Tracks (h : Header) (file : Bytes) (d : Disk) : Prop where
  layout : Layout h
  cells : ∀ region : Region, region.Valid h → d.Shows region →
    ∃ content, cell file (region.extent h) = some content ∧
      d.Holds h.blockSize.toNat region content
  inRange : ∀ idx made, d.blocks idx = some made → (Region.block idx).Valid h

namespace Tracks

variable {h : Header} {file : Bytes} {d d' : Disk}

/-- Filling one region with an encoding of its new value. -/
theorem fill (tracks : Tracks h file d) {region : Region} {data : Bytes}
    (valid : region.Valid h) (fills : data.length = (region.extent h).size)
    (holds : d'.Holds h.blockSize.toNat region data)
    (others : ∀ other, other ≠ region → (d'.Shows other → d.Shows other) ∧
      ∀ content, d.Holds h.blockSize.toNat other content →
        d'.Holds h.blockSize.toNat other content)
    (inRange : ∀ idx made, d'.blocks idx = some made → (Region.block idx).Valid h) :
    Tracks h (writeAt file (region.extent h).start data) d' where
  layout := tracks.layout
  cells := by
    intro other valid' shows'
    by_cases same : other = region
    · subst same
      exact ⟨data, cell_writeAt_self fills, holds⟩
    · obtain ⟨shown, kept⟩ := others other same
      obtain ⟨content, found, held⟩ := tracks.cells other valid' (shown shows')
      exact ⟨content, cell_writeAt_of_apart found fills
        (tracks.layout.apart valid' valid same), kept content held⟩
  inRange := inRange

/-- Tracking depends on a header only through its shape. -/
theorem of_sameShape (tracks : Tracks h file d) {h' : Header} (same : SameShape h h')
    (fits : h'.adminKeySlot.length ≤ adminKeySlotLen) : Tracks h' file d where
  layout := same.layout tracks.layout fits
  cells := by
    intro region valid shown
    rw [same.valid_iff] at valid
    obtain ⟨content, found, held⟩ := tracks.cells region valid shown
    rw [same.extent_eq, show h'.blockSize = h.blockSize by unfold SameShape at same; rw [same]]
    exact ⟨content, found, held⟩
  inRange := by
    intro idx made sealed
    rw [same.valid_iff]
    exact tracks.inRange idx made sealed

/-! ## Reading -/

omit [Primitives] in
/-- Reading a cell gives its content. -/
theorem readExact_of_cell {offset : UInt64} {length : Nat} {content : Bytes} {extent : Extent}
    (found : cell file extent = some content) (start : offset.toNat = extent.start)
    (size : length = extent.size) (inside : extent.stop ≤ ioLimit) :
    readExact file offset length = .ok content := by
  unfold readExact
  rw [if_neg (by rw [start]; unfold Extent.stop at inside; omega), start, size]
  unfold cell at found
  rw [found]

/-- The header that a container holds is read back. -/
theorem readHeader_of_cell {header : Header}
    (found : cell file (Region.header.extent h) = some header.image)
    (encodable : header.Encodable) (structured : header.Structured) :
    readHeader file = .ok header := by
  have inside : (Region.header.extent h).stop ≤ ioLimit := by
    change 0 + headerSize ≤ ioLimit
    decide
  have read : readExact file 0 headerSize = .ok header.image :=
    readExact_of_cell found rfl rfl inside
  have decoded := header.decode_image encodable structured []
  rw [List.append_nil] at decoded
  unfold readHeader
  rw [except_bind_of_ok read, decoded]
  rfl

omit [Primitives] in
/-- The bytes of the bitmap region are adopted. -/
theorem readAllocator_of_cell (layout : Layout h) {bits : Bytes}
    (found : cell file (Region.bitmap.extent h) = some bits) :
    readAllocator file h = .ok (BlockAllocator.fromBytes bits h.blockCount) := by
  have inside := layout.stop_le_ioLimit .bitmap trivial
  have read : readExact file h.bitmapOffset h.bitmapLen.toNat = .ok bits :=
    readExact_of_cell found rfl rfl inside
  unfold readAllocator
  rw [if_neg (by
    change h.bitmapOffset.toNat + h.bitmapLen.toNat ≤ ioLimit at inside
    omega), except_bind_of_ok read]

/-- The header is read back. -/
theorem readHeader_eq (tracks : Tracks h file d) : readHeader file = .ok d.header := by
  obtain ⟨content, found, rfl, encodable, structured⟩ :=
    tracks.cells .header trivial trivial
  exact readHeader_of_cell found encodable structured

/-- The bitmap is read back. -/
theorem readAllocator_eq (tracks : Tracks h file d) :
    readAllocator file h = .ok (BlockAllocator.fromBytes d.bitmap h.blockCount) := by
  obtain ⟨content, found, rfl⟩ := tracks.cells .bitmap trivial trivial
  exact readAllocator_of_cell tracks.layout found

/-- A slot for a recipient is read back, before there is a handle. -/
theorem readRecipientSlotAt_eq (tracks : Tracks h file d) {idx : Nat}
    (inTable : idx < h.maxRecipients.toNat) :
    Vault.readRecipientSlotAt file h idx = .ok (d.recipients idx) := by
  obtain ⟨content, found, rfl, fits⟩ := tracks.cells (.recipient idx) inTable trivial
  unfold Vault.readRecipientSlotAt
  rw [except_bind_of_ok (readExact_of_cell found
    (tracks.layout.toNat_recipientSlotOffset inTable)
    (by rw [tracks.layout.recipientSlotSize]; rfl)
    (tracks.layout.stop_le_ioLimit (.recipient idx) inTable))]
  have decoded := (d.recipients idx).decode_image fits []
  rw [List.append_nil] at decoded
  rw [decoded]
  rfl

end Tracks

namespace Vault

variable {v : Vault} {d : Disk}

/-- A slot of the file table is read back. -/
theorem readSlot_eq (tracks : Tracks v.header v.file d) {idx : Nat}
    (inTable : idx < v.header.maxFiles.toNat) : v.readSlot idx = .ok (d.entries idx) := by
  obtain ⟨content, found, rfl, fits⟩ := tracks.cells (.entry idx) inTable trivial
  unfold readSlot
  rw [except_bind_of_ok (Tracks.readExact_of_cell found
    (tracks.layout.toNat_slotOffset inTable) (by rw [tracks.layout.entrySize]; rfl)
    (tracks.layout.stop_le_ioLimit (.entry idx) inTable))]
  have decoded := (d.entries idx).decode_image fits []
  rw [List.append_nil] at decoded
  rw [decoded]
  rfl

/-- A slot for a recipient is read back. -/
theorem readRecipientSlot_eq (tracks : Tracks v.header v.file d) {idx : Nat}
    (inTable : idx < v.header.maxRecipients.toNat) :
    v.readRecipientSlot idx = .ok (d.recipients idx) :=
  tracks.readRecipientSlotAt_eq inTable

/-- A record is read back from its slot in the ring. -/
theorem readChainSlotAtSeq_eq (tracks : Tracks v.header v.file d) (seq : UInt64) :
    v.readChainSlotAtSeq seq = .ok (d.records (Layout.ringSlot v.header seq)) := by
  have inRing := tracks.layout.ringSlot_valid seq
  obtain ⟨content, found, decoded⟩ := tracks.cells (.record _) inRing trivial
  obtain ⟨offset, computed, start⟩ := tracks.layout.chainSlotOffset_eq seq
  unfold readChainSlotAtSeq
  rw [except_bind_of_ok computed, except_bind_of_ok (Tracks.readExact_of_cell found start
    (by rw [tracks.layout.chainRecordSize]; rfl)
    (tracks.layout.stop_le_ioLimit (.record _) inRing)), decoded]
  rfl

/-- The framed ciphertext of a seal is what decryption is applied to. -/
theorem openBlock_of_frames [Lawful] {made : BlockSeal} {blockSize : Nat} {content : Bytes}
    (frames : made.Frames blockSize content) (bounded : blockSize < 2 ^ 32) (key : MasterKey)
    (fileId : BitVec 128) : ∃ ciphertext,
      made.key.encryptBlock made.fileId made.block made.plaintext = .ok ciphertext ∧
      openBlock key made.block fileId content =
        key.decryptBlock fileId made.block ciphertext := by
  obtain ⟨fits, ciphertext, encrypted, rfl⟩ := frames
  have small : made.plaintext.length ≤ aesGcmMax := by
    unfold aesGcmMax
    omega
  obtain ⟨sized, _⟩ := decryptBlock_of_encryptBlock small encrypted
  refine ⟨ciphertext, encrypted, ?_⟩
  have total : (padTo blockSize (toLE 4 made.plaintext.length ++ ciphertext)).length =
      blockSize := by
    apply length_padTo
    rw [List.length_append, length_toLE, sized]
    change 4 + (made.plaintext.length + 16) ≤ blockSize
    omega
  have prefixIs : (padTo blockSize (toLE 4 made.plaintext.length ++ ciphertext)).take 4 =
      toLE 4 made.plaintext.length := by
    unfold padTo
    rw [List.append_assoc, List.take_left' (length_toLE 4 _)]
  have restIs : (padTo blockSize (toLE 4 made.plaintext.length ++ ciphertext)).drop 4 =
      ciphertext ++ List.replicate (blockSize - (4 + ciphertext.length)) 0 := by
    unfold padTo
    rw [List.append_assoc, List.drop_left' (length_toLE 4 _), List.length_append, length_toLE]
  have lengthIs : ofLE (toLE 4 made.plaintext.length) = made.plaintext.length :=
    ofLE_toLE_of_lt (by omega)
  unfold openBlock
  rw [prefixIs, lengthIs, total, if_neg (by omega), if_neg (by omega), if_neg (by
    rw [List.length_drop, total]
    omega), restIs, List.take_left' sized]

section Frames

variable [Lawful] {made : BlockSeal} {content : Bytes} {extent : Extent}
  (start : (v.header.blockOffset made.block).toNat = extent.start)
  (size : v.header.blockSize.toNat = extent.size) (within : extent.stop ≤ ioLimit)
  (found : cell v.file extent = some content)
  (frames : made.Frames v.header.blockSize.toNat content)

include start size within found frames

/-- The bytes of a sealed block open, under any key, as its ciphertext decrypts. -/
theorem exists_ciphertext (key : MasterKey) : ∃ ciphertext,
    readExact v.file (v.header.blockOffset made.block) v.header.blockSize.toNat = .ok content ∧
      made.key.encryptBlock made.fileId made.block made.plaintext = .ok ciphertext ∧
      openBlock key made.block made.fileId content =
        key.decryptBlock made.fileId made.block ciphertext ∧
      made.plaintext.length ≤ aesGcmMax := by
  have bounded := v.header.blockSize.toNat_lt
  obtain ⟨ciphertext, encrypted, opened⟩ := openBlock_of_frames frames bounded key made.fileId
  refine ⟨ciphertext, ?_, encrypted, opened, ?_⟩
  · exact Tracks.readExact_of_cell found start size within
  · have fits := frames.fits
    unfold aesGcmMax
    omega

/-- A block sealed under the vault's key reads back its plaintext. -/
theorem readPhysicalBlock_of_frames (current : made.key = v.key) :
    v.readPhysicalBlock made.block made.fileId = .ok made.plaintext := by
  obtain ⟨ciphertext, read, encrypted, opened, small⟩ :=
    exists_ciphertext start size within found frames v.key
  unfold readPhysicalBlock
  rw [except_bind_of_ok read, opened, ← current]
  exact (decryptBlock_of_encryptBlock small encrypted).2

/-- A sealed block does not read back under a key that rejects what its own encrypts. -/
theorem exists_rejected_of_frames {key : MasterKey} (rejects : Rejects made.key key) :
    ∃ fault, readPhysicalBlock { v with key := key } made.block made.fileId = .error fault := by
  obtain ⟨ciphertext, read, encrypted, opened, _⟩ :=
    exists_ciphertext start size within found frames key
  obtain ⟨fault, rejected⟩ := rejects.decryptBlock encrypted
  refine ⟨fault, ?_⟩
  unfold readPhysicalBlock
  rw [except_bind_of_ok read, opened, rejected]

end Frames

section Sealed

variable (tracks : Tracks v.header v.file d) {made : BlockSeal}
  (sealed : d.blocks made.block = some made)

include tracks sealed

/-- The container holds the frame of every seal of its disk. -/
theorem exists_frames : ∃ content,
    cell v.file ((Region.block made.block).extent v.header) = some content ∧
      made.Frames v.header.blockSize.toNat content := by
  obtain ⟨content, found, holds⟩ := tracks.cells (.block made.block)
    (tracks.inRange made.block made sealed)
    (by
      change d.blocks made.block ≠ none
      rw [sealed]
      exact Option.some_ne_none made)
  exact ⟨content, found, (holds made sealed).2⟩

/-- A block is read back with the key it was sealed under. -/
theorem readPhysicalBlock_eq [Lawful] (current : made.key = v.key) :
    v.readPhysicalBlock made.block made.fileId = .ok made.plaintext := by
  obtain ⟨content, found, frames⟩ := exists_frames tracks sealed
  have valid := tracks.inRange _ _ sealed
  exact readPhysicalBlock_of_frames (tracks.layout.toNat_blockOffset valid) rfl valid.2 found
    frames current

/-- With a key that is rejected it is not. -/
theorem readPhysicalBlock_rejected [Lawful] {key : MasterKey} (rejects : Rejects made.key key) :
    ∃ fault, readPhysicalBlock { v with key := key } made.block made.fileId = .error fault := by
  obtain ⟨content, found, frames⟩ := exists_frames tracks sealed
  have valid := tracks.inRange _ _ sealed
  exact exists_rejected_of_frames (tracks.layout.toNat_blockOffset valid) rfl valid.2 found
    frames rejects

end Sealed

/-! ## Writing -/

omit [Primitives] in
/-- A write within the limit of offsets. -/
theorem writeAt_eq {offset : UInt64} {data : Bytes}
    (inside : offset.toNat + data.length ≤ ioLimit) :
    writeAt offset data v = .ok () (v.written offset data) := by
  unfold writeAt
  rw [if_neg (by omega)]
  rfl

omit [Primitives] in
/-- A write beyond it is refused. -/
theorem writeAt_refused {offset : UInt64} {data : Bytes}
    (past : ¬ offset.toNat + data.length ≤ ioLimit) :
    writeAt offset data v = .error (.error .io) v := by
  unfold writeAt
  rw [if_pos (by omega)]
  rfl

/-- A write that fills a region with the encoding of its new value. -/
theorem writeAt_region (tracks : Tracks v.header v.file d) (d' : Disk) (region : Region)
    {offset : UInt64} (data : Bytes) (valid : region.Valid v.header)
    (start : offset.toNat = (region.extent v.header).start)
    (fills : data.length = (region.extent v.header).size)
    (holds : d'.Holds v.header.blockSize.toNat region data)
    (others : ∀ other, other ≠ region → (d'.Shows other → d.Shows other) ∧
      ∀ content, d.Holds v.header.blockSize.toNat other content →
        d'.Holds v.header.blockSize.toNat other content)
    (inRange : ∀ idx made, d'.blocks idx = some made → (Region.block idx).Valid v.header) :
    ∃ file log, writeAt offset data v = .ok () { v with file := file, changeLog := log } ∧
      Tracks v.header file d' ∧
      Wrote v.header v { v with file := file, changeLog := log } [region] := by
  have inside : offset.toNat + data.length ≤ ioLimit := by
    rw [start, fills]
    exact tracks.layout.stop_le_ioLimit region valid
  refine ⟨_, _, writeAt_eq inside, ?_, ?_⟩
  · rw [start]
    exact tracks.fill valid fills holds others inRange
  · exact ⟨_, Logged.written v inside,
      List.Forall₂.cons ⟨valid, start, fills⟩ List.Forall₂.nil⟩

/-- The header is written. -/
theorem writeHeader_eq (tracks : Tracks v.header v.file d) :
    ∃ file log, writeHeader v = .ok () { v with file := file, changeLog := log } ∧
      Tracks v.header file { d with header := v.header } ∧
      Wrote v.header v { v with file := file, changeLog := log } [.header] := by
  have encodable := tracks.layout.encodable
  have encoded : observe (fun v : Vault => v.header.encode) v = .ok v.header.image v :=
    observe_of_ok (v.header.encode_eq encodable)
  unfold writeHeader
  rw [bind_of_ok encoded]
  refine writeAt_region tracks _ .header v.header.image trivial rfl
    (v.header.length_image encodable) ⟨rfl, encodable, tracks.layout.structured⟩ ?_
    tracks.inRange
  intro other different
  cases other with
  | header => exact absurd rfl different
  | _ => exact ⟨id, fun _ => id⟩

/-- The bitmap is written. -/
theorem writeBitmap_eq (tracks : Tracks v.header v.file d)
    (counted : v.allocator.blockCount = v.header.blockCount) :
    ∃ file log, writeBitmap v = .ok () { v with file := file, changeLog := log } ∧
      Tracks v.header file { d with bitmap := v.allocator.bits } ∧
      Wrote v.header v { v with file := file, changeLog := log } [.bitmap] := by
  unfold writeBitmap
  rw [bind_of_ok (get_apply v)]
  refine writeAt_region tracks _ .bitmap v.allocator.bits trivial rfl ?_ rfl ?_ tracks.inRange
  · change v.allocator.bits.length = v.header.bitmapLen.toNat
    rw [v.allocator.sized, counted, tracks.layout.bitmapLen]
  · intro other different
    cases other with
    | bitmap => exact absurd rfl different
    | _ => exact ⟨id, fun _ => id⟩

/-- An entry is written to its slot. -/
theorem writeSlot_eq (tracks : Tracks v.header v.file d) {idx : Nat} {entry : FileEntry}
    (inTable : idx < v.header.maxFiles.toNat)
    (fits : (utf8 entry.name).length ≤ maxFilenameLen) :
    ∃ file log, writeSlot idx entry v = .ok () { v with file := file, changeLog := log } ∧
      Tracks v.header file (d.setEntry idx entry) ∧
      Wrote v.header v { v with file := file, changeLog := log } [.entry idx] := by
  have encoded : observe (fun _ : Vault => entry.encode) v = .ok entry.image v :=
    observe_of_ok (entry.encode_eq fits)
  unfold writeSlot
  rw [bind_of_ok encoded, bind_of_ok (get_apply v)]
  refine writeAt_region tracks _ (.entry idx) entry.image inTable
    (tracks.layout.toNat_slotOffset inTable) (entry.length_image fits) ?_ ?_ tracks.inRange
  · change _ = (Function.update d.entries idx entry idx).image ∧
      (utf8 (Function.update d.entries idx entry idx).name).length ≤ maxFilenameLen
    rw [Function.update_self]
    exact ⟨rfl, fits⟩
  · intro other different
    cases other with
    | entry i =>
        have apart : i ≠ idx := fun same => different (by rw [same])
        refine ⟨id, fun content held => ?_⟩
        simpa only [Disk.Holds, Disk.setEntry, Function.update_of_ne apart] using held
    | _ => exact ⟨id, fun _ => id⟩

/-- A recipient is written to its slot. -/
theorem writeRecipientSlot_eq (tracks : Tracks v.header v.file d) {idx : Nat}
    {slot : RecipientSlot} (inTable : idx < v.header.maxRecipients.toNat)
    (fits : slot.wrappedDek.length ≤ wrappedDekLen) :
    ∃ file log,
      writeRecipientSlot idx slot v = .ok () { v with file := file, changeLog := log } ∧
      Tracks v.header file (d.setRecipient idx slot) ∧
      Wrote v.header v { v with file := file, changeLog := log } [.recipient idx] := by
  have encoded : observe (fun _ : Vault => slot.encode) v = .ok slot.image v :=
    observe_of_ok (slot.encode_eq fits)
  unfold writeRecipientSlot
  rw [bind_of_ok encoded, bind_of_ok (get_apply v)]
  refine writeAt_region tracks _ (.recipient idx) slot.image inTable
    (tracks.layout.toNat_recipientSlotOffset inTable) (slot.length_image fits) ?_ ?_
    tracks.inRange
  · change _ = (Function.update d.recipients idx slot idx).image ∧
      (Function.update d.recipients idx slot idx).wrappedDek.length ≤ wrappedDekLen
    rw [Function.update_self]
    exact ⟨rfl, fits⟩
  · intro other different
    cases other with
    | recipient i =>
        have apart : i ≠ idx := fun same => different (by rw [same])
        refine ⟨id, fun content held => ?_⟩
        simpa only [Disk.Holds, Disk.setRecipient, Function.update_of_ne apart] using held
    | _ => exact ⟨id, fun _ => id⟩

/-- The header after a record has been appended. -/
def anchored (h : Header) (record : ChainRecord) : Header :=
  { h with chainNextSeq := record.seq + 1, chainLastHash := record.recordHash }

/-- Appending a record fills its ring slot and moves the anchor, on disk and in memory. -/
theorem appendSignedChainRecord_eq (tracks : Tracks v.header v.file d) {admin : Identity}
    (authorized : v.adminIdentity = some admin) (op : ChainOp) (targetId : BitVec 128)
    (dataHash : ByteArr 32) (timestamp : Int64) :
    ∃ file log record,
      record = ChainRecord.newSigned v.header.chainNextSeq v.header.chainLastHash op targetId
        dataHash timestamp admin ∧
      appendSignedChainRecord op targetId dataHash timestamp v =
        .ok () { v with file := file, changeLog := log, header := anchored v.header record } ∧
      Tracks (anchored v.header record) file
        { d.setRecord (Layout.ringSlot v.header record.seq) (some record) with
          header := anchored v.header record } ∧
      Wrote v.header v
        { v with file := file, changeLog := log, header := anchored v.header record }
        [.record (Layout.ringSlot v.header record.seq), .header] := by
  generalize recordIs : ChainRecord.newSigned v.header.chainNextSeq v.header.chainLastHash op
    targetId dataHash timestamp admin = record
  have made : observe (fun v : Vault => v.nextRecord op targetId dataHash timestamp) v =
      .ok record v := by
    apply observe_of_ok
    unfold nextRecord
    rw [authorized]
    exact congrArg Except.ok recordIs
  obtain ⟨offset, computed, start⟩ := tracks.layout.chainSlotOffset_eq record.seq
  have located : observe (fun v : Vault => v.header.chainSlotOffset record.seq) v =
      .ok offset v := observe_of_ok computed
  obtain ⟨file₁, log₁, wrote, tracks₁, filled⟩ := writeAt_region tracks
    (d.setRecord (Layout.ringSlot v.header record.seq) (some record)) (.record _)
    record.encode (tracks.layout.ringSlot_valid record.seq) start record.length_encode
    (by
      change ChainRecord.decode record.encode = .ok (Function.update d.records _ _ _)
      have decoded := record.decode_encode []
      rw [List.append_nil] at decoded
      rw [Function.update_self, decoded])
    (by
      intro other different
      cases other with
      | record i =>
          have apart : i ≠ Layout.ringSlot v.header record.seq := fun same =>
            different (by rw [same])
          refine ⟨id, fun content held => ?_⟩
          simpa only [Disk.Holds, Disk.setRecord, Function.update_of_ne apart] using held
      | _ => exact ⟨id, fun _ => id⟩)
    tracks.inRange
  have sameShape : SameShape v.header (anchored v.header record) := rfl
  have tracks₂ := tracks₁.of_sameShape sameShape tracks.layout.encodable.adminKeySlot
  obtain ⟨file₂, log₂, wroteHeader, tracks₃, filled'⟩ := writeHeader_eq
    (v := { v with file := file₁, changeLog := log₁, header := anchored v.header record }) tracks₂
  have back : SameShape (anchored v.header record) v.header := rfl
  have appended : Wrote v.header v
      { v with file := file₁, changeLog := log₁, header := anchored v.header record }
      [.record (Layout.ringSlot v.header record.seq)] := filled.of_same rfl rfl
  refine ⟨file₂, log₂, record, rfl, ?_, tracks₃, appended.trans (filled'.of_sameShape back)⟩
  unfold appendSignedChainRecord
  rw [bind_of_ok made, bind_of_ok located, bind_of_ok wrote, bind_of_ok (modify_apply _ _)]
  exact wroteHeader

/-- A plaintext that fits in a block is sealed, framed, padded and written at the block's
offset. -/
theorem writePhysicalBlock_framed [Lawful] (idx : UInt64) (fileId : BitVec 128)
    {plaintext : Bytes} (fits : plaintext.length + 20 ≤ v.header.blockSize.toNat) :
    ∃ ciphertext, v.key.encryptBlock fileId idx plaintext = .ok ciphertext ∧
      (toLE 4 plaintext.length ++ ciphertext).length ≤ v.header.blockSize.toNat ∧
      writePhysicalBlock idx fileId plaintext v =
        writeAt (v.header.blockOffset idx)
          (padTo v.header.blockSize.toNat (toLE 4 plaintext.length ++ ciphertext))
          { v with seals := v.seals ++ [⟨v.key, fileId, idx, plaintext⟩] } := by
  have bounded := v.header.blockSize.toNat_lt
  have small : plaintext.length ≤ aesGcmMax := by
    unfold aesGcmMax
    omega
  obtain ⟨ciphertext, encrypted, sized, _⟩ := encryptBlock_spec v.key fileId idx small
  have framedSize : 4 + ciphertext.length ≤ v.header.blockSize.toNat := by
    rw [sized]
    change 4 + (plaintext.length + 16) ≤ _
    omega
  refine ⟨ciphertext, encrypted, ?_, ?_⟩
  · rw [List.length_append, length_toLE]
    exact framedSize
  · have observed : observe (fun v : Vault => v.key.encryptBlock fileId idx plaintext) v =
        .ok ciphertext v := observe_of_ok encrypted
    unfold writePhysicalBlock
    rw [bind_of_ok observed, bind_of_ok (modify_apply _ _), bind_of_ok (get_apply _),
      if_neg (Nat.not_lt.mpr framedSize)]

/-- Sealing a plaintext into a valid block. -/
theorem writePhysicalBlock_eq [Lawful] (tracks : Tracks v.header v.file d) {idx : UInt64}
    (fileId : BitVec 128) {plaintext : Bytes} (valid : (Region.block idx).Valid v.header)
    (fits : plaintext.length + 20 ≤ v.header.blockSize.toNat) :
    ∃ file log, writePhysicalBlock idx fileId plaintext v =
        .ok () { v with
          file := file
          changeLog := log
          seals := v.seals ++ [⟨v.key, fileId, idx, plaintext⟩] } ∧
      Tracks v.header file (d.setBlock ⟨v.key, fileId, idx, plaintext⟩) ∧
      Wrote v.header v { v with
        file := file
        changeLog := log
        seals := v.seals ++ [⟨v.key, fileId, idx, plaintext⟩] } [.block idx] := by
  obtain ⟨ciphertext, encrypted, framedSize, framed⟩ := writePhysicalBlock_framed idx fileId fits
  obtain ⟨file, log, wrote, tracks', filled⟩ := writeAt_region
    (v := { v with seals := v.seals ++ [⟨v.key, fileId, idx, plaintext⟩] }) tracks
    (d.setBlock ⟨v.key, fileId, idx, plaintext⟩) (.block idx)
    (padTo v.header.blockSize.toNat (toLE 4 plaintext.length ++ ciphertext)) valid
    (tracks.layout.toNat_blockOffset valid) (length_padTo framedSize)
    (by
      intro made found
      change Function.update d.blocks idx _ idx = some made at found
      rw [Function.update_self] at found
      cases found
      exact ⟨rfl, fits, ciphertext, encrypted, rfl⟩)
    (by
      intro other different
      cases other with
      | block i =>
          have apart : i ≠ idx := fun same => different (by rw [same])
          constructor
          · intro shown
            simpa only [Disk.Shows, Disk.setBlock, Function.update_of_ne apart] using shown
          · intro content held made found
            simp only [Disk.setBlock, Function.update_of_ne apart] at found
            exact held made found
      | _ => exact ⟨id, fun _ => id⟩)
    (by
      intro i made found
      by_cases same : i = idx
      · rw [same]
        exact valid
      · simp only [Disk.setBlock, Function.update_of_ne same] at found
        exact tracks.inRange i made found)
  have noted : Wrote v.header v
      { v with seals := v.seals ++ [⟨v.key, fileId, idx, plaintext⟩] } [] := Wrote.nothing rfl rfl
  exact ⟨file, log, framed.trans wrote, tracks', noted.trans filled⟩

end Vault

end ReVault
