import ReVault.Access.Opening
import ReVault.Core.Transparent

/-!
# A new container

The header that `Vault::create` computes has a sound layout for every capacity it
accepts, and the regions it writes one after the other are the cells of an empty
disk: no files, no recipients, and a chain that holds the genesis record.
-/

namespace ReVault

open Foundation Primitives

/-- The whole container lies within 64-bit offsets. -/
def Header.Sized (h : Header) : Prop :=
  h.dataOffset.toNat + h.blockCount.toNat * h.blockSize.toNat < 2 ^ 64

namespace Vault

/-! ## The computed header -/

/-- A clamped value is between its bounds. -/
theorem clamp_bounds (value : UInt64) {low high : UInt64} (ordered : low.toNat ≤ high.toNat) :
    low.toNat ≤ (clamp value low high).toNat ∧ (clamp value low high).toNat ≤ high.toNat := by
  unfold clamp
  split
  · exact ⟨Nat.le_refl _, ordered⟩
  · rename_i notLow
    rw [UInt64.lt_iff_toNat_lt] at notLow
    split
    · exact ⟨ordered, Nat.le_refl _⟩
    · rename_i notHigh
      rw [UInt64.lt_iff_toNat_lt] at notHigh
      exact ⟨Nat.le_of_not_lt notLow, Nat.le_of_not_lt notHigh⟩

/-- A sum that fits is not cut off. -/
theorem toNat_add_small {first second : UInt64} (fits : first.toNat + second.toNat < 2 ^ 64) :
    (first + second).toNat = first.toNat + second.toNat := by
  rw [UInt64.toNat_add, Nat.mod_eq_of_lt fits]

/-- A product that fits is not cut off. -/
theorem toNat_mul_small {count width : UInt32} (fits : count.toNat * width.toNat < 2 ^ 64) :
    (count.toUInt64 * width.toUInt64).toNat = count.toNat * width.toNat := by
  rw [UInt64.toNat_mul, UInt32.toNat_toUInt64, UInt32.toNat_toUInt64, Nat.mod_eq_of_lt fits]

variable [Primitives]

omit [Primitives] in
/-- The file table has between 4 and 4096 slots. -/
theorem newMaxFiles_bounds (capacityBytes : UInt64) :
    4 ≤ (newMaxFiles capacityBytes).toNat ∧ (newMaxFiles capacityBytes).toNat ≤ 4096 := by
  have bounds := clamp_bounds (capacityBytes / (16 * 1024)) (by decide :
    (4 : UInt64).toNat ≤ (4096 : UInt64).toNat)
  unfold newMaxFiles
  rw [UInt64.toNat_toUInt32, Nat.mod_eq_of_lt (lt_of_le_of_lt bounds.2 (by decide))]
  exact bounds

omit [Primitives] in
/-- The ring has between 8 and 16384 slots. -/
theorem newMaxChainRecords_bounds (maxFiles : UInt32) :
    8 ≤ (newMaxChainRecords maxFiles).toNat ∧ (newMaxChainRecords maxFiles).toNat ≤ 16384 := by
  have bounds := clamp_bounds (maxFiles.toUInt64 * 4) (by decide :
    (8 : UInt64).toNat ≤ (16384 : UInt64).toNat)
  unfold newMaxChainRecords
  rw [UInt64.toNat_toUInt32, Nat.mod_eq_of_lt (lt_of_le_of_lt bounds.2 (by decide))]
  exact bounds

/-- What the computed header says about its regions. -/
structure NewOffsets (h : Header) : Prop where
  bitmapLen : h.bitmapLen.toNat = bitmapLenBytes h.blockCount
  bitmapOffset : h.bitmapOffset.toNat = headerSize
  fileTableOffset : h.fileTableOffset.toNat = headerSize + h.bitmapLen.toNat
  recipientOffset : h.recipientOffset.toNat =
    h.fileTableOffset.toNat + h.maxFiles.toNat * entrySizeConst.toNat
  chainOffset : h.chainOffset.toNat =
    h.recipientOffset.toNat + h.maxRecipients.toNat * recipientSlotSizeConst.toNat
  dataOffset : h.dataOffset.toNat =
    h.chainOffset.toNat + h.maxChainRecords.toNat * chainRecordSizeConst.toNat
  small : h.dataOffset.toNat ≤ 2 ^ 51

section NewHeader

variable (name description : String) (capacityBytes : UInt64) {maxFiles maxChainRecords : UInt32}
  (adminKeySlot : Bytes) (admin : PeerId) (genesis : ChainRecord) (draws : Draws)

omit [Primitives] in
/-- The regions of a new container follow one another. -/
theorem newHeader_offsets (files : maxFiles.toNat ≤ 4096)
    (records : maxChainRecords.toNat ≤ 16384) :
    NewOffsets (newHeader name description capacityBytes maxFiles maxChainRecords adminKeySlot
      admin genesis draws) := by
  have capacity := capacityBytes.toNat_lt
  have blockCount : (capacityBytes / defaultBlockSize.toUInt64).toNat =
      capacityBytes.toNat / 4096 := UInt64.toNat_div ..
  have bitmapSmall : bitmapLenBytes (capacityBytes / defaultBlockSize.toUInt64) ≤ 2 ^ 50 := by
    unfold bitmapLenBytes
    rw [blockCount]
    omega
  have lengths : (UInt64.ofNat (bitmapLenBytes (capacityBytes /
        defaultBlockSize.toUInt64))).toNat =
          bitmapLenBytes (capacityBytes / defaultBlockSize.toUInt64) ∧
      (maxFiles.toUInt64 * entrySizeConst.toUInt64).toNat = maxFiles.toNat * 320 ∧
      (maxChainRecords.toUInt64 * chainRecordSizeConst.toUInt64).toNat =
        maxChainRecords.toNat * 224 := by
    refine ⟨?_, ?_, ?_⟩
    · rw [UInt64.toNat_ofNat', Nat.mod_eq_of_lt (by omega)]
    · exact toNat_mul_small (lt_of_le_of_lt (Nat.mul_le_mul_right 320 files) (by decide))
    · exact toNat_mul_small (lt_of_le_of_lt (Nat.mul_le_mul_right 224 records) (by decide))
  obtain ⟨bitmapLen, filesLen, chainLen⟩ := lengths
  have recipientLen : (maxRecipientsConst.toUInt64 * recipientSlotSizeConst.toUInt64).toNat =
      16 * 192 := rfl
  have offset₀ : (UInt64.ofNat headerSize).toNat = 1024 := rfl
  generalize bitmapIs : UInt64.ofNat (bitmapLenBytes (capacityBytes /
    defaultBlockSize.toUInt64)) = bitmap at bitmapLen
  generalize entriesIs : maxFiles.toUInt64 * entrySizeConst.toUInt64 = entries at filesLen
  generalize ringIs : maxChainRecords.toUInt64 * chainRecordSizeConst.toUInt64 = ring at chainLen
  have offset₁ : (UInt64.ofNat headerSize + bitmap).toNat = 1024 + bitmap.toNat :=
    toNat_add_small (by rw [offset₀]; omega)
  have offset₂ : (UInt64.ofNat headerSize + bitmap + entries).toNat =
      1024 + bitmap.toNat + entries.toNat := by
    rw [toNat_add_small (by omega), offset₁]
  have offset₃ : (UInt64.ofNat headerSize + bitmap + entries +
      maxRecipientsConst.toUInt64 * recipientSlotSizeConst.toUInt64).toNat =
      1024 + bitmap.toNat + entries.toNat + 16 * 192 := by
    rw [toNat_add_small (by omega), offset₂, recipientLen]
  have offset₄ : (UInt64.ofNat headerSize + bitmap + entries +
      maxRecipientsConst.toUInt64 * recipientSlotSizeConst.toUInt64 + ring).toNat =
      1024 + bitmap.toNat + entries.toNat + 16 * 192 + ring.toNat := by
    rw [toNat_add_small (by omega), offset₃]
  subst bitmapIs entriesIs ringIs
  exact {
    bitmapLen := bitmapLen
    bitmapOffset := rfl
    fileTableOffset := offset₁
    recipientOffset := offset₂.trans (by rw [← offset₁, filesLen]; rfl)
    chainOffset := offset₃.trans (by rw [← offset₂]; rfl)
    dataOffset := offset₄.trans (by rw [← offset₃, chainLen]; rfl)
    small := le_trans (le_of_eq offset₄) (by omega) }

omit [Primitives] in
/-- The computed header has a sound layout. -/
theorem newHeader_layout (files : maxFiles.toNat ≤ 4096)
    (records : 8 ≤ maxChainRecords.toNat ∧ maxChainRecords.toNat ≤ 16384)
    (nameFits : (utf8 name).length ≤ maxNameLen)
    (descriptionFits : (utf8 description).length ≤ maxDescLen)
    (slotFits : adminKeySlot.length ≤ adminKeySlotLen)
    (blocks : capacityBytes / defaultBlockSize.toUInt64 ≠ 0) :
    Layout (newHeader name description capacityBytes maxFiles maxChainRecords adminKeySlot
      admin genesis draws) := by
  have offsets := newHeader_offsets name description capacityBytes adminKeySlot admin genesis
    draws files records.2
  exact {
    encodable := ⟨nameFits, descriptionFits, slotFits⟩
    structured := {
      version := rfl
      blockSize := by
        change defaultBlockSize ≠ 0
        decide
      blockCount := blocks
      dataLen := by
        have quotient : (capacityBytes / defaultBlockSize.toUInt64).toNat =
            capacityBytes.toNat / 4096 := UInt64.toNat_div ..
        have capacity := capacityBytes.toNat_lt
        change (capacityBytes / defaultBlockSize.toUInt64).toNat * 4096 ≤ 2 ^ 64 - 1
        rw [quotient]
        omega
      bitmap := UInt64.lt_irrefl _
      fileTable := UInt64.lt_irrefl _
      recipients := UInt64.lt_irrefl _
      chain := UInt64.lt_irrefl _
      data := UInt64.lt_irrefl _ }
    entrySize := rfl
    recipientSlotSize := rfl
    chainRecordSize := rfl
    blockSize := by
      change 40 ≤ 4096
      decide
    chainRecords := by
      intro zero
      have : maxChainRecords.toNat = 0 := congrArg UInt32.toNat zero
      omega
    bitmapLen := offsets.bitmapLen
    header_bitmap := Nat.le_of_eq offsets.bitmapOffset.symm
    bitmap_entries := by rw [offsets.fileTableOffset, offsets.bitmapOffset]
    entries_recipients := Nat.le_of_eq offsets.recipientOffset.symm
    recipients_records := Nat.le_of_eq offsets.chainOffset.symm
    records_blocks := Nat.le_of_eq offsets.dataOffset.symm
    data := offsets.small.trans (by decide) }

end NewHeader

/-! ## The written regions -/

/-- The disk of a container without files and recipients, whose chain holds one record. -/
def emptyDisk (h : Header) (genesis : ChainRecord) : Disk where
  header := h
  bitmap := (BlockAllocator.new h.blockCount).bits
  entries := fun _ => FileEntry.empty
  recipients := fun _ => RecipientSlot.empty
  records := fun idx => if idx = 0 then some genesis else none
  blocks := fun _ => none

omit [Primitives] in
/-- The name of an empty slot fits. -/
theorem emptyEntry_fits : (utf8 FileEntry.empty.name).length ≤ maxFilenameLen := by
  change (utf8 "").length ≤ 128
  decide

omit [Primitives] in
/-- The key of an empty slot fits. -/
theorem emptyRecipient_fits : RecipientSlot.empty.wrappedDek.length ≤ wrappedDekLen :=
  Nat.zero_le _

omit [Primitives] in
/-- A slot that was never used is vacant. -/
theorem emptyEntry_vacant : FileEntry.empty.isOccupied = false := by decide

omit [Primitives] in
/-- Nobody is granted access to a new vault. -/
theorem emptyDisk_vacant (h h' : Header) (genesis : ChainRecord) (idx : Nat) :
    ¬ (emptyDisk h genesis).Occupies h' idx := by
  rintro ⟨_, occupied⟩
  have vacant : RecipientSlot.empty.isOccupied = false := by decide
  exact Bool.false_ne_true (vacant.symm.trans occupied)

/-- The tables of a new container, as lists of slots. -/
structure NewTables (h : Header) (genesis : ChainRecord) (regions : Bytes) : Prop where
  split : ∃ entries recipients records : List Bytes,
    regions = h.image ++ ((BlockAllocator.new h.blockCount).bits ++
      (entries.flatten ++ (recipients.flatten ++ records.flatten))) ∧
    entries = List.replicate h.maxFiles.toNat FileEntry.empty.image ∧
    recipients = List.replicate h.maxRecipients.toNat RecipientSlot.empty.image ∧
    records = genesis.encode :: List.replicate (h.maxChainRecords.toNat - 1)
      (List.replicate chainRecordSizeConst.toNat 0)

/-- The regions of a new container are written. -/
theorem newRegions_eq {h : Header} (encodable : h.Encodable) (genesis : ChainRecord) :
    ∃ regions, newRegions h genesis = .ok regions ∧ NewTables h genesis regions := by
  have entry : FileEntry.emptySlot = .ok FileEntry.empty.image :=
    FileEntry.empty.encode_eq emptyEntry_fits
  have recipient : RecipientSlot.emptySlot = .ok RecipientSlot.empty.image :=
    RecipientSlot.empty.encode_eq emptyRecipient_fits
  refine ⟨_, ?_, ⟨_, _, _, rfl, rfl, rfl, rfl⟩⟩
  unfold newRegions
  rw [except_bind_of_ok (h.encode_eq encodable), except_bind_of_ok entry,
    except_bind_of_ok recipient]
  simp only [List.append_assoc, List.flatten_cons]
  rfl

omit [Primitives] in
/-- A slot of a table that is one of the parts of an image. -/
private theorem readAt_table {before after : Bytes} {items : List Bytes} {base width idx : Nat}
    {item : Bytes} (starts : before.length = base)
    (equal : ∀ item ∈ items, item.length = width) (found : items[idx]? = some item) :
    readAt (before ++ (items.flatten ++ after)) (base + idx * width) width = some item := by
  obtain ⟨below, rfl⟩ := List.getElem?_eq_some_iff.mp found
  have inside : (Extent.slot 0 width idx).stop ≤ 0 + items.length * width :=
    Extent.slot_stop_le below
  refine readAt_middle starts ?_ (readAt_flatten equal below)
  rw [length_flatten_of_equal equal]
  change 0 + idx * width + width ≤ _ at inside
  omega

/-- A file that starts with the regions of a new container tracks its empty disk. -/
theorem newTables_tracks {h : Header} (layout : Layout h) (offsets : NewOffsets h)
    {genesis : ChainRecord} {regions : Bytes} (tables : NewTables h genesis regions)
    (rest : Bytes) : Tracks h (regions ++ rest) (emptyDisk h genesis) := by
  obtain ⟨entries, recipients, records, rfl, entriesIs, recipientsIs, recordsIs⟩ := tables.split
  have entrySizes : ∀ item ∈ entries, item.length = entrySizeConst.toNat := by
    intro item member
    rw [entriesIs] at member
    rw [List.eq_of_mem_replicate member]
    exact FileEntry.empty.length_image emptyEntry_fits
  have recipientSizes : ∀ item ∈ recipients, item.length = recipientSlotSizeConst.toNat := by
    intro item member
    rw [recipientsIs] at member
    rw [List.eq_of_mem_replicate member]
    exact RecipientSlot.empty.length_image emptyRecipient_fits
  have recordSizes : ∀ item ∈ records, item.length = chainRecordSizeConst.toNat := by
    intro item member
    rw [recordsIs] at member
    rcases List.mem_cons.mp member with rfl | zeros
    · exact genesis.length_encode
    · rw [List.eq_of_mem_replicate zeros]
      exact List.length_replicate
  have headerLength := h.length_image layout.encodable
  have bitmapLength : (BlockAllocator.new h.blockCount).bits.length = h.bitmapLen.toNat := by
    rw [(BlockAllocator.new h.blockCount).sized, offsets.bitmapLen]
    rfl
  have entriesLength := length_flatten_of_equal entrySizes
  have recipientsLength := length_flatten_of_equal recipientSizes
  rw [entriesIs, List.length_replicate, ← entriesIs] at entriesLength
  rw [recipientsIs, List.length_replicate, ← recipientsIs] at recipientsLength
  have bitmapStart := offsets.bitmapOffset
  have entriesStart := offsets.fileTableOffset
  have recipientsStart := offsets.recipientOffset
  have recordsStart := offsets.chainOffset
  refine ⟨layout, ?_, fun idx made held => by cases held⟩
  intro region valid shown
  simp only [List.append_assoc]
  cases region with
  | header =>
      refine ⟨h.image, ?_, rfl, layout.encodable, layout.structured⟩
      change readAt _ 0 headerSize = _
      rw [readAt_append_left (by omega), ← headerLength]
      exact readAt_self h.image
  | bitmap =>
      refine ⟨(BlockAllocator.new h.blockCount).bits, ?_, rfl⟩
      change readAt _ (h.bitmapOffset.toNat + 0) h.bitmapLen.toNat = _
      rw [← bitmapLength]
      exact readAt_middle (by omega) (by omega) (readAt_self _)
  | entry idx =>
      have found : entries[idx]? = some FileEntry.empty.image := by
        rw [entriesIs]
        exact List.getElem?_replicate_of_lt valid
      refine ⟨FileEntry.empty.image, ?_, rfl, emptyEntry_fits⟩
      rw [← List.append_assoc]
      exact readAt_table (by rw [List.length_append]; omega) entrySizes found
  | recipient idx =>
      have found : recipients[idx]? = some RecipientSlot.empty.image := by
        rw [recipientsIs]
        exact List.getElem?_replicate_of_lt valid
      refine ⟨RecipientSlot.empty.image, ?_, rfl, emptyRecipient_fits⟩
      rw [← List.append_assoc, ← List.append_assoc]
      exact readAt_table (by simp only [List.length_append]; omega) recipientSizes found
  | record idx =>
      rw [← List.append_assoc, ← List.append_assoc, ← List.append_assoc]
      have starts : (h.image ++ (BlockAllocator.new h.blockCount).bits ++ entries.flatten ++
          recipients.flatten).length = h.chainOffset.toNat := by
        simp only [List.length_append]
        omega
      by_cases first : idx = 0
      · have found : records[idx]? = some genesis.encode := by
          rw [recordsIs, first]
          rfl
        refine ⟨genesis.encode, readAt_table starts recordSizes found, ?_⟩
        have decoded := genesis.decode_encode []
        rw [List.append_nil] at decoded
        change _ = Except.ok (if idx = 0 then some genesis else none)
        rw [decoded, if_pos first]
      · have found : records[idx]? = some (List.replicate chainRecordSizeConst.toNat 0) := by
          obtain ⟨earlier, rfl⟩ := Nat.exists_eq_succ_of_ne_zero first
          rw [recordsIs, List.getElem?_cons_succ]
          exact List.getElem?_replicate_of_lt (Nat.lt_sub_of_add_lt valid)
        refine ⟨_, readAt_table starts recordSizes found, ?_⟩
        change _ = Except.ok (if idx = 0 then some genesis else none)
        rw [ChainRecord.decode_zero, if_neg first]
  | block idx => exact absurd rfl shown

/-- A new file starts with its regions. -/
theorem newFile_tracks {h : Header} (layout : Layout h) (offsets : NewOffsets h)
    {genesis : ChainRecord} {file : Bytes} (made : newFile h genesis = .ok file) :
    h.totalContainerSize.toNat ≤ ioLimit ∧ Tracks h file (emptyDisk h genesis) := by
  obtain ⟨regions, regionsIs, tables⟩ := newRegions_eq layout.encodable genesis
  unfold newFile at made
  split at made
  · cases made
  · rename_i sized
    rw [except_bind_of_ok regionsIs] at made
    split at made
    · cases made
    · cases made
      refine ⟨Nat.le_of_not_lt sized, ?_⟩
      rw [writeAt_zero]
      exact newTables_tracks layout offsets tables _

/-- What a new container and its handle are. -/
structure Created (v : Vault) (name description : String) (capacityBytes : UInt64)
    (password : String) (admin : Identity) (draws : Draws) : Prop where
  header : ∃ slot, v.header = newHeader name description capacityBytes
    (newMaxFiles capacityBytes) (newMaxChainRecords (newMaxFiles capacityBytes)) slot
    admin.peerId (genesisRecord name description capacityBytes admin draws) draws
  sized : v.header.totalContainerSize.toNat ≤ ioLimit
  allocator : v.allocator = BlockAllocator.new v.header.blockCount
  adminIdentity : v.adminIdentity = some admin
  key : v.key = draws.dek
  changeLog : v.changeLog = []
  seals : v.seals = []
  sound : Sound v (emptyDisk v.header (genesisRecord name description capacityBytes admin draws))
    fun _ => none
  keyring : Keyring v
    (emptyDisk v.header (genesisRecord name description capacityBytes admin draws)) password []

/-- **Creation** yields a sound vault without files or recipients. -/
theorem create_spec [Lawful] {v : Vault} {name description : String} {capacityBytes : UInt64}
    {password : String} {admin : Identity} {draws : Draws}
    (created : create name description capacityBytes password admin draws = .ok v) :
    Created v name description capacityBytes password admin draws := by
  unfold create at created
  split at created
  · cases created
  · rename_i nameFits
    split at created
    · cases created
    · rename_i descriptionFits
      split at created
      · cases created
      · rename_i blocks
        obtain ⟨kek, derived, created⟩ := except_bind_eq_ok_iff.mp created
        obtain ⟨slot, encrypted, created⟩ := except_bind_eq_ok_iff.mp created
        split at created
        · cases created
        · rename_i slotFits
          obtain ⟨file, made, created⟩ := except_bind_eq_ok_iff.mp created
          cases created
          have files := newMaxFiles_bounds capacityBytes
          have records := newMaxChainRecords_bounds (newMaxFiles capacityBytes)
          have layout := newHeader_layout name description capacityBytes slot admin.peerId
            (genesisRecord name description capacityBytes admin draws) draws files.2 records
            (Nat.le_of_not_lt nameFits) (Nat.le_of_not_lt descriptionFits)
            (Nat.le_of_not_lt slotFits) blocks
          obtain ⟨sized, tracks⟩ := newFile_tracks layout
            (newHeader_offsets name description capacityBytes slot admin.peerId _ draws files.2
              records.2) made
          exact {
            header := ⟨slot, rfl⟩
            sized := sized
            allocator := rfl
            adminIdentity := rfl
            key := rfl
            changeLog := rfl
            seals := rfl
            sound := {
              tracks := tracks
              counted := rfl
              shown := fun idx file found => by cases found
              stored := fun idx file found => by cases found
              named := fun idx idx' file file' found => by cases found
              owned := by
                rw [BlockAllocator.occupied_new]
                exact Owns.empty
              header := rfl
              bitmap := rfl
              vacant := fun idx _ _ => emptyEntry_vacant }
            keyring := {
              password := ⟨kek, draws.slotNonce, derived, encrypted⟩
              wraps := fun idx occupies => absurd occupies (emptyDisk_vacant _ _ _ idx)
              distinct := fun idx idx' occupies => absurd occupies (emptyDisk_vacant _ _ _ idx)
              granted := fun peer => by
                constructor
                · rintro ⟨idx, occupies, _⟩
                  exact absurd occupies (emptyDisk_vacant _ _ _ idx)
                · exact fun member => absurd member List.not_mem_nil } }

omit [Primitives] in
/-- The size of a container is computed as it is when it fits in 64 bits. -/
theorem toNat_totalContainerSize {h : Header} (small : h.Sized) :
    h.totalContainerSize.toNat =
      h.dataOffset.toNat + h.blockCount.toNat * h.blockSize.toNat := by
  unfold Header.Sized at small
  have product : (h.blockCount * h.blockSize.toUInt64).toNat =
      h.blockCount.toNat * h.blockSize.toNat := by
    rw [UInt64.toNat_mul, UInt32.toNat_toUInt64, Nat.mod_eq_of_lt (by omega)]
  unfold Header.totalContainerSize
  rw [toNat_add_small (by rw [product]; exact small), product]

omit [Primitives] in
/-- In a container whose size fits in 64 bits every block lies within the file offsets. -/
theorem fits_of_sized {h : Header} (sized : h.totalContainerSize.toNat ≤ ioLimit)
    (small : h.Sized) : h.Fits := by
  intro block below
  rw [toNat_totalContainerSize small] at sized
  exact ⟨below, (Extent.slot_stop_le (UInt64.lt_iff_toNat_lt.mp below)).trans sized⟩

/-- A new container has its full size. -/
theorem length_of_create {name description : String} {capacityBytes : UInt64}
    {password : String} {admin : Identity} {draws : Draws} {v : Vault}
    (created : create name description capacityBytes password admin draws = .ok v) :
    v.header.totalContainerSize.toNat ≤ v.file.length := by
  unfold create at created
  split at created
  · cases created
  split at created
  · cases created
  split at created
  · cases created
  obtain ⟨kek, _, created⟩ := except_bind_eq_ok_iff.mp created
  obtain ⟨slot, _, created⟩ := except_bind_eq_ok_iff.mp created
  split at created
  · cases created
  obtain ⟨file, made, created⟩ := except_bind_eq_ok_iff.mp created
  cases created
  unfold newFile at made
  split at made
  · cases made
  obtain ⟨regions, _, made⟩ := except_bind_eq_ok_iff.mp made
  split at made
  · cases made
  cases made
  refine Nat.le_trans (Nat.le_of_eq ?_) (length_writeAt_le _ 0 regions)
  rw [List.length_replicate]

/-- The regions of a new container end where its blocks start. -/
theorem NewTables.length_eq {h : Header} (layout : Layout h) (offsets : NewOffsets h)
    {genesis : ChainRecord} {regions : Bytes} (tables : NewTables h genesis regions) :
    regions.length = h.dataOffset.toNat := by
  obtain ⟨entries, recipients, records, rfl, rfl, rfl, rfl⟩ := tables.split
  have positive : 0 < h.maxChainRecords.toNat :=
    Nat.pos_of_ne_zero fun zero => layout.chainRecords (UInt32.toNat_inj.mp zero)
  have headerLength := h.length_image layout.encodable
  have bitmapLength : (BlockAllocator.new h.blockCount).bits.length = h.bitmapLen.toNat := by
    rw [(BlockAllocator.new h.blockCount).sized, offsets.bitmapLen]
    rfl
  have replicated : ∀ (count : Nat) (item : Bytes),
      (List.replicate count item).flatten.length = count * item.length := fun count item => by
    rw [length_flatten_of_equal fun other member =>
      congrArg List.length (List.eq_of_mem_replicate member), List.length_replicate]
  have recordsLength : h.maxChainRecords.toNat * 224 =
      224 + (h.maxChainRecords.toNat - 1) * 224 := by omega
  rw [List.length_append, List.length_append, List.length_append, List.length_append,
    List.flatten_cons, List.length_append, replicated, replicated, replicated, headerLength,
    bitmapLength, FileEntry.empty.length_image emptyEntry_fits,
    RecipientSlot.empty.length_image emptyRecipient_fits, genesis.length_encode,
    List.length_replicate, offsets.dataOffset, offsets.chainOffset, offsets.recipientOffset,
    offsets.fileTableOffset]
  change _ = 1024 + h.bitmapLen.toNat + h.maxFiles.toNat * 320 + h.maxRecipients.toNat * 192 +
    h.maxChainRecords.toNat * 224
  change 1024 + (h.bitmapLen.toNat + (h.maxFiles.toNat * 320 + (h.maxRecipients.toNat * 192 +
    (224 + (h.maxChainRecords.toNat - 1) * 224)))) = _
  omega

/-- What creation comes to for fitting texts, a password from which a key derives, and a
capacity of at least one block: its size may be beyond the largest file offset, else it writes
the regions of the computed header. -/
theorem create_eq [Lawful] {name description : String} {capacityBytes : UInt64}
    {password : String} (admin : Identity) {draws : Draws}
    (nameFits : (utf8 name).length ≤ maxNameLen)
    (descriptionFits : (utf8 description).length ≤ maxDescLen)
    (blocks : capacityBytes / defaultBlockSize.toUInt64 ≠ 0)
    {kek : MasterKey} (derives : argon2id (utf8 password) draws.salt Argon2Params.default =
      some kek) :
    ∃ slot h regions, h = newHeader name description capacityBytes (newMaxFiles capacityBytes)
        (newMaxChainRecords (newMaxFiles capacityBytes)) slot admin.peerId
        (genesisRecord name description capacityBytes admin draws) draws ∧
      Layout h ∧ NewOffsets h ∧ regions.length = h.dataOffset.toNat ∧
      create name description capacityBytes password admin draws =
        if h.totalContainerSize.toNat > ioLimit then .error (.error .io)
        else .ok
          { file := Foundation.writeAt (List.replicate h.totalContainerSize.toNat 0) 0 regions
            header := h, allocator := BlockAllocator.new h.blockCount, key := draws.dek
            adminIdentity := some admin, changeLog := [], seals := [] } := by
  have derived : MasterKey.derive (utf8 password) draws.salt Argon2Params.default = .ok kek :=
    MasterKey.derive_eq_ok_iff.mpr derives
  obtain ⟨slot, encrypted, slotSize, _⟩ :=
    encryptRandomNonce_spec kek draws.slotNonce draws.dek adminKeySlotAad
  have slotFits : slot.length ≤ adminKeySlotLen := by
    rw [slotSize]
    decide
  have files := newMaxFiles_bounds capacityBytes
  have records := newMaxChainRecords_bounds (newMaxFiles capacityBytes)
  generalize genesisIs : genesisRecord name description capacityBytes admin draws = genesis
  have layout := newHeader_layout name description capacityBytes slot admin.peerId genesis draws
    files.2 records nameFits descriptionFits slotFits blocks
  have offsets := newHeader_offsets name description capacityBytes slot admin.peerId genesis draws
    files.2 records.2
  obtain ⟨regions, regionsIs, tables⟩ := newRegions_eq layout.encodable genesis
  have sized := tables.length_eq layout offsets
  refine ⟨slot, _, regions, rfl, layout, offsets, sized, ?_⟩
  unfold create
  rw [if_neg (Nat.not_lt.mpr nameFits), if_neg (Nat.not_lt.mpr descriptionFits),
    if_neg blocks, except_bind_of_ok derived, except_bind_of_ok encrypted,
    if_neg (Nat.not_lt.mpr slotFits), genesisIs]
  dsimp only
  unfold newFile
  generalize newHeader name description capacityBytes (newMaxFiles capacityBytes)
    (newMaxChainRecords (newMaxFiles capacityBytes)) slot admin.peerId genesis draws = h
    at regionsIs sized offsets
  have start := offsets.small
  split
  · rfl
  · rw [except_bind_of_ok regionsIs, if_neg (by unfold ioLimit; omega)]
    rfl

/-- Creation succeeds for fitting texts, a password from which a key derives, and a
capacity of at least one block that leaves room below the largest file offset. -/
theorem create_total [Lawful] {name description : String} {capacityBytes : UInt64}
    {password : String} (admin : Identity) {draws : Draws}
    (nameFits : (utf8 name).length ≤ maxNameLen)
    (descriptionFits : (utf8 description).length ≤ maxDescLen)
    (large : 4096 ≤ capacityBytes.toNat) (small : capacityBytes.toNat ≤ 2 ^ 62)
    {kek : MasterKey} (derives : argon2id (utf8 password) draws.salt Argon2Params.default =
      some kek) :
    ∃ v, create name description capacityBytes password admin draws = .ok v ∧
      v.header.Sized := by
  have quotient : (capacityBytes / defaultBlockSize.toUInt64).toNat =
      capacityBytes.toNat / 4096 := UInt64.toNat_div ..
  have blocks : capacityBytes / defaultBlockSize.toUInt64 ≠ 0 := by
    intro zero
    rw [zero] at quotient
    change 0 = _ at quotient
    omega
  obtain ⟨slot, h, regions, headerIs, _, offsets, _, made⟩ :=
    create_eq admin nameFits descriptionFits blocks derives
  have data : h.blockCount.toNat * h.blockSize.toNat ≤ 2 ^ 62 := by
    rw [headerIs]
    change (capacityBytes / defaultBlockSize.toUInt64).toNat * 4096 ≤ _
    rw [quotient]
    omega
  have start := offsets.small
  have small : h.Sized := by
    unfold Header.Sized
    omega
  have total := toNat_totalContainerSize small
  rw [if_neg (by unfold ioLimit; omega)] at made
  exact ⟨_, made, small⟩

end Vault

namespace Transparent

/-- An identity of its own for every number. -/
def identity (number : UInt8) : Identity where
  signing := digest 32 [number]
  encryption := digest 32 [number]

/-- Draws of its own for every number. -/
def draws (number : UInt8) : Draws where
  slotTime := 0
  recordTime := 0
  fileId := BitVec.ofNat 128 number.toNat
  salt := zeroArr saltLen
  dek := digest keyLen [number]
  slotNonce := zeroArr nonceLen
  wraps := fun _ => (zeroArr 32, zeroArr nonceLen)

/-- A container of sixteen blocks. -/
theorem exists_container : ∃ origin,
    Vault.create "v" "" 65536 "p" (identity 1) (draws 1) = .ok origin ∧ origin.header.Sized :=
  Vault.create_total (identity 1) (by decide) (by decide) (by decide) (by decide) rfl

end Transparent

end ReVault
