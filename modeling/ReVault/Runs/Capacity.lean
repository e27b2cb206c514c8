import ReVault.Core.HeaderLayout
import ReVault.Runs.Creation

/-!
# The capacity of a new container

The header of a new container is computed in 64-bit arithmetic. Its offsets are exact for every
capacity, but the size of the container is not: from a capacity of 2^64 - 562932779057152 bytes on
it wraps, and a file that ends where its blocks start is created without an error.
-/

namespace ReVault

open Foundation Primitives

namespace Vault

/-- The first capacity at which the blocks of a new container end past the 64-bit numbers. -/
def capacityLimit : Nat := 2 ^ 64 - 562932779057152

/-! ## The tables of a large container -/

/-- A large capacity has the largest file table. -/
theorem newMaxFiles_of_large {capacityBytes : UInt64} (large : 2 ^ 26 ≤ capacityBytes.toNat) :
    newMaxFiles capacityBytes = 4096 := by
  have quotient : (capacityBytes / (16 * 1024)).toNat = capacityBytes.toNat / 16384 :=
    UInt64.toNat_div ..
  have high : ¬ capacityBytes / (16 * 1024) < 4096 := by
    rw [UInt64.lt_iff_toNat_lt, quotient]
    change ¬ _ < 4096
    omega
  have low : ¬ capacityBytes / (16 * 1024) < 4 := by
    rw [UInt64.lt_iff_toNat_lt, quotient]
    change ¬ _ < 4
    omega
  unfold newMaxFiles clamp
  rw [if_neg low]
  split
  · rfl
  · rename_i notAbove
    have exactly : capacityBytes / (16 * 1024) = 4096 :=
      UInt64.le_antisymm (UInt64.not_lt.mp notAbove) (UInt64.not_lt.mp high)
    rw [exactly]
    rfl

section NewHeader

variable {name description : String} {capacityBytes : UInt64} {slot : Bytes} {admin : PeerId}
  {genesis : ChainRecord} {draws : Draws} {h : Header}
  (headerIs : h = newHeader name description capacityBytes (newMaxFiles capacityBytes)
    (newMaxChainRecords (newMaxFiles capacityBytes)) slot admin genesis draws)

include headerIs

/-- There is a block for every 4096 bytes of the capacity. -/
theorem blockCount_of_newHeader : h.blockCount.toNat = capacityBytes.toNat / 4096 := by
  rw [headerIs]
  exact UInt64.toNat_div ..

/-- The blocks of a new container start after its regions. -/
theorem dataOffset_of_newHeader (offsets : NewOffsets h) : h.dataOffset.toNat =
    1024 + (capacityBytes.toNat / 4096 + 7) / 8 + (newMaxFiles capacityBytes).toNat * 320 +
      16 * 192 + (newMaxChainRecords (newMaxFiles capacityBytes)).toNat * 224 := by
  have bitmap := offsets.bitmapLen
  unfold bitmapLenBytes at bitmap
  rw [blockCount_of_newHeader headerIs] at bitmap
  rw [offsets.dataOffset, offsets.chainOffset, offsets.recipientOffset, offsets.fileTableOffset,
    bitmap, headerIs]
  rfl

/-- The size of a new container fits in 64 bits exactly below the capacity limit. -/
theorem sized_iff_of_newHeader (offsets : NewOffsets h) :
    h.Sized ↔ capacityBytes.toNat < capacityLimit := by
  have files := newMaxFiles_bounds capacityBytes
  have records := newMaxChainRecords_bounds (newMaxFiles capacityBytes)
  have start := dataOffset_of_newHeader headerIs offsets
  have blockSize : h.blockSize.toNat = 4096 := by
    rw [headerIs]
    rfl
  unfold Header.Sized capacityLimit
  rw [start, blockCount_of_newHeader headerIs, blockSize]
  constructor
  · intro small
    by_contra large
    rw [newMaxFiles_of_large (by omega)] at small
    change 1024 + (capacityBytes.toNat / 4096 + 7) / 8 + 4096 * 320 + 16 * 192 + 16384 * 224 +
      capacityBytes.toNat / 4096 * 4096 < 2 ^ 64 at small
    omega
  · intro below
    omega

/-- The lengths of the tables are exact. -/
theorem lengths_of_newHeader : h.fileTableLen.toNat = h.maxFiles.toNat * h.entrySize.toNat ∧
    h.recipientLen.toNat = h.maxRecipients.toNat * h.recipientSlotSize.toNat ∧
    h.chainLen.toNat = h.maxChainRecords.toNat * h.chainRecordSize.toNat := by
  have files := newMaxFiles_bounds capacityBytes
  have records := newMaxChainRecords_bounds (newMaxFiles capacityBytes)
  have entries : (newMaxFiles capacityBytes).toNat * 320 < 2 ^ 64 := by omega
  have ring : (newMaxChainRecords (newMaxFiles capacityBytes)).toNat * 224 < 2 ^ 64 := by omega
  have slots : (maxRecipientsConst.toUInt64 * recipientSlotSizeConst.toUInt64).toNat =
      maxRecipientsConst.toNat * recipientSlotSizeConst.toNat := toNat_mul_small (by decide)
  rw [headerIs]
  exact ⟨toNat_mul_small entries, slots, toNat_mul_small ring⟩

/-- The layout of a new container is well formed when its size fits in 64 bits. -/
theorem wellFormed_of_newHeader (layout : Layout h) (offsets : NewOffsets h) (small : h.Sized) :
    h.WellFormed := by
  obtain ⟨files, recipients, records⟩ := lengths_of_newHeader headerIs
  have sizes := (⟨layout.entrySize, layout.recipientSlotSize, layout.chainRecordSize⟩ :
    h.entrySize = entrySizeConst ∧ h.recipientSlotSize = recipientSlotSizeConst ∧
      h.chainRecordSize = chainRecordSizeConst)
  rw [sizes.1] at files
  rw [sizes.2.1] at recipients
  rw [sizes.2.2] at records
  exact {
    bitmap := layout.header_bitmap
    entries := layout.bitmap_entries
    recipients := by
      rw [files]
      exact layout.entries_recipients
    records := by
      rw [recipients]
      exact layout.recipients_records
    blocks := by
      rw [records]
      exact layout.records_blocks
    stop := small
    counted := {
      capacity := by
        rw [headerIs]
        exact UInt64.toNat_div ..
      bits := Nat.le_of_eq offsets.bitmapLen.symm
      entries := by rw [files, sizes.1]
      recipients := by rw [recipients, sizes.2.1]
      records := by rw [records, sizes.2.2] } }

end NewHeader

/-! ## What creation comes to -/

variable [Primitives]

/-- A new container has the regions of its header one after the other and its full size, and
its header is read back. -/
structure LaidOut (capacityBytes : UInt64) (v : Vault) : Prop where
  capacity : v.header.capacityBytes = capacityBytes
  formed : v.header.WellFormed
  offsets : NewOffsets v.header
  total : v.header.totalContainerSize.toNat =
    v.header.dataOffset.toNat + v.header.blockCount.toNat * v.header.blockSize.toNat
  length : v.file.length =
    v.header.dataOffset.toNat + v.header.blockCount.toNat * v.header.blockSize.toNat
  readBack : ∃ image, v.header.encode = .ok image ∧ image.length = headerSize ∧
    ∀ after, Header.decode (image ++ after) = .ok v.header

/-- An error is returned, or a container that is laid out exactly. -/
def Exactly (capacityBytes : UInt64) (result : Except Fault Vault) : Prop :=
  (∃ reason, result = .error (.error reason)) ∨
    ∃ v, result = .ok v ∧ v.LaidOut capacityBytes

omit [Primitives] in
/-- A size that does not fit in 64 bits is computed as one that is too small, and small enough
for a file. -/
theorem totalContainerSize_of_not_sized {h : Header} (layout : Layout h) (offsets : NewOffsets h)
    (large : ¬ h.Sized) : h.totalContainerSize.toNat ≤ ioLimit ∧
      h.totalContainerSize.toNat < h.dataOffset.toNat + h.blockCount.toNat * h.blockSize.toNat := by
  have start := offsets.small
  have data := layout.structured.dataLen
  unfold Header.Sized at large
  have product : (h.blockCount * h.blockSize.toUInt64).toNat =
      h.blockCount.toNat * h.blockSize.toNat := by
    rw [UInt64.toNat_mul, UInt32.toNat_toUInt64, Nat.mod_eq_of_lt (by omega)]
  unfold Header.totalContainerSize ioLimit
  rw [UInt64.toNat_add, product]
  omega

/-- What creating comes to, with a password that a key can be derived from. -/
theorem exactly_of_derives [Lawful] {name description : String} {capacityBytes : UInt64}
    {password : String} (admin : Identity) {draws : Draws}
    (nameFits : (utf8 name).length ≤ maxNameLen)
    (descriptionFits : (utf8 description).length ≤ maxDescLen) {kek : MasterKey}
    (derives : argon2id (utf8 password) draws.salt Argon2Params.default = some kek) :
    Exactly capacityBytes (create name description capacityBytes password admin draws) ↔
      capacityBytes.toNat < capacityLimit := by
  by_cases blocks : capacityBytes / defaultBlockSize.toUInt64 = 0
  · have refused : create name description capacityBytes password admin draws =
        .error (.error .capacityTooSmall) := by
      unfold create
      rw [if_neg (Nat.not_lt.mpr nameFits), if_neg (Nat.not_lt.mpr descriptionFits), if_pos blocks]
    have quotient : (capacityBytes / defaultBlockSize.toUInt64).toNat =
        capacityBytes.toNat / 4096 := UInt64.toNat_div ..
    rw [blocks] at quotient
    change 0 = _ at quotient
    refine iff_of_true (Or.inl ⟨_, refused⟩) ?_
    unfold capacityLimit
    omega
  · obtain ⟨slot, h, regions, headerIs, layout, offsets, sized, made⟩ :=
      create_eq admin nameFits descriptionFits blocks derives
    rw [← sized_iff_of_newHeader headerIs offsets, made]
    constructor
    · rintro (⟨reason, failed⟩ | ⟨v, returned, laidOut⟩)
      · by_contra large
        rw [if_neg (Nat.not_lt.mpr (totalContainerSize_of_not_sized layout offsets large).1)]
          at failed
        cases failed
      · split at returned
        · cases returned
        · cases returned
          exact laidOut.formed.stop
    · intro small
      have total := toNat_totalContainerSize small
      split
      · exact Or.inl ⟨_, rfl⟩
      · refine Or.inr ⟨_, rfl, ?_⟩
        exact {
          capacity := by
            rw [headerIs]
            rfl
          formed := wellFormed_of_newHeader headerIs layout offsets small
          offsets := offsets
          total := total
          length := by
            rw [writeAt_zero, List.length_append, List.length_drop, List.length_replicate, total,
              sized]
            exact Nat.add_sub_of_le (Nat.le_add_right _ _)
          readBack := ⟨h.image, h.encode_eq layout.encodable, h.length_image layout.encodable,
            h.decode_image layout.encodable layout.structured⟩ }

/-- **Capacity.** Whatever the capacity, creation returns an error or a container that is laid
out exactly, as long as the capacity is below the limit or no key derives from the password. -/
theorem creates_exactly_iff [Lawful] {name description : String} (capacityBytes : UInt64)
    (password : String) (admin : Identity) (draws : Draws)
    (nameFits : (utf8 name).length ≤ maxNameLen)
    (descriptionFits : (utf8 description).length ≤ maxDescLen) :
    Exactly capacityBytes (create name description capacityBytes password admin draws) ↔
      capacityBytes.toNat < capacityLimit ∨
        argon2id (utf8 password) draws.salt Argon2Params.default = none := by
  cases derives : argon2id (utf8 password) draws.salt Argon2Params.default with
  | some kek =>
      rw [exactly_of_derives admin nameFits descriptionFits derives]
      simp only [reduceCtorEq, or_false]
  | none =>
      refine iff_of_true (Or.inl ?_) (Or.inr rfl)
      unfold create
      rw [if_neg (Nat.not_lt.mpr nameFits), if_neg (Nat.not_lt.mpr descriptionFits)]
      split
      · exact ⟨_, rfl⟩
      · refine ⟨.cryptoFailure, ?_⟩
        unfold MasterKey.derive
        rw [derives]
        rfl

end Vault

namespace Transparent

/-- The condition for a capacity of 64 KiB. -/
theorem creates_exactly_iff_small :
    Vault.Exactly 65536 (Vault.create "v" "" 65536 "p" (identity 1) (draws 1)) ↔
      (65536 : UInt64).toNat < Vault.capacityLimit ∨
        Primitives.argon2id (utf8 "p") (draws 1).salt Argon2Params.default = none :=
  Vault.creates_exactly_iff 65536 "p" (identity 1) (draws 1) (by decide) (by decide)

/-- The largest capacity gives a container that is too small, without an error. -/
theorem oversized_container_created : ¬ Vault.Exactly 18446744073709551615
    (Vault.create "v" "" 18446744073709551615 "p" (identity 1) (draws 1)) := by
  intro exactly
  have below := (Vault.exactly_of_derives (identity 1) (by decide) (by decide) rfl).mp exactly
  exact absurd below (by decide)

end Transparent

end ReVault
