import ReVault.Core.Vault
import ReVault.Core.FormatRoundTrip
import ReVault.Foundation.Extent

/-!
# The layout of a container

The regions of a container and where a header puts them. In a sound layout the
regions are pairwise disjoint, and the 64-bit offsets that the operations compute
are the true ones.
-/

namespace ReVault

open Foundation

/-- The separately written parts of a container. -/
inductive Region where
  | header
  | bitmap
  | entry (idx : Nat)
  | recipient (idx : Nat)
  | record (idx : Nat)
  | block (idx : UInt64)
  deriving DecidableEq

namespace Region

/-- Where a header puts a region. -/
def extent (h : Header) : Region → Extent
  | header => ⟨0, headerSize⟩
  | bitmap => ⟨h.bitmapOffset.toNat, h.bitmapLen.toNat⟩
  | entry idx => Extent.slot h.fileTableOffset.toNat entrySizeConst.toNat idx
  | recipient idx => Extent.slot h.recipientOffset.toNat recipientSlotSizeConst.toNat idx
  | record idx => Extent.slot h.chainOffset.toNat chainRecordSizeConst.toNat idx
  | block idx => Extent.slot h.dataOffset.toNat h.blockSize.toNat idx.toNat

/-- The regions a container has. A block past the largest file offset is not one. -/
def Valid (h : Header) : Region → Prop
  | header | bitmap => True
  | entry idx => idx < h.maxFiles.toNat
  | recipient idx => idx < h.maxRecipients.toNat
  | record idx => idx < h.maxChainRecords.toNat
  | block idx => idx < h.blockCount ∧
      (Extent.slot h.dataOffset.toNat h.blockSize.toNat idx.toNat).stop ≤ ioLimit

/-- The zones of a container, in the order of their offsets. -/
def zone : Region → Nat
  | header => 0
  | bitmap => 1
  | entry _ => 2
  | recipient _ => 3
  | record _ => 4
  | block _ => 5

end Region

/-- A header whose regions follow one another within the file offsets, with slots
of the sizes the encoders write. -/
structure Layout (h : Header) : Prop where
  encodable : h.Encodable
  structured : h.Structured
  entrySize : h.entrySize = entrySizeConst
  recipientSlotSize : h.recipientSlotSize = recipientSlotSizeConst
  chainRecordSize : h.chainRecordSize = chainRecordSizeConst
  blockSize : 40 ≤ h.blockSize.toNat
  chainRecords : h.maxChainRecords ≠ 0
  bitmapLen : h.bitmapLen.toNat = bitmapLenBytes h.blockCount
  header_bitmap : headerSize ≤ h.bitmapOffset.toNat
  bitmap_entries : h.bitmapOffset.toNat + h.bitmapLen.toNat ≤ h.fileTableOffset.toNat
  entries_recipients : h.fileTableOffset.toNat + h.maxFiles.toNat * entrySizeConst.toNat ≤
    h.recipientOffset.toNat
  recipients_records : h.recipientOffset.toNat +
    h.maxRecipients.toNat * recipientSlotSizeConst.toNat ≤ h.chainOffset.toNat
  records_blocks : h.chainOffset.toNat +
    h.maxChainRecords.toNat * chainRecordSizeConst.toNat ≤ h.dataOffset.toNat
  data : h.dataOffset.toNat ≤ ioLimit

namespace Layout

variable {h : Header}

/-- The first offset of each zone. -/
def zoneStart (h : Header) : Nat → Nat
  | 0 => 0
  | 1 => h.bitmapOffset.toNat
  | 2 => h.fileTableOffset.toNat
  | 3 => h.recipientOffset.toNat
  | 4 => h.chainOffset.toNat
  | _ => h.dataOffset.toNat

/-- A region begins in its zone. -/
theorem zoneStart_le (region : Region) : zoneStart h region.zone ≤ (region.extent h).start := by
  cases region <;> simp only [Region.zone, zoneStart, Region.extent, Extent.slot] <;> omega

/-- A region other than a block ends before the next zone. -/
theorem stop_le (layout : Layout h) {region : Region} (valid : region.Valid h)
    (inner : region.zone < 5) : (region.extent h).stop ≤ zoneStart h (region.zone + 1) := by
  cases region with
  | header => exact layout.header_bitmap
  | bitmap => exact layout.bitmap_entries
  | entry idx => exact (Extent.slot_stop_le valid).trans layout.entries_recipients
  | recipient idx => exact (Extent.slot_stop_le valid).trans layout.recipients_records
  | record idx => exact (Extent.slot_stop_le valid).trans layout.records_blocks
  | block idx => exact absurd inner (Nat.lt_irrefl 5)

/-- Zones begin one after the other. -/
theorem zoneStart_mono (layout : Layout h) {first second : Nat} (ordered : first ≤ second) :
    zoneStart h first ≤ zoneStart h second := by
  have steps : ∀ zone, zoneStart h zone ≤ zoneStart h (zone + 1) := by
    have bitmap := layout.bitmap_entries
    have entries := layout.entries_recipients
    have recipients := layout.recipients_records
    have records := layout.records_blocks
    intro zone
    match zone with
    | 0 => exact Nat.zero_le _
    | 1 => exact le_trans (Nat.le_add_right _ _) bitmap
    | 2 => exact le_trans (Nat.le_add_right _ _) entries
    | 3 => exact le_trans (Nat.le_add_right _ _) recipients
    | 4 => exact le_trans (Nat.le_add_right _ _) records
    | _ + 5 => exact Nat.le_refl _
  exact monotone_nat_of_le_succ steps ordered

/-- Regions of different zones are apart. -/
private theorem apart_of_zone_lt (layout : Layout h) {first second : Region}
    (valid : first.Valid h) (ordered : first.zone < second.zone) :
    (first.extent h).Apart (second.extent h) := by
  have last : second.zone ≤ 5 := by cases second <;> simp only [Region.zone] <;> omega
  left
  exact (layout.stop_le valid (by omega)).trans
    ((layout.zoneStart_mono ordered).trans (zoneStart_le second))

/-- Distinct regions share no byte. -/
theorem apart (layout : Layout h) {first second : Region} (valid : first.Valid h)
    (valid' : second.Valid h) (different : first ≠ second) :
    (first.extent h).Apart (second.extent h) := by
  rcases Nat.lt_trichotomy first.zone second.zone with less | same | greater
  · exact layout.apart_of_zone_lt valid less
  · cases first <;> cases second <;> simp only [Region.zone] at same <;> try omega
    case header.header => exact absurd rfl different
    case bitmap.bitmap => exact absurd rfl different
    case block.block i j =>
        exact Extent.slot_apart fun equal => different (by rw [UInt64.toNat_inj.mp equal])
    all_goals exact Extent.slot_apart fun equal => different (by rw [equal])
  · exact (layout.apart_of_zone_lt valid' greater).symm

/-- Every region lies within the file offsets. -/
theorem stop_le_ioLimit (layout : Layout h) (region : Region) (valid : region.Valid h) :
    (region.extent h).stop ≤ ioLimit := by
  by_cases inner : region.zone < 5
  · exact (layout.stop_le valid inner).trans
      ((layout.zoneStart_mono (by omega : region.zone + 1 ≤ 5)).trans layout.data)
  · cases region <;> simp only [Region.zone] at inner <;> try omega
    exact valid.2

/-- Every region ends before the last block does. -/
theorem stop_le_total (layout : Layout h) (region : Region) (valid : region.Valid h) :
    (region.extent h).stop ≤ h.dataOffset.toNat + h.blockCount.toNat * h.blockSize.toNat := by
  by_cases inner : region.zone < 5
  · exact (layout.stop_le valid inner).trans ((layout.zoneStart_mono
      (by omega : region.zone + 1 ≤ 5)).trans (Nat.le_add_right _ _))
  · cases region <;> simp only [Region.zone] at inner <;> try omega
    exact Extent.slot_stop_le (UInt64.lt_iff_toNat_lt.mp valid.1)

/-! ## Computed offsets -/

/-- The offset of an item of a table, when it does not wrap. -/
theorem toNat_table (base : UInt64) (index : Nat) (width : UInt32)
    (fits : base.toNat + index * width.toNat < 2 ^ 64) :
    (base + UInt64.ofNat index * width.toUInt64).toNat = base.toNat + index * width.toNat := by
  rw [UInt64.toNat_add, UInt64.toNat_mul, UInt64.toNat_ofNat', UInt32.toNat_toUInt64,
    ← Nat.mul_mod_mod, Nat.mod_mul_mod]
  have small : index * (width.toNat % 2 ^ 64) = index * width.toNat := by
    rw [Nat.mod_eq_of_lt (lt_of_lt_of_le width.toNat_lt (by decide))]
  rw [small, Nat.add_mod_mod, Nat.mod_eq_of_lt fits]

/-- Regions begin within 64 bits. -/
private theorem start_lt (layout : Layout h) {region : Region} (valid : region.Valid h) :
    (region.extent h).start < 2 ^ 64 := by
  have := layout.stop_le_ioLimit region valid
  unfold Extent.stop ioLimit at this
  omega

/-- A slot of the file table is where its region begins. -/
theorem toNat_slotOffset (layout : Layout h) {idx : Nat} (valid : (Region.entry idx).Valid h) :
    (h.slotOffset idx).toNat = ((Region.entry idx).extent h).start := by
  unfold Header.slotOffset
  rw [layout.entrySize]
  exact toNat_table _ _ _ (layout.start_lt valid)

/-- So is a slot for a recipient. -/
theorem toNat_recipientSlotOffset (layout : Layout h) {idx : Nat}
    (valid : (Region.recipient idx).Valid h) :
    (h.recipientSlotOffset idx).toNat = ((Region.recipient idx).extent h).start := by
  unfold Header.recipientSlotOffset
  rw [layout.recipientSlotSize]
  exact toNat_table _ _ _ (layout.start_lt valid)

/-- So is a block. -/
theorem toNat_blockOffset (layout : Layout h) {idx : UInt64}
    (valid : (Region.block idx).Valid h) :
    (h.blockOffset idx).toNat = ((Region.block idx).extent h).start := by
  have offset := toNat_table h.dataOffset idx.toNat h.blockSize (layout.start_lt valid)
  rw [UInt64.ofNat_toNat] at offset
  exact offset

/-- The ring slot of a sequence number. -/
def ringSlot (h : Header) (seq : UInt64) : Nat := seq.toNat % h.maxChainRecords.toNat

/-- Every sequence number has a slot in the ring. -/
theorem ringSlot_valid (layout : Layout h) (seq : UInt64) :
    (Region.record (ringSlot h seq)).Valid h :=
  Nat.mod_lt _ (Nat.pos_of_ne_zero fun zero =>
    layout.chainRecords (UInt32.toNat_inj.mp zero))

/-- The offset of a record is where the region of its slot begins. -/
theorem chainSlotOffset_eq (layout : Layout h) (seq : UInt64) :
    ∃ offset, h.chainSlotOffset seq = .ok offset ∧
      offset.toNat = ((Region.record (ringSlot h seq)).extent h).start := by
  refine ⟨_, if_neg layout.chainRecords, ?_⟩
  have ring : seq % h.maxChainRecords.toUInt64 = UInt64.ofNat (ringSlot h seq) := by
    rw [← UInt64.toNat_inj, UInt64.toNat_mod, UInt32.toNat_toUInt64, UInt64.toNat_ofNat',
      Nat.mod_eq_of_lt (b := 2 ^ 64)]
    · rfl
    · exact lt_of_le_of_lt (Nat.mod_le _ _) seq.toNat_lt
  rw [ring, layout.chainRecordSize]
  exact toNat_table _ _ _ (layout.start_lt (layout.ringSlot_valid seq))

end Layout

/-- Two headers that differ at most in the key slot and the chain anchor. -/
def SameShape (h h' : Header) : Prop :=
  h' = { h with
    adminKeySlot := h'.adminKeySlot
    chainNextSeq := h'.chainNextSeq
    chainLastHash := h'.chainLastHash }

namespace SameShape

/-- Nothing changed. -/
theorem refl (h : Header) : SameShape h h := rfl

/-- One change after another. -/
theorem trans {h h' h'' : Header} (first : SameShape h h') (second : SameShape h' h'') :
    SameShape h h'' := by
  unfold SameShape at first second ⊢
  rw [second, first]

/-- The other way around. -/
theorem symm {h h' : Header} (same : SameShape h h') : SameShape h' h := by
  unfold SameShape at same ⊢
  rw [same]

variable {h h' : Header} (same : SameShape h h')

include same

/-- Regions depend on the shape only. -/
theorem extent_eq (region : Region) : region.extent h' = region.extent h := by
  unfold SameShape at same
  rw [same]
  cases region <;> rfl

/-- So does which ones there are. -/
theorem valid_iff (region : Region) : region.Valid h' ↔ region.Valid h := by
  unfold SameShape at same
  rw [same]
  cases region <;> rfl

/-- A layout survives a change of the key slot and the anchor. -/
theorem layout (sound : Layout h) (fits : h'.adminKeySlot.length ≤ adminKeySlotLen) :
    Layout h' := by
  unfold SameShape at same
  rw [same]
  exact {
    encodable := ⟨sound.encodable.name, sound.encodable.description, fits⟩
    structured := { sound.structured with }
    entrySize := sound.entrySize
    recipientSlotSize := sound.recipientSlotSize
    chainRecordSize := sound.chainRecordSize
    blockSize := sound.blockSize
    chainRecords := sound.chainRecords
    bitmapLen := sound.bitmapLen
    header_bitmap := sound.header_bitmap
    bitmap_entries := sound.bitmap_entries
    entries_recipients := sound.entries_recipients
    recipients_records := sound.recipients_records
    records_blocks := sound.records_blocks
    data := sound.data }

end SameShape

end ReVault
