import ReVault.Core.Storage
import ReVault.Foundation.Guard

/-!
# Checked arithmetic

The offsets and lengths of a header as a build with overflow checks computes them: a sum, a
product or a difference that is not exact panics, as a remainder by zero does in any build. Each
offset is moreover asserted to lie in its region, with what is read there.
-/

namespace ReVault

open Foundation Primitives

/-! ## Arithmetic -/

namespace Exact

/-- Addition that panics when it overflows. -/
def add (left right : UInt64) : Except Fault UInt64 := do
  assure .panic (left.toNat + right.toNat < 2 ^ 64)
  .ok (left + right)

/-- Subtraction that panics when it underflows. -/
def sub (left right : UInt64) : Except Fault UInt64 := do
  assure .panic (right ≤ left)
  .ok (left - right)

/-- Multiplication that panics when it overflows. -/
def mul (left right : UInt64) : Except Fault UInt64 := do
  assure .panic (left.toNat * right.toNat < 2 ^ 64)
  .ok (left * right)

/-- The remainder, which panics when the divisor is zero. -/
def rem (left right : UInt64) : Except Fault UInt64 := do
  assure .panic (right ≠ 0)
  .ok (left % right)

variable {left right : UInt64}

/-- Addition is that of 64 bits unless it panics. -/
theorem add_guards (left right : UInt64) : Guards .panic (add left right) (.ok (left + right)) :=
  (Guards.refl _).assure_bind _

/-- Subtraction is that of 64 bits unless it panics. -/
theorem sub_guards (left right : UInt64) : Guards .panic (sub left right) (.ok (left - right)) :=
  (Guards.refl _).assure_bind _

/-- Multiplication is that of 64 bits unless it panics. -/
theorem mul_guards (left right : UInt64) : Guards .panic (mul left right) (.ok (left * right)) :=
  (Guards.refl _).assure_bind _

/-- The remainder is that of 64 bits unless it panics. -/
theorem rem_guards (left right : UInt64) : Guards .panic (rem left right) (.ok (left % right)) :=
  (Guards.refl _).assure_bind _

/-- A value is no panic. -/
theorem ok_ne_panic {α : Type} (value : α) : (.ok value : Except Fault α) ≠ .error .panic :=
  fun same => by cases same

/-- Addition panics exactly when it overflows. -/
theorem add_ne_iff : add left right ≠ .error .panic ↔ left.toNat + right.toNat < 2 ^ 64 :=
  assure_bind_ne_iff.trans (and_iff_left (ok_ne_panic _))

/-- Addition that fits gives the sum. -/
theorem add_of_fits (fits : left.toNat + right.toNat < 2 ^ 64) :
    add left right = .ok (left + right) :=
  (add_guards left right).resolve_left (add_ne_iff.mpr fits)

/-- Subtraction panics exactly when it underflows. -/
theorem sub_ne_iff : sub left right ≠ .error .panic ↔ right ≤ left :=
  assure_bind_ne_iff.trans (and_iff_left (ok_ne_panic _))

/-- Multiplication panics exactly when it overflows. -/
theorem mul_ne_iff : mul left right ≠ .error .panic ↔ left.toNat * right.toNat < 2 ^ 64 :=
  assure_bind_ne_iff.trans (and_iff_left (ok_ne_panic _))

/-- The remainder panics exactly when the divisor is zero. -/
theorem rem_ne_iff : rem left right ≠ .error .panic ↔ right ≠ 0 :=
  assure_bind_ne_iff.trans (and_iff_left (ok_ne_panic _))

end Exact

/-- The offset of an item of a region of items of one size. The item must start in the region
and end in it. -/
def itemOffset (start : UInt64) (length : Nat) (idx size : UInt64) : Except Fault UInt64 := do
  let scaled ← Exact.mul idx size
  let offset ← Exact.add start scaled
  assure .panic (start.toNat ≤ offset.toNat ∧ offset.toNat < start.toNat + length ∧
    offset.toNat + size.toNat ≤ start.toNat + length)
  .ok offset

/-- A region has room for an item, whose offset is a 64-bit number. -/
structure Room (start : UInt64) (length : Nat) (idx size : Nat) : Prop where
  offset : start.toNat + idx * size < 2 ^ 64
  starts : idx * size < length
  ends : idx * size + size ≤ length

/-- The offset of an item is that of 64 bits unless it panics. -/
theorem itemOffset_guards (start : UInt64) (length : Nat) (idx size : UInt64) :
    Guards .panic (itemOffset start length idx size) (.ok (start + idx * size)) :=
  (Exact.mul_guards idx size).bind fun _ _ => (Exact.add_guards start _).bind fun _ _ =>
    (Guards.refl _).assure_bind _

/-- The offset of an item panics exactly when the item has no room. -/
theorem itemOffset_ne_iff {start : UInt64} {length : Nat} {idx size : UInt64} :
    itemOffset start length idx size ≠ .error .panic ↔
      Room start length idx.toNat size.toNat := by
  unfold itemOffset
  rw [(Exact.mul_guards idx size).bind_ne_iff, Exact.mul_ne_iff]
  simp only [Except.ok.injEq, forall_eq', (Exact.add_guards start _).bind_ne_iff,
    Exact.add_ne_iff, assure_bind_ne_iff, and_iff_left (Exact.ok_ne_panic _)]
  have product : idx.toNat * size.toNat < 2 ^ 64 →
      (idx * size).toNat = idx.toNat * size.toNat := by
    intro fits
    rw [UInt64.toNat_mul, Nat.mod_eq_of_lt fits]
  have sum : start.toNat + (idx * size).toNat < 2 ^ 64 →
      (start + idx * size).toNat = start.toNat + (idx * size).toNat := by
    intro fits
    rw [UInt64.toNat_add, Nat.mod_eq_of_lt fits]
  constructor
  · rintro ⟨fits, fits', _, starts, ends⟩
    rw [sum fits', product fits] at starts ends
    rw [product fits] at fits'
    exact ⟨fits', by omega, by omega⟩
  · rintro ⟨fits, starts, ends⟩
    have small : idx.toNat * size.toNat < 2 ^ 64 := by omega
    rw [← product small] at fits starts ends
    refine ⟨small, fits, ?_, ?_, ?_⟩ <;> rw [sum fits] <;> omega

/-! ## Offsets and lengths of a header -/

namespace Header

/-- The ends of the regions, as the decoder adds them up. -/
def exactEnds (h : Header) : Except Fault Unit := do
  let _ ← Exact.add h.bitmapOffset h.bitmapLen
  let _ ← Exact.add h.fileTableOffset h.fileTableLen
  let _ ← Exact.add h.recipientOffset h.recipientLen
  let _ ← Exact.add h.chainOffset h.chainLen
  .ok ()

/-- `slot_offset`, with checked arithmetic. -/
def exactSlotOffset (h : Header) (idx : Nat) : Except Fault UInt64 :=
  itemOffset h.fileTableOffset h.fileTableLen.toNat (UInt64.ofNat idx) h.entrySize.toUInt64

/-- `recipient_slot_offset`, with checked arithmetic. -/
def exactRecipientSlotOffset (h : Header) (idx : Nat) : Except Fault UInt64 :=
  itemOffset h.recipientOffset h.recipientLen.toNat (UInt64.ofNat idx)
    h.recipientSlotSize.toUInt64

/-- `chain_slot_offset`, with checked arithmetic: the remainder panics when there are no slots. -/
def exactChainSlotOffset (h : Header) (seq : UInt64) : Except Fault UInt64 := do
  let slot ← Exact.rem seq h.maxChainRecords.toUInt64
  itemOffset h.chainOffset h.chainLen.toNat slot h.chainRecordSize.toUInt64

/-- The offset of a physical block, with checked arithmetic. -/
def exactBlockOffset (h : Header) (physicalIdx : UInt64) : Except Fault UInt64 :=
  itemOffset h.dataOffset (h.blockCount.toNat * h.blockSize.toNat) physicalIdx
    h.blockSize.toUInt64

/-- `plain_chunk_len`, with checked arithmetic. -/
def exactPlainChunkLen (h : Header) : Except Fault UInt64 :=
  Exact.sub h.blockSize.toUInt64 blockFramingOverhead

/-- The block indices that an index block holds. Only writing computes this. -/
def exactIndexBlockCapacity (h : Header) : Except Fault UInt64 := do
  let chunkLen ← h.exactPlainChunkLen
  let room ← Exact.sub chunkLen (UInt64.ofNat indexBlockHeader)
  .ok (room / 8)

/-- How many blocks a content takes, with checked arithmetic. -/
def exactDataBlockCount (h : Header) (length : Nat) : Except Fault Nat :=
  if length = 0 then .ok 0
  else do
    let chunkLen ← h.exactPlainChunkLen
    assure .panic (chunkLen ≠ 0)
    .ok (pieceCount chunkLen.toNat length)

/-- The region ends that the decoder adds up are 64-bit numbers. -/
structure EndsFit (h : Header) : Prop where
  bitmap : h.bitmapOffset.toNat + h.bitmapLen.toNat < 2 ^ 64
  entries : h.fileTableOffset.toNat + h.fileTableLen.toNat < 2 ^ 64
  recipients : h.recipientOffset.toNat + h.recipientLen.toNat < 2 ^ 64
  records : h.chainOffset.toNat + h.chainLen.toNat < 2 ^ 64

/-- The file table has room for a slot. -/
def HoldsEntry (h : Header) (idx : Nat) : Prop :=
  Room h.fileTableOffset h.fileTableLen.toNat idx h.entrySize.toNat

/-- The keyring has room for a slot. -/
def HoldsRecipient (h : Header) (idx : Nat) : Prop :=
  Room h.recipientOffset h.recipientLen.toNat idx h.recipientSlotSize.toNat

/-- The ring has slots, and its region has room for the one of a sequence number. -/
def HoldsRecord (h : Header) (seq : Nat) : Prop :=
  h.maxChainRecords ≠ 0 ∧
    Room h.chainOffset h.chainLen.toNat (seq % h.maxChainRecords.toNat) h.chainRecordSize.toNat

/-- The block is one of the data region, and its offset is a 64-bit number. -/
def HoldsBlock (h : Header) (block : UInt64) : Prop :=
  block < h.blockCount ∧ h.dataOffset.toNat + block.toNat * h.blockSize.toNat < 2 ^ 64

variable {h : Header}

/-- Adding up the ends does nothing unless it panics. -/
theorem exactEnds_guards (h : Header) : Guards .panic h.exactEnds (.ok ()) :=
  (Exact.add_guards _ _).bind fun _ _ => (Exact.add_guards _ _).bind fun _ _ =>
    (Exact.add_guards _ _).bind fun _ _ => (Exact.add_guards _ _).bind fun _ _ => Guards.refl _

/-- Adding up the ends panics exactly when one of them wraps. -/
theorem exactEnds_ne_iff : h.exactEnds ≠ .error .panic ↔ h.EndsFit := by
  unfold exactEnds
  simp only [(Exact.add_guards _ _).bind_ne_iff, Exact.add_ne_iff, Except.ok.injEq, forall_eq']
  constructor
  · rintro ⟨bitmap, entries, recipients, records, _⟩
    exact ⟨bitmap, entries, recipients, records⟩
  · exact fun fit => ⟨fit.bitmap, fit.entries, fit.recipients, fit.records, Exact.ok_ne_panic _⟩

/-- The offset of a file slot is the one of the model unless it panics. -/
theorem exactSlotOffset_guards (h : Header) (idx : Nat) :
    Guards .panic (h.exactSlotOffset idx) (.ok (h.slotOffset idx)) :=
  itemOffset_guards ..

/-- So is that of a slot for a recipient. -/
theorem exactRecipientSlotOffset_guards (h : Header) (idx : Nat) :
    Guards .panic (h.exactRecipientSlotOffset idx) (.ok (h.recipientSlotOffset idx)) :=
  itemOffset_guards ..

/-- So is that of a block. -/
theorem exactBlockOffset_guards (h : Header) (physicalIdx : UInt64) :
    Guards .panic (h.exactBlockOffset physicalIdx) (.ok (h.blockOffset physicalIdx)) :=
  itemOffset_guards ..

/-- So is that of a record. -/
theorem exactChainSlotOffset_guards (h : Header) (seq : UInt64) :
    Guards .panic (h.exactChainSlotOffset seq) (h.chainSlotOffset seq) := by
  unfold exactChainSlotOffset chainSlotOffset
  split
  · rename_i empty
    refine Or.inl ?_
    rw [empty]
    rfl
  · exact (Exact.rem_guards ..).bind fun _ _ => itemOffset_guards ..

/-- A slot number is not cut off. -/
theorem toNat_ofNat_of_lt {idx : Nat} {count : UInt32} (below : idx < count.toNat) :
    (UInt64.ofNat idx).toNat = idx :=
  UInt64.toNat_ofNat_of_lt' (below.trans (count.toNat_lt.trans (by decide)))

/-- The offset of a file slot panics exactly when the slot has no room. -/
theorem exactSlotOffset_ne_iff {idx : Nat} (below : idx < h.maxFiles.toNat) :
    h.exactSlotOffset idx ≠ .error .panic ↔ h.HoldsEntry idx := by
  unfold exactSlotOffset HoldsEntry
  rw [itemOffset_ne_iff, toNat_ofNat_of_lt below, UInt32.toNat_toUInt64]

/-- The offset of a slot for a recipient panics exactly when the slot has no room. -/
theorem exactRecipientSlotOffset_ne_iff {idx : Nat} (below : idx < h.maxRecipients.toNat) :
    h.exactRecipientSlotOffset idx ≠ .error .panic ↔ h.HoldsRecipient idx := by
  unfold exactRecipientSlotOffset HoldsRecipient
  rw [itemOffset_ne_iff, toNat_ofNat_of_lt below, UInt32.toNat_toUInt64]

/-- The offset of a record panics exactly when there are no slots or the record has no room. -/
theorem exactChainSlotOffset_ne_iff {seq : UInt64} :
    h.exactChainSlotOffset seq ≠ .error .panic ↔ h.HoldsRecord seq.toNat := by
  have zero : h.maxChainRecords.toUInt64 ≠ 0 ↔ h.maxChainRecords ≠ 0 := by
    rw [Ne, Ne, ← UInt64.toNat_inj, ← UInt32.toNat_inj, UInt32.toNat_toUInt64]
    rfl
  unfold exactChainSlotOffset HoldsRecord
  rw [(Exact.rem_guards ..).bind_ne_iff, Exact.rem_ne_iff, zero]
  simp only [Except.ok.injEq, forall_eq', itemOffset_ne_iff, UInt64.toNat_mod,
    UInt32.toNat_toUInt64]

/-- A block lies in the data region when its index is below the number of blocks. -/
theorem exactBlockOffset_ne_iff {block : UInt64} (sized : 0 < h.blockSize.toNat) :
    h.exactBlockOffset block ≠ .error .panic ↔ h.HoldsBlock block := by
  unfold exactBlockOffset HoldsBlock
  rw [itemOffset_ne_iff, UInt32.toNat_toUInt64, UInt64.lt_iff_toNat_lt]
  constructor
  · rintro ⟨offset, starts, _⟩
    exact ⟨Nat.lt_of_mul_lt_mul_right starts, offset⟩
  · rintro ⟨below, offset⟩
    have ends := Nat.mul_le_mul_right h.blockSize.toNat (Nat.succ_le_of_lt below)
    rw [Nat.succ_mul] at ends
    exact ⟨offset, by omega, ends⟩

/-- The length of a chunk panics exactly when a block is shorter than its framing. -/
theorem exactPlainChunkLen_ne_iff :
    h.exactPlainChunkLen ≠ .error .panic ↔ 20 ≤ h.blockSize.toNat := by
  rw [exactPlainChunkLen, Exact.sub_ne_iff, UInt64.le_iff_toNat_le, UInt32.toNat_toUInt64]
  rfl

/-- The capacity of an index block is the one of the model unless it panics. -/
theorem exactIndexBlockCapacity_guards (h : Header) :
    Guards .panic h.exactIndexBlockCapacity (.ok h.indexBlockCapacity) :=
  (Exact.sub_guards ..).bind fun _ _ => (Exact.sub_guards ..).bind fun _ _ => Guards.refl _

/-- It panics exactly when a block cannot hold its framing and header. -/
theorem exactIndexBlockCapacity_ne_iff :
    h.exactIndexBlockCapacity ≠ .error .panic ↔ 32 ≤ h.blockSize.toNat := by
  have chunk : Guards .panic h.exactPlainChunkLen (.ok h.plainChunkLen) := Exact.sub_guards ..
  unfold exactIndexBlockCapacity
  rw [chunk.bind_ne_iff, exactPlainChunkLen_ne_iff]
  simp only [Except.ok.injEq, forall_eq', (Exact.sub_guards _ _).bind_ne_iff, Exact.sub_ne_iff,
    and_iff_left (Exact.ok_ne_panic _), UInt64.le_iff_toNat_le]
  constructor
  · rintro ⟨long, header⟩
    rw [toNat_plainChunkLen long] at header
    change 12 ≤ _ at header
    omega
  · intro long
    rw [toNat_plainChunkLen (by omega)]
    change _ ∧ 12 ≤ _
    omega

/-- The number of blocks is the one of the model unless it panics. -/
theorem exactDataBlockCount_guards (h : Header) (length : Nat) :
    Guards .panic (h.exactDataBlockCount length) (h.dataBlockCount length) := by
  unfold exactDataBlockCount dataBlockCount
  split
  · exact Guards.refl _
  · have counted : Guards .panic (h.exactPlainChunkLen >>= fun chunkLen => do
        assure .panic (chunkLen ≠ 0)
        .ok (pieceCount chunkLen.toNat length)) ((.ok h.plainChunkLen : Except Fault UInt64) >>=
          fun chunkLen => if chunkLen = 0 then .error .panic
            else .ok (pieceCount chunkLen.toNat length)) := by
      refine (Exact.sub_guards ..).bind fun chunkLen _ => ?_
      split
      · rename_i zero
        refine Or.inl ?_
        rw [assure, if_neg (not_not.mpr zero)]
        rfl
      · exact (Guards.refl _).assure_bind _
    exact counted

/-- A content is cut into chunks of more than nothing, unless it is empty. -/
theorem exactDataBlockCount_ne_iff {length : Nat} :
    h.exactDataBlockCount length ≠ .error .panic ↔ length = 0 ∨ 20 < h.blockSize.toNat := by
  have chunk : Guards .panic h.exactPlainChunkLen (.ok h.plainChunkLen) := Exact.sub_guards ..
  unfold exactDataBlockCount
  split
  · rename_i empty
    exact iff_of_true (Exact.ok_ne_panic _) (Or.inl empty)
  · rename_i filled
    rw [chunk.bind_ne_iff, exactPlainChunkLen_ne_iff, or_iff_right filled]
    simp only [Except.ok.injEq, forall_eq', assure_bind_ne_iff, and_iff_left (Exact.ok_ne_panic _)]
    have zero : h.plainChunkLen = 0 ↔ h.plainChunkLen.toNat = 0 := UInt64.toNat_inj.symm
    rw [Ne, zero]
    constructor
    · rintro ⟨long, nonzero⟩
      rw [toNat_plainChunkLen long] at nonzero
      omega
    · intro more
      rw [toNat_plainChunkLen more.le]
      omega

end Header

end ReVault
