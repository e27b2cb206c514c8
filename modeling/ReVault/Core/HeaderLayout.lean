import ReVault.Core.FormatRoundTrip

/-!
# The layouts that the header decoder admits

The decoder compares the offset of each region with the 64-bit end of the one before it,
which may have wrapped, and never compares the counts with the capacity or with the lengths
of the regions.
-/

namespace ReVault

open Foundation Primitives

namespace Header

/-- The counts of a header agree with its capacity and fit the lengths of its regions. -/
structure Counted (h : Header) : Prop where
  capacity : h.blockCount.toNat = h.capacityBytes.toNat / h.blockSize.toNat
  bits : (h.blockCount.toNat + 7) / 8 ≤ h.bitmapLen.toNat
  entries : h.maxFiles.toNat * h.entrySize.toNat ≤ h.fileTableLen.toNat
  recipients : h.maxRecipients.toNat * h.recipientSlotSize.toNat ≤ h.recipientLen.toNat
  records : h.maxChainRecords.toNat * h.chainRecordSize.toNat ≤ h.chainLen.toNat

/-- The regions follow one another in exact arithmetic, and the counts fit them. -/
structure WellFormed (h : Header) : Prop where
  bitmap : headerSize ≤ h.bitmapOffset.toNat
  entries : h.bitmapOffset.toNat + h.bitmapLen.toNat ≤ h.fileTableOffset.toNat
  recipients : h.fileTableOffset.toNat + h.fileTableLen.toNat ≤ h.recipientOffset.toNat
  records : h.recipientOffset.toNat + h.recipientLen.toNat ≤ h.chainOffset.toNat
  blocks : h.chainOffset.toNat + h.chainLen.toNat ≤ h.dataOffset.toNat
  stop : h.dataOffset.toNat + h.blockCount.toNat * h.blockSize.toNat < 2 ^ 64
  counted : h.Counted

/-- No region of a header ends past the 64-bit numbers. -/
structure Unwrapped (h : Header) : Prop where
  bitmap : h.bitmapOffset.toNat + h.bitmapLen.toNat < 2 ^ 64
  entries : h.fileTableOffset.toNat + h.fileTableLen.toNat < 2 ^ 64
  recipients : h.recipientOffset.toNat + h.recipientLen.toNat < 2 ^ 64
  records : h.chainOffset.toNat + h.chainLen.toNat < 2 ^ 64
  blocks : h.dataOffset.toNat + h.blockCount.toNat * h.blockSize.toNat < 2 ^ 64

/-- A wrapping comparison of a region end is exact when the end does not wrap. -/
theorem le_of_not_lt_add {start length next : UInt64} (ordered : ¬ next < start + length)
    (fits : start.toNat + length.toNat < 2 ^ 64) :
    start.toNat + length.toNat ≤ next.toNat := by
  rw [UInt64.lt_iff_toNat_lt, UInt64.toNat_add, Nat.mod_eq_of_lt fits] at ordered
  exact Nat.le_of_not_lt ordered

/-- The bitmap begins behind the header. -/
theorem Structured.header_bitmap {h : Header} (structured : h.Structured) :
    headerSize ≤ h.bitmapOffset.toNat := by
  have ordered := structured.bitmap
  rw [UInt64.lt_iff_toNat_lt] at ordered
  exact Nat.le_of_not_lt ordered

/-- What the decoder checks makes a layout well formed exactly when no end wraps and the
counts fit. -/
theorem Structured.wellFormed_iff {h : Header} (structured : h.Structured) :
    h.WellFormed ↔ h.Unwrapped ∧ h.Counted := by
  constructor
  · intro formed
    refine ⟨?_, formed.counted⟩
    exact {
      bitmap := Nat.lt_of_le_of_lt formed.entries (UInt64.toNat_lt _)
      entries := Nat.lt_of_le_of_lt formed.recipients (UInt64.toNat_lt _)
      recipients := Nat.lt_of_le_of_lt formed.records (UInt64.toNat_lt _)
      records := Nat.lt_of_le_of_lt formed.blocks (UInt64.toNat_lt _)
      blocks := formed.stop }
  · rintro ⟨unwrapped, counted⟩
    exact {
      bitmap := structured.header_bitmap
      entries := le_of_not_lt_add structured.fileTable unwrapped.bitmap
      recipients := le_of_not_lt_add structured.recipients unwrapped.entries
      records := le_of_not_lt_add structured.chain unwrapped.recipients
      blocks := le_of_not_lt_add structured.data unwrapped.records
      stop := unwrapped.blocks
      counted := counted }

/-- Only one version is supported. -/
theorem eq_two_of_supported {version : UInt32}
    (supported : ¬ (version < minSupportedVersion ∨ version > maxSupportedVersion)) :
    version = 2 := by
  obtain ⟨low, high⟩ := not_or.mp supported
  exact UInt32.le_antisymm (UInt32.not_lt.mp high) (UInt32.not_lt.mp low)

section

variable [Primitives]

/-- The header parser returns only headers that pass its checks. -/
theorem ensures_structured : Ensures parse Structured := by
  unfold parse
  refine Ensures.bind fun found => Ensures.reject fun _ => ?_
  refine Ensures.bind fun version => Ensures.reject fun supported => ?_
  iterate 33 refine Ensures.bind fun _ => ?_
  refine Ensures.reject fun _ => ?_
  refine Ensures.reject fun nonzero => ?_
  refine Ensures.reject fun dataLen => ?_
  refine Ensures.reject fun bitmap => ?_
  refine Ensures.reject fun fileTable => ?_
  refine Ensures.reject fun recipients => ?_
  refine Ensures.reject fun chain => ?_
  refine Ensures.reject fun data => ?_
  refine Ensures.pure ?_
  exact {
    version := eq_two_of_supported supported
    blockSize := (not_or.mp nonzero).1
    blockCount := (not_or.mp nonzero).2
    dataLen := Nat.le_of_not_lt dataLen
    bitmap := bitmap
    fileTable := fileTable
    recipients := recipients
    chain := chain
    data := data }

/-- What is decoded has its regions in order, as far as they are compared. -/
theorem structured_of_decode {buf : Bytes} {h : Header} (decoded : decode buf = .ok h) :
    h.Structured := by
  unfold decode at decoded
  split at decoded
  · cases decoded
  · cases parsed : parse ⟨buf.take headerSize, 0⟩ with
    | error reason =>
        rw [parsed] at decoded
        cases decoded
    | ok result =>
        rw [parsed] at decoded
        cases decoded
        exact ensures_structured _ _ _ parsed

/-- **Layouts.** A header that is decoded has a well-formed layout exactly when none of its
regions ends past the 64-bit numbers and its counts fit. -/
theorem wellFormed_of_decode_iff {buf : Bytes} {h : Header} (decoded : decode buf = .ok h) :
    h.WellFormed ↔ h.Unwrapped ∧ h.Counted :=
  (structured_of_decode decoded).wellFormed_iff

end

end Header

namespace Transparent

/-- A header whose bitmap runs over the end of the 64-bit numbers, so that its other regions
may start where the header does. -/
def wrappedHeader : Header :=
  { bareHeader (zeroArr 32) with
    blockSize := 4096
    capacityBytes := 4096
    bitmapLen := UInt64.ofNat (2 ^ 64 - headerSize)
    fileTableOffset := 0
    recipientOffset := 0
    chainOffset := 0
    dataOffset := 0 }

/-- The wrapped header can be encoded. -/
theorem wrappedHeader_encodable : wrappedHeader.Encodable where
  name := Nat.zero_le _
  description := Nat.zero_le _
  adminKeySlot := Nat.zero_le _

/-- Its regions are in order. -/
theorem wrappedHeader_structured : wrappedHeader.Structured := by
  constructor <;> simp only [wrappedHeader, bareHeader] <;> decide

/-- The header of a new vault is decoded and well formed. -/
theorem wellFormed_of_decode_iff_created : createdHeader.WellFormed ∧
    (createdHeader.WellFormed ↔ createdHeader.Unwrapped ∧ createdHeader.Counted) := by
  have decoded :=
    createdHeader.decode_image createdHeader_encodable createdHeader_structured []
  have unwrapped : createdHeader.Unwrapped := by constructor <;> decide
  have counted : createdHeader.Counted := by constructor <;> decide
  have formed := Header.wellFormed_of_decode_iff decoded
  exact ⟨formed.mpr ⟨unwrapped, counted⟩, formed⟩

/-- The decoder accepts a header whose file table overlaps the bitmap and the header. -/
theorem ill_formed_header_decoded : wrappedHeader.image.length = headerSize ∧
    Header.decode wrappedHeader.image = .ok wrappedHeader ∧ ¬ wrappedHeader.WellFormed := by
  have decoded := wrappedHeader.decode_image wrappedHeader_encodable wrappedHeader_structured []
  rw [List.append_nil] at decoded
  refine ⟨wrappedHeader.length_image wrappedHeader_encodable, decoded, fun formed => ?_⟩
  exact absurd formed.entries (by decide)

end Transparent

end ReVault
