import ReVault.Core.Transparent
import ReVault.Core.Vault

/-!
# Round trips of the on-disk records

Every record that fits its fields encodes to its fixed size, and the decoder
returns it from that encoding followed by anything.
-/

namespace ReVault

open Foundation Primitives

/-! ## Fields -/

/-- So many bytes are read back. -/
theorem parses_bytes (before : Bytes) {count : Nat} {encoding : Bytes}
    (sized : encoding.length = count) :
    ParsesFrom before (Reader.bytes count) encoding encoding :=
  ParsesFrom.take before _ sized

/-- A byte is read back. -/
theorem parses_u8 (before : Bytes) (value : UInt8) :
    ParsesFrom before Reader.u8 (Writer.u8 value) value := by
  have parsed := (parses_bytes before (length_toLE 1 value.toNat)).map
    fun raw => UInt8.ofNat (ofLE raw)
  rwa [ofLE_toLE_of_lt (UInt8.toNat_lt value), UInt8.ofNat_toNat] at parsed

/-- Two bytes are read back. -/
theorem parses_u16 (before : Bytes) (value : UInt16) :
    ParsesFrom before Reader.u16 (Writer.u16 value) value := by
  have parsed := (parses_bytes before (length_toLE 2 value.toNat)).map
    fun raw => UInt16.ofNat (ofLE raw)
  rwa [ofLE_toLE_of_lt (UInt16.toNat_lt value), UInt16.ofNat_toNat] at parsed

/-- Four bytes are read back. -/
theorem parses_u32 (before : Bytes) (value : UInt32) :
    ParsesFrom before Reader.u32 (Writer.u32 value) value := by
  have parsed := (parses_bytes before (length_toLE 4 value.toNat)).map
    fun raw => UInt32.ofNat (ofLE raw)
  rwa [ofLE_toLE_of_lt (UInt32.toNat_lt value), UInt32.ofNat_toNat] at parsed

/-- Eight bytes are read back. -/
theorem parses_u64 (before : Bytes) (value : UInt64) :
    ParsesFrom before Reader.u64 (Writer.u64 value) value := by
  have parsed := (parses_bytes before (length_toLE 8 value.toNat)).map
    fun raw => UInt64.ofNat (ofLE raw)
  rwa [ofLE_toLE_of_lt (UInt64.toNat_lt value), UInt64.ofNat_toNat] at parsed

/-- A signed number is read back. -/
theorem parses_i64 (before : Bytes) (value : Int64) :
    ParsesFrom before Reader.i64 (Writer.i64 value) value := by
  have parsed := (parses_bytes before (length_toLE 8 value.toUInt64.toNat)).map
    fun raw => Int64.ofUInt64 (UInt64.ofNat (ofLE raw))
  rwa [ofLE_toLE_of_lt (UInt64.toNat_lt value.toUInt64), UInt64.ofNat_toNat] at parsed

/-- Sixteen bytes are read back. -/
theorem parses_u128 (before : Bytes) (value : BitVec 128) :
    ParsesFrom before Reader.u128 (Writer.u128 value) value := by
  have parsed := (parses_bytes before (length_toLE 16 value.toNat)).map
    fun raw => BitVec.ofNat 128 (ofLE raw)
  rwa [ofLE_toLE_of_lt value.isLt, BitVec.ofNat_toNat, BitVec.setWidth_eq] at parsed

/-- An array fills its field. -/
theorem fixed_array {count : Nat} (array : ByteArr count) :
    Writer.fixed array.toList count = array.toList := by
  unfold Writer.fixed padTo
  rw [array.toList_length, Nat.sub_self, List.replicate_zero, List.append_nil]

/-- An array is read back. -/
theorem parses_array (before : Bytes) {count : Nat} (array : ByteArr count) :
    ParsesFrom before (Reader.array count) (Writer.fixed array.toList count) array := by
  rw [fixed_array]
  have parsed := (parses_bytes before array.toList_length).map
    fun raw => (toArr? count raw).getD (zeroArr count)
  rwa [toArr?_toList] at parsed

/-- A row of numbers is read back. -/
theorem parses_u64s (before : Bytes) {count : Nat} (values : List.Vector UInt64 count) :
    ParsesFrom before (Reader.u64s count) (values.toList.map Writer.u64).flatten values := by
  induction count generalizing before with
  | zero =>
      rw [List.Vector.eq_nil values]
      exact ParsesFrom.pure before _
  | succ count ih =>
      rw [← List.Vector.cons_head_tail values, List.Vector.toList_cons, List.map_cons,
        List.flatten_cons]
      exact (parses_u64 before values.head).bind
        ((ih (before ++ Writer.u64 values.head) values.tail).map fun tail => values.head ::ᵥ tail)

/-- A length and a field are read back as what is in the field. -/
theorem parses_prefixed (before : Bytes) {width : Nat} (tooLong : String) {data : Bytes}
    (fits : data.length ≤ width) (small : width < 2 ^ 16) :
    ParsesFrom before (Reader.prefixed width tooLong)
      (Writer.u16 (UInt16.ofNat data.length) ++ Writer.fixed data width) data := by
  have length : (UInt16.ofNat data.length).toNat = data.length := by
    rw [UInt16.toNat_ofNat', Nat.mod_eq_of_lt (by omega)]
  unfold Reader.prefixed
  refine (parses_u16 before _).bind ?_
  rw [← List.append_nil (Writer.fixed data width)]
  refine (parses_bytes _ (length_padTo fits)).bind ?_
  refine (ParsesFrom.reject _ (by rw [length]; omega)).check ?_
  rw [length, take_padTo]
  exact ParsesFrom.pure _ data

/-- A text is read back from its length and its field. -/
theorem parses_text (before : Bytes) {width : Nat} (tooLong notUtf8 : String) {text : String}
    (fits : (utf8 text).length ≤ width) (small : width < 2 ^ 16) :
    ParsesFrom before (Reader.text width tooLong notUtf8)
      (Writer.u16 (UInt16.ofNat (utf8 text).length) ++ Writer.fixed (utf8 text) width) text := by
  unfold Reader.text
  rw [← List.append_nil (_ ++ Writer.fixed (utf8 text) width)]
  refine (parses_prefixed before tooLong fits small).bind ?_
  refine (ParsesFrom.reject _ (by rw [fromUtf8?_utf8]; simp)).check ?_
  rw [fromUtf8?_utf8]
  exact ParsesFrom.pure _ text

/-- A decoder that parses a padded fixed-size record, whatever follows it. -/
theorem parse_padded {ε α : Type} {parser : Parser ε α} {encoding : Bytes} {value : α}
    {size : Nat} (parses : ParsesFrom [] parser encoding value) (fits : encoding.length ≤ size)
    (after : Bytes) :
    (parser ⟨(padTo size encoding ++ after).take size, 0⟩).map Prod.fst = .ok value := by
  rw [List.take_left' (length_padTo fits)]
  unfold padTo
  rw [parses.run]
  rfl

/-- A field has its width. -/
@[simp] theorem length_fixed {data : Bytes} {width : Nat} (fits : data.length ≤ width) :
    (Writer.fixed data width).length = width := length_padTo fits

/-- What fits is filled up with zeros. -/
theorem assertFits_of_le {size : Nat} {buffer : Bytes} (fits : buffer.length ≤ size) :
    assertFits size buffer = .ok (padTo size buffer) := by
  unfold assertFits
  rw [if_pos fits]

/-- What was filled up has the size that was asked for. -/
theorem length_of_assertFits {size : Nat} {buffer encoded : Bytes}
    (fits : assertFits size buffer = .ok encoded) : encoded.length = size := by
  unfold assertFits at fits
  split at fits
  · rename_i shorter
    cases fits
    exact length_padTo shorter
  · cases fits

/-- A row of numbers takes eight bytes each. -/
theorem length_u64s {count : Nat} (values : List.Vector UInt64 count) :
    (values.toList.map Writer.u64).flatten.length = 8 * count := by
  induction count with
  | zero =>
      rw [List.Vector.eq_nil values]
      rfl
  | succ count ih =>
      rw [← List.Vector.cons_head_tail values, List.Vector.toList_cons, List.map_cons,
        List.flatten_cons, List.length_append, ih]
      simp only [Writer.u64, length_toLE]
      omega

section Records

variable [Primitives]

/-! ## Headers -/

/-- The variable-length fields of a header fit their widths. -/
structure Header.Encodable (h : Header) : Prop where
  name : (utf8 h.name).length ≤ maxNameLen
  description : (utf8 h.description).length ≤ maxDescLen
  adminKeySlot : h.adminKeySlot.length ≤ adminKeySlotLen

/-- The structural conditions that `Header.decode` checks. -/
structure Header.Structured (h : Header) : Prop where
  version : h.version = 2
  blockSize : h.blockSize ≠ 0
  blockCount : h.blockCount ≠ 0
  dataLen : h.blockCount.toNat * h.blockSize.toNat ≤ 2 ^ 64 - 1
  bitmap : ¬ h.bitmapOffset < UInt64.ofNat headerSize
  fileTable : ¬ h.fileTableOffset < h.bitmapOffset + h.bitmapLen
  recipients : ¬ h.recipientOffset < h.fileTableOffset + h.fileTableLen
  chain : ¬ h.chainOffset < h.recipientOffset + h.recipientLen
  data : ¬ h.dataOffset < h.chainOffset + h.chainLen

namespace Header

/-- The bytes of an encodable header. -/
def image (h : Header) : Bytes :=
  padTo headerSize (h.fields.flatten ++ Writer.fixed (sha256 h.fields.flatten).toList 32)

omit [Primitives] in
/-- The fields of a header leave room for its hash. -/
theorem length_fields (h : Header) (encodable : h.Encodable) :
    h.fields.flatten.length + 32 ≤ headerSize := by
  simp only [fields, List.flatten_cons, List.flatten_nil, List.length_append, List.length_nil,
    Writer.u16, Writer.u32, Writer.u64, Writer.i64, length_toLE, length_fixed encodable.name,
    length_fixed encodable.description, length_fixed encodable.adminKeySlot, fixed_array,
    List.Vector.toList_length]
  decide

/-- A header with its hash fits into its field. -/
theorem length_encoding (h : Header) (encodable : h.Encodable) :
    (h.fields.flatten ++ Writer.fixed (sha256 h.fields.flatten).toList 32).length ≤
      headerSize := by
  rw [List.length_append, fixed_array, List.Vector.toList_length]
  exact h.length_fields encodable

/-- A header that can be encoded is. -/
theorem encode_eq (h : Header) (encodable : h.Encodable) : h.encode = .ok h.image :=
  assertFits_of_le (h.length_encoding encodable)

/-- Its encoding has the size of a header. -/
theorem length_image (h : Header) (encodable : h.Encodable) : h.image.length = headerSize :=
  length_padTo (h.length_encoding encodable)

/-- The header parser returns the header whose fields were written. -/
theorem parses (h : Header) (encodable : h.Encodable) (structured : h.Structured) :
    ParsesFrom [] parse
      (h.fields.flatten ++ Writer.fixed (sha256 h.fields.flatten).toList 32) h := by
  have split : h.fields.flatten ++ Writer.fixed (sha256 h.fields.flatten).toList 32 =
      (h.fields ++ [Writer.fixed (sha256 h.fields.flatten).toList 32]).flatten := by
    rw [List.flatten_append, List.flatten_cons, List.flatten_nil, List.append_nil]
  rw [split]
  generalize checksumIs : Writer.fixed (sha256 h.fields.flatten).toList 32 = checksum
  unfold parse fields
  simp only [List.cons_append, List.nil_append]
  refine (parses_bytes [] (by rfl : magic.length = 8)).field ?_
  refine (ParsesFrom.reject _ (by simp only [ne_eq, not_true_eq_false, not_false_eq_true])).check ?_
  refine (parses_u32 _ h.version).field ?_
  refine (ParsesFrom.reject _ (by rw [structured.version]; decide)).check ?_
  refine (parses_u32 _ h.flags).field ?_
  refine (parses_u32 _ h.blockSize).field ?_
  refine (parses_u64 _ h.blockCount).field ?_
  refine (parses_u64 _ h.capacityBytes).field ?_
  refine (parses_text _ _ _ encodable.name (by decide)).field₂ ?_
  refine (parses_text _ _ _ encodable.description (by decide)).field₂ ?_
  refine (parses_i64 _ h.createdAt).field ?_
  refine (parses_array _ h.salt).field ?_
  refine (parses_u32 _ h.argon2MCostKib).field ?_
  refine (parses_u32 _ h.argon2TCost).field ?_
  refine (parses_u32 _ h.argon2PCost).field ?_
  refine (parses_prefixed _ _ encodable.adminKeySlot (by decide)).field₂ ?_
  refine (parses_array _ h.adminSigningPubkey).field ?_
  refine (parses_array _ h.adminEncryptionPubkey).field ?_
  refine (parses_u64 _ h.bitmapOffset).field ?_
  refine (parses_u64 _ h.bitmapLen).field ?_
  refine (parses_u64 _ h.fileTableOffset).field ?_
  refine (parses_u64 _ h.fileTableLen).field ?_
  refine (parses_u32 _ h.maxFiles).field ?_
  refine (parses_u32 _ h.entrySize).field ?_
  refine (parses_u64 _ h.recipientOffset).field ?_
  refine (parses_u64 _ h.recipientLen).field ?_
  refine (parses_u32 _ h.maxRecipients).field ?_
  refine (parses_u32 _ h.recipientSlotSize).field ?_
  refine (parses_u64 _ h.chainOffset).field ?_
  refine (parses_u64 _ h.chainLen).field ?_
  refine (parses_u32 _ h.maxChainRecords).field ?_
  refine (parses_u32 _ h.chainRecordSize).field ?_
  refine (parses_u64 _ h.chainNextSeq).field ?_
  refine (parses_array _ h.chainLastHash).field ?_
  refine (parses_u64 _ h.dataOffset).field ?_
  refine (ParsesFrom.consumed _).check ?_
  rw [← checksumIs]
  refine (parses_array _ _).field ?_
  refine (ParsesFrom.reject _ ?_).check ?_
  · simp only [fields, List.flatten_cons, List.flatten_nil, List.append_nil, List.nil_append,
      List.append_assoc, ne_eq, not_true_eq_false, not_false_eq_true]
  refine (ParsesFrom.reject _ (by
    rintro (zero | zero)
    · exact structured.blockSize zero
    · exact structured.blockCount zero)).check ?_
  refine (ParsesFrom.reject _ (Nat.not_lt.mpr structured.dataLen)).check ?_
  refine (ParsesFrom.reject _ structured.bitmap).check ?_
  refine (ParsesFrom.reject _ structured.fileTable).check ?_
  refine (ParsesFrom.reject _ structured.recipients).check ?_
  refine (ParsesFrom.reject _ structured.chain).check ?_
  refine (ParsesFrom.reject _ structured.data).check ?_
  exact ParsesFrom.pure _ h

/-- A well-formed header is decoded from its encoding, whatever follows. -/
theorem decode_image (h : Header) (encodable : h.Encodable) (structured : h.Structured)
    (after : Bytes) : decode (h.image ++ after) = .ok h := by
  unfold decode
  rw [if_neg (by rw [List.length_append, h.length_image encodable]; omega)]
  exact parse_padded (h.parses encodable structured) (h.length_encoding encodable) after

/-- A buffer that does not start with the magic bytes is refused. -/
theorem decode_of_other_magic {buf : Bytes} (long : headerSize ≤ buf.length)
    (other : buf.take 8 ≠ magic) : decode buf = .error .notARvltFile := by
  have first : Reader.bytes 8 ⟨buf.take headerSize, 0⟩ =
      .ok (buf.take 8, ⟨buf.take headerSize, 8⟩) := by
    have enough : ¬ 0 + 8 > (buf.take headerSize).length := by
      rw [List.length_take, Nat.min_eq_left long]
      decide
    unfold Reader.bytes Parser.take
    rw [if_neg enough, List.drop_zero, List.take_take]
    rfl
  have stopped : parse ⟨buf.take headerSize, 0⟩ = .error .notARvltFile := by
    unfold parse
    change Except.bind (Reader.bytes 8 _) _ = _
    rw [first]
    change Except.bind (Parser.reject _ _ _) _ = _
    unfold Parser.reject
    rw [if_pos other]
    rfl
  unfold decode
  rw [if_neg (Nat.not_lt.mpr long), stopped]
  rfl

end Header

omit [Primitives] in
/-- A header with no regions behind it. -/
def bareHeader (adminSigningPubkey : ByteArr 32) : Header where
  version := 2
  flags := 0
  blockSize := 1
  blockCount := 1
  capacityBytes := 1
  name := ""
  description := ""
  createdAt := 0
  salt := zeroArr saltLen
  argon2MCostKib := 0
  argon2TCost := 0
  argon2PCost := 0
  adminKeySlot := []
  adminSigningPubkey := adminSigningPubkey
  adminEncryptionPubkey := zeroArr 32
  bitmapOffset := UInt64.ofNat headerSize
  bitmapLen := 0
  fileTableOffset := UInt64.ofNat headerSize
  fileTableLen := 0
  maxFiles := 0
  entrySize := 0
  recipientOffset := UInt64.ofNat headerSize
  recipientLen := 0
  maxRecipients := 0
  recipientSlotSize := 0
  chainOffset := UInt64.ofNat headerSize
  chainLen := 0
  maxChainRecords := 0
  chainRecordSize := 0
  chainNextSeq := 0
  chainLastHash := zeroArr 32
  dataOffset := UInt64.ofNat headerSize

omit [Primitives] in
/-- The bare header can be encoded. -/
theorem bareHeader_encodable (pubkey : ByteArr 32) : (bareHeader pubkey).Encodable where
  name := Nat.zero_le _
  description := Nat.zero_le _
  adminKeySlot := Nat.zero_le _

omit [Primitives] in
/-- Its regions are in order. -/
theorem bareHeader_structured (pubkey : ByteArr 32) : (bareHeader pubkey).Structured := by
  constructor <;> simp only [bareHeader] <;> decide

/-! ## File entries -/

namespace FileEntry

/-- The bytes of an entry whose name fits. -/
def image (entry : FileEntry) : Bytes :=
  padTo entrySizeConst.toNat (entry.fields.flatten ++
    Writer.fixed ((sha256 entry.fields.flatten).toList.take 4) 4)

/-- Four bytes of a hash are kept. -/
theorem length_crc (data : Bytes) : ((sha256 data).toList.take 4).length = 4 := by
  rw [List.length_take, List.Vector.toList_length]
  rfl

/-- They fill their field. -/
theorem fixed_crc (data : Bytes) :
    Writer.fixed ((sha256 data).toList.take 4) 4 = (sha256 data).toList.take 4 := by
  unfold Writer.fixed padTo
  rw [length_crc, Nat.sub_self, List.replicate_zero, List.append_nil]

/-- A file entry with its check fits into a slot. -/
theorem length_encoding (entry : FileEntry)
    (fits : (utf8 entry.name).length ≤ maxFilenameLen) :
    (entry.fields.flatten ++ Writer.fixed ((sha256 entry.fields.flatten).toList.take 4) 4).length ≤
      entrySizeConst.toNat := by
  rw [List.length_append, fixed_crc, length_crc]
  simp only [fields, List.flatten_cons, List.flatten_nil, List.length_append, List.length_nil,
    Writer.u128, Writer.u16, Writer.u32, Writer.u64, Writer.i64, length_toLE, length_fixed fits,
    fixed_array, List.Vector.toList_length]
  rw [length_u64s entry.directBlocks]
  decide

/-- A file entry with a short name is encoded. -/
theorem encode_eq (entry : FileEntry) (fits : (utf8 entry.name).length ≤ maxFilenameLen) :
    entry.encode = .ok entry.image :=
  assertFits_of_le (entry.length_encoding fits)

/-- Its encoding has the size of a slot. -/
theorem length_image (entry : FileEntry) (fits : (utf8 entry.name).length ≤ maxFilenameLen) :
    entry.image.length = entrySizeConst.toNat :=
  length_padTo (entry.length_encoding fits)

/-- The entry parser returns the entry whose fields were written. -/
theorem parses (entry : FileEntry) (fits : (utf8 entry.name).length ≤ maxFilenameLen) :
    ParsesFrom [] parse (entry.fields.flatten ++
      Writer.fixed ((sha256 entry.fields.flatten).toList.take 4) 4) entry := by
  have split :
      entry.fields.flatten ++ Writer.fixed ((sha256 entry.fields.flatten).toList.take 4) 4 =
      (entry.fields ++ [Writer.fixed ((sha256 entry.fields.flatten).toList.take 4) 4]).flatten := by
    rw [List.flatten_append, List.flatten_cons, List.flatten_nil, List.append_nil]
  rw [split, fixed_crc]
  generalize crcIs : (sha256 entry.fields.flatten).toList.take 4 = crc
  have crcLength : crc.length = 4 := by rw [← crcIs, length_crc]
  unfold parse fields
  simp only [List.cons_append, List.nil_append]
  refine (parses_u128 [] entry.id).field ?_
  refine (parses_text _ _ _ fits (by decide)).field₂ ?_
  refine (parses_u64 _ entry.size).field ?_
  refine (parses_u32 _ entry.blocksUsed).field ?_
  refine (parses_u64s _ entry.directBlocks).field ?_
  refine (parses_u64 _ entry.overflowBlock).field ?_
  refine (parses_array _ entry.fileHash).field ?_
  refine (parses_i64 _ entry.createdAt).field ?_
  refine (parses_i64 _ entry.modifiedAt).field ?_
  refine (parses_u32 _ entry.flags).field ?_
  refine (ParsesFrom.consumed _).check ?_
  refine (parses_bytes _ crcLength).field ?_
  refine (ParsesFrom.reject _ ?_).check ?_
  · rw [← crcIs]
    simp only [fields, List.flatten_cons, List.flatten_nil, List.append_nil, List.nil_append,
      List.append_assoc, ne_eq, not_true_eq_false, not_false_eq_true]
  exact ParsesFrom.pure _ entry

/-- An entry whose name fits is decoded from its encoding, whatever follows. -/
theorem decode_image (entry : FileEntry) (fits : (utf8 entry.name).length ≤ maxFilenameLen)
    (after : Bytes) : decode (entry.image ++ after) = .ok entry := by
  unfold decode
  rw [if_neg (by rw [List.length_append, entry.length_image fits]; omega)]
  exact parse_padded (entry.parses fits) (entry.length_encoding fits) after

end FileEntry

/-! ## Recipient slots -/

namespace RecipientSlot

/-- The bytes of a slot whose wrapped key fits. -/
def image (slot : RecipientSlot) : Bytes :=
  padTo recipientSlotSizeConst.toNat (slot.fields.flatten ++
    Writer.fixed ((sha256 slot.fields.flatten).toList.take 4) 4)

/-- A recipient with its check fits into a slot. -/
theorem length_encoding (slot : RecipientSlot) (fits : slot.wrappedDek.length ≤ wrappedDekLen) :
    (slot.fields.flatten ++ Writer.fixed ((sha256 slot.fields.flatten).toList.take 4) 4).length ≤
      recipientSlotSizeConst.toNat := by
  rw [List.length_append, FileEntry.fixed_crc, FileEntry.length_crc]
  simp only [fields, List.flatten_cons, List.flatten_nil, List.length_append, List.length_nil,
    Writer.u16, Writer.u32, Writer.i64, length_toLE, length_fixed fits,
    fixed_array, List.Vector.toList_length]
  decide

/-- A recipient with a short key is encoded. -/
theorem encode_eq (slot : RecipientSlot) (fits : slot.wrappedDek.length ≤ wrappedDekLen) :
    slot.encode = .ok slot.image :=
  assertFits_of_le (slot.length_encoding fits)

/-- Its encoding has the size of a slot. -/
theorem length_image (slot : RecipientSlot) (fits : slot.wrappedDek.length ≤ wrappedDekLen) :
    slot.image.length = recipientSlotSizeConst.toNat :=
  length_padTo (slot.length_encoding fits)

/-- The slot parser returns the slot whose fields were written. -/
theorem parses (slot : RecipientSlot) (fits : slot.wrappedDek.length ≤ wrappedDekLen) :
    ParsesFrom [] parse (slot.fields.flatten ++
      Writer.fixed ((sha256 slot.fields.flatten).toList.take 4) 4) slot := by
  have split : slot.fields.flatten ++ Writer.fixed ((sha256 slot.fields.flatten).toList.take 4) 4 =
      (slot.fields ++ [Writer.fixed ((sha256 slot.fields.flatten).toList.take 4) 4]).flatten := by
    rw [List.flatten_append, List.flatten_cons, List.flatten_nil, List.append_nil]
  rw [split, FileEntry.fixed_crc]
  generalize crcIs : (sha256 slot.fields.flatten).toList.take 4 = crc
  have crcLength : crc.length = 4 := by rw [← crcIs, FileEntry.length_crc]
  unfold parse fields
  simp only [List.cons_append, List.nil_append]
  refine (parses_array [] slot.signingPubkey).field ?_
  refine (parses_array _ slot.encryptionPubkey).field ?_
  refine (parses_prefixed _ _ fits (by decide)).field₂ ?_
  refine (parses_i64 _ slot.grantedAt).field ?_
  refine (parses_u32 _ slot.flags).field ?_
  refine (ParsesFrom.consumed _).check ?_
  refine (parses_bytes _ crcLength).field ?_
  refine (ParsesFrom.reject _ ?_).check ?_
  · rw [← crcIs]
    simp only [fields, List.flatten_cons, List.flatten_nil, List.append_nil, List.nil_append,
      List.append_assoc, ne_eq, not_true_eq_false, not_false_eq_true]
  exact ParsesFrom.pure _ slot

/-- A slot whose wrapped key fits is decoded from its encoding, whatever follows. -/
theorem decode_image (slot : RecipientSlot) (fits : slot.wrappedDek.length ≤ wrappedDekLen)
    (after : Bytes) : decode (slot.image ++ after) = .ok slot := by
  unfold decode
  rw [if_neg (by rw [List.length_append, slot.length_image fits]; omega)]
  exact parse_padded (slot.parses fits) (slot.length_encoding fits) after

end RecipientSlot

end Records

/-! ## Chain records -/

namespace ChainRecord

/-- The fields of a record fit into a slot of the chain. -/
theorem length_fields (record : ChainRecord) :
    record.fields.flatten.length ≤ chainRecordSizeConst.toNat := by
  simp only [fields, List.flatten_cons, List.flatten_nil, List.length_append, List.length_nil,
    Writer.u8, Writer.u128, Writer.u64, Writer.i64, length_toLE, fixed_array,
    List.Vector.toList_length]
  decide

/-- The encoding of a record has the size of a slot. -/
theorem length_encode (record : ChainRecord) :
    record.encode.length = chainRecordSizeConst.toNat :=
  length_padTo record.length_fields

/-- The record parser returns the record whose fields were written. -/
theorem parses (record : ChainRecord) :
    ParsesFrom [] parse record.fields.flatten (some record) := by
  unfold parse fields
  refine (parses_u64 [] record.seq).field ?_
  refine (parses_array _ record.prevHash).field ?_
  refine (parses_u8 _ record.op.toU8).field ?_
  refine (parses_u128 _ record.targetId).field ?_
  refine (parses_array _ record.dataHash).field ?_
  refine (parses_i64 _ record.timestamp).field ?_
  refine (parses_array _ record.recordHash).field ?_
  refine (parses_array _ record.signature).field ?_
  refine (parses_u8 _ 1).field ?_
  rw [if_neg (by decide)]
  intro after
  change Except.bind (Except.bind (ChainOp.fromU8 record.op.toU8) _) _ = _
  rw [ChainOp.fromU8_toU8, List.flatten_nil, List.append_nil]
  rfl

/-- Every chain record is decoded from its encoding, whatever follows. -/
theorem decode_encode (record : ChainRecord) (after : Bytes) :
    decode (record.encode ++ after) = .ok (some record) := by
  unfold decode
  rw [if_neg (by rw [List.length_append, record.length_encode]; omega)]
  exact parse_padded record.parses record.length_fields after

set_option maxRecDepth 4000 in
/-- An all-zero slot holds no record. -/
theorem decode_zero : decode (List.replicate chainRecordSizeConst.toNat 0) = .ok none := by
  rfl

/-- An all-zero slot holds no record, whatever follows it. -/
theorem decode_zero_append (after : Bytes) :
    decode (List.replicate chainRecordSizeConst.toNat 0 ++ after) = .ok none := by
  have sized : (List.replicate chainRecordSizeConst.toNat (0 : UInt8)).length =
      chainRecordSizeConst.toNat := List.length_replicate
  have alone := decode_zero
  unfold decode at alone ⊢
  rw [if_neg (by rw [sized]; omega), List.take_of_length_le (Nat.le_of_eq sized)] at alone
  rw [if_neg (by rw [List.length_append, sized]; omega), List.take_left' sized]
  exact alone

end ChainRecord

/-! ## The records together -/

/-- A record is encoded without a panic to so many bytes, and these are decoded to the value
given, whatever follows them. -/
def ReadsBack {α : Type} (encoded : Except Fault Bytes) (size : Nat)
    (decode : Bytes → Except VaultError α) (value : α) : Prop :=
  ∃ bytes, encoded = .ok bytes ∧ bytes.length = size ∧
    ∀ after, decode (bytes ++ after) = .ok value

/-- **Round trips.** Every record that fits its fields is written in its fixed size and read
back; the slots of a new container read as free ones. -/
theorem records_read_back [Primitives] :
    (∀ h : Header, h.Encodable → h.Structured →
      ReadsBack h.encode headerSize Header.decode h) ∧
    (∀ entry : FileEntry, (utf8 entry.name).length ≤ maxFilenameLen →
      ReadsBack entry.encode entrySizeConst.toNat FileEntry.decode entry) ∧
    (∀ slot : RecipientSlot, slot.wrappedDek.length ≤ wrappedDekLen →
      ReadsBack slot.encode recipientSlotSizeConst.toNat RecipientSlot.decode slot) ∧
    (∀ record : ChainRecord,
      ReadsBack (.ok record.encode) chainRecordSizeConst.toNat ChainRecord.decode
        (some record)) ∧
    ReadsBack (.ok (List.replicate chainRecordSizeConst.toNat 0)) chainRecordSizeConst.toNat
      ChainRecord.decode none ∧
    (∃ entry : FileEntry, entry.isOccupied = false ∧
      ReadsBack FileEntry.emptySlot entrySizeConst.toNat FileEntry.decode entry) ∧
    ∃ slot : RecipientSlot, slot.isOccupied = false ∧
      ReadsBack RecipientSlot.emptySlot recipientSlotSizeConst.toNat RecipientSlot.decode
        slot := by
  have entries : ∀ entry : FileEntry, (utf8 entry.name).length ≤ maxFilenameLen →
      ReadsBack entry.encode entrySizeConst.toNat FileEntry.decode entry :=
    fun entry fits => ⟨entry.image, entry.encode_eq fits, entry.length_image fits,
      entry.decode_image fits⟩
  have slots : ∀ slot : RecipientSlot, slot.wrappedDek.length ≤ wrappedDekLen →
      ReadsBack slot.encode recipientSlotSizeConst.toNat RecipientSlot.decode slot :=
    fun slot fits => ⟨slot.image, slot.encode_eq fits, slot.length_image fits,
      slot.decode_image fits⟩
  refine ⟨?_, entries, slots, ?_, ?_, ?_, ?_⟩
  · intro h encodable structured
    exact ⟨h.image, h.encode_eq encodable, h.length_image encodable,
      h.decode_image encodable structured⟩
  · exact fun record => ⟨record.encode, rfl, record.length_encode, record.decode_encode⟩
  · exact ⟨_, rfl, List.length_replicate, ChainRecord.decode_zero_append⟩
  · exact ⟨FileEntry.empty, rfl, entries FileEntry.empty (Nat.zero_le _)⟩
  · exact ⟨RecipientSlot.empty, rfl, slots RecipientSlot.empty (Nat.zero_le _)⟩

namespace Transparent

/-- The record of a file that was added. -/
def addedRecord : ChainRecord where
  seq := 1
  prevHash := List.Vector.replicate 32 1
  op := .fileAdded
  targetId := 2
  dataHash := List.Vector.replicate 32 3
  timestamp := 4
  recordHash := List.Vector.replicate 32 5
  signature := List.Vector.replicate 64 6

/-- The header that is written when a vault of 64 KiB is created. -/
def createdHeader : Header :=
  Vault.newHeader "notes" "of the week" 65536 (Vault.newMaxFiles 65536)
    (Vault.newMaxChainRecords (Vault.newMaxFiles 65536)) (List.replicate 60 7)
    ⟨List.Vector.replicate 32 8, List.Vector.replicate 32 9⟩ addedRecord
    { slotTime := 1, recordTime := 2, fileId := 3, salt := List.Vector.replicate saltLen 4,
      dek := zeroArr keyLen, slotNonce := zeroArr nonceLen,
      wraps := fun _ => (zeroArr 32, zeroArr nonceLen) }

/-- The header of the new vault can be encoded. -/
theorem createdHeader_encodable : createdHeader.Encodable := by
  constructor <;> decide

/-- Its regions are in order. -/
theorem createdHeader_structured : createdHeader.Structured := by
  constructor <;> decide

/-- The entry of a file of two blocks. -/
def storedEntry : FileEntry where
  id := 2
  name := "draft.txt"
  size := 5000
  blocksUsed := 2
  directBlocks := List.Vector.replicate directBlocksLen 1
  overflowBlock := 0
  fileHash := List.Vector.replicate 32 3
  createdAt := 4
  modifiedAt := 5
  flags := entryFlagOccupied

/-- The slot of a granted peer. -/
def grantedSlot : RecipientSlot where
  signingPubkey := List.Vector.replicate 32 1
  encryptionPubkey := List.Vector.replicate 32 2
  wrappedDek := List.replicate 60 3
  grantedAt := 4
  flags := recipientFlagOccupied

/-- The records of a vault that is in use. -/
theorem records_read_back_stored :
    ReadsBack createdHeader.encode headerSize Header.decode createdHeader ∧
    ReadsBack storedEntry.encode entrySizeConst.toNat FileEntry.decode storedEntry ∧
    ReadsBack grantedSlot.encode recipientSlotSizeConst.toNat RecipientSlot.decode grantedSlot ∧
    ReadsBack (.ok addedRecord.encode) chainRecordSizeConst.toNat ChainRecord.decode
      (some addedRecord) :=
  have together := records_read_back
  ⟨together.1 _ createdHeader_encodable createdHeader_structured,
    together.2.1 _ (by decide), together.2.2.1 _ (by decide), together.2.2.2.1 addedRecord⟩

end Transparent

end ReVault
