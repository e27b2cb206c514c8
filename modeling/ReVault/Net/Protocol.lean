import Mathlib.Algebra.GroupWithZero.Nat
import ReVault.Core.FormatRoundTrip
import ReVault.Foundation.Fallible

/-!
# Frames and sync messages

A frame is a length and that many bytes, at most `maxFrameLen`. The sync messages are
written with explicit widths behind a tag byte.
-/

namespace ReVault

open Foundation

/-- The longest frame, 64 MiB. -/
abbrev maxFrameLen : Nat := 64 * 1024 * 1024

/-- One end of a byte stream: what will arrive before it ends and has not been read, and
what has been written. -/
structure Stream where
  incoming : Bytes
  outgoing : Bytes
  deriving DecidableEq

/-- Programs on a byte stream. -/
abbrev StreamM := EStateM Fault Stream

namespace Stream

/-- Reads exactly so many bytes; a stream that ends before is an I/O error. -/
def readExactly (count : Nat) : StreamM Bytes := fun stream =>
  if stream.incoming.length < count then
    .error (.error .io) { stream with incoming := [] }
  else .ok (stream.incoming.take count) { stream with incoming := stream.incoming.drop count }

/-- A length, then so many bytes; a length beyond the limit is refused unread. -/
def readFrame : StreamM Bytes := do
  let lenBuf ← readExactly 4
  if ofLE lenBuf > maxFrameLen then throw (.error .io)
  else readExactly (ofLE lenBuf)

/-- A frame as it is written. -/
def frame (data : Bytes) : Bytes := toLE 4 data.length ++ data

/-- A frame beyond the limit is not written. -/
def writeFrame (data : Bytes) : StreamM Unit :=
  if data.length > maxFrameLen then throw (.error .io)
  else modify fun stream => { stream with outgoing := stream.outgoing ++ frame data }

/-- The bytes written are never taken back. -/
def Grows (stream stream' : Stream) : Prop := stream.outgoing <+: stream'.outgoing

/-- Nothing is written. -/
theorem Grows.refl (stream : Stream) : Grows stream stream := List.prefix_rfl

/-- Writing after writing. -/
theorem Grows.trans (first second third : Stream) (head : Grows first second)
    (tail : Grows second third) : Grows first third := List.IsPrefix.trans head tail

/-- Nothing is written. -/
def Quiet (stream stream' : Stream) : Prop := stream'.outgoing = stream.outgoing

/-- Nothing is written. -/
theorem Quiet.refl (stream : Stream) : Quiet stream stream := rfl

/-- Quiet steps one after the other. -/
theorem Quiet.trans (first second third : Stream) (head : Quiet first second)
    (tail : Quiet second third) : Quiet first third := Eq.trans tail head

/-- What is quiet writes nothing. -/
theorem Quiet.grows (stream stream' : Stream) (quiet : Quiet stream stream') :
    Grows stream stream' :=
  ⟨[], (List.append_nil _).trans (Eq.symm quiet)⟩

/-- Reading bytes is quiet. -/
theorem readExactly_quiet (count : Nat) : Moves Quiet (readExactly count) := by
  intro stream
  unfold readExactly
  split <;> exact Quiet.refl stream

/-- Reading a frame is quiet. -/
theorem readFrame_quiet : Moves Quiet readFrame := by
  refine Moves.bind Quiet.trans (readExactly_quiet 4) fun lenBuf => ?_
  split
  · exact Moves.throw Quiet.refl _
  · exact readExactly_quiet _

/-- A frame is written behind what was written before. -/
theorem writeFrame_grows (data : Bytes) : Moves Grows (writeFrame data) := by
  unfold writeFrame
  split
  · exact Moves.throw Grows.refl _
  · exact fun stream => List.prefix_append stream.outgoing (frame data)

/-- What was read was at the front of what had arrived. -/
theorem readExactly_spec {count : Nat} {stream rest : Stream} {data : Bytes}
    (read : readExactly count stream = .ok data rest) : data.length = count ∧
      stream.incoming = data ++ rest.incoming ∧ rest.outgoing = stream.outgoing := by
  unfold readExactly at read
  split at read
  · cases read
  · rename_i enough
    cases read
    refine ⟨?_, (List.take_append_drop count stream.incoming).symm, rfl⟩
    rw [List.length_take, Nat.min_eq_left (Nat.le_of_not_lt enough)]

/-- A frame that is read is not too long. -/
theorem length_of_readFrame {stream rest : Stream} {data : Bytes}
    (read : readFrame stream = .ok data rest) : data.length ≤ maxFrameLen := by
  obtain ⟨lenBuf, middle, _, read⟩ := bind_eq_ok_iff.mp read
  split at read
  · cases read
  · rename_i short
    rw [(readExactly_spec read).1]
    exact Nat.le_of_not_lt short

/-- Bytes at the front are read. -/
theorem readExactly_of_append (front rest outgoing : Bytes) :
    readExactly front.length ⟨front ++ rest, outgoing⟩ = .ok front ⟨rest, outgoing⟩ := by
  have enough : ¬ (front ++ rest).length < front.length := by
    simp only [List.length_append, Nat.not_lt, Nat.le_add_right]
  simp only [readExactly, if_neg enough, List.take_left, List.drop_left]

/-- A frame that is short enough is read back, whatever follows. -/
theorem readFrame_of_frame {data rest outgoing : Bytes} (short : data.length ≤ maxFrameLen) :
    readFrame ⟨frame data ++ rest, outgoing⟩ = .ok data ⟨rest, outgoing⟩ := by
  have length : ofLE (toLE 4 data.length) = data.length :=
    ofLE_toLE_of_lt (Nat.lt_of_le_of_lt short (by decide))
  have first : readExactly 4 ⟨frame data ++ rest, outgoing⟩ =
      .ok (toLE 4 data.length) ⟨data ++ rest, outgoing⟩ := by
    have whole := readExactly_of_append (toLE 4 data.length) (data ++ rest) outgoing
    rw [length_toLE] at whole
    unfold frame
    rw [List.append_assoc]
    exact whole
  unfold readFrame
  rw [bind_of_ok first, length, if_neg (Nat.not_lt.mpr short)]
  exact readExactly_of_append _ _ _

/-- A frame at the front of what will arrive is read. -/
theorem readFrame_of_incoming {stream : Stream} {data rest : Bytes}
    (incoming : stream.incoming = frame data ++ rest) (short : data.length ≤ maxFrameLen) :
    readFrame stream = .ok data { stream with incoming := rest } := by
  have found : readFrame ⟨frame data ++ rest, stream.outgoing⟩ = .ok data ⟨rest, stream.outgoing⟩ :=
    readFrame_of_frame short
  rw [← incoming] at found
  exact found

/-- What was read was a frame at the front of what had arrived. -/
theorem incoming_of_readFrame {stream rest : Stream} {data : Bytes}
    (read : readFrame stream = .ok data rest) :
    stream.incoming = frame data ++ rest.incoming ∧ rest.outgoing = stream.outgoing := by
  obtain ⟨lenBuf, middle, first, read⟩ := bind_eq_ok_iff.mp read
  split at read
  · cases read
  · obtain ⟨four, front, same⟩ := readExactly_spec first
    obtain ⟨sized, body, same'⟩ := readExactly_spec read
    have length : toLE 4 data.length = lenBuf := by
      rw [sized, ← four]
      exact toLE_ofLE lenBuf
    rw [front, body, frame, length, List.append_assoc]
    exact ⟨rfl, same'.trans same⟩

/-- A frame within the limit is written. -/
theorem writeFrame_of_le {data : Bytes} (short : data.length ≤ maxFrameLen) (stream : Stream) :
    writeFrame data stream =
      .ok () { stream with outgoing := stream.outgoing ++ frame data } := by
  unfold writeFrame
  rw [if_neg (Nat.not_lt.mpr short)]
  rfl

/-- One beyond it is not. -/
theorem writeFrame_of_lt {data : Bytes} (long : maxFrameLen < data.length) (stream : Stream) :
    writeFrame data stream = .error (.error .io) stream := by
  unfold writeFrame
  rw [if_pos long]
  rfl

end Stream

/-! ## Text from bytes that may not be UTF-8 -/

/-- The continuation bytes that a first byte asks for, with the bounds of the first one. -/
def continuation (lead : UInt8) : Option (Nat × UInt8 × UInt8) :=
  if lead < 0x80 then some (0, 0x80, 0xBF)
  else if lead < 0xC2 then none
  else if lead < 0xE0 then some (1, 0x80, 0xBF)
  else if lead = 0xE0 then some (2, 0xA0, 0xBF)
  else if lead = 0xED then some (2, 0x80, 0x9F)
  else if lead < 0xF0 then some (2, 0x80, 0xBF)
  else if lead = 0xF0 then some (3, 0x90, 0xBF)
  else if lead < 0xF4 then some (3, 0x80, 0xBF)
  else if lead = 0xF4 then some (3, 0x80, 0x8F)
  else none

/-- How many of the wanted continuation bytes follow. -/
def continued : (wanted : Nat) → (low high : UInt8) → Bytes → Nat
  | 0, _, _, _ => 0
  | _ + 1, _, _, [] => 0
  | wanted + 1, low, high, byte :: rest =>
      if low ≤ byte ∧ byte ≤ high then continued wanted 0x80 0xBF rest + 1 else 0

/-- Decodes sequence by sequence; the longest start of a broken one is replaced. -/
def replacing : Bytes → String
  | [] => ""
  | lead :: rest =>
      match continuation lead with
      | none => "\uFFFD" ++ replacing rest
      | some (wanted, low, high) =>
          let found := continued wanted low high rest
          (if found = wanted then (fromUtf8? (lead :: rest.take found)).getD "\uFFFD"
            else "\uFFFD") ++ replacing (rest.drop found)
termination_by bytes => bytes.length
decreasing_by
  · simp only [List.length_cons, Nat.lt_add_one]
  · simp only [List.length_cons, List.length_drop]
    omega

/-- The text of a byte string, with replacement characters where it is not UTF-8. -/
def fromUtf8Lossy (bytes : Bytes) : String := (fromUtf8? bytes).getD (replacing bytes)

/-- A text is read back. -/
@[simp] theorem fromUtf8Lossy_utf8 (text : String) : fromUtf8Lossy (utf8 text) = text := by
  simp only [fromUtf8Lossy, fromUtf8?_utf8, Option.getD_some]

/-! ## Sync messages -/

/-- The messages of a sync. -/
inductive SyncMessage where
  | chainState (nextSeq : UInt64) (lastHash : ByteArr 32)
  | patch (seq : UInt64) (ranges : List (UInt64 × Bytes))
  | fullSync (bytes : Bytes)
  | upToDate
  | error (message : String)
  deriving DecidableEq

namespace SyncMessage

/-- A range as it is written: the offset, the length and the data. -/
def encodeRange (range : UInt64 × Bytes) : Bytes :=
  Writer.u64 range.1 ++ (toLE 4 range.2.length ++ range.2)

/-- A tag, then the fields of the message. -/
def encode : SyncMessage → Bytes
  | chainState nextSeq lastHash => 1 :: (Writer.u64 nextSeq ++ lastHash.toList)
  | patch seq ranges =>
      2 :: (Writer.u64 seq ++ (toLE 4 ranges.length ++ (ranges.map encodeRange).flatten))
  | fullSync bytes => 3 :: (toLE 8 bytes.length ++ bytes)
  | upToDate => [4]
  | error message => 5 :: (toLE 4 (utf8 message).length ++ utf8 message)

/-- Takes so many bytes, which the message must still have. -/
def need (count : Nat) : Parser VaultError Bytes :=
  Parser.take (.corruptContainer "truncated sync message") count

/-- A little-endian number of so many bytes. -/
def number (width : Nat) : Parser VaultError Nat := do
  let raw ← need width
  pure (ofLE raw)

/-- One piece of a patch. -/
def parseRange : Parser VaultError (UInt64 × Bytes) := do
  let offset ← number 8
  let len ← number 4
  let data ← need len
  pure (UInt64.ofNat offset, data)

/-- So many pieces of a patch. -/
def parseRanges : (count : Nat) → Parser VaultError (List (UInt64 × Bytes))
  | 0 => pure []
  | count + 1 => do
      let range ← parseRange
      let rest ← parseRanges count
      pure (range :: rest)

/-- The body of a message, by its tag. -/
def parse (tag : UInt8) : Parser VaultError SyncMessage :=
  if tag = 1 then do
    let nextSeq ← number 8
    let lastHash ← need 32
    pure (chainState (UInt64.ofNat nextSeq) ((toArr? 32 lastHash).getD (zeroArr 32)))
  else if tag = 2 then do
    let seq ← number 8
    let count ← number 4
    let ranges ← parseRanges count
    pure (patch (UInt64.ofNat seq) ranges)
  else if tag = 3 then do
    let len ← number 8
    let bytes ← need len
    pure (fullSync bytes)
  else if tag = 4 then pure upToDate
  else if tag = 5 then do
    let len ← number 4
    let message ← need len
    pure (error (fromUtf8Lossy message))
  else fun _ => .error (.corruptContainer "unknown sync message tag")

/-- A message by its tag; what stands after it is left alone. -/
def decode (buf : Bytes) : Except VaultError SyncMessage :=
  match buf with
  | [] => .error (.corruptContainer "empty sync message")
  | tag :: _ => (parse tag ⟨buf, 1⟩).map Prod.fst

/-! ## Reading back what was written -/

/-- Bytes are read back. -/
theorem parses_need (before : Bytes) {count : Nat} {encoding : Bytes}
    (sized : encoding.length = count) : ParsesFrom before (need count) encoding encoding :=
  ParsesFrom.take before _ sized

/-- A number is read back. -/
theorem parses_number (before : Bytes) {width value : Nat} (small : value < 256 ^ width) :
    ParsesFrom before (number width) (toLE width value) value := by
  have parsed := (parses_need before (length_toLE width value)).map ofLE
  rwa [ofLE_toLE_of_lt small] at parsed

/-- A number of eight bytes is read back. -/
theorem parses_u64 (before : Bytes) (value : UInt64) :
    ParsesFrom before (number 8) (Writer.u64 value) value.toNat :=
  parses_number before (UInt64.toNat_lt value)

/-- The decoder reads a message back from a body that its parser reads. -/
theorem decode_of_parses {tag : UInt8} {body : Bytes} {message : SyncMessage}
    (parses : ParsesFrom [tag] (parse tag) body message) (after : Bytes) :
    decode (tag :: (body ++ after)) = .ok message := by
  have read := parses after
  simp only [List.singleton_append, List.length_singleton] at read
  simp only [decode, read]
  rfl

/-- The lengths of a message fit the widths they are written in. -/
def Fits : SyncMessage → Prop
  | chainState _ _ => True
  | patch _ ranges => ranges.length < 2 ^ 32 ∧ ∀ range ∈ ranges, range.2.length < 2 ^ 32
  | fullSync bytes => bytes.length < 2 ^ 64
  | upToDate => True
  | error message => (utf8 message).length < 2 ^ 32

/-- A range is read back. -/
theorem parses_range (before : Bytes) {range : UInt64 × Bytes} (fits : range.2.length < 2 ^ 32) :
    ParsesFrom before parseRange (encodeRange range) range := by
  refine (parses_u64 before range.1).bind ?_
  refine (parses_number _ (Nat.lt_of_lt_of_le fits (by decide))).bind ?_
  have parsed := (parses_need (before ++ Writer.u64 range.1 ++ toLE 4 range.2.length)
    (rfl : range.2.length = _)).map fun data => (UInt64.ofNat range.1.toNat, data)
  simpa only [UInt64.ofNat_toNat] using parsed

/-- So are several. -/
theorem parses_ranges (before : Bytes) {ranges : List (UInt64 × Bytes)}
    (fits : ∀ range ∈ ranges, range.2.length < 2 ^ 32) :
    ParsesFrom before (parseRanges ranges.length) (ranges.map encodeRange).flatten ranges := by
  induction ranges generalizing before with
  | nil => exact ParsesFrom.pure before []
  | cons range rest ih =>
      rw [List.map_cons, List.flatten_cons]
      refine (parses_range before (fits range List.mem_cons_self)).bind ?_
      exact (ih _ fun other member => fits other (List.mem_cons_of_mem _ member)).map
        fun rest => range :: rest

/-- A message is written as a tag and a body that the parser of the tag reads. -/
theorem exists_parses {message : SyncMessage} (fits : message.Fits) :
    ∃ tag body, message.encode = tag :: body ∧ ParsesFrom [tag] (parse tag) body message := by
  cases message with
  | chainState nextSeq lastHash =>
      refine ⟨1, _, rfl, (parses_u64 _ nextSeq).bind ?_⟩
      have parsed := (parses_need ([1] ++ Writer.u64 nextSeq) lastHash.toList_length).map
        fun raw => chainState (UInt64.ofNat nextSeq.toNat) ((toArr? 32 raw).getD (zeroArr 32))
      simpa only [toArr?_toList, Option.getD_some, UInt64.ofNat_toNat] using parsed
  | patch seq ranges =>
      refine ⟨2, _, rfl, (parses_u64 _ seq).bind ?_⟩
      refine (parses_number _ (Nat.lt_of_lt_of_le fits.1 (by decide))).bind ?_
      have parsed := (parses_ranges ([2] ++ Writer.u64 seq ++ toLE 4 ranges.length) fits.2).map
        (patch (UInt64.ofNat seq.toNat))
      simpa only [UInt64.ofNat_toNat] using parsed
  | fullSync bytes =>
      refine ⟨3, _, rfl, (parses_number _ (Nat.lt_of_lt_of_le fits (by decide))).bind ?_⟩
      exact (parses_need _ rfl).map fullSync
  | upToDate => exact ⟨4, [], rfl, ParsesFrom.pure _ upToDate⟩
  | error message =>
      refine ⟨5, _, rfl, (parses_number _ (Nat.lt_of_lt_of_le fits (by decide))).bind ?_⟩
      have parsed := (parses_need ([5] ++ toLE 4 (utf8 message).length)
        (rfl : (utf8 message).length = _)).map fun raw => error (fromUtf8Lossy raw)
      rwa [fromUtf8Lossy_utf8] at parsed

/-- A message that fits is decoded from its encoding, whatever follows. -/
theorem decode_encode_append {message : SyncMessage} (fits : message.Fits) (after : Bytes) :
    decode (message.encode ++ after) = .ok message := by
  obtain ⟨tag, body, written, parses⟩ := exists_parses fits
  rw [written]
  exact decode_of_parses parses after

/-- A peer's chain state is read back. -/
theorem decode_chainState (nextSeq : UInt64) (lastHash : ByteArr 32) :
    decode (chainState nextSeq lastHash).encode = .ok (chainState nextSeq lastHash) := by
  have fits : (chainState nextSeq lastHash).Fits := trivial
  have decoded := decode_encode_append fits []
  rwa [List.append_nil] at decoded

/-- A container whose length is a 64-bit number is read back. -/
theorem decode_fullSync {bytes : Bytes} (small : bytes.length < 2 ^ 64) :
    decode (fullSync bytes).encode = .ok (fullSync bytes) := by
  have fits : (fullSync bytes).Fits := small
  have decoded := decode_encode_append fits []
  rwa [List.append_nil] at decoded

/-! ## Lengths -/

/-- A full copy takes its length and nine bytes. -/
theorem length_encode_fullSync (bytes : Bytes) :
    (fullSync bytes).encode.length = bytes.length + 9 := by
  simp only [encode, List.length_cons, List.length_append, length_toLE]
  omega

/-- A patch takes its pieces, with twelve bytes each and thirteen more. -/
theorem length_encode_patch (seq : UInt64) (ranges : List (UInt64 × Bytes)) :
    (patch seq ranges).encode.length =
      13 + (ranges.map fun range => 12 + range.2.length).sum := by
  have range : ∀ range : UInt64 × Bytes,
      (encodeRange range).length = 12 + range.2.length := by
    intro range
    simp only [encodeRange, Writer.u64, List.length_append, length_toLE]
    omega
  have whole : (List.map List.length (ranges.map encodeRange)) =
      ranges.map fun range => 12 + range.2.length := by
    rw [List.map_map]
    exact List.map_congr_left fun item _ => range item
  simp only [encode, Writer.u64, List.length_cons, List.length_append, length_toLE,
    List.length_flatten, whole]
  omega

end SyncMessage

end ReVault
