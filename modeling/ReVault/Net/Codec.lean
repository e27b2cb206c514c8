import ReVault.Core.Storage
import ReVault.Net.Protocol

/-!
# The sync message codec

What the decoder accepts was written by the encoder, except for the text of an error, and
nothing behind it is looked at. `decodeAt` is the decoder as it moves a position by hand,
with every slice that leaves the buffer a panic: it never panics.
-/

namespace ReVault

open Foundation

namespace SyncMessage

/-- Error messages are the ones whose bytes may be replaced when they are read. -/
def isError : SyncMessage → Bool
  | error _ => true
  | _ => false

/-! ## What the decoder accepts -/

/-- Bytes that are taken are those that are read. -/
theorem consumes_need (count : Nat) : Consumes (need count) fun found encoding =>
    encoding = found ∧ found.length = count :=
  Consumes.take _ count

/-- A number is read from its bytes. -/
theorem consumes_number (width : Nat) : Consumes (number width) fun found encoding =>
    encoding = toLE width found ∧ found < 256 ^ width := by
  refine ((consumes_need width).bind fun raw => Consumes.pure (ofLE raw)).mono ?_
  rintro found _ ⟨raw, first, _, rfl, ⟨rfl, sized⟩, rfl, rfl⟩
  rw [List.append_nil, ← sized]
  exact ⟨(toLE_ofLE first).symm, ofLE_lt first⟩

/-- A number of eight bytes is a 64-bit number. -/
theorem toLE_eq_u64 {value : Nat} (small : value < 256 ^ 8) :
    toLE 8 value = Writer.u64 (UInt64.ofNat value) := by
  unfold Writer.u64
  rw [UInt64.toNat_ofNat_of_lt' small]

/-- A range is read from its encoding. -/
theorem consumes_range : Consumes parseRange fun range encoding =>
    encoding = encodeRange range := by
  refine ((consumes_number 8).bind fun offset => (consumes_number 4).bind fun len =>
    (consumes_need len).bind fun data => Consumes.pure (UInt64.ofNat offset, data)).mono ?_
  rintro range _ ⟨offset, _, _, rfl, ⟨rfl, small⟩, len, _, _, rfl, ⟨rfl, _⟩, data, _, _, rfl,
    ⟨rfl, rfl⟩, rfl, rfl⟩
  rw [List.append_nil, toLE_eq_u64 small]
  rfl

/-- So are several. -/
theorem consumes_ranges (count : Nat) : Consumes (parseRanges count) fun ranges encoding =>
    ranges.length = count ∧ encoding = (ranges.map encodeRange).flatten := by
  induction count with
  | zero =>
      refine (Consumes.pure []).mono ?_
      rintro ranges _ ⟨rfl, rfl⟩
      exact ⟨rfl, rfl⟩
  | succ count ih =>
      refine (consumes_range.bind fun range => ih.bind fun rest =>
        Consumes.pure (range :: rest)).mono ?_
      rintro ranges _ ⟨range, _, _, rfl, rfl, rest, _, _, rfl, ⟨rfl, rfl⟩, rfl, rfl⟩
      rw [List.append_nil, List.map_cons, List.flatten_cons]
      exact ⟨rfl, rfl⟩

/-- The parser of a tag accepts what the encoder writes behind it, errors apart. -/
theorem consumes_parse (tag : UInt8) : Consumes (parse tag) fun message encoding =>
    message.isError = false → message.encode = tag :: encoding := by
  unfold parse
  split
  · rename_i is
    refine ((consumes_number 8).bind fun nextSeq => (consumes_need 32).bind fun lastHash =>
      Consumes.pure (chainState (UInt64.ofNat nextSeq)
        ((toArr? 32 lastHash).getD (zeroArr 32)))).mono ?_
    rintro message _ ⟨nextSeq, _, _, rfl, ⟨rfl, small⟩, lastHash, _, _, rfl, ⟨rfl, sized⟩, rfl,
      rfl⟩ _
    rw [List.append_nil, toLE_eq_u64 small, is, encode, toList_toArr? sized]
  split
  · rename_i is
    refine ((consumes_number 8).bind fun seq => (consumes_number 4).bind fun count =>
      (consumes_ranges count).bind fun ranges =>
        Consumes.pure (patch (UInt64.ofNat seq) ranges)).mono ?_
    rintro message _ ⟨seq, _, _, rfl, ⟨rfl, small⟩, count, _, _, rfl, ⟨rfl, _⟩, ranges, _, _, rfl,
      ⟨rfl, rfl⟩, rfl, rfl⟩ _
    rw [List.append_nil, toLE_eq_u64 small, is, encode]
  split
  · rename_i is
    refine ((consumes_number 8).bind fun len => (consumes_need len).bind fun bytes =>
      Consumes.pure (fullSync bytes)).mono ?_
    rintro message _ ⟨len, _, _, rfl, ⟨rfl, _⟩, bytes, _, _, rfl, ⟨rfl, rfl⟩, rfl, rfl⟩ _
    rw [List.append_nil, is, encode]
  split
  · rename_i is
    refine (Consumes.pure upToDate).mono ?_
    rintro message _ ⟨rfl, rfl⟩ _
    rw [is, encode]
  split
  · refine ((consumes_number 4).bind fun len => (consumes_need len).bind fun raw =>
      Consumes.pure (error (fromUtf8Lossy raw))).mono ?_
    rintro message _ ⟨len, _, _, rfl, _, raw, _, _, rfl, _, rfl, rfl⟩ plain
    cases plain
  · exact Consumes.fail _ _

/-- What was decoded: the body behind the tag, and anything after it. -/
theorem exists_of_decode {buf : Bytes} {message : SyncMessage}
    (decoded : decode buf = .ok message) : ∃ tag body after, buf = tag :: (body ++ after) ∧
      (message.isError = false → message.encode = tag :: body) ∧
      ParsesFrom [tag] (parse tag) body message := by
  cases buf with
  | nil => cases decoded
  | cons tag rest =>
      have same : decode (tag :: rest) = (parse tag ⟨[tag] ++ rest, [tag].length⟩).map Prod.fst :=
        rfl
      rw [same] at decoded
      cases ran : parse tag ⟨[tag] ++ rest, [tag].length⟩ with
      | error reason =>
          rw [ran] at decoded
          cases decoded
      | ok result =>
          rw [ran] at decoded
          cases decoded
          obtain ⟨body, after, rfl, encoded, _, parses⟩ := consumes_parse tag [tag] rest _ _ ran
          exact ⟨tag, body, after, rfl, encoded, parses⟩

/-- Two parses of one buffer stop at the same place. -/
theorem length_eq_of_parses {tag : UInt8} {body body' after after' : Bytes}
    {message message' : SyncMessage} (parses : ParsesFrom [tag] (parse tag) body message)
    (parses' : ParsesFrom [tag] (parse tag) body' message')
    (same : body ++ after = body' ++ after') : body.length = body'.length := by
  have first := parses after
  rw [same, parses' after'] at first
  have reached : ([tag] ++ body').length = ([tag] ++ body).length :=
    congrArg (fun result => result.2.pos) (Except.ok.inj first)
  simp only [List.length_append, List.length_singleton] at reached
  omega

/-- No proper prefix of an encoding is accepted. -/
theorem decode_of_prefix {message : SyncMessage} (fits : message.Fits) {front : Bytes}
    (isPrefix : front <+: message.encode) (proper : front ≠ message.encode) :
    ∃ reason, decode front = .error reason := by
  cases decoded : decode front with
  | error reason => exact ⟨reason, rfl⟩
  | ok found =>
      obtain ⟨tag, body, written, parses⟩ := exists_parses fits
      obtain ⟨tag', body', after, rfl, _, parses'⟩ := exists_of_decode decoded
      obtain ⟨more, whole⟩ := isPrefix
      rw [written, List.cons_append, List.cons.injEq, List.append_assoc] at whole
      obtain ⟨rfl, whole⟩ := whole
      have same : body' ++ (after ++ more) = body ++ [] := by rw [whole, List.append_nil]
      have sized : body'.length = body.length := length_eq_of_parses parses' parses same
      have sizes := congrArg List.length whole
      simp only [List.length_append] at sizes
      have none : more = [] := List.eq_nil_of_length_eq_zero (by omega)
      rw [none, List.append_nil] at whole
      exact absurd (by rw [written, whole]) proper

/-! ## The decoder by positions -/

/-- The check before a slice: the end is a 64-bit number inside the buffer. -/
def needAt (buf : Bytes) (pos count : Nat) : Except Fault Unit :=
  if pos + count < 2 ^ 64 ∧ pos + count ≤ buf.length then .ok ()
  else .error (.error (.corruptContainer "truncated sync message"))

/-- A slice of the buffer; one that is not inside it panics. -/
def sliceAt (buf : Bytes) (start stop : Nat) : Except Fault Bytes :=
  if start ≤ stop ∧ stop ≤ buf.length then .ok ((buf.drop start).take (stop - start))
  else .error .panic

/-- A little-endian number in a slice of the buffer. -/
def numberAt (buf : Bytes) (start stop : Nat) : Except Fault Nat := do
  let raw ← sliceAt buf start stop
  .ok (ofLE raw)

/-- Copies a slice into an array, which panics when the lengths differ. -/
def arrayAt (count : Nat) (buf : Bytes) (start stop : Nat) : Except Fault (ByteArr count) := do
  let raw ← sliceAt buf start stop
  match toArr? count raw with
  | some array => .ok array
  | none => .error .panic

/-- The ranges of a patch, from a position. -/
def rangesAt (buf : Bytes) : (count pos : Nat) → Except Fault (List (UInt64 × Bytes))
  | 0, _ => .ok []
  | count + 1, pos => do
      needAt buf pos (8 + 4)
      let offset ← numberAt buf pos (pos + 8)
      let len ← numberAt buf (pos + 8) (pos + 8 + 4)
      needAt buf (pos + 8 + 4) len
      let data ← sliceAt buf (pos + 8 + 4) (pos + 8 + 4 + len)
      let rest ← rangesAt buf count (pos + 8 + 4 + len)
      .ok ((UInt64.ofNat offset, data) :: rest)

/-- The decoder as the source moves its position, check by check and slice by slice. -/
def decodeAt (buf : Bytes) : Except Fault SyncMessage :=
  match buf with
  | [] => .error (.error (.corruptContainer "empty sync message"))
  | tag :: _ =>
      if tag = 1 then do
        needAt buf 1 (8 + 32)
        let nextSeq ← numberAt buf 1 (1 + 8)
        let lastHash ← arrayAt 32 buf (1 + 8) (1 + 8 + 32)
        .ok (chainState (UInt64.ofNat nextSeq) lastHash)
      else if tag = 2 then do
        needAt buf 1 (8 + 4)
        let seq ← numberAt buf 1 (1 + 8)
        let count ← numberAt buf (1 + 8) (1 + 8 + 4)
        let ranges ← rangesAt buf count (1 + 8 + 4)
        .ok (patch (UInt64.ofNat seq) ranges)
      else if tag = 3 then do
        needAt buf 1 8
        let len ← numberAt buf 1 (1 + 8)
        needAt buf (1 + 8) len
        let bytes ← sliceAt buf (1 + 8) (1 + 8 + len)
        .ok (fullSync bytes)
      else if tag = 4 then .ok upToDate
      else if tag = 5 then do
        needAt buf 1 4
        let len ← numberAt buf 1 (1 + 4)
        needAt buf (1 + 4) len
        let message ← sliceAt buf (1 + 4) (1 + 4 + len)
        .ok (error (fromUtf8Lossy message))
      else .error (.error (.corruptContainer "unknown sync message tag"))

section Positions

variable {buf : Bytes} {pos count : Nat}

/-- A slice within the bytes. -/
theorem sliceAt_of_le (inside : pos + count ≤ buf.length) :
    sliceAt buf pos (pos + count) = .ok ((buf.drop pos).take count) := by
  unfold sliceAt
  rw [if_pos ⟨Nat.le_add_right .., inside⟩, Nat.add_sub_cancel_left]

/-- A number within the bytes. -/
theorem numberAt_of_le (inside : pos + count ≤ buf.length) :
    numberAt buf pos (pos + count) = .ok (ofLE ((buf.drop pos).take count)) :=
  except_bind_of_ok (sliceAt_of_le inside)

/-- An array within the bytes. -/
theorem arrayAt_of_le (inside : pos + count ≤ buf.length) :
    arrayAt count buf pos (pos + count) =
      .ok ((toArr? count ((buf.drop pos).take count)).getD (zeroArr count)) := by
  have sized : ((buf.drop pos).take count).length = count := by
    rw [List.length_take, List.length_drop]
    omega
  unfold arrayAt
  rw [except_bind_of_ok (sliceAt_of_le inside)]
  unfold toArr?
  rw [dif_pos sized]
  rfl

/-- Bytes that are there are enough. -/
theorem needAt_of_le (small : buf.length < 2 ^ 64) (inside : pos + count ≤ buf.length) :
    needAt buf pos count = .ok () :=
  if_pos ⟨Nat.lt_of_le_of_lt inside small, inside⟩

/-- Bytes that are missing are an error. -/
theorem needAt_of_lt (outside : buf.length < pos + count) :
    needAt buf pos count = .error (.error (.corruptContainer "truncated sync message")) :=
  if_neg fun both => Nat.not_le.mpr outside both.2

/-- Bytes that are there are taken. -/
theorem need_of_le (inside : pos + count ≤ buf.length) :
    need count ⟨buf, pos⟩ = .ok ((buf.drop pos).take count, ⟨buf, pos + count⟩) :=
  Parser.take_of_le inside

/-- A number that is there is read. -/
theorem number_of_le (inside : pos + count ≤ buf.length) :
    number count ⟨buf, pos⟩ = .ok (ofLE ((buf.drop pos).take count), ⟨buf, pos + count⟩) :=
  Parser.bind_of_ok (need_of_le inside)

/-- Bytes that are missing are not taken. -/
theorem need_of_lt (outside : buf.length < pos + count) :
    need count ⟨buf, pos⟩ = .error (.corruptContainer "truncated sync message") :=
  Parser.take_of_lt outside

/-- A number that is missing is not read. -/
theorem number_of_lt (outside : buf.length < pos + count) :
    number count ⟨buf, pos⟩ = .error (.corruptContainer "truncated sync message") :=
  Parser.bind_of_error (need_of_lt outside)

end Positions

/-- The value of a parse, with its error as a fault. -/
def outcome {α : Type} (result : Except VaultError (α × Cursor)) : Except Fault α :=
  checked (result.map Prod.fst)

section Agreement

variable {α : Type} {buf : Bytes} (small : buf.length < 2 ^ 64) (pos : Nat)

include small

/-- A slice is taken as the parser takes it. -/
theorem sliceAt_agrees (count : Nat) {next : Bytes → Parser VaultError α}
    {nextAt : Bytes → Except Fault α}
    (agrees : ∀ raw, nextAt raw = outcome (next raw ⟨buf, pos + count⟩)) :
    (do
      needAt buf pos count
      let raw ← sliceAt buf pos (pos + count)
      nextAt raw) = outcome ((need count >>= next) ⟨buf, pos⟩) := by
  by_cases inside : pos + count ≤ buf.length
  · rw [except_bind_of_ok (needAt_of_le small inside), except_bind_of_ok (sliceAt_of_le inside),
      Parser.bind_of_ok (need_of_le inside)]
    exact agrees _
  · rw [except_bind_of_error (needAt_of_lt (Nat.lt_of_not_le inside)),
      Parser.bind_of_error (need_of_lt (Nat.lt_of_not_le inside))]
    rfl

/-- A number is read as the parser reads it. -/
theorem numberAt_agrees (width : Nat) {next : Nat → Parser VaultError α}
    {nextAt : Nat → Except Fault α}
    (agrees : ∀ value, nextAt value = outcome (next value ⟨buf, pos + width⟩)) :
    (do
      needAt buf pos width
      let value ← numberAt buf pos (pos + width)
      nextAt value) = outcome ((number width >>= next) ⟨buf, pos⟩) := by
  have whole : (do
      needAt buf pos width
      let raw ← sliceAt buf pos (pos + width)
      nextAt (ofLE raw)) = outcome ((need width >>= fun raw => next (ofLE raw)) ⟨buf, pos⟩) :=
    sliceAt_agrees small pos width fun raw => agrees (ofLE raw)
  unfold numberAt number
  simp only [bind_assoc, pure_bind]
  exact whole

/-- Two numbers are read after one check as the parser reads them after two. -/
theorem numbersAt_agree (first second : Nat) {next : Nat → Nat → Parser VaultError α}
    {nextAt : Nat → Nat → Except Fault α}
    (agrees : ∀ value value',
      nextAt value value' = outcome (next value value' ⟨buf, pos + first + second⟩)) :
    (do
      needAt buf pos (first + second)
      let value ← numberAt buf pos (pos + first)
      let value' ← numberAt buf (pos + first) (pos + first + second)
      nextAt value value') = outcome ((do
        let value ← number first
        let value' ← number second
        next value value') ⟨buf, pos⟩) := by
  by_cases inside : pos + first + second ≤ buf.length
  · have before : pos + first ≤ buf.length := Nat.le_of_add_right_le inside
    rw [except_bind_of_ok (needAt_of_le small (by omega)),
      except_bind_of_ok (numberAt_of_le before), except_bind_of_ok (numberAt_of_le inside),
      Parser.bind_of_ok (number_of_le before), Parser.bind_of_ok (number_of_le inside)]
    exact agrees _ _
  · rw [except_bind_of_error (needAt_of_lt (by omega))]
    by_cases before : pos + first ≤ buf.length
    · rw [Parser.bind_of_ok (number_of_le before),
        Parser.bind_of_error (number_of_lt (Nat.lt_of_not_le inside))]
      rfl
    · rw [Parser.bind_of_error (number_of_lt (Nat.lt_of_not_le before))]
      rfl

/-- The ranges are read as the parser reads them. -/
theorem rangesAt_eq (count : Nat) :
    rangesAt buf count pos = outcome (parseRanges count ⟨buf, pos⟩) := by
  induction count generalizing pos with
  | zero => rfl
  | succ count ih =>
      unfold rangesAt parseRanges parseRange
      simp only [bind_assoc, pure_bind]
      refine numbersAt_agree small pos 8 4 fun offset len => ?_
      refine sliceAt_agrees small (pos + 8 + 4) len fun data => ?_
      rw [ih]
      cases ran : parseRanges count ⟨buf, pos + 8 + 4 + len⟩ with
      | error reason =>
          rw [Parser.bind_of_error ran]
          rfl
      | ok result =>
          rw [Parser.bind_of_ok ran]
          rfl

end Agreement

/-- **Positions.** The decoder that moves its position by hand reads what the parser does, so
no slice leaves the buffer. -/
theorem decodeAt_eq {buf : Bytes} (small : buf.length < 2 ^ 64) :
    decodeAt buf = checked (decode buf) := by
  cases buf with
  | nil => rfl
  | cons tag rest =>
      change decodeAt (tag :: rest) = outcome (parse tag ⟨tag :: rest, 1⟩)
      unfold decodeAt parse
      dsimp only
      split
      · by_cases inside : 1 + 8 + 32 ≤ (tag :: rest).length
        · have before : 1 + 8 ≤ (tag :: rest).length := Nat.le_of_add_right_le inside
          rw [except_bind_of_ok (needAt_of_le small (by omega)),
            except_bind_of_ok (numberAt_of_le before), except_bind_of_ok (arrayAt_of_le inside),
            Parser.bind_of_ok (number_of_le before), Parser.bind_of_ok (need_of_le inside)]
          rfl
        · rw [except_bind_of_error (needAt_of_lt (by omega))]
          by_cases before : 1 + 8 ≤ (tag :: rest).length
          · rw [Parser.bind_of_ok (number_of_le before),
              Parser.bind_of_error (need_of_lt (Nat.lt_of_not_le inside))]
            rfl
          · rw [Parser.bind_of_error (number_of_lt (Nat.lt_of_not_le before))]
            rfl
      split
      · refine numbersAt_agree small 1 8 4 fun seq count => ?_
        rw [rangesAt_eq small]
        cases ran : parseRanges count ⟨tag :: rest, 1 + 8 + 4⟩ with
        | error reason =>
            rw [Parser.bind_of_error ran]
            rfl
        | ok result =>
            rw [Parser.bind_of_ok ran]
            rfl
      split
      · refine numberAt_agrees small 1 8 fun len => ?_
        exact sliceAt_agrees small (1 + 8) len fun bytes => rfl
      split
      · rfl
      split
      · refine numberAt_agrees small 1 4 fun len => ?_
        exact sliceAt_agrees small (1 + 4) len fun raw => rfl
      · rfl

/-- **The codec.** Messages are read back whatever follows them, no proper prefix is accepted,
what is accepted starts with its own encoding, and no slice leaves the buffer. -/
theorem codec_exact :
    (∀ message : SyncMessage, message.Fits → ∀ after,
      decode (message.encode ++ after) = .ok message) ∧
    (∀ message : SyncMessage, message.Fits → ∀ front, front <+: message.encode →
      front ≠ message.encode → ∃ reason, decode front = .error reason) ∧
    (∀ buf message, decode buf = .ok message → message.isError = false →
      message.encode <+: buf) ∧
    ∀ buf : Bytes, buf.length < 2 ^ 64 →
      decodeAt buf = checked (decode buf) ∧ decodeAt buf ≠ .error .panic := by
  refine ⟨fun _ => decode_encode_append, fun _ fits _ => decode_of_prefix fits, ?_, ?_⟩
  · intro buf message decoded plain
    obtain ⟨tag, body, after, rfl, encoded, _⟩ := exists_of_decode decoded
    rw [encoded plain]
    exact ⟨after, rfl⟩
  · intro buf small
    refine ⟨decodeAt_eq small, ?_⟩
    rw [decodeAt_eq small]
    cases decode buf with
    | error reason => exact fun same => by cases same
    | ok message => exact fun same => by cases same

/-- A patch of one range is read back in front of another message. -/
theorem codec_exact_patch :
    decode ((patch 7 [(1024, [1, 2, 3])]).encode ++ upToDate.encode) =
      .ok (patch 7 [(1024, [1, 2, 3])]) :=
  codec_exact.1 (patch 7 [(1024, [1, 2, 3])]) ⟨by decide, by decide⟩ _

end SyncMessage

end ReVault
