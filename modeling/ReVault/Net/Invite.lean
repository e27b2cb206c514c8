import ReVault.Foundation.Hex
import ReVault.Net.Codec
import ReVault.Net.Handshake

/-!
# Invite codes

An invite is a `PeerId` and perhaps an address to dial, written as hexadecimal text. Reading
trims white space, takes digits of either case and refuses everything else with an error; a
text is read as digits exactly when it is made of an even number of them.
-/

namespace ReVault

open Foundation
open SyncMessage (sliceAt)

/-- Socket addresses, with the text that the standard library shows for them and reads them
from. -/
class SocketAddress (SocketAddr : Type) where
  display : SocketAddr → String
  parse : String → Option SocketAddr

namespace SocketAddress

/-- An address that was read from text is read back from the text shown for it. -/
def RoundTrips (SocketAddr : Type) [SocketAddress SocketAddr] : Prop :=
  ∀ (text : String) (addr : SocketAddr), parse text = some addr →
    parse (display addr) = some addr

end SocketAddress

/-- A peer, and where it listens. -/
structure InviteCode (SocketAddr : Type) where
  peerId : PeerId
  address : Option SocketAddr
  deriving DecidableEq

/-! ## Digits -/

/-- Two digits a byte. -/
def hexEncode (bytes : Bytes) : String := String.ofList (hexText bytes)

/-- A digit of either case. -/
def hexDigit (c : UInt8) : Except VaultError UInt8 :=
  if '0'.val.toUInt8 ≤ c ∧ c ≤ '9'.val.toUInt8 then .ok (c - '0'.val.toUInt8)
  else if 'a'.val.toUInt8 ≤ c ∧ c ≤ 'f'.val.toUInt8 then .ok (c - 'a'.val.toUInt8 + 10)
  else if 'A'.val.toUInt8 ≤ c ∧ c ≤ 'F'.val.toUInt8 then .ok (c - 'A'.val.toUInt8 + 10)
  else .error (.corruptContainer "invite code contains a non-hex character")

/-- The loop of `hexDecode` over chunks of two bytes; a chunk without a second byte panics. -/
def hexChunks : Bytes → Except Fault Bytes
  | [] => .ok []
  | [first] => do
      let _ ← checked (hexDigit first)
      .error .panic
  | first :: second :: rest => do
      let hi ← checked (hexDigit first)
      let lo ← checked (hexDigit second)
      let out ← hexChunks rest
      .ok ((hi <<< 4 ||| lo) :: out)

/-- Two digits a byte, of either case. -/
def hexDecode (s : String) : Except Fault Bytes :=
  if (utf8 s).length % 2 ≠ 0 then .error (.error (.corruptContainer "invite code has odd length"))
  else hexChunks (utf8 s)

/-! ## Invites -/

/-- White space as the standard library has it. -/
def isWhitespace (c : Char) : Bool :=
  (0x09 ≤ c.toNat && c.toNat ≤ 0x0d) || c.toNat == 0x20 || c.toNat == 0x85 || c.toNat == 0xa0 ||
    c.toNat == 0x1680 || (0x2000 ≤ c.toNat && c.toNat ≤ 0x200a) || c.toNat == 0x2028 ||
    c.toNat == 0x2029 || c.toNat == 0x202f || c.toNat == 0x205f || c.toNat == 0x3000

/-- A text without white space at either end. -/
def trim (s : String) : String :=
  String.ofList ((s.toList.dropWhile isWhitespace).rdropWhile isWhitespace)

/-- A byte of a buffer; one that is not inside it panics. -/
def byteAt (bytes : Bytes) (index : Nat) : Except Fault UInt8 :=
  match bytes[index]? with
  | some byte => .ok byte
  | none => .error .panic

namespace InviteCode

variable {SocketAddr : Type} [SocketAddress SocketAddr]

/-- The keys, a byte that says whether there is an address, and the address as text. -/
def encode (invite : InviteCode SocketAddr) : String :=
  hexEncode (invite.peerId.toBytes ++
    match invite.address with
    | some addr => 1 :: utf8 (SocketAddress.display addr)
    | none => [0])

/-- The address behind a marker byte. -/
def decodeAddress (bytes : Bytes) (hasAddr : UInt8) : Except Fault (Option SocketAddr) :=
  if hasAddr = 0 then .ok none
  else if hasAddr = 1 then do
    let addrBytes ← sliceAt bytes 65 bytes.length
    match fromUtf8? addrBytes with
    | none => .error (.error (.corruptContainer "invite code address is not valid UTF-8"))
    | some addrStr =>
        match SocketAddress.parse addrStr with
        | none => .error (.error (.corruptContainer "invite code has an invalid address"))
        | some addr => .ok (some addr)
  else .error (.error (.corruptContainer "invite code has an invalid address marker"))

/-- An invite from its text, trimmed. -/
def decode (s : String) : Except Fault (InviteCode SocketAddr) := do
  let bytes ← hexDecode (trim s)
  if bytes.length < 65 then .error (.error (.corruptContainer "invite code is too short"))
  else do
    let idBytes ← sliceAt bytes 0 64
    let peerId ← checked (PeerId.fromBytes idBytes)
    let hasAddr ← byteAt bytes 64
    let address ← decodeAddress bytes hasAddr
    .ok { peerId, address }

end InviteCode

/-! ## Reading digits -/

/-- An ASCII character is read as the digit that it is, or refused. -/
theorem hexDigit_cases {c : Char} (ascii : c.toNat < 128) :
    (∃ value : UInt8, value.toNat < 16 ∧ c.toLower = Nat.digitChar value.toNat ∧
      hexDigit c.val.toUInt8 = .ok value) ∨
    (isAsciiHexdigit c = false ∧ hexDigit c.val.toUInt8 =
      .error (.corruptContainer "invite code contains a non-hex character")) := by
  have all : ∀ code < 128, (∃ value < 16, (UInt8.ofNat value).toNat < 16 ∧
      (Char.ofNat code).toLower = Nat.digitChar (UInt8.ofNat value).toNat ∧
      hexDigit (Char.ofNat code).val.toUInt8 = .ok (UInt8.ofNat value)) ∨
    (isAsciiHexdigit (Char.ofNat code) = false ∧ hexDigit (Char.ofNat code).val.toUInt8 =
      .error (.corruptContainer "invite code contains a non-hex character")) := by decide +kernel
  have found := all c.toNat ascii
  rw [Char.ofNat_toNat] at found
  rcases found with ⟨value, -, digit⟩ | refused
  · exact Or.inl ⟨_, digit⟩
  · exact Or.inr refused

/-- The value of a digit is the one whose character it is, in either case. -/
theorem hexDigit_eq_ok_iff {c : Char} (ascii : c.toNat < 128) {value : UInt8} :
    hexDigit c.val.toUInt8 = .ok value ↔
      value.toNat < 16 ∧ c.toLower = Nat.digitChar value.toNat := by
  rcases hexDigit_cases ascii with ⟨found, small, lowered, read⟩ | ⟨noDigit, refused⟩
  · rw [read, Except.ok.injEq]
    constructor
    · rintro rfl
      exact ⟨small, lowered⟩
    · rintro ⟨valueSmall, valueIs⟩
      exact UInt8.toNat_inj.mp (digitChar_injOn small valueSmall (lowered.symm.trans valueIs))
  · rw [refused]
    constructor
    · intro read
      cases read
    · rintro ⟨small, lowered⟩
      rw [isAsciiHexdigit_iff.mpr ⟨_, small, lowered⟩] at noDigit
      cases noDigit

/-- A byte is read as a digit only when it is ASCII, and is refused otherwise. -/
theorem hexDigit_outcome (c : UInt8) : (c.toNat < 128 ∧ ∃ value, hexDigit c = .ok value) ∨
    hexDigit c = .error (.corruptContainer "invite code contains a non-hex character") := by
  have below {bound : UInt8} (small : bound.toNat < 128) (le : c ≤ bound) : c.toNat < 128 :=
    (UInt8.le_iff_toNat_le.mp le).trans_lt small
  unfold hexDigit
  split_ifs with digit lower upper
  · exact Or.inl ⟨below (by decide) digit.2, _, rfl⟩
  · exact Or.inl ⟨below (by decide) lower.2, _, rfl⟩
  · exact Or.inl ⟨below (by decide) upper.2, _, rfl⟩
  · exact Or.inr rfl

/-- A digit is a character of ASCII. -/
theorem ascii_of_hexDigit {c value : UInt8} (read : hexDigit c = .ok value) : c.toNat < 128 := by
  rcases hexDigit_outcome c with ⟨ascii, _⟩ | refused
  · exact ascii
  · rw [refused] at read
    cases read

/-- Anything else is no digit. -/
theorem hexDigit_error {c : UInt8} {reason : VaultError} (failed : hexDigit c = .error reason) :
    reason = .corruptContainer "invite code contains a non-hex character" := by
  rcases hexDigit_outcome c with ⟨_, value, read⟩ | refused
  · rw [read] at failed
    cases failed
  · exact Except.error.inj (failed.symm.trans refused)

/-- A check succeeds with its value. -/
theorem checked_eq_ok_iff {α : Type} {result : Except VaultError α} {value : α} :
    checked result = .ok value ↔ result = .ok value := by
  cases result with
  | ok found => rw [checked, Except.ok.injEq, Except.ok.injEq]
  | error reason =>
      constructor <;> intro absurd <;> cases absurd

/-- What the loop reads from a chunk and the chunks behind it. -/
theorem hexChunks_cons_eq_ok_iff {first second : UInt8} {rest bytes : Bytes} :
    hexChunks (first :: second :: rest) = .ok bytes ↔
      ∃ hi lo out, hexDigit first = .ok hi ∧ hexDigit second = .ok lo ∧
        hexChunks rest = .ok out ∧ bytes = (hi <<< 4 ||| lo) :: out := by
  simp only [hexChunks, except_bind_eq_ok_iff, checked_eq_ok_iff, Except.ok.injEq]
  constructor
  · rintro ⟨hi, readHi, lo, readLo, out, readOut, rfl⟩
    exact ⟨hi, lo, out, readHi, readLo, readOut, rfl⟩
  · rintro ⟨hi, lo, out, readHi, readLo, readOut, rfl⟩
    exact ⟨hi, readHi, lo, readLo, out, readOut, rfl⟩

/-- A single digit is no byte. -/
theorem hexChunks_singleton_ne_ok {first : UInt8} {bytes : Bytes} :
    hexChunks [first] ≠ .ok bytes := by
  intro read
  obtain ⟨_, -, failed⟩ := except_bind_eq_ok_iff.mp read
  cases failed

/-- Bytes that the loop reads are all ASCII. -/
theorem ascii_of_hexChunks : ∀ {input bytes : Bytes}, hexChunks input = .ok bytes →
    ∀ byte ∈ input, byte.toNat < 128
  | [], _, _, byte, mem => by cases mem
  | [_], _, read, _, _ => absurd read hexChunks_singleton_ne_ok
  | first :: second :: rest, bytes, read, byte, mem => by
      obtain ⟨hi, lo, out, readHi, readLo, readOut, -⟩ := hexChunks_cons_eq_ok_iff.mp read
      rcases List.mem_cons.mp mem with rfl | mem
      · exact ascii_of_hexDigit readHi
      rcases List.mem_cons.mp mem with rfl | mem
      · exact ascii_of_hexDigit readLo
      · exact ascii_of_hexChunks readOut byte mem

/-- Over ASCII text the loop reads the bytes that its digits stand for. -/
theorem hexChunks_eq_ok_iff {chars : List Char} (ascii : ∀ c ∈ chars, c.toNat < 128)
    {bytes : Bytes} : hexChunks (chars.map fun c => c.val.toUInt8) = .ok bytes ↔
      chars.map Char.toLower = hexText bytes := by
  induction chars using List.twoStepInduction generalizing bytes with
  | nil =>
      cases bytes with
      | nil => exact iff_of_true rfl rfl
      | cons byte bytes =>
          exact iff_of_false (fun read => by cases read) fun same => by cases same
  | singleton c =>
      refine iff_of_false hexChunks_singleton_ne_ok fun same => ?_
      have sized := congrArg List.length same
      rw [length_hexText, List.length_map, List.length_singleton] at sized
      omega
  | cons_cons first second rest ih _ =>
      have firstAscii := ascii first List.mem_cons_self
      have secondAscii := ascii second (List.mem_cons_of_mem _ List.mem_cons_self)
      have restIff {out : Bytes} := @ih (fun c mem =>
        ascii c (List.mem_cons_of_mem _ (List.mem_cons_of_mem _ mem))) out
      rw [List.map_cons, List.map_cons, hexChunks_cons_eq_ok_iff]
      constructor
      · rintro ⟨hi, lo, out, readHi, readLo, readOut, rfl⟩
        obtain ⟨hiSmall, hiIs⟩ := (hexDigit_eq_ok_iff firstAscii).mp readHi
        obtain ⟨loSmall, loIs⟩ := (hexDigit_eq_ok_iff secondAscii).mp readLo
        obtain ⟨top, bottom⟩ := (byteDigits_iff hiSmall loSmall).mpr rfl
        rw [hexText_cons, ← top, ← bottom, List.map_cons, List.map_cons, hiIs, loIs,
          restIff.mp readOut]
      · intro same
        cases bytes with
        | nil => cases same
        | cons byte out =>
            have small := byte.toNat_lt
            rw [hexText_cons, List.map_cons, List.map_cons, List.cons.injEq,
              List.cons.injEq] at same
            obtain ⟨top, bottom, restIs⟩ := same
            have hiIs : (UInt8.ofNat (byte.toNat / 16)).toNat = byte.toNat / 16 := by
              rw [UInt8.toNat_ofNat']
              omega
            have loIs : (UInt8.ofNat (byte.toNat % 16)).toNat = byte.toNat % 16 := by
              rw [UInt8.toNat_ofNat']
              omega
            refine ⟨UInt8.ofNat (byte.toNat / 16), UInt8.ofNat (byte.toNat % 16), out,
              (hexDigit_eq_ok_iff firstAscii).mpr ⟨by omega, by rw [hiIs, top]⟩,
              (hexDigit_eq_ok_iff secondAscii).mpr ⟨by omega, by rw [loIs, bottom]⟩,
              restIff.mpr restIs, ?_⟩
            congr 1
            exact (byteDigits_iff (by omega) (by omega)).mp ⟨by rw [hiIs], by rw [loIs]⟩

/-- A text is read as the bytes whose digits it is made of, in either case. -/
theorem hexDecode_eq_ok_iff {s : String} {bytes : Bytes} :
    hexDecode s = .ok bytes ↔ s.toList.map Char.toLower = hexText bytes := by
  unfold hexDecode
  constructor
  · intro read
    split at read
    · cases read
    · have ascii := ascii_of_utf8 (ascii_of_hexChunks read)
      rw [utf8_of_ascii ascii] at read
      exact (hexChunks_eq_ok_iff ascii).mp read
  · intro lowered
    have ascii : ∀ c ∈ s.toList, c.toNat < 128 := by
      intro c mem
      have within : c.toLower ∈ hexText bytes := lowered ▸ List.mem_map_of_mem mem
      obtain ⟨value, small, same⟩ := mem_hexText within
      exact ascii_of_toLower (same ▸ digitChar_ascii small)
    have sized := congrArg List.length lowered
    rw [List.length_map, length_hexText] at sized
    rw [utf8_of_ascii ascii, List.length_map, if_neg (by omega)]
    exact (hexChunks_eq_ok_iff ascii).mpr lowered

/-- A fault that is an error of a malformed code. -/
def Fault.IsCorrupt (fault : Fault) : Prop :=
  ∃ reason, fault = .error (.corruptContainer reason)

/-- Digits in pairs fail as a corrupt container only. -/
theorem hexChunks_isCorrupt : ∀ {input : Bytes} {fault : Fault}, input.length % 2 = 0 →
    hexChunks input = .error fault → fault.IsCorrupt
  | [], _, _, failed => by cases failed
  | [_], _, even, _ => by cases even
  | first :: second :: rest, fault, even, failed => by
      rw [List.length_cons, List.length_cons] at even
      unfold hexChunks at failed
      cases readHi : hexDigit first with
      | error reason =>
          rw [readHi, hexDigit_error readHi] at failed
          exact ⟨_, (Except.error.inj failed).symm⟩
      | ok hi =>
          cases readLo : hexDigit second with
          | error reason =>
              rw [readHi, readLo, hexDigit_error readLo] at failed
              exact ⟨_, (Except.error.inj failed).symm⟩
          | ok lo =>
              cases readRest : hexChunks rest with
              | error other =>
                  rw [readHi, readLo, readRest] at failed
                  cases failed
                  exact hexChunks_isCorrupt (by omega) readRest
              | ok out =>
                  rw [readHi, readLo, readRest] at failed
                  cases failed

/-- So does a text of digits. -/
theorem hexDecode_isCorrupt {s : String} {fault : Fault} (failed : hexDecode s = .error fault) :
    fault.IsCorrupt := by
  unfold hexDecode at failed
  split at failed
  · exact ⟨_, (Except.error.inj failed).symm⟩
  · rename_i even
    exact hexChunks_isCorrupt (not_not.mp even) failed

/-! ## Reading invites -/

/-- White space around a text that has none is trimmed. -/
theorem trim_append {before core after : String} (blank : ∀ c ∈ before.toList, isWhitespace c)
    (blank' : ∀ c ∈ after.toList, isWhitespace c)
    (solid : ∀ c ∈ core.toList, isWhitespace c = false) :
    trim (before ++ core ++ after) = core := by
  have kept {chars : List Char} (solid : ∀ c ∈ chars, isWhitespace c = false) :
      chars.dropWhile isWhitespace = chars := by
    rw [List.dropWhile_eq_self_iff]
    intro nonempty
    rw [solid _ (List.getElem_mem nonempty)]
    exact Bool.false_ne_true
  have front : (before ++ core ++ after).toList.dropWhile isWhitespace =
      (core ++ after).toList.dropWhile isWhitespace := by
    rw [String.append_assoc, String.toList_append, List.dropWhile_append_of_pos blank]
  have back : ((core ++ after).toList.dropWhile isWhitespace).rdropWhile isWhitespace =
      core.toList := by
    rw [String.toList_append]
    cases chars : core.toList with
    | nil =>
        rw [List.nil_append, List.dropWhile_eq_nil_iff.mpr blank']
        rfl
    | cons c rest =>
        rw [chars] at solid
        rw [List.cons_append, List.dropWhile_cons_of_neg (by simp [solid]), ← List.cons_append,
          List.rdropWhile, List.reverse_append, List.dropWhile_append_of_pos
            fun c mem => blank' c (List.mem_reverse.mp mem),
          kept fun c mem => solid c (List.mem_reverse.mp mem), List.reverse_reverse]
  rw [trim, front, back, String.ofList_toList]

/-- No digit is white space. -/
theorem isWhitespace_eq_false {c : Char} {value : Nat} (small : value < 16)
    (lowered : c.toLower = Nat.digitChar value) : isWhitespace c = false := by
  have all : ∀ code < 128, isAsciiHexdigit (Char.ofNat code) = true →
    isWhitespace (Char.ofNat code) = false := by decide +kernel
  have found := all c.toNat (ascii_of_toLower (lowered ▸ digitChar_ascii small))
  rw [Char.ofNat_toNat] at found
  exact found (isAsciiHexdigit_iff.mpr ⟨value, small, lowered⟩)

/-- Every 64 bytes are the keys of some peer. -/
theorem PeerId.exists_toBytes {bytes : Bytes} (sized : bytes.length = 64) :
    ∃ peerId : PeerId, peerId.toBytes = bytes := by
  have first : (bytes.take 32).length = 32 := by
    rw [List.length_take]
    omega
  have second : (bytes.drop 32).length = 32 := by
    rw [List.length_drop]
    omega
  exact ⟨⟨⟨bytes.take 32, first⟩, ⟨bytes.drop 32, second⟩⟩, List.take_append_drop 32 bytes⟩

namespace InviteCode

variable {SocketAddr : Type} [SocketAddress SocketAddr]

/-- A long enough code is read from its keys, its marker and what is behind the marker. -/
theorem decode_of_bytes {s : String} {peerId : PeerId} {marker : UInt8} {tail : Bytes}
    (read : hexDecode (trim s) = .ok (peerId.toBytes ++ marker :: tail)) :
    (decode s : Except Fault (InviteCode SocketAddr)) =
      (decodeAddress (peerId.toBytes ++ marker :: tail) marker).map fun address =>
        { peerId, address } := by
  have sized := peerId.length_toBytes
  have whole : (peerId.toBytes ++ marker :: tail).length = 65 + tail.length := by
    rw [List.length_append, sized, List.length_cons]
    omega
  have front : sliceAt (peerId.toBytes ++ marker :: tail) 0 64 = .ok peerId.toBytes := by
    have slice := @SyncMessage.sliceAt_of_le (peerId.toBytes ++ marker :: tail) 0 64 (by omega)
    rw [List.drop_zero, List.take_left' sized] at slice
    exact slice
  have middle : byteAt (peerId.toBytes ++ marker :: tail) 64 = .ok marker := by
    unfold byteAt
    rw [List.getElem?_append_right (by omega), sized]
    rfl
  unfold decode
  rw [except_bind_of_ok read, if_neg (by omega), except_bind_of_ok front,
    peerId.fromBytes_toBytes, checked, except_bind_of_ok rfl, except_bind_of_ok middle]
  rfl

/-- A long enough code has keys, a marker and a tail. -/
theorem exists_parts {bytes : Bytes} (long : ¬ bytes.length < 65) :
    ∃ (peerId : PeerId) (marker : UInt8) (tail : Bytes),
      bytes = peerId.toBytes ++ marker :: tail := by
  have sized : (bytes.take 64).length = 64 := by
    rw [List.length_take]
    omega
  obtain ⟨peerId, keys⟩ := PeerId.exists_toBytes sized
  cases rest : bytes.drop 64 with
  | nil =>
      have short := List.drop_eq_nil_iff.mp rest
      omega
  | cons marker tail =>
      exact ⟨peerId, marker, tail, by rw [keys, ← rest, List.take_append_drop]⟩

/-- The bytes behind the marker. -/
theorem sliceAt_tail (peerId : PeerId) (marker : UInt8) (tail : Bytes) :
    sliceAt (peerId.toBytes ++ marker :: tail) 65 (peerId.toBytes ++ marker :: tail).length =
      .ok tail := by
  have sized := peerId.length_toBytes
  have whole : (peerId.toBytes ++ marker :: tail).length = 65 + tail.length := by
    rw [List.length_append, sized, List.length_cons]
    omega
  have slice := @SyncMessage.sliceAt_of_le (peerId.toBytes ++ marker :: tail) 65 tail.length
    (by omega)
  rw [whole, slice, List.append_cons, List.drop_left' (by rw [List.length_append, sized]; rfl),
    List.take_length]

/-- An address that can be parsed is read. -/
theorem decodeAddress_some {peerId : PeerId} {text : String} {addr : SocketAddr}
    (read : SocketAddress.parse text = some addr) :
    decodeAddress (peerId.toBytes ++ 1 :: utf8 text) 1 = .ok (some addr) := by
  unfold decodeAddress
  rw [if_neg (by decide), if_pos rfl, except_bind_of_ok (sliceAt_tail peerId 1 (utf8 text)),
    fromUtf8?_utf8]
  simp only [read]

/-- An address that cannot be read fails as a corrupt container only. -/
theorem decodeAddress_isCorrupt {peerId : PeerId} {marker : UInt8} {tail : Bytes} {fault : Fault}
    (failed : (decodeAddress (peerId.toBytes ++ marker :: tail) marker :
      Except Fault (Option SocketAddr)) = .error fault) : fault.IsCorrupt := by
  unfold decodeAddress at failed
  split at failed
  · cases failed
  · split at failed
    · rw [except_bind_of_ok (sliceAt_tail peerId marker tail)] at failed
      split at failed
      · exact ⟨_, (Except.error.inj failed).symm⟩
      · split at failed
        · exact ⟨_, (Except.error.inj failed).symm⟩
        · cases failed
    · exact ⟨_, (Except.error.inj failed).symm⟩

/-- An invite is read back from its digits in either case, with white space around them. -/
theorem decode_encode (roundTrips : SocketAddress.RoundTrips SocketAddr)
    {invite : InviteCode SocketAddr} (parsed : ∀ addr, invite.address = some addr →
      ∃ text, SocketAddress.parse text = some addr)
    {before mixed after : String} (blank : ∀ c ∈ before.toList, isWhitespace c)
    (blank' : ∀ c ∈ after.toList, isWhitespace c)
    (lowered : mixed.toList.map Char.toLower = invite.encode.toList) :
    decode (before ++ mixed ++ after) = .ok invite := by
  obtain ⟨peerId, address⟩ := invite
  have digits {bytes : Bytes} (same : mixed.toList.map Char.toLower = (hexEncode bytes).toList) :
      hexDecode (trim (before ++ mixed ++ after)) = .ok bytes := by
    rw [hexEncode, String.toList_ofList] at same
    have solid : ∀ c ∈ mixed.toList, isWhitespace c = false := by
      intro c mem
      have within : c.toLower ∈ hexText bytes := same ▸ List.mem_map_of_mem mem
      obtain ⟨value, small, lowered⟩ := mem_hexText within
      exact isWhitespace_eq_false small lowered
    rw [trim_append blank blank' solid]
    exact hexDecode_eq_ok_iff.mpr same
  cases address with
  | none =>
      rw [decode_of_bytes (digits lowered)]
      rfl
  | some addr =>
      obtain ⟨text, read⟩ := parsed addr rfl
      rw [decode_of_bytes (digits lowered), decodeAddress_some (roundTrips text addr read)]
      rfl

/-- A code is refused as malformed, or it is an invite's keys, a marker and what is behind it. -/
theorem decode_outcome (s : String) :
    (∃ fault, (decode s : Except Fault (InviteCode SocketAddr)) = .error fault ∧
      fault.IsCorrupt) ∨
    ∃ (invite : InviteCode SocketAddr) (marker : UInt8) (tail : Bytes), decode s = .ok invite ∧
      hexDecode (trim s) = .ok (invite.peerId.toBytes ++ marker :: tail) := by
  cases read : hexDecode (trim s) with
  | error fault => exact Or.inl ⟨fault, except_bind_of_error read, hexDecode_isCorrupt read⟩
  | ok bytes =>
      by_cases short : bytes.length < 65
      · have refused : (decode s : Except Fault (InviteCode SocketAddr)) =
            .error (.error (.corruptContainer "invite code is too short")) := by
          unfold decode
          rw [except_bind_of_ok read, if_pos short]
        exact Or.inl ⟨_, refused, _, rfl⟩
      · obtain ⟨peerId, marker, tail, rfl⟩ := exists_parts short
        cases address : (decodeAddress (peerId.toBytes ++ marker :: tail) marker :
            Except Fault (Option SocketAddr)) with
        | error fault =>
            refine Or.inl ⟨fault, ?_, decodeAddress_isCorrupt address⟩
            rw [decode_of_bytes read, address]
            rfl
        | ok found =>
            refine Or.inr ⟨⟨peerId, found⟩, marker, tail, ?_, rfl⟩
            rw [decode_of_bytes read, address]
            rfl

/-- A code that is not read is refused as malformed. -/
theorem decode_isCorrupt {s : String} {fault : Fault}
    (failed : (decode s : Except Fault (InviteCode SocketAddr)) = .error fault) :
    fault.IsCorrupt := by
  rcases @decode_outcome SocketAddr _ s with
    ⟨other, refused, corrupt⟩ | ⟨invite, _, _, decoded, _⟩
  · rw [failed] at refused
    cases refused
    exact corrupt
  · rw [failed] at decoded
    cases decoded

/-- The keys of an invite that was read are the first bytes of its code. -/
theorem take_of_decode {s : String} {invite : InviteCode SocketAddr}
    (decoded : decode s = .ok invite) :
    ∃ bytes, hexDecode (trim s) = .ok bytes ∧ bytes.take 64 =
      invite.peerId.signingPublic.toList ++ invite.peerId.encryptionPublic.toList := by
  rcases @decode_outcome SocketAddr _ s with
    ⟨fault, refused, _⟩ | ⟨other, marker, tail, found, read⟩
  · rw [decoded] at refused
    cases refused
  · rw [decoded] at found
    cases found
    exact ⟨_, read, List.take_left' invite.peerId.length_toBytes⟩

/-- Invites round trip through text in digits of either case with white space around it; a text
is read as digits exactly when it is made of an even number of them; whatever the text, reading
ends with a value or refuses the code as malformed; and the keys that are read are the first 64
bytes of the code. -/
theorem invites_round_trip (roundTrips : SocketAddress.RoundTrips SocketAddr) :
    (∀ invite : InviteCode SocketAddr,
      (∀ addr, invite.address = some addr → ∃ text, SocketAddress.parse text = some addr) →
      ∀ before mixed after : String, (∀ c ∈ before.toList, isWhitespace c) →
        (∀ c ∈ after.toList, isWhitespace c) →
        mixed.toList.map Char.toLower = invite.encode.toList →
        decode (before ++ mixed ++ after) = .ok invite) ∧
    (∀ s : String, (∃ bytes, hexDecode s = .ok bytes) ↔
      s.length % 2 = 0 ∧ ∀ c ∈ s.toList, isAsciiHexdigit c = true) ∧
    (∀ (s : String) (fault : Fault), hexDecode s = .error fault ∨
        (decode s : Except Fault (InviteCode SocketAddr)) = .error fault →
      ∃ reason, fault = .error (.corruptContainer reason)) ∧
    (∀ (s : String) (invite : InviteCode SocketAddr), decode s = .ok invite →
      ∃ bytes, hexDecode (trim s) = .ok bytes ∧ bytes.take 64 =
        invite.peerId.signingPublic.toList ++ invite.peerId.encryptionPublic.toList) := by
  refine ⟨?_, ?_, ?_, fun s invite decoded => take_of_decode decoded⟩
  · intro invite parsed before mixed after blank blank' lowered
    exact decode_encode roundTrips parsed blank blank' lowered
  · intro s
    simp only [hexDecode_eq_ok_iff]
    rw [exists_hexText_iff, String.length_toList]
  · rintro s fault (failed | failed)
    · exact hexDecode_isCorrupt failed
    · exact decode_isCorrupt failed

end InviteCode

/-! ## An address on this machine -/

/-- The address of a listener on this machine. -/
inductive Loopback where
  | listener
  deriving DecidableEq

/-- One address, written as the host and the port. -/
instance : SocketAddress Loopback where
  display _ := "127.0.0.1:9000"
  parse text := if text = "127.0.0.1:9000" then some .listener else none

/-- Its only address is read back. -/
theorem Loopback.roundTrips : SocketAddress.RoundTrips Loopback := fun _ _ _ => rfl

/-- An invite with an address, in upper case and with blanks around it. -/
theorem Loopback.invites_round_trip_upper :
    InviteCode.decode (" \t" ++ String.ofList ((InviteCode.encode
        (⟨⟨zeroArr 32, zeroArr 32⟩, some Loopback.listener⟩ : InviteCode Loopback)).toList.map
          Char.toUpper) ++ "\n") =
      .ok (⟨⟨zeroArr 32, zeroArr 32⟩, some Loopback.listener⟩ : InviteCode Loopback) :=
  (InviteCode.invites_round_trip Loopback.roundTrips).1 _ (fun _ _ => ⟨"127.0.0.1:9000", rfl⟩)
    _ _ _ (List.all_eq_true.mp (by decide)) (List.all_eq_true.mp (by decide)) (by
      rw [String.toList_ofList, InviteCode.encode, hexEncode, String.toList_ofList]
      exact map_toLower_toUpper_hexText _)

end ReVault
