import Mathlib.Data.List.DropRight
import ReVault.Foundation.Bytes

/-!
# Hexadecimal text

A byte is written as two digits. Text in digits of either case stands for the same bytes as its
lower-case form, and a text stands for bytes exactly when it is made of an even number of
digits. The UTF-8 bytes of a text are its characters where these are ASCII; any other character
starts with a byte above them.
-/

namespace ReVault.Foundation

/-! ## Text as bytes -/

/-- A text is encoded character by character. -/
theorem utf8_eq (text : String) : utf8 text = text.toList.flatMap String.utf8EncodeChar := by
  rw [utf8, String.toUTF8_eq_toByteArray, ← String.utf8Encode_toList, List.utf8Encode,
    List.data_toByteArray, List.toList_toArray]

/-- An ASCII character is one byte. -/
theorem utf8EncodeChar_of_lt {c : Char} (ascii : c.toNat < 128) :
    String.utf8EncodeChar c = [c.val.toUInt8] := by
  apply String.utf8EncodeChar_eq_singleton
  rw [Char.utf8Size_eq_one_iff, UInt32.le_iff_toNat_le]
  exact Nat.le_of_lt_succ ascii

/-- Any other character starts with a byte that is not ASCII. -/
theorem exists_high_mem_utf8EncodeChar {c : Char} (wide : 128 ≤ c.toNat) :
    ∃ byte ∈ String.utf8EncodeChar c, 128 ≤ byte.toNat := by
  have high (low mark : UInt8) (large : 128 ≤ mark.toNat) : 128 ≤ (low ||| mark).toNat := by
    rw [UInt8.toNat_or]
    exact large.trans Nat.right_le_or
  have sized : c.utf8Size ≠ 1 := by
    rw [ne_eq, Char.utf8Size_eq_one_iff, UInt32.le_iff_toNat_le]
    exact Nat.not_le_of_lt wide
  rcases c.utf8Size_eq with one | two | three | four
  · exact absurd one sized
  · rw [String.utf8EncodeChar_eq_cons_cons two]
    exact ⟨_, List.mem_cons_self, high _ _ (by decide)⟩
  · rw [String.utf8EncodeChar_eq_cons_cons_cons three]
    exact ⟨_, List.mem_cons_self, high _ _ (by decide)⟩
  · rw [String.utf8EncodeChar_eq_cons_cons_cons_cons four]
    exact ⟨_, List.mem_cons_self, high _ _ (by decide)⟩

/-- The bytes of ASCII text are its characters. -/
theorem utf8_of_ascii {text : String} (ascii : ∀ c ∈ text.toList, c.toNat < 128) :
    utf8 text = text.toList.map fun c => c.val.toUInt8 := by
  rw [utf8_eq, List.flatMap_congr fun c mem => utf8EncodeChar_of_lt (ascii c mem),
    ← List.map_eq_flatMap]

/-- Text whose bytes are all ASCII is made of ASCII characters. -/
theorem ascii_of_utf8 {text : String} (low : ∀ byte ∈ utf8 text, byte.toNat < 128) :
    ∀ c ∈ text.toList, c.toNat < 128 := by
  intro c mem
  by_contra wide
  obtain ⟨byte, within, high⟩ := exists_high_mem_utf8EncodeChar (Nat.le_of_not_lt wide)
  rw [utf8_eq] at low
  exact absurd (low byte (List.mem_flatMap.mpr ⟨c, mem, within⟩)) (Nat.not_lt_of_le high)

/-! ## Digits -/

/-- A hexadecimal digit of either case. -/
def isAsciiHexdigit (c : Char) : Bool :=
  ('0' ≤ c && c ≤ '9') || ('a' ≤ c && c ≤ 'f') || ('A' ≤ c && c ≤ 'F')

/-- Lowering a character does not make it ASCII. -/
theorem ascii_of_toLower {c : Char} (lowered : c.toLower.toNat < 128) : c.toNat < 128 := by
  unfold Char.toLower at lowered
  split at lowered
  · rename_i upper
    exact (UInt32.le_iff_toNat_le.mp upper.2).trans_lt (by decide)
  · exact lowered

/-- A digit is a character of ASCII. -/
theorem digitChar_ascii {value : Nat} (small : value < 16) :
    (Nat.digitChar value).toNat < 128 := by
  have all : ∀ value < 16, (Nat.digitChar value).toNat < 128 := by decide
  exact all value small

/-- Different values have different digits. -/
theorem digitChar_injOn {first second : Nat} (firstSmall : first < 16) (secondSmall : second < 16)
    (same : Nat.digitChar first = Nat.digitChar second) : first = second := by
  have all : ∀ first < 16, ∀ second < 16,
      Nat.digitChar first = Nat.digitChar second → first = second := by decide
  exact all first firstSmall second secondSmall same

/-- The digits are the characters whose lower case is a digit's. -/
theorem isAsciiHexdigit_iff {c : Char} :
    isAsciiHexdigit c = true ↔ ∃ value < 16, c.toLower = Nat.digitChar value := by
  have all : ∀ code < 128, isAsciiHexdigit (Char.ofNat code) = true ↔
      ∃ value < 16, (Char.ofNat code).toLower = Nat.digitChar value := by decide +kernel
  constructor
  · intro digit
    have ascii : c.toNat < 128 := by
      simp only [isAsciiHexdigit, Bool.or_eq_true, Bool.and_eq_true, decide_eq_true_eq] at digit
      have below {bound : Char} (small : bound.toNat < 128) (le : c ≤ bound) : c.toNat < 128 :=
        (UInt32.le_iff_toNat_le.mp le).trans_lt small
      rcases digit with (⟨-, le⟩ | ⟨-, le⟩) | ⟨-, le⟩ <;> exact below (by decide) le
    have found := all c.toNat ascii
    rw [Char.ofNat_toNat] at found
    exact found.mp digit
  · rintro ⟨value, small, lowered⟩
    have found := all c.toNat (ascii_of_toLower (lowered ▸ digitChar_ascii small))
    rw [Char.ofNat_toNat] at found
    exact found.mpr ⟨value, small, lowered⟩

/-! ## Two digits for a byte -/

/-- The two lower-case digits of a byte. -/
def byteDigits (byte : UInt8) : List Char :=
  [Nat.digitChar (byte.toNat / 16), Nat.digitChar (byte.toNat % 16)]

/-- The digits of a byte string. -/
def hexText (bytes : Bytes) : List Char := bytes.flatMap byteDigits

/-- No bytes, no digits. -/
@[simp] theorem hexText_nil : hexText [] = [] := rfl

/-- A byte has two digits. -/
@[simp] theorem hexText_cons (byte : UInt8) (bytes : Bytes) :
    hexText (byte :: bytes) = Nat.digitChar (byte.toNat / 16) ::
      Nat.digitChar (byte.toNat % 16) :: hexText bytes :=
  rfl

/-- Two digits a byte. -/
theorem length_hexText (bytes : Bytes) : (hexText bytes).length = 2 * bytes.length := by
  induction bytes with
  | nil => rfl
  | cons byte bytes ih =>
      rw [hexText_cons, List.length_cons, List.length_cons, List.length_cons, ih]
      omega

/-- Every character of the digits of a byte string is a digit. -/
theorem mem_hexText {bytes : Bytes} {c : Char} (mem : c ∈ hexText bytes) :
    ∃ value < 16, c = Nat.digitChar value := by
  obtain ⟨byte, -, within⟩ := List.mem_flatMap.mp mem
  have small := byte.toNat_lt
  rw [byteDigits, List.mem_cons, List.mem_singleton] at within
  rcases within with rfl | rfl
  · exact ⟨_, by omega, rfl⟩
  · exact ⟨_, Nat.mod_lt _ (by decide), rfl⟩

/-- Digits in upper case stand for the same bytes. -/
theorem map_toLower_toUpper_hexText (bytes : Bytes) :
    ((hexText bytes).map Char.toUpper).map Char.toLower = hexText bytes := by
  have all : ∀ value < 16, (Nat.digitChar value).toUpper.toLower = Nat.digitChar value := by decide
  rw [List.map_map]
  calc (hexText bytes).map (Char.toLower ∘ Char.toUpper)
      = (hexText bytes).map id := List.map_congr_left fun c mem => by
        obtain ⟨value, small, rfl⟩ := mem_hexText mem
        exact all value small
    _ = hexText bytes := List.map_id _

/-- A byte is made of its two halves. -/
theorem toNat_nibbles {high low : UInt8} (highSmall : high.toNat < 16) (lowSmall : low.toNat < 16) :
    (high <<< 4 ||| low).toNat = high.toNat * 16 + low.toNat := by
  have shifted : (high <<< 4).toNat = high.toNat <<< 4 := by
    have fits : high.toNat <<< 4 < 256 := by
      rw [Nat.shiftLeft_eq]
      omega
    exact (UInt8.toNat_shiftLeft high 4).trans (Nat.mod_eq_of_lt fits)
  rw [UInt8.toNat_or, shifted, ← Nat.shiftLeft_add_eq_or_of_lt lowSmall, Nat.shiftLeft_eq]

/-- Two characters stand for a byte when they stand for its halves. -/
theorem byteDigits_iff {high low : UInt8} (highSmall : high.toNat < 16) (lowSmall : low.toNat < 16)
    {byte : UInt8} : Nat.digitChar high.toNat = Nat.digitChar (byte.toNat / 16) ∧
      Nat.digitChar low.toNat = Nat.digitChar (byte.toNat % 16) ↔
        byte = high <<< 4 ||| low := by
  have small := byte.toNat_lt
  have whole := toNat_nibbles highSmall lowSmall
  constructor
  · rintro ⟨first, second⟩
    have top := digitChar_injOn highSmall (by omega) first
    have bottom := digitChar_injOn lowSmall (Nat.mod_lt _ (by decide)) second
    apply UInt8.toNat_inj.mp
    omega
  · rintro rfl
    rw [whole]
    exact ⟨congrArg _ (by omega), congrArg _ (by omega)⟩

/-- Text in digits of either case stands for bytes exactly when it is made of an even number of
digits. -/
theorem exists_hexText_iff : ∀ {chars : List Char},
    (∃ bytes, chars.map Char.toLower = hexText bytes) ↔
      chars.length % 2 = 0 ∧ ∀ c ∈ chars, isAsciiHexdigit c = true := by
  intro chars
  constructor
  · rintro ⟨bytes, lowered⟩
    constructor
    · have sized := congrArg List.length lowered
      rw [List.length_map, length_hexText] at sized
      omega
    · intro c mem
      have within : c.toLower ∈ hexText bytes := lowered ▸ List.mem_map_of_mem mem
      obtain ⟨value, small, same⟩ := mem_hexText within
      exact isAsciiHexdigit_iff.mpr ⟨value, small, same⟩
  · rintro ⟨even, digits⟩
    induction chars using List.twoStepInduction with
    | nil => exact ⟨[], rfl⟩
    | singleton c => cases even
    | cons_cons first second rest ih _ =>
        obtain ⟨high, highSmall, highIs⟩ := isAsciiHexdigit_iff.mp (digits first (by simp))
        obtain ⟨low, lowSmall, lowIs⟩ := isAsciiHexdigit_iff.mp (digits second (by simp))
        obtain ⟨bytes, restIs⟩ := ih (by rw [List.length_cons, List.length_cons] at even; omega)
          fun c mem => digits c (List.mem_cons_of_mem _ (List.mem_cons_of_mem _ mem))
        refine ⟨UInt8.ofNat (16 * high + low) :: bytes, ?_⟩
        have value : (UInt8.ofNat (16 * high + low)).toNat = 16 * high + low := by
          rw [UInt8.toNat_ofNat']
          omega
        have top : (16 * high + low) / 16 = high := by omega
        have bottom : (16 * high + low) % 16 = low := by omega
        rw [hexText_cons, value, top, bottom, List.map_cons, List.map_cons, highIs, lowIs, restIs]

end ReVault.Foundation
