import Mathlib.Data.Vector.Basic
import Mathlib.Tactic.Common

/-!
# Byte strings

Little-endian numerals, zero padding, fixed-length byte arrays and the cutting
of a list into equal pieces, over plain lists of bytes.
-/

namespace ReVault.Foundation

/-- A byte string. -/
abbrev Bytes := List UInt8

/-- A byte array of a length fixed by its type. -/
abbrev ByteArr (n : Nat) := List.Vector UInt8 n

/-- The all-zero array. -/
def zeroArr (n : Nat) : ByteArr n := List.Vector.replicate n 0

/-- A byte string of the right length, as an array. -/
def toArr? (n : Nat) (bytes : Bytes) : Option (ByteArr n) :=
  if sized : bytes.length = n then some ⟨bytes, sized⟩ else none

/-- The bytes of an array are that array. -/
@[simp] theorem toArr?_toList {n : Nat} (array : ByteArr n) :
    toArr? n array.toList = some array := by
  unfold toArr?
  rw [dif_pos array.toList_length]
  rfl

/-- An array of the right length is made of the bytes given. -/
theorem toList_toArr? {n : Nat} {bytes : Bytes} (sized : bytes.length = n) :
    ((toArr? n bytes).getD (zeroArr n)).toList = bytes := by
  unfold toArr?
  rw [dif_pos sized]
  rfl

/-! ## Little-endian numerals -/

/-- The `width` low bytes of a number, least significant first. -/
def toLE : (width : Nat) → Nat → Bytes
  | 0, _ => []
  | width + 1, value => UInt8.ofNat value :: toLE width (value / 256)

/-- The number written by a byte string, least significant byte first. -/
def ofLE : Bytes → Nat
  | [] => 0
  | byte :: rest => byte.toNat + 256 * ofLE rest

/-- A number takes the bytes that it is given. -/
@[simp] theorem length_toLE (width value : Nat) : (toLE width value).length = width := by
  induction width generalizing value with
  | zero => rfl
  | succ width ih => simp only [toLE, List.length_cons, ih]

/-- Bytes beyond the width are lost. -/
theorem ofLE_toLE (width value : Nat) : ofLE (toLE width value) = value % 256 ^ width := by
  induction width generalizing value with
  | zero => simp only [toLE, ofLE, Nat.pow_zero, Nat.mod_one]
  | succ width ih =>
      have low : (UInt8.ofNat value).toNat = value % 256 := by
        simp only [UInt8.toNat_ofNat']
      rw [toLE, ofLE, ih, low, Nat.pow_succ, Nat.mul_comm (256 ^ width) 256, Nat.mod_mul]

/-- A number that fits is read back. -/
theorem ofLE_toLE_of_lt {width value : Nat} (small : value < 256 ^ width) :
    ofLE (toLE width value) = value := by
  rw [ofLE_toLE, Nat.mod_eq_of_lt small]

/-- A byte string is what its number is written as. -/
theorem toLE_ofLE (bytes : Bytes) : toLE bytes.length (ofLE bytes) = bytes := by
  induction bytes with
  | nil => rfl
  | cons byte rest ih =>
      have low : UInt8.ofNat (byte.toNat + 256 * ofLE rest) = byte := by
        apply UInt8.toNat_inj.mp
        rw [UInt8.toNat_ofNat', Nat.add_mul_mod_self_left, Nat.mod_eq_of_lt byte.toNat_lt]
      have high : (byte.toNat + 256 * ofLE rest) / 256 = ofLE rest := by
        have small := byte.toNat_lt
        omega
      rw [List.length_cons, ofLE, toLE, low, high, ih]

/-- A byte string writes a number of no more bytes. -/
theorem ofLE_lt (bytes : Bytes) : ofLE bytes < 256 ^ bytes.length := by
  have whole := ofLE_toLE bytes.length (ofLE bytes)
  rw [toLE_ofLE] at whole
  rw [whole]
  exact Nat.mod_lt _ (Nat.pow_pos (by decide))

/-! ## Text -/

/-- The UTF-8 bytes of a text. -/
def utf8 (text : String) : Bytes := text.toUTF8.data.toList

/-- The text written by a byte string, when it is valid UTF-8. -/
def fromUtf8? (bytes : Bytes) : Option String := String.fromUTF8? ⟨bytes.toArray⟩

/-- A text is read back from its encoding. -/
@[simp] theorem fromUtf8?_utf8 (text : String) : fromUtf8? (utf8 text) = some text := by
  unfold fromUtf8? utf8 String.fromUTF8?
  simp only [Array.toArray_toList, String.toUTF8_eq_toByteArray]
  rw [dif_pos]
  · rfl
  · exact text.isValidUTF8

/-! ## Zero padding -/

/-- A byte string zero-padded on the right to a width. -/
def padTo (width : Nat) (bytes : Bytes) : Bytes :=
  bytes ++ List.replicate (width - bytes.length) 0

/-- What fits is filled up to the width. -/
theorem length_padTo {width : Nat} {bytes : Bytes} (fits : bytes.length ≤ width) :
    (padTo width bytes).length = width := by
  simp only [padTo, List.length_append, List.length_replicate]
  omega

/-- What was filled up begins with the bytes. -/
theorem take_padTo (width : Nat) (bytes : Bytes) :
    (padTo width bytes).take bytes.length = bytes :=
  List.take_left ..

/-- Padding and cutting to a width gives that width. -/
theorem length_take_padTo (width : Nat) (bytes : Bytes) :
    ((padTo width bytes).take width).length = width := by
  rw [List.length_take, padTo, List.length_append, List.length_replicate]
  omega

/-! ## Equal pieces -/

section Pieces

variable {α : Type}

/-- The number of pieces of length `width` that cover `count` items. -/
def pieceCount (width count : Nat) : Nat := count / width + if count % width ≠ 0 then 1 else 0

/-- The pieces of length `width` of a list, the last one possibly shorter. -/
def pieces (width : Nat) (items : List α) : List (List α) :=
  (List.range (pieceCount width items.length)).map fun index =>
    (items.drop (index * width)).take width

/-- Nothing has no pieces. -/
theorem pieceCount_zero (width : Nat) : pieceCount width 0 = 0 := by
  simp only [pieceCount, Nat.zero_div, Nat.zero_mod, ne_eq, not_true_eq_false, ↓reduceIte,
    Nat.add_zero]

/-- How many pieces there are at most. -/
theorem pieceCount_le_iff {width : Nat} (positive : 0 < width) (count bound : Nat) :
    pieceCount width count ≤ bound ↔ count ≤ bound * width := by
  have split := Nat.div_add_mod count width
  have small := Nat.mod_lt count positive
  rw [Nat.mul_comm bound width]
  by_cases exact : count % width = 0
  · have whole : pieceCount width count = count / width := by
      simp only [pieceCount, exact, ne_eq, not_true_eq_false, ↓reduceIte, Nat.add_zero]
    rw [whole]
    constructor
    · intro covered
      have scaled := Nat.mul_le_mul_left width covered
      omega
    · intro covered
      exact Nat.le_of_mul_le_mul_left (by omega) positive
  · have rounded : pieceCount width count = count / width + 1 := by
      simp only [pieceCount, exact, ne_eq, not_false_eq_true, ↓reduceIte]
    rw [rounded]
    constructor
    · intro covered
      have scaled := Nat.mul_le_mul_left width covered
      rw [Nat.mul_add] at scaled
      omega
    · intro covered
      exact Nat.succ_le_of_lt (Nat.lt_of_mul_lt_mul_left (a := width) (by omega))

/-- The pieces have room for the items. -/
theorem le_pieceCount_mul {width : Nat} (positive : 0 < width) (count : Nat) :
    count ≤ pieceCount width count * width :=
  (pieceCount_le_iff positive count _).mp (Nat.le_refl _)

/-- The number of pieces. -/
@[simp] theorem length_pieces (width : Nat) (items : List α) :
    (pieces width items).length = pieceCount width items.length := by
  simp only [pieces, List.length_map, List.length_range]

/-- A piece by its place. -/
theorem getElem_pieces {width : Nat} {items : List α} {index : Nat}
    (below : index < (pieces width items).length) :
    (pieces width items)[index] = (items.drop (index * width)).take width := by
  simp only [pieces, List.getElem_map, List.getElem_range]

/-- No piece is longer than the width. -/
theorem length_le_of_mem_pieces {width : Nat} {items piece : List α}
    (member : piece ∈ pieces width items) : piece.length ≤ width := by
  obtain ⟨index, _, rfl⟩ := List.mem_map.mp member
  exact List.length_take_le ..

/-- Windows side by side. -/
private theorem flatten_windows {width : Nat} (items : List α) (count : Nat) :
    ((List.range count).map fun index => (items.drop (index * width)).take width).flatten =
      items.take (count * width) := by
  induction count with
  | zero => simp only [List.range_zero, List.map_nil, List.flatten_nil, Nat.zero_mul,
      List.take_zero]
  | succ count ih =>
      rw [List.range_succ, List.map_append, List.flatten_append, ih, Nat.succ_mul, List.take_add]
      simp only [List.map_cons, List.map_nil, List.flatten_cons, List.flatten_nil,
        List.append_nil]

/-- The pieces of a list concatenate to the list. -/
theorem flatten_pieces {width : Nat} (positive : 0 < width) (items : List α) :
    (pieces width items).flatten = items := by
  unfold pieces
  rw [flatten_windows, List.take_of_length_le (le_pieceCount_mul positive items.length)]

end Pieces

end ReVault.Foundation
