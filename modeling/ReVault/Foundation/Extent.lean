import ReVault.Foundation.Image

/-!
# Extents of an image

Named byte ranges of an image. Slots of a table are disjoint, and what one extent
holds survives a write that fills another.
-/

namespace ReVault.Foundation

/-- A range of bytes. -/
structure Extent where
  start : Nat
  size : Nat

namespace Extent

/-- Where an extent ends. -/
def stop (extent : Extent) : Nat := extent.start + extent.size

/-- Two ranges that share no byte. -/
def Apart (first second : Extent) : Prop :=
  first.stop ≤ second.start ∨ second.stop ≤ first.start

/-- Being apart, the other way around. -/
theorem Apart.symm {first second : Extent} (apart : first.Apart second) :
    second.Apart first := Or.symm apart

/-- Slot `index` of a table of equal slots. -/
def slot (base width index : Nat) : Extent where
  start := base + index * width
  size := width

/-- A slot lies inside the table. -/
theorem slot_stop_le {base width index count : Nat} (inTable : index < count) :
    (slot base width index).stop ≤ base + count * width := by
  have scaled := Nat.mul_le_mul_right width (Nat.succ_le_of_lt inTable)
  rw [Nat.succ_mul] at scaled
  change base + index * width + width ≤ base + count * width
  omega

/-- Slots of a table are apart. -/
theorem slot_apart {base width first second : Nat} (different : first ≠ second) :
    (slot base width first).Apart (slot base width second) := by
  rcases Nat.lt_or_gt_of_ne different with less | greater
  · left
    exact slot_stop_le less
  · right
    exact slot_stop_le greater

end Extent

/-- What an image holds in an extent. -/
def cell (image : Bytes) (extent : Extent) : Option Bytes :=
  readAt image extent.start extent.size

/-- Filling an extent makes it hold what was written. -/
theorem cell_writeAt_self {image data : Bytes} {extent : Extent}
    (fills : data.length = extent.size) :
    cell (writeAt image extent.start data) extent = some data := by
  unfold cell
  rw [← fills]
  exact readAt_writeAt_self image extent.start data

/-- Filling an extent keeps what the others hold. -/
theorem cell_writeAt_of_apart {image content data : Bytes} {extent other : Extent}
    (found : cell image extent = some content) (fills : data.length = other.size)
    (apart : extent.Apart other) :
    cell (writeAt image other.start data) extent = some content := by
  refine readAt_writeAt_of_disjoint found ?_
  rw [fills]
  exact apart

end ReVault.Foundation
