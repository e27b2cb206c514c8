import Mathlib.Logic.Function.Basic
import Mathlib.Tactic.Common

/-!
# Ring buffers

A ring of a given capacity retains a history when the slot of every recent position
holds the item of that position. Pushing an item over the oldest slot keeps this.
-/

namespace ReVault.Foundation

variable {α : Type}

/-- The last `capacity` items of a history are in their slots. -/
def Retains (capacity : Nat) (slots : Nat → Option α) (history : List α) : Prop :=
  ∀ position item, history[position]? = some item → history.length ≤ position + capacity →
    slots (position % capacity) = some item

namespace Retains

variable {capacity : Nat} {slots : Nat → Option α} {history : List α}

/-- Positions closer than the capacity have different slots. -/
theorem slot_ne {first second : Nat} (ordered : first < second)
    (close : second < first + capacity) : first % capacity ≠ second % capacity := by
  intro same
  have multiple : capacity ∣ second - first :=
    Nat.dvd_of_mod_eq_zero (Nat.sub_mod_eq_zero_of_mod_eq same.symm)
  have atLeast := Nat.le_of_dvd (Nat.sub_pos_of_lt ordered) multiple
  omega

/-- Pushing an item puts it into the slot of the next position. -/
theorem push (retains : Retains capacity slots history) (item : α) :
    Retains capacity (Function.update slots (history.length % capacity) (some item))
      (history ++ [item]) := by
  intro position found held recent
  rw [List.length_append, List.length_singleton] at recent
  by_cases old : position < history.length
  · rw [List.getElem?_append_left old] at held
    rw [Function.update_of_ne (slot_ne old (by omega))]
    exact retains position found held (by omega)
  · have inside := (List.getElem?_eq_some_iff.mp held).1
    rw [List.length_append, List.length_singleton] at inside
    have last : position = history.length := by omega
    rw [last, List.getElem?_concat_length] at held
    rw [last, Function.update_self]
    exact held

end Retains

end ReVault.Foundation
