import Mathlib.Data.Finset.Sort

/-!
# The smallest items of a finite set

First fit takes the smallest items of those that are free. A list that is increasing and has
the items of a set lists them from the smallest on.
-/

namespace ReVault.Foundation

variable {α : Type} [LinearOrder α]

/-- The smallest items of a set in increasing order, as many as asked for. -/
def smallest (items : Finset α) (count : Nat) : List α := items.sort.take count

/-- An increasing list of the items of a set starts with the smallest. -/
theorem take_eq_smallest {items : Finset α} {list : List α}
    (increasing : list.Pairwise fun first second => first < second)
    (same : ∀ item, item ∈ list ↔ item ∈ items) (count : Nat) :
    list.take count = smallest items count := by
  have sorted : list = items.sort := by
    refine List.Subset.antisymm_of_sortedLT ?_ ?_ increasing.sortedLT items.sortedLT_sort
    · intro item member
      exact (Finset.mem_sort _).mpr ((same item).mp member)
    · intro item member
      exact (same item).mpr ((Finset.mem_sort _).mp member)
  rw [smallest, sorted]

end ReVault.Foundation
