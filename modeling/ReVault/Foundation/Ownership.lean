import Mathlib.Algebra.BigOperators.Group.Finset.Basic
import Mathlib.Algebra.Order.BigOperators.Group.Finset

/-!
# Ownership of a pool

Owners hold disjoint parts of a pool, and what is taken from the pool is exactly
what they hold. Owners may give up their part and take free items; counting the
parts counts what is taken.
-/

namespace ReVault.Foundation

variable {ι α : Type} [DecidableEq ι] [DecidableEq α]

/-- The parts are disjoint and make up what is taken. -/
structure Owns (parts : ι → Finset α) (taken : Finset α) : Prop where
  covers : ∀ item, item ∈ taken ↔ ∃ owner, item ∈ parts owner
  apart : ∀ first second, first ≠ second → Disjoint (parts first) (parts second)

namespace Owns

variable {parts : ι → Finset α} {taken : Finset α}

omit [DecidableEq ι] [DecidableEq α] in
/-- Nobody owns anything. -/
theorem empty : Owns (fun _ : ι => (∅ : Finset α)) ∅ where
  covers := by
    intro item
    simp only [Finset.notMem_empty, exists_false]
  apart := fun _ _ _ => Finset.disjoint_empty_left _

omit [DecidableEq ι] [DecidableEq α] in
/-- What is owned is taken. -/
theorem subset (owns : Owns parts taken) (owner : ι) : parts owner ⊆ taken :=
  fun item member => (owns.covers item).mpr ⟨owner, member⟩

/-- An owner gives up its part. -/
theorem release (owns : Owns parts taken) (owner : ι) :
    Owns (Function.update parts owner ∅) (taken \ parts owner) where
  covers := by
    intro item
    rw [Finset.mem_sdiff, owns.covers]
    constructor
    · rintro ⟨⟨other, member⟩, notOwned⟩
      have different : other ≠ owner := fun same => notOwned (by rwa [← same])
      exact ⟨other, by rwa [Function.update_of_ne different]⟩
    · rintro ⟨other, member⟩
      by_cases same : other = owner
      · rw [same, Function.update_self] at member
        exact absurd member (Finset.notMem_empty item)
      · rw [Function.update_of_ne same] at member
        exact ⟨⟨other, member⟩, Finset.disjoint_left.mp (owns.apart other owner same) member⟩
  apart := by
    intro first second different
    by_cases isFirst : first = owner
    · rw [isFirst, Function.update_self]
      exact Finset.disjoint_empty_left _
    · by_cases isSecond : second = owner
      · rw [isSecond, Function.update_self]
        exact Finset.disjoint_empty_right _
      · rw [Function.update_of_ne isFirst, Function.update_of_ne isSecond]
        exact owns.apart first second different

/-- An owner that holds nothing takes free items. -/
theorem acquire (owns : Owns parts taken) {owner : ι} (idle : parts owner = ∅)
    {items : Finset α} (free : Disjoint items taken) :
    Owns (Function.update parts owner items) (taken ∪ items) where
  covers := by
    intro item
    rw [Finset.mem_union, owns.covers]
    constructor
    · rintro (⟨other, member⟩ | new)
      · have different : other ≠ owner := by
          rintro rfl
          rw [idle] at member
          exact Finset.notMem_empty item member
        exact ⟨other, by rwa [Function.update_of_ne different]⟩
      · exact ⟨owner, by rwa [Function.update_self]⟩
    · rintro ⟨other, member⟩
      by_cases same : other = owner
      · rw [same, Function.update_self] at member
        exact Or.inr member
      · rw [Function.update_of_ne same] at member
        exact Or.inl ⟨other, member⟩
  apart := by
    intro first second different
    have others : ∀ other, other ≠ owner → Disjoint items (parts other) := fun other _ =>
      Finset.disjoint_of_subset_right (owns.subset other) free
    by_cases isFirst : first = owner
    · have isOther : second ≠ owner := fun same => different (isFirst.trans same.symm)
      rw [isFirst, Function.update_self, Function.update_of_ne isOther]
      exact others second isOther
    · by_cases isSecond : second = owner
      · rw [isSecond, Function.update_self, Function.update_of_ne isFirst]
        exact (others first isFirst).symm
      · rw [Function.update_of_ne isFirst, Function.update_of_ne isSecond]
        exact owns.apart first second different

omit [DecidableEq ι] in
/-- What is taken is counted owner by owner. -/
theorem card_eq (owns : Owns parts taken) (owners : Finset ι)
    (all : ∀ owner, owner ∉ owners → parts owner = ∅) :
    taken.card = ∑ owner ∈ owners, (parts owner).card := by
  have union : taken = owners.biUnion parts := by
    ext item
    rw [owns.covers, Finset.mem_biUnion]
    constructor
    · rintro ⟨owner, member⟩
      refine ⟨owner, ?_, member⟩
      by_contra outside
      rw [all owner outside] at member
      exact Finset.notMem_empty item member
    · rintro ⟨owner, _, member⟩
      exact ⟨owner, member⟩
  rw [union, Finset.card_biUnion]
  exact fun first _ second _ different => owns.apart first second different

end Owns

end ReVault.Foundation
