import Mathlib.Data.List.Basic
import Mathlib.Tactic.Common

/-!
# Tables of slots

A table has a fixed number of slots, each empty or with a value. A new value goes into
the first empty slot; a value is found by a predicate that at most one slot satisfies.
-/

namespace ReVault.Foundation

variable {α : Type}

/-- A table of slots, each empty or with a value. -/
abbrev Slots (α : Type) := List (Option α)

namespace Slots

/-- The table with the slots that a function gives. -/
def tabulate (count : Nat) (slot : Nat → Option α) : Slots α := (List.range count).map slot

/-- The first empty slot. -/
def firstFree (slots : Slots α) : Option Nat := slots.findIdx? Option.isNone

/-- The first slot whose value satisfies a predicate, with its value. -/
def find (wanted : α → Bool) (slots : Slots α) : Option (Nat × α) :=
  slots.zipIdx.findSome? fun slot => (slot.1.filter wanted).map fun value => (slot.2, value)

/-- The values of a table, in the order of their slots. -/
def values (slots : Slots α) : List α := slots.filterMap id

section Tabulate

variable {count : Nat} {slot : Nat → Option α} {idx : Nat}

/-- A slot of a table. -/
theorem getElem?_tabulate (inTable : idx < count) :
    (tabulate count slot)[idx]? = some (slot idx) := by
  simp [tabulate, inTable]

/-- The values of a table, slot by slot. -/
theorem values_tabulate : (tabulate count slot).values = (List.range count).filterMap slot := by
  simp [values, tabulate, List.filterMap_map]

/-- Changing a slot of a table. -/
theorem set_tabulate (value : Option α) :
    (tabulate count slot).set idx value = tabulate count (Function.update slot idx value) := by
  apply List.ext_getElem?
  intro other
  by_cases inTable : other < count
  · by_cases same : idx = other
    · subst same
      simp [tabulate, inTable]
    · simp [tabulate, same, inTable, Function.update_of_ne (Ne.symm same)]
  · simp [tabulate, Nat.not_lt.mp inTable]

/-- A table without a free slot. -/
theorem firstFree_tabulate_eq_none :
    (tabulate count slot).firstFree = none ↔ ∀ idx, idx < count → slot idx ≠ none := by
  simp [firstFree, tabulate, List.findIdx?_eq_none_iff, Option.isSome_iff_ne_none]

/-- The first free slot of a table. -/
theorem firstFree_tabulate_eq_some : (tabulate count slot).firstFree = some idx ↔
    idx < count ∧ slot idx = none ∧ ∀ earlier, earlier < idx → slot earlier ≠ none := by
  rw [firstFree, List.findIdx?_eq_some_iff_getElem]
  constructor
  · rintro ⟨inTable, free, full⟩
    simp only [tabulate, List.length_map, List.length_range] at inTable
    refine ⟨inTable, by simpa [tabulate] using free, fun earlier before => ?_⟩
    simpa [tabulate, Option.isNone_iff_eq_none] using full earlier before
  · rintro ⟨inTable, free, full⟩
    refine ⟨by simpa [tabulate] using inTable, by simpa [tabulate] using free, ?_⟩
    intro earlier before
    simpa [tabulate, Option.isNone_iff_eq_none] using full earlier before

/-- Searching the indices of a table for an empty slot. -/
theorem firstFree_tabulate {isEmpty : Nat → Bool}
    (empty : ∀ idx, idx < count → isEmpty idx = (slot idx).isNone) :
    (List.range count).find? isEmpty = (tabulate count slot).firstFree := by
  cases found : (tabulate count slot).firstFree with
  | none =>
      rw [List.find?_range_eq_none]
      intro idx inTable
      simp [empty idx inTable, Option.isSome_iff_ne_none,
        firstFree_tabulate_eq_none.mp found idx inTable]
  | some idx =>
      obtain ⟨inTable, free, full⟩ := firstFree_tabulate_eq_some.mp found
      rw [List.find?_range_eq_some]
      refine ⟨by simp [empty idx inTable, free], List.mem_range.mpr inTable, ?_⟩
      intro earlier before
      have earlierIn := Nat.lt_trans before inTable
      simp [empty earlier earlierIn, Option.isSome_iff_ne_none, full earlier before]

/-- A value that no slot holds is not found. -/
theorem find_of_absent {wanted : α → Bool}
    (absent : ∀ idx value, idx < count → slot idx = some value → wanted value = false) :
    (tabulate count slot).find wanted = none := by
  rw [find, List.findSome?_eq_none_iff]
  intro held member
  obtain ⟨found, at'⟩ := held
  have read := List.mk_mem_zipIdx_iff_getElem?.mp member
  by_cases inTable : at' < count
  · rw [getElem?_tabulate inTable] at read
    cases read
    cases content : slot at' with
    | none => rfl
    | some value => simp [Option.filter, absent at' value inTable content]
  · simp [tabulate, Nat.not_lt.mp inTable] at read

/-- The value of the only slot that satisfies a predicate is found. -/
theorem find_of_unique {wanted : α → Bool} {value : α} (inTable : idx < count)
    (holds : slot idx = some value) (isWanted : wanted value = true)
    (only : ∀ other value', other < count → slot other = some value' →
      wanted value' = true → other = idx) :
    (tabulate count slot).find wanted = some (idx, value) := by
  cases found : (tabulate count slot).find wanted with
  | none =>
      have missed := List.findSome?_eq_none_iff.mp found (slot idx, idx)
        (List.mk_mem_zipIdx_iff_getElem?.mpr (getElem?_tabulate inTable))
      simp [holds, Option.filter, isWanted] at missed
  | some result =>
      obtain ⟨held, member, hit⟩ := List.exists_of_findSome?_eq_some found
      obtain ⟨content, other⟩ := held
      have read := List.mk_mem_zipIdx_iff_getElem?.mp member
      obtain ⟨value', passed, rfl⟩ := Option.map_eq_some_iff.mp hit
      obtain ⟨rfl, isWanted'⟩ := Option.filter_eq_some_iff.mp passed
      have otherIn : other < count := by
        by_contra outside
        simp [tabulate, Nat.not_lt.mp outside] at read
      rw [getElem?_tabulate otherIn, Option.some.injEq] at read
      obtain rfl := only other value' otherIn read isWanted'
      rw [holds, Option.some.injEq] at read
      rw [read]

end Tabulate

section Distinct

variable {β : Type}

/-- No two slots hold values with one key. -/
def Distinct (key : α → β) (slots : Slots α) : Prop :=
  ∀ (idx idx' : Nat) value value', slots[idx]? = some (some value) →
    slots[idx']? = some (some value') →
    key value = key value' → idx = idx'

/-- Values of different slots have different keys. -/
theorem distinct_tabulate {key : α → β} {count : Nat} {slot : Nat → Option α}
    (only : ∀ idx idx' value value', idx < count → idx' < count → slot idx = some value →
      slot idx' = some value' → key value = key value' → idx = idx') :
    (tabulate count slot).Distinct key := by
  have below : ∀ {idx : Nat} {value : α}, (tabulate count slot)[idx]? = some (some value) →
      idx < count ∧ slot idx = some value := by
    intro idx value held
    have inTable : idx < count := by
      by_contra outside
      simp [tabulate, Nat.not_lt.mp outside] at held
    rw [getElem?_tabulate inTable, Option.some.injEq] at held
    exact ⟨inTable, held⟩
  intro idx idx' value value' held held' same
  obtain ⟨inTable, held⟩ := below held
  obtain ⟨inTable', held'⟩ := below held'
  exact only idx idx' value value' inTable inTable' held held' same

/-- A value is in some slot. -/
theorem mem_values {slots : Slots α} {value : α} :
    value ∈ slots.values ↔ ∃ idx : Nat, slots[idx]? = some (some value) := by
  rw [values, List.mem_filterMap]
  simp [List.mem_iff_getElem?]

/-- Emptying the only slot that satisfies a predicate. -/
theorem values_set_none {wanted : α → Bool} {slots : Slots α} {idx : Nat} {value : α}
    (held : slots[idx]? = some (some value)) (isWanted : wanted value = true)
    (only : ∀ (other : Nat) value', slots[other]? = some (some value') → wanted value' = true →
      other = idx) :
    values (slots.set idx none) = slots.values.filter fun value => !wanted value := by
  induction slots generalizing idx with
  | nil => simp at held
  | cons slot rest ih =>
      cases idx with
      | zero =>
          obtain rfl : slot = some value := by simpa using held
          have others : ∀ value' ∈ values rest, wanted value' = false := by
            intro value' member
            obtain ⟨other, held'⟩ := mem_values.mp member
            by_contra isWanted'
            have impossible := only (other + 1) value' held' (by simpa using isWanted')
            omega
          have kept : (values rest).filter (fun value => !wanted value) = values rest :=
            List.filter_eq_self.mpr fun value' member => by simp [others value' member]
          change values rest = List.filter _ (value :: values rest)
          rw [List.filter_cons, isWanted, kept]
          rfl
      | succ idx =>
          have later := ih held fun other value' held' isWanted' =>
            Nat.succ.inj (only (other + 1) value' held' isWanted')
          cases slot with
          | none => exact later
          | some head =>
              have spared : wanted head = false := by
                by_contra isWanted'
                have impossible := only 0 head rfl (by simpa using isWanted')
                omega
              change head :: values (rest.set idx none) = List.filter _ (head :: values rest)
              rw [List.filter_cons, spared, later]
              rfl

variable [DecidableEq β] {key : α → β} {slots : Slots α}

/-- A value is found by its key, and removed alone. -/
theorem Distinct.find_of_mem (distinct : slots.Distinct key) {value : α}
    (member : value ∈ slots.values) :
    ∃ idx, slots.find (fun other => key other == key value) = some (idx, value) ∧
      values (slots.set idx none) = slots.values.filter fun other => key other ≠ key value := by
  obtain ⟨idx, held⟩ := mem_values.mp member
  refine ⟨idx, ?_, ?_⟩
  · cases found : slots.find (fun other => key other == key value) with
    | none =>
        have missed := List.findSome?_eq_none_iff.mp found (some value, idx)
          (List.mk_mem_zipIdx_iff_getElem?.mpr held)
        simp [Option.filter] at missed
    | some result =>
        obtain ⟨⟨content, other⟩, member', hit⟩ := List.exists_of_findSome?_eq_some found
        have read := List.mk_mem_zipIdx_iff_getElem?.mp member'
        obtain ⟨value', passed, rfl⟩ := Option.map_eq_some_iff.mp hit
        obtain ⟨rfl, same⟩ := Option.filter_eq_some_iff.mp passed
        obtain rfl := distinct other idx value' value read held (by simpa using same)
        rw [held, Option.some.injEq, Option.some.injEq] at read
        rw [read]
  · have only : ∀ (other : Nat) value', slots[other]? = some (some value') →
        (key value' == key value) = true → other = idx := fun other value' held' same =>
      distinct other idx value' value held' held (by simpa using same)
    rw [values_set_none held (by simp) only]
    apply List.filter_congr
    intro other _
    simp [beq_eq_decide]

end Distinct

end Slots

end ReVault.Foundation
