import Mathlib.Tactic.Common

/-!
# Scanning a table of slots

Reading the slots of a table one after another until one is found, or keeping all
that satisfy a predicate. When every slot reads back, a scan is a search in the
list of indexed values.
-/

namespace ReVault.Foundation

variable {ε α : Type}

/-- The first index whose slot satisfies a predicate, with the slot. -/
def findSlot (read : Nat → Except ε α) (wanted : α → Bool) :
    List Nat → Except ε (Option (Nat × α))
  | [] => .ok none
  | index :: rest => do
      let slot ← read index
      if wanted slot then .ok (some (index, slot)) else findSlot read wanted rest

/-- All indices whose slots satisfy a predicate, with the slots. -/
def keepSlots (read : Nat → Except ε α) (wanted : α → Bool) :
    List Nat → Except ε (List (Nat × α))
  | [] => .ok []
  | index :: rest => do
      let slot ← read index
      let later ← keepSlots read wanted rest
      .ok (if wanted slot then (index, slot) :: later else later)

/-- A slot that is found is one of those searched. -/
theorem mem_of_findSlot {read : Nat → Except ε α} {wanted : α → Bool} {indices : List Nat}
    {index : Nat} {slot : α} (found : findSlot read wanted indices = .ok (some (index, slot))) :
    index ∈ indices := by
  induction indices with
  | nil => cases found
  | cons first rest ih =>
      rw [findSlot] at found
      cases here : read first with
      | error error =>
          rw [here] at found
          cases found
      | ok value =>
          rw [here] at found
          change (if wanted value then Except.ok (some (first, value))
            else findSlot read wanted rest) = .ok (some (index, slot)) at found
          split at found
          · cases found
            exact List.mem_cons_self
          · exact List.mem_cons_of_mem first (ih found)

section Readable

variable {read : Nat → Except ε α} {contents : Nat → α} {indices : List Nat}
  (readable : ∀ index ∈ indices, read index = .ok (contents index))

include readable in
/-- A search through slots that can be read. -/
theorem findSlot_eq (wanted : α → Bool) : findSlot read wanted indices =
    .ok ((indices.find? fun index => wanted (contents index)).map
      fun index => (index, contents index)) := by
  induction indices with
  | nil => rfl
  | cons index rest ih =>
      have head := readable index List.mem_cons_self
      have tail := ih fun later member => readable later (List.mem_cons_of_mem index member)
      rw [findSlot, head]
      change (if wanted (contents index) then .ok (some (index, contents index))
        else findSlot read wanted rest) = _
      by_cases found : wanted (contents index)
      · rw [if_pos found, List.find?_cons]
        simp only [found, Option.map_some]
      · rw [if_neg found, List.find?_cons, tail]
        simp only [found]

include readable in
/-- A listing of slots that can be read. -/
theorem keepSlots_eq (wanted : α → Bool) : keepSlots read wanted indices =
    .ok ((indices.filter fun index => wanted (contents index)).map
      fun index => (index, contents index)) := by
  induction indices with
  | nil => rfl
  | cons index rest ih =>
      have head := readable index List.mem_cons_self
      have tail := ih fun later member => readable later (List.mem_cons_of_mem index member)
      rw [keepSlots, head, tail, List.filter_cons]
      change (Except.ok (if wanted (contents index) then _ else _) : Except ε _) = _
      by_cases found : wanted (contents index)
      · rw [if_pos found, if_pos found, List.map_cons]
      · rw [if_neg found, if_neg found]

end Readable

end ReVault.Foundation
