import ReVault.Core.Allocator
import ReVault.Core.Error
import ReVault.Foundation.Fallible
import ReVault.Foundation.Pool

/-!
# Runs of the allocator

The operations of the allocator once more, with the panics that the source could meet: an access
beyond the byte array, and more room asked for than a vector can be given. Of these only the
second happens. A run of calls that asks for no more than that follows the operations on the
set of occupied blocks, and leaves the bits beyond the blocks alone.
-/

namespace ReVault

open Foundation

namespace BlockAllocator

/-! ## Operations that may panic -/

/-- The most block numbers that a vector has room for: it takes at most 2^63 - 1 bytes. -/
def maxRoom : Nat := (2 ^ 63 - 1) / 8

/-- `set`, with the bound of the access to the byte array. -/
def exactSet (a : BlockAllocator) (index : UInt64) (occupied : Bool) :
    Except Fault BlockAllocator :=
  if index.toNat / 8 < a.bits.length then .ok (a.set index occupied) else .error .panic

/-- The scan of `allocate`, with its panics. -/
def exactAllocateFrom (count : Nat) :
    List Nat → BlockAllocator → List UInt64 → Except Fault (BlockAllocator × List UInt64)
  | [], a, out => .ok (a, out)
  | i :: rest, a, out =>
      if out.length = count then .ok (a, out)
      else if a.isFree (UInt64.ofNat i) then do
        let marked ← a.exactSet (UInt64.ofNat i) true
        exactAllocateFrom count rest marked (out ++ [UInt64.ofNat i])
      else exactAllocateFrom count rest a out

/-- `allocate` first makes room for all the blocks that it is asked for. -/
def exactAllocate (a : BlockAllocator) (count : UInt64) :
    Except Fault (BlockAllocator × List UInt64) :=
  if count.toNat > maxRoom then .error .panic
  else exactAllocateFrom count.toNat a.indices a []

/-- The loop of `free` and `mark_occupied`, with its panics. -/
def exactSetAll (occupied : Bool) : List UInt64 → BlockAllocator → Except Fault BlockAllocator
  | [], a => .ok a
  | i :: rest, a =>
      if i < a.blockCount then do
        let written ← a.exactSet i occupied
        exactSetAll occupied rest written
      else exactSetAll occupied rest a

/-- `free`, with its panics. -/
def exactFree (a : BlockAllocator) (blocks : List UInt64) : Except Fault BlockAllocator :=
  exactSetAll false blocks a

/-- `mark_occupied`, with its panics. -/
def exactMarkOccupied (a : BlockAllocator) (blocks : List UInt64) : Except Fault BlockAllocator :=
  exactSetAll true blocks a

/-! ## No access leaves the byte array -/

/-- A bit in range is set without a panic. -/
theorem exactSet_eq (a : BlockAllocator) {index : UInt64} (occupied : Bool)
    (inRange : index < a.blockCount) : a.exactSet index occupied = .ok (a.set index occupied) :=
  if_pos (a.byte_lt inRange)

/-- A loop over bits never panics: it skips what is out of range. -/
theorem exactSetAll_eq (a : BlockAllocator) (blocks : List UInt64) (occupied : Bool) :
    exactSetAll occupied blocks a = .ok (a.setAll blocks occupied) := by
  induction blocks generalizing a with
  | nil => rfl
  | cons block rest ih =>
      unfold exactSetAll
      by_cases inRange : block < a.blockCount
      · rw [if_pos inRange, except_bind_of_ok (a.exactSet_eq occupied inRange), ih, setAll, setAll,
          List.foldl_cons, if_pos inRange]
      · rw [if_neg inRange, ih, setAll, setAll, List.foldl_cons, if_neg inRange]

/-- The scan never panics: it looks at blocks in range. -/
theorem exactAllocateFrom_eq (count : Nat) {todo : List Nat} (a : BlockAllocator)
    (out : List UInt64) (bounded : ∀ i ∈ todo, i < a.blockCount.toNat) :
    exactAllocateFrom count todo a out = .ok (allocateFrom count todo a out) := by
  induction todo generalizing a out with
  | nil => rfl
  | cons i rest ih =>
      have inRange := a.ofNat_lt_of_lt (bounded i List.mem_cons_self)
      have later : ∀ j ∈ rest, j < a.blockCount.toNat := fun j member =>
        bounded j (List.mem_cons_of_mem i member)
      unfold exactAllocateFrom allocateFrom
      split
      · rfl
      · split
        · rw [except_bind_of_ok (a.exactSet_eq true inRange)]
          exact ih _ _ later
        · exact ih _ _ later

/-- Allocation panics only when it is asked for too much. -/
theorem exactAllocate_eq (a : BlockAllocator) {count : UInt64} (room : count.toNat ≤ maxRoom) :
    a.exactAllocate count = .ok (a.allocate count.toNat) := by
  unfold exactAllocate
  rw [if_neg (Nat.not_lt.mpr room)]
  exact exactAllocateFrom_eq _ a [] fun i member => List.mem_range.mp member

/-! ## Bits and sets -/

/-- Allocation writes the bits of the blocks that it hands out. -/
theorem allocateFrom_eq_setAll (count : Nat) {todo : List Nat} (a : BlockAllocator)
    (out : List UInt64) (bounded : ∀ i ∈ todo, i < a.blockCount.toNat) :
    ∃ taken, (allocateFrom count todo a out).2 = out ++ taken ∧
      (allocateFrom count todo a out).1 = a.markOccupied taken := by
  induction todo generalizing a out with
  | nil => exact ⟨[], (List.append_nil out).symm, rfl⟩
  | cons i rest ih =>
      have inRange := a.ofNat_lt_of_lt (bounded i List.mem_cons_self)
      have later : ∀ j ∈ rest, j < a.blockCount.toNat := fun j member =>
        bounded j (List.mem_cons_of_mem i member)
      unfold allocateFrom
      split
      · exact ⟨[], (List.append_nil out).symm, rfl⟩
      · split
        · obtain ⟨taken, outIs, stateIs⟩ := ih (a.set (UInt64.ofNat i) true)
            (out ++ [UInt64.ofNat i]) later
          refine ⟨UInt64.ofNat i :: taken, ?_, ?_⟩
          · rw [outIs, List.append_assoc]
            rfl
          · rw [stateIs, markOccupied, markOccupied, setAll, setAll, List.foldl_cons,
              if_pos inRange]
        · exact ih a out later

/-- Blocks that are given out are marked. -/
theorem allocate_eq_markOccupied (a : BlockAllocator) (count : Nat) :
    (a.allocate count).1 = a.markOccupied (a.allocate count).2 := by
  have bounded : ∀ i ∈ a.indices, i < a.blockCount.toNat := fun i member =>
    List.mem_range.mp member
  obtain ⟨taken, outIs, stateIs⟩ := allocateFrom_eq_setAll count a [] bounded
  unfold allocate
  rw [outIs, stateIs, List.nil_append]

/-- The bits beyond the blocks are never written. -/
theorem bitAt_setAll (a : BlockAllocator) (blocks : List UInt64) (taken : Bool) {position : Nat}
    (beyond : a.blockCount.toNat ≤ position) :
    (a.setAll blocks taken).bitAt position = a.bitAt position := by
  unfold setAll
  induction blocks generalizing a with
  | nil => rfl
  | cons block rest ih =>
      rw [List.foldl_cons]
      by_cases inRange : block < a.blockCount
      · have before := UInt64.lt_iff_toNat_lt.mp inRange
        rw [if_pos inRange, ih (a.set block taken) beyond, bitAt_set a taken inRange,
          if_neg (by omega)]
      · rw [if_neg inRange, ih a beyond]

/-- The bits of the blocks are those of the occupied set. -/
theorem bitAt_eq_decide (a : BlockAllocator) {position : Nat}
    (inside : position < a.blockCount.toNat) :
    a.bitAt position = decide (position ∈ a.occupied) := by
  have value := a.toNat_ofNat_of_lt inside
  have inRange := a.ofNat_lt_of_lt inside
  rw [Bool.eq_iff_iff, decide_eq_true_eq, mem_occupied, isFree_eq, bit_eq, value]
  simp only [inside, inRange, decide_true, Bool.true_and, Bool.not_eq_false', true_and]

/-- Marking blocks adds those in range to the occupied set. -/
theorem occupied_markOccupied (a : BlockAllocator) (blocks : List UInt64) :
    (a.markOccupied blocks).occupied =
      a.occupied ∪ (blocks.map UInt64.toNat).toFinset.filter fun i => i < a.blockCount.toNat := by
  unfold markOccupied setAll
  induction blocks generalizing a with
  | nil =>
      rw [List.map_nil, List.toFinset_nil, Finset.filter_empty, Finset.union_empty]
      rfl
  | cons block rest ih =>
      rw [List.foldl_cons, ih, List.map_cons, List.toFinset_cons, Finset.filter_insert]
      by_cases inRange : block < a.blockCount
      · rw [if_pos inRange, if_pos (UInt64.lt_iff_toNat_lt.mp inRange), occupied_set a true inRange,
          if_pos rfl, blockCount_set, Finset.insert_union, Finset.union_insert]
      · rw [if_neg inRange, if_neg (fun below => inRange (UInt64.lt_iff_toNat_lt.mpr below))]

/-- First fit hands out the smallest blocks that are not in the occupied set. -/
theorem map_toNat_allocate (a : BlockAllocator) (count : Nat) :
    (a.allocate count).2.map UInt64.toNat =
      smallest (Finset.range a.blockCount.toNat \ a.occupied) count := by
  rw [allocate_eq, List.map_take]
  refine take_eq_smallest (List.pairwise_map.mpr a.freeList_sorted) (fun i => ?_) count
  rw [List.mem_map, Finset.mem_sdiff, Finset.mem_range]
  constructor
  · rintro ⟨index, member, rfl⟩
    obtain ⟨inRange, free⟩ := (a.mem_freeList index).mp member
    exact ⟨UInt64.lt_iff_toNat_lt.mp inRange, free⟩
  · rintro ⟨below, free⟩
    have value := a.toNat_ofNat_of_lt below
    exact ⟨UInt64.ofNat i, (a.mem_freeList _).mpr ⟨a.ofNat_lt_of_lt below, by rwa [value]⟩, value⟩

/-! ## Runs -/

/-- How an allocator is made. -/
inductive Origin where
  | new (blockCount : UInt64)
  | fromBytes (bits : Bytes) (blockCount : UInt64)

/-- A call that changes an allocator. -/
inductive Call where
  | allocate (count : UInt64)
  | free (indices : List UInt64)
  | markOccupied (indices : List UInt64)

/-- The allocator that is made. -/
def Origin.make : Origin → BlockAllocator
  | .new blockCount => BlockAllocator.new blockCount
  | .fromBytes bits blockCount => BlockAllocator.fromBytes bits blockCount

/-- What a call returns, and the allocator after it. -/
def perform (a : BlockAllocator) : Call → Except Fault (List UInt64 × BlockAllocator)
  | .allocate count => do
      let (after, out) ← a.exactAllocate count
      .ok (out, after)
  | .free indices => do
      let after ← a.exactFree indices
      .ok ([], after)
  | .markOccupied indices => do
      let after ← a.exactMarkOccupied indices
      .ok ([], after)

/-- What each of several calls returns, and the allocator after them. -/
def performAll : List Call → BlockAllocator → Except Fault (List (List UInt64) × BlockAllocator)
  | [], a => .ok ([], a)
  | call :: rest, a => do
      let (out, after) ← a.perform call
      let (outs, final) ← performAll rest after
      .ok (out :: outs, final)

/-! ## What a run does to a set -/

/-- The numbers below a bound that an allocator is made with. -/
def Origin.set : Origin → Finset Nat
  | .new _ => ∅
  | .fromBytes bits blockCount => (Finset.range blockCount.toNat).filter fun i =>
      ((bits[i / 8]?).getD 0).toNat.testBit (i % 8)

/-- The listed numbers below a bound. -/
def listedBelow (bound : Nat) (indices : List UInt64) : Finset Nat :=
  (indices.map UInt64.toNat).toFinset.filter fun i => i < bound

/-- What a call does to a set of numbers below a bound, and the numbers that it returns. -/
def Call.onSet (bound : Nat) (taken : Finset Nat) : Call → List Nat × Finset Nat
  | .allocate count =>
      let found := smallest (Finset.range bound \ taken) count.toNat
      (found, taken ∪ found.toFinset)
  | .free indices => ([], taken \ listedBelow bound indices)
  | .markOccupied indices => ([], taken ∪ listedBelow bound indices)

/-- What a sequence of calls gives out and leaves taken, on a set. -/
def Call.onSetAll (bound : Nat) : List Call → Finset Nat → List (List Nat) × Finset Nat
  | [], taken => ([], taken)
  | call :: rest, taken =>
      let (out, after) := call.onSet bound taken
      let (outs, final) := onSetAll bound rest after
      (out :: outs, final)

/-- Room is asked for that a vector can have. -/
def Call.Roomy : Call → Prop
  | .allocate count => count.toNat ≤ maxRoom
  | .free _ | .markOccupied _ => True

/-- What is occupied in a pool that was just made. -/
theorem occupied_make (origin : Origin) : origin.make.occupied = origin.set := by
  cases origin with
  | new blockCount => exact occupied_new blockCount
  | fromBytes bits blockCount =>
      ext i
      rw [Origin.set, Finset.mem_filter, Finset.mem_range]
      by_cases inside : i < blockCount.toNat
      · have stored := bitAt_eq_decide (BlockAllocator.fromBytes bits blockCount) inside
        have within : i / 8 < bitmapLenBytes blockCount := by
          unfold bitmapLenBytes
          omega
        have same : (BlockAllocator.fromBytes bits blockCount).bitAt i =
            ((bits[i / 8]?).getD 0).toNat.testBit (i % 8) := by
          unfold bitAt BlockAllocator.fromBytes padTo
          dsimp only
          rw [List.getElem?_take_of_lt within, List.getElem?_append]
          split
          · rfl
          · rename_i beyond
            rw [List.getElem?_replicate_of_lt (by omega), List.getElem?_eq_none (by omega)]
            rfl
        rw [← same, stored, decide_eq_true_eq]
        simp only [inside, true_and]
        rfl
      · refine iff_of_false (fun member => ?_) fun both => inside both.1
        exact inside ((mem_occupied _ i).mp member).1

/-- A call does to the occupied set what it does to a set, and leaves the bits beyond the
blocks alone. -/
theorem perform_eq (a : BlockAllocator) {call : Call} (roomy : call.Roomy) :
    ∃ out after, a.perform call = .ok (out, after) ∧ after.blockCount = a.blockCount ∧
      (out.map UInt64.toNat, after.occupied) = call.onSet a.blockCount.toNat a.occupied ∧
      ∀ position, a.blockCount.toNat ≤ position → after.bitAt position = a.bitAt position := by
  cases call with
  | allocate count =>
      refine ⟨_, _, except_bind_of_ok (a.exactAllocate_eq roomy), blockCount_allocate _ _, ?_, ?_⟩
      · rw [Call.onSet, occupied_allocate, map_toNat_allocate]
      · intro position beyond
        rw [allocate_eq_markOccupied]
        exact bitAt_setAll a _ true beyond
  | free indices =>
      refine ⟨_, _, except_bind_of_ok (a.exactSetAll_eq indices false), blockCount_free _ _, ?_,
        fun position beyond => bitAt_setAll a indices false beyond⟩
      have removed : (a.setAll indices false).occupied =
          a.occupied \ listedBelow a.blockCount.toNat indices := by
        refine (occupied_free a indices).trans ?_
        ext i
        rw [listedBelow, Finset.mem_sdiff, Finset.mem_sdiff, Finset.mem_filter]
        refine and_congr_right fun member => not_congr ?_
        simp only [((mem_occupied a i).mp member).1, and_true]
      rw [Call.onSet, removed]
      rfl
  | markOccupied indices =>
      refine ⟨_, _, except_bind_of_ok (a.exactSetAll_eq indices true), blockCount_setAll _ _ _, ?_,
        fun position beyond => bitAt_setAll a indices true beyond⟩
      have added : (a.setAll indices true).occupied =
          a.occupied ∪ listedBelow a.blockCount.toNat indices := occupied_markOccupied a indices
      rw [Call.onSet, added]
      rfl

/-- A call that asks for too much panics. -/
theorem perform_of_not_roomy (a : BlockAllocator) {call : Call} (large : ¬ call.Roomy) :
    a.perform call = .error .panic := by
  cases call with
  | allocate count =>
      have panicked : a.exactAllocate count = .error .panic := if_pos (Nat.lt_of_not_le large)
      exact except_bind_of_error panicked
  | free indices => exact absurd trivial large
  | markOccupied indices => exact absurd trivial large

/-- What an allocator of a given origin returns and holds is what the calls do to a set. -/
structure Follows (origin : Origin) (calls : List Call) (outs : List (List UInt64))
    (final : BlockAllocator) : Prop where
  sized : final.blockCount = origin.make.blockCount
  returned : outs.map (List.map UInt64.toNat) =
    (Call.onSetAll origin.make.blockCount.toNat calls origin.set).1
  occupied : final.occupied = (Call.onSetAll origin.make.blockCount.toNat calls origin.set).2
  counted : final.occupiedCount = final.occupied.card ∧
    final.freeCount + final.occupiedCount = final.blockCount.toNat
  bits : ∀ position, final.bitAt position =
    if position < final.blockCount.toNat then decide (position ∈ final.occupied)
    else origin.make.bitAt position
  stored : (BlockAllocator.fromBytes final.asBytes final.blockCount).occupied = final.occupied

/-- Every block is free or occupied. -/
theorem freeCount_add_occupiedCount (a : BlockAllocator) :
    a.freeCount + a.occupiedCount = a.blockCount.toNat := by
  have bound := a.card_occupied_le
  rw [occupiedCount_eq, freeCount_eq]
  omega

/-- A run of calls that ask for no more than there is room for does not panic. -/
theorem performAll_eq (calls : List Call) (a : BlockAllocator)
    (roomy : ∀ call ∈ calls, call.Roomy) :
    ∃ outs final, performAll calls a = .ok (outs, final) ∧ final.blockCount = a.blockCount ∧
      (outs.map (List.map UInt64.toNat), final.occupied) =
        Call.onSetAll a.blockCount.toNat calls a.occupied ∧
      ∀ position, a.blockCount.toNat ≤ position → final.bitAt position = a.bitAt position := by
  induction calls generalizing a with
  | nil => exact ⟨[], a, rfl, rfl, rfl, fun _ _ => rfl⟩
  | cons call rest ih =>
      obtain ⟨out, after, performed, sized, step, beyond⟩ :=
        a.perform_eq (roomy call List.mem_cons_self)
      obtain ⟨outs, final, ran, sized', steps, beyond'⟩ :=
        ih after fun later member => roomy later (List.mem_cons_of_mem call member)
      rw [sized] at sized' steps beyond'
      refine ⟨out :: outs, final, ?_, sized', ?_, fun position above => ?_⟩
      · unfold performAll
        rw [except_bind_of_ok performed]
        exact except_bind_of_ok ran
      · rw [Call.onSetAll, ← step]
        dsimp only
        rw [← steps]
        rfl
      · exact (beyond' position above).trans (beyond position above)

/-- A run that does not panic asks for no more than there is room for. -/
theorem roomy_of_performAll {calls : List Call} {a final : BlockAllocator}
    {outs : List (List UInt64)} (ran : performAll calls a = .ok (outs, final)) :
    ∀ call ∈ calls, call.Roomy := by
  induction calls generalizing a outs with
  | nil => exact fun call member => absurd member List.not_mem_nil
  | cons call rest ih =>
      obtain ⟨⟨out, after⟩, performed, ran⟩ := except_bind_eq_ok_iff.mp ran
      obtain ⟨⟨outs', final'⟩, later, returned⟩ := except_bind_eq_ok_iff.mp ran
      cases returned
      intro other member
      rcases List.mem_cons.mp member with rfl | inRest
      · by_contra large
        rw [perform_of_not_roomy a large] at performed
        cases performed
      · exact ih later other inRest

/-- **Refinement.** Every run of calls returns and does to the occupied set what the calls do to
a set, exactly when no call asks for more blocks than a vector has room for. -/
theorem follows_iff (origin : Origin) (calls : List Call) :
    (∃ outs final, performAll calls origin.make = .ok (outs, final) ∧
      Follows origin calls outs final) ↔ ∀ call ∈ calls, call.Roomy := by
  constructor
  · rintro ⟨outs, final, ran, _⟩
    exact roomy_of_performAll ran
  · intro roomy
    obtain ⟨outs, final, ran, sized, steps, beyond⟩ := performAll_eq calls origin.make roomy
    rw [occupied_make] at steps
    refine ⟨outs, final, ran, ?_⟩
    exact {
      sized := sized
      returned := congrArg Prod.fst steps
      occupied := congrArg Prod.snd steps
      counted := ⟨final.occupiedCount_eq, final.freeCount_add_occupiedCount⟩
      bits := by
        intro position
        split
        · rename_i inside
          exact final.bitAt_eq_decide inside
        · rename_i outside
          rw [sized] at outside
          exact beyond position (Nat.le_of_not_lt outside)
      stored := by rw [fromBytes_asBytes] }

/-- Asking an allocator of one block for 2^60 panics. -/
theorem allocation_panics : ¬ ∀ origin calls, ∃ outs final,
    performAll calls origin.make = .ok (outs, final) ∧ Follows origin calls outs final := by
  intro claim
  obtain ⟨outs, final, ran, _⟩ := claim (.new 1) [.allocate (UInt64.ofNat (2 ^ 60))]
  have room : (UInt64.ofNat (2 ^ 60)).toNat ≤ maxRoom :=
    roomy_of_performAll ran _ List.mem_cons_self
  exact absurd room (by decide)

end BlockAllocator

end ReVault
