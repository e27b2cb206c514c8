import Mathlib.Data.Finset.Card
import Mathlib.Data.Finset.Range
import ReVault.Foundation.Bytes

/-!
# The block bitmap allocator

One bit per block. The structure carries the length of its byte array, so every
bit of a block in range is stored. `occupied` is the set a bitmap stands for; each
operation is characterised by what it does to that set.
-/

namespace ReVault

open Foundation

/-- Bytes needed for one bit per block. -/
def bitmapLenBytes (blockCount : UInt64) : Nat := (blockCount.toNat + 7) / 8

/-- One bit for each block, as many bytes as they take. -/
structure BlockAllocator where
  bits : Bytes
  blockCount : UInt64
  sized : bits.length = bitmapLenBytes blockCount

namespace BlockAllocator

/-- All blocks are free. -/
def new (blockCount : UInt64) : BlockAllocator where
  bits := List.replicate (bitmapLenBytes blockCount) 0
  blockCount := blockCount
  sized := List.length_replicate ..

/-- Adopts stored bytes, cut or zero-extended to the needed length. -/
def fromBytes (bits : Bytes) (blockCount : UInt64) : BlockAllocator where
  bits := (padTo (bitmapLenBytes blockCount) bits).take (bitmapLenBytes blockCount)
  blockCount := blockCount
  sized := length_take_padTo ..

/-- The bitmap as it is stored. -/
def asBytes (a : BlockAllocator) : Bytes := a.bits

/-- The bitmap has a byte for every block. -/
theorem byte_lt (a : BlockAllocator) {index : UInt64} (inRange : index < a.blockCount) :
    index.toNat / 8 < a.bits.length := by
  rw [a.sized, bitmapLenBytes]
  have := UInt64.lt_iff_toNat_lt.mp inRange
  omega

/-- A block in range is free when its bit is clear. -/
def isFree (a : BlockAllocator) (index : UInt64) : Bool :=
  if inRange : index < a.blockCount then
    have := a.byte_lt inRange
    (a.bits[index.toNat / 8] >>> (index % 8).toUInt8) &&& 1 == 0
  else false

/-- Writes one bit; callers have checked the range. -/
def set (a : BlockAllocator) (index : UInt64) (occupied : Bool) : BlockAllocator where
  bits := a.bits.modify (index.toNat / 8) fun byte =>
    if occupied then byte ||| (1 <<< (index % 8).toUInt8)
    else byte &&& ~~~(1 <<< (index % 8).toUInt8)
  blockCount := a.blockCount
  sized := by rw [List.length_modify, a.sized]

/-- All block indices, in order. -/
def indices (a : BlockAllocator) : List Nat := List.range a.blockCount.toNat

/-- The free blocks, counted in the bitmap. -/
def freeCount (a : BlockAllocator) : Nat :=
  a.blockCount.toNat - (a.indices.filter fun i => !a.isFree (UInt64.ofNat i)).length

/-- All blocks that are not free. -/
def occupiedCount (a : BlockAllocator) : Nat := a.blockCount.toNat - a.freeCount

/-- The allocation loop over the remaining indices. -/
def allocateFrom (count : Nat) :
    List Nat → BlockAllocator → List UInt64 → BlockAllocator × List UInt64
  | [], a, out => (a, out)
  | i :: rest, a, out =>
      if out.length = count then (a, out)
      else if a.isFree (UInt64.ofNat i) then
        allocateFrom count rest (a.set (UInt64.ofNat i) true) (out ++ [UInt64.ofNat i])
      else allocateFrom count rest a out

/-- First fit: up to `count` free blocks, lowest index first. -/
def allocate (a : BlockAllocator) (count : Nat) : BlockAllocator × List UInt64 :=
  allocateFrom count a.indices a []

/-- Writes the bits of a list of blocks, skipping those out of range. -/
def setAll (a : BlockAllocator) (blocks : List UInt64) (occupied : Bool) : BlockAllocator :=
  blocks.foldl
    (fun current i => if i < current.blockCount then current.set i occupied else current) a

/-- The bits of the blocks are cleared; blocks out of range are skipped. -/
def free (a : BlockAllocator) (blocks : List UInt64) : BlockAllocator := a.setAll blocks false

/-- The bits of the blocks are set; blocks out of range are skipped. -/
def markOccupied (a : BlockAllocator) (blocks : List UInt64) : BlockAllocator :=
  a.setAll blocks true

/-! ## Single bits -/

/-- A shift brings a bit to the front. -/
private theorem byte_bit (byte : UInt8) {shift : UInt8} (small : shift.toNat < 8) :
    ((byte >>> shift) &&& 1 == 0) = !byte.toNat.testBit shift.toNat := by
  have value : ((byte >>> shift) &&& 1).toNat = byte.toNat >>> shift.toNat % 2 := by
    rw [UInt8.toNat_and, UInt8.toNat_shiftRight, Nat.mod_eq_of_lt small]
    exact Nat.and_one_is_mod _
  have bit : byte.toNat.testBit shift.toNat = decide (byte.toNat >>> shift.toNat % 2 = 1) := by
    rw [Nat.testBit_eq_decide_div_mod_eq, Nat.shiftRight_eq_div_pow]
  rw [bit, Bool.eq_iff_iff, beq_iff_eq, ← UInt8.toNat_inj, value, Bool.not_eq_true',
    decide_eq_false_iff_not]
  change _ = 0 ↔ _
  omega

/-- A shifted one has one bit. -/
private theorem testBit_mask {shift : UInt8} (small : shift.toNat < 8) (position : Nat) :
    ((1 : UInt8) <<< shift).toNat.testBit position = decide (position = shift.toNat) := by
  rw [UInt8.toNat_shiftLeft, Nat.mod_eq_of_lt small, Nat.testBit_mod_two_pow]
  change (decide (position < 8) && (1 <<< shift.toNat).testBit position) = _
  rw [Nat.one_shiftLeft, Nat.testBit_two_pow, Bool.eq_iff_iff, Bool.and_eq_true,
    decide_eq_true_eq, decide_eq_true_eq, decide_eq_true_eq]
  omega

/-- Setting or clearing a bit of a byte leaves its other bits alone. -/
private theorem testBit_setByte (byte : UInt8) (occupied : Bool) {shift : UInt8}
    (small : shift.toNat < 8) {position : Nat} (inByte : position < 8) :
    (if occupied then byte ||| (1 <<< shift)
      else byte &&& ~~~(1 <<< shift)).toNat.testBit position =
      if position = shift.toNat then occupied else byte.toNat.testBit position := by
  cases occupied with
  | true =>
      rw [if_pos rfl, UInt8.toNat_or, Nat.testBit_or, testBit_mask small]
      by_cases same : position = shift.toNat
      · simp only [same, decide_true, Bool.or_true, ↓reduceIte]
      · simp only [same, decide_false, Bool.or_false, ↓reduceIte]
  | false =>
      have complement : (~~~((1 : UInt8) <<< shift)).toNat.testBit position =
          !decide (position = shift.toNat) := by
        rw [UInt8.toNat_not, ← testBit_mask small]
        have bounded : ((1 : UInt8) <<< shift).toNat < 2 ^ 8 := UInt8.toNat_lt _
        rw [show UInt8.size - 1 - ((1 : UInt8) <<< shift).toNat =
          2 ^ 8 - (((1 : UInt8) <<< shift).toNat + 1) by
            rw [show UInt8.size = 2 ^ 8 from rfl]; omega,
          Nat.testBit_two_pow_sub_succ bounded]
        simp only [inByte, decide_true, Bool.true_and]
      rw [if_neg (by decide), UInt8.toNat_and, Nat.testBit_and, complement]
      by_cases same : position = shift.toNat
      · simp only [same, decide_true, Bool.not_true, Bool.and_false, ↓reduceIte]
      · simp only [same, decide_false, Bool.not_false, Bool.and_true, ↓reduceIte]

/-- The stored bit of a block. -/
def bit (a : BlockAllocator) (index : UInt64) : Bool :=
  ((a.bits[index.toNat / 8]?).getD 0).toNat.testBit (index.toNat % 8)

/-- A shift is less than eight. -/
private theorem shift_toNat (index : UInt64) : (index % 8).toUInt8.toNat = index.toNat % 8 := by
  rw [UInt64.toNat_toUInt8, UInt64.toNat_mod]
  change index.toNat % 8 % 2 ^ 8 = _
  omega

/-- A block is free when it is in range and its bit is clear. -/
theorem isFree_eq (a : BlockAllocator) (index : UInt64) :
    a.isFree index = (decide (index < a.blockCount) && !a.bit index) := by
  unfold isFree bit
  split
  · rename_i inRange
    rw [byte_bit _ (by rw [shift_toNat]; omega), shift_toNat,
      List.getElem?_eq_getElem (a.byte_lt inRange)]
    simp only [Option.getD_some, inRange, decide_true, Bool.true_and]
  · rename_i outside
    simp only [outside, decide_false, Bool.false_and]

/-- The pool keeps its size. -/
@[simp] theorem blockCount_set (a : BlockAllocator) (index : UInt64) (occupied : Bool) :
    (a.set index occupied).blockCount = a.blockCount := rfl

/-- The stored bit of a position, which may be beyond the blocks. -/
def bitAt (a : BlockAllocator) (position : Nat) : Bool :=
  ((a.bits[position / 8]?).getD 0).toNat.testBit (position % 8)

/-- The bit of a block, by its number. -/
theorem bit_eq (a : BlockAllocator) (index : UInt64) : a.bit index = a.bitAt index.toNat := rfl

/-- Writing one bit leaves the bits of the other positions alone. -/
theorem bitAt_set (a : BlockAllocator) {index : UInt64} (occupied : Bool)
    (inRange : index < a.blockCount) (position : Nat) :
    (a.set index occupied).bitAt position =
      if position = index.toNat then occupied else a.bitAt position := by
  have stored := a.byte_lt inRange
  unfold bitAt set
  simp only [List.getElem?_modify]
  by_cases sameByte : index.toNat / 8 = position / 8
  · simp only [← sameByte, ↓reduceIte]
    rw [List.getElem?_eq_getElem stored, Option.map_eq_map, Option.map_some,
      Option.getD_some, Option.getD_some, testBit_setByte _ _ (by rw [shift_toNat]; omega)
        (by omega), shift_toNat]
    by_cases same : position = index.toNat
    · rw [if_pos (by rw [same]), if_pos same]
    · rw [if_neg (by omega), if_neg same]
  · simp only [sameByte, ↓reduceIte, id_map']
    rw [if_neg (fun same => sameByte (by rw [same]))]

/-- One bit changes. -/
theorem bit_set (a : BlockAllocator) {index : UInt64} (occupied : Bool)
    (inRange : index < a.blockCount) (other : UInt64) :
    (a.set index occupied).bit other = if other = index then occupied else a.bit other := by
  rw [bit_eq, bit_eq, bitAt_set a occupied inRange]
  simp only [UInt64.toNat_inj]

/-- One block changes. -/
theorem isFree_set (a : BlockAllocator) {index : UInt64} (occupied : Bool)
    (inRange : index < a.blockCount) (other : UInt64) :
    (a.set index occupied).isFree other = if other = index then !occupied else a.isFree other := by
  rw [isFree_eq, isFree_eq, blockCount_set, bit_set a occupied inRange]
  by_cases same : other = index
  · simp only [same, ↓reduceIte, inRange, decide_true, Bool.true_and]
  · simp only [same, ↓reduceIte]

/-! ## The set a bitmap stands for -/

/-- The occupied blocks. -/
def occupied (a : BlockAllocator) : Finset Nat :=
  (Finset.range a.blockCount.toNat).filter fun i => a.isFree (UInt64.ofNat i) = false

/-- What is occupied. -/
theorem mem_occupied (a : BlockAllocator) (i : Nat) :
    i ∈ a.occupied ↔ i < a.blockCount.toNat ∧ a.isFree (UInt64.ofNat i) = false := by
  rw [occupied, Finset.mem_filter, Finset.mem_range]

/-- What is occupied, by the number of the block. -/
theorem toNat_mem_occupied (a : BlockAllocator) (index : UInt64) :
    index.toNat ∈ a.occupied ↔ index < a.blockCount ∧ a.isFree index = false := by
  rw [mem_occupied, UInt64.ofNat_toNat, UInt64.lt_iff_toNat_lt]

/-- A number in range is the number of a block. -/
theorem toNat_ofNat_of_lt (a : BlockAllocator) {i : Nat} (inRange : i < a.blockCount.toNat) :
    (UInt64.ofNat i).toNat = i := by
  have := UInt64.toNat_lt a.blockCount
  rw [UInt64.toNat_ofNat', Nat.mod_eq_of_lt (by omega)]

/-- A position below the number of blocks is a block. -/
theorem ofNat_lt_of_lt (a : BlockAllocator) {i : Nat} (inRange : i < a.blockCount.toNat) :
    UInt64.ofNat i < a.blockCount := by
  rw [UInt64.lt_iff_toNat_lt, a.toNat_ofNat_of_lt inRange]
  exact inRange

/-- There are no more occupied blocks than blocks. -/
theorem card_occupied_le (a : BlockAllocator) : a.occupied.card ≤ a.blockCount.toNat := by
  have bound := Finset.card_filter_le (Finset.range a.blockCount.toNat)
    (fun i => a.isFree (UInt64.ofNat i) = false)
  rwa [Finset.card_range] at bound

/-- The free blocks are those that are not occupied. -/
theorem freeCount_eq (a : BlockAllocator) :
    a.freeCount = a.blockCount.toNat - a.occupied.card := by
  have counted : (a.indices.filter fun i => !a.isFree (UInt64.ofNat i)).length =
      a.occupied.card := by
    unfold indices
    rw [← List.toFinset_card_of_nodup (List.nodup_range.filter _)]
    congr 1
    ext i
    rw [List.mem_toFinset, List.mem_filter, List.mem_range, mem_occupied,
      Bool.not_eq_true']
  rw [freeCount, counted]

/-- The occupied blocks are counted. -/
theorem occupiedCount_eq (a : BlockAllocator) : a.occupiedCount = a.occupied.card := by
  have := a.card_occupied_le
  rw [occupiedCount, freeCount_eq]
  omega

/-- One block is occupied or released. -/
theorem occupied_set (a : BlockAllocator) {index : UInt64} (taken : Bool)
    (inRange : index < a.blockCount) :
    (a.set index taken).occupied =
      if taken then insert index.toNat a.occupied else a.occupied.erase index.toNat := by
  have bound := UInt64.lt_iff_toNat_lt.mp inRange
  have member : ∀ i, i ∈ (a.set index taken).occupied ↔
      i < a.blockCount.toNat ∧ (if i = index.toNat then taken = true else i ∈ a.occupied) := by
    intro i
    rw [mem_occupied, blockCount_set]
    refine and_congr_right fun below => ?_
    rw [isFree_set a taken inRange, mem_occupied]
    have same : UInt64.ofNat i = index ↔ i = index.toNat := by
      rw [← UInt64.toNat_inj, a.toNat_ofNat_of_lt below]
    by_cases equal : i = index.toNat
    · rw [if_pos (same.mpr equal), if_pos equal, Bool.not_eq_false']
    · rw [if_neg (fun is => equal (same.mp is)), if_neg equal]
      simp only [below, true_and]
  ext i
  rw [member]
  cases taken with
  | true =>
      simp only [↓reduceIte, Finset.mem_insert]
      by_cases equal : i = index.toNat
      · simp only [equal, bound, ↓reduceIte, and_self, true_or]
      · simp only [equal, ↓reduceIte, false_or, and_iff_right_iff_imp]
        exact fun inside => ((mem_occupied a i).mp inside).1
  | false =>
      simp only [Bool.false_eq_true, ↓reduceIte, Finset.mem_erase]
      by_cases equal : i = index.toNat
      · simp only [equal, ↓reduceIte, and_false, ne_eq, not_true_eq_false, false_and]
      · simp only [equal, ↓reduceIte, ne_eq, not_false_eq_true, true_and,
          and_iff_right_iff_imp]
        exact fun inside => ((mem_occupied a i).mp inside).1

/-- Nothing is occupied at first. -/
@[simp] theorem occupied_new (blockCount : UInt64) : (new blockCount).occupied = ∅ := by
  ext i
  simp only [mem_occupied, Finset.notMem_empty, iff_false, not_and, Bool.not_eq_false]
  intro below
  have zero : (new blockCount).bit (UInt64.ofNat i) = false := by
    unfold bit new
    rw [List.getElem?_replicate]
    split <;> exact Nat.zero_testBit _
  rw [isFree_eq, zero, Bool.not_false, Bool.and_true, decide_eq_true_eq,
    UInt64.lt_iff_toNat_lt, (new blockCount).toNat_ofNat_of_lt below]
  exact below

/-- Bitmap bytes of the right length are adopted unchanged. -/
theorem fromBytes_asBytes (a : BlockAllocator) : fromBytes a.asBytes a.blockCount = a := by
  obtain ⟨bits, blockCount, sized⟩ := a
  simp only [fromBytes, asBytes, mk.injEq, and_true]
  rw [← sized]
  exact take_padTo _ _

/-! ## Allocation and release -/

/-- The free blocks, lowest first. -/
def freeList (a : BlockAllocator) : List UInt64 :=
  (a.indices.map UInt64.ofNat).filter fun index => a.isFree index

/-- Setting several bits keeps the size of the pool. -/
@[simp] theorem blockCount_setAll (a : BlockAllocator) (blocks : List UInt64) (taken : Bool) :
    (a.setAll blocks taken).blockCount = a.blockCount := by
  unfold setAll
  induction blocks generalizing a with
  | nil => rfl
  | cons block rest ih =>
      rw [List.foldl_cons, ih]
      split <;> rfl

/-- So does releasing blocks. -/
@[simp] theorem blockCount_free (a : BlockAllocator) (blocks : List UInt64) :
    (a.free blocks).blockCount = a.blockCount := a.blockCount_setAll blocks false

/-- Releasing blocks removes them from the occupied set. -/
theorem occupied_free (a : BlockAllocator) (blocks : List UInt64) :
    (a.free blocks).occupied = a.occupied \ (blocks.map UInt64.toNat).toFinset := by
  unfold free setAll
  induction blocks generalizing a with
  | nil =>
      rw [List.map_nil, List.toFinset_nil, Finset.sdiff_empty]
      rfl
  | cons block rest ih =>
      rw [List.foldl_cons, ih, List.map_cons, List.toFinset_cons]
      by_cases inRange : block < a.blockCount
      · rw [if_pos inRange, occupied_set a false inRange, if_neg (by decide),
          Finset.erase_sdiff_comm, Finset.sdiff_insert]
      · rw [if_neg inRange, Finset.sdiff_insert_of_notMem]
        exact fun inside => inRange ((toNat_mem_occupied a block).mp inside).1

/-- The scan takes the first free blocks of those that are left. -/
private theorem allocateFrom_spec (count : Nat) (todo : List Nat) (a : BlockAllocator)
    (out : List UInt64) (nodup : todo.Nodup) (bounded : ∀ i ∈ todo, i < a.blockCount.toNat)
    (room : out.length ≤ count) :
    ∃ taken, taken = ((todo.map UInt64.ofNat).filter fun index => a.isFree index).take
        (count - out.length) ∧
      (allocateFrom count todo a out).2 = out ++ taken ∧
      (allocateFrom count todo a out).1.blockCount = a.blockCount ∧
      (allocateFrom count todo a out).1.occupied =
        a.occupied ∪ (taken.map UInt64.toNat).toFinset := by
  induction todo generalizing a out with
  | nil =>
      refine ⟨[], ?_, ?_, rfl, ?_⟩
      · rw [List.map_nil, List.filter_nil, List.take_nil]
      · rw [List.append_nil]
        rfl
      · rw [List.map_nil, List.toFinset_nil, Finset.union_empty]
        rfl
  | cons i rest ih =>
      have inRange := a.ofNat_lt_of_lt (bounded i List.mem_cons_self)
      obtain ⟨fresh, restNodup⟩ := List.nodup_cons.mp nodup
      have restBounded : ∀ j ∈ rest, j < a.blockCount.toNat := fun j member =>
        bounded j (List.mem_cons_of_mem i member)
      unfold allocateFrom
      by_cases full : out.length = count
      · rw [if_pos full]
        refine ⟨[], by rw [full, Nat.sub_self, List.take_zero], ?_, rfl, ?_⟩
        · rw [List.append_nil]
        · rw [List.map_nil, List.toFinset_nil, Finset.union_empty]
      · rw [if_neg full]
        by_cases free : a.isFree (UInt64.ofNat i)
        · rw [if_pos free]
          -- the later indices differ from `i`, so marking it leaves their bits alone
          have unchanged : ((rest.map UInt64.ofNat).filter fun index =>
              (a.set (UInt64.ofNat i) true).isFree index) =
              (rest.map UInt64.ofNat).filter fun index => a.isFree index := by
            apply List.filter_congr
            intro index member
            obtain ⟨j, inRest, rfl⟩ := List.mem_map.mp member
            rw [isFree_set a true inRange, if_neg]
            intro same
            apply fresh
            rw [← UInt64.toNat_inj, a.toNat_ofNat_of_lt (restBounded j inRest),
              a.toNat_ofNat_of_lt (bounded i List.mem_cons_self)] at same
            rwa [← same]
          obtain ⟨taken, takenIs, outIs, countIs, occupiedIs⟩ :=
            ih (a.set (UInt64.ofNat i) true) (out ++ [UInt64.ofNat i]) restNodup restBounded
              (by rw [List.length_append, List.length_singleton]; omega)
          rw [unchanged, List.length_append, List.length_singleton] at takenIs
          refine ⟨UInt64.ofNat i :: taken, ?_, ?_, countIs, ?_⟩
          · rw [List.map_cons, List.filter_cons_of_pos free,
              show count - out.length = (count - (out.length + 1)) + 1 by omega,
              List.take_succ_cons, takenIs]
          · rw [outIs, List.append_assoc]
            rfl
          · rw [occupiedIs, occupied_set a true inRange, if_pos rfl, List.map_cons,
              List.toFinset_cons, Finset.insert_union, Finset.union_insert]
        · rw [if_neg free]
          obtain ⟨taken, takenIs, outIs, countIs, occupiedIs⟩ :=
            ih a out restNodup restBounded room
          exact ⟨taken, by rw [takenIs, List.map_cons, List.filter_cons_of_neg free], outIs,
            countIs, occupiedIs⟩

/-- First fit hands out the lowest free blocks. -/
theorem allocate_eq (a : BlockAllocator) (count : Nat) :
    (a.allocate count).2 = a.freeList.take count := by
  obtain ⟨taken, takenIs, outIs, _, _⟩ := allocateFrom_spec count a.indices a []
    List.nodup_range (fun i member => List.mem_range.mp member) (Nat.zero_le _)
  unfold allocate freeList
  rw [outIs, List.nil_append, takenIs]
  rfl

/-- So does taking blocks. -/
@[simp] theorem blockCount_allocate (a : BlockAllocator) (count : Nat) :
    (a.allocate count).1.blockCount = a.blockCount := by
  obtain ⟨_, _, _, countIs, _⟩ := allocateFrom_spec count a.indices a []
    List.nodup_range (fun i member => List.mem_range.mp member) (Nat.zero_le _)
  exact countIs

/-- Allocation adds exactly the blocks it hands out. -/
theorem occupied_allocate (a : BlockAllocator) (count : Nat) :
    (a.allocate count).1.occupied =
      a.occupied ∪ ((a.allocate count).2.map UInt64.toNat).toFinset := by
  obtain ⟨taken, _, outIs, _, occupiedIs⟩ := allocateFrom_spec count a.indices a []
    List.nodup_range (fun i member => List.mem_range.mp member) (Nat.zero_le _)
  unfold allocate
  rw [occupiedIs, outIs, List.nil_append]

/-- The free list holds what is not occupied. -/
theorem mem_freeList (a : BlockAllocator) (index : UInt64) :
    index ∈ a.freeList ↔ index < a.blockCount ∧ index.toNat ∉ a.occupied := by
  rw [freeList, List.mem_filter, toNat_mem_occupied, List.mem_map]
  constructor
  · rintro ⟨⟨i, member, rfl⟩, free⟩
    have below := List.mem_range.mp member
    refine ⟨a.ofNat_lt_of_lt below, ?_⟩
    rintro ⟨_, taken⟩
    rw [free] at taken
    cases taken
  · rintro ⟨inRange, notTaken⟩
    refine ⟨⟨index.toNat, List.mem_range.mpr (UInt64.lt_iff_toNat_lt.mp inRange),
      UInt64.ofNat_toNat⟩, ?_⟩
    by_contra taken
    exact notTaken ⟨inRange, Bool.eq_false_iff.mpr taken⟩

/-- The free list is strictly increasing. -/
theorem freeList_sorted (a : BlockAllocator) :
    a.freeList.Pairwise fun first second => first.toNat < second.toNat := by
  apply List.Pairwise.filter
  rw [List.pairwise_map]
  have sorted : a.indices.Pairwise (· < ·) := List.pairwise_lt_range
  refine List.Pairwise.imp_of_mem ?_ sorted
  intro i j inI inJ less
  rwa [a.toNat_ofNat_of_lt (List.mem_range.mp inI), a.toNat_ofNat_of_lt (List.mem_range.mp inJ)]

/-- No block is listed twice. -/
theorem freeList_nodup (a : BlockAllocator) : a.freeList.Nodup :=
  a.freeList_sorted.imp fun less same => by
    rw [same] at less
    exact Nat.lt_irrefl _ less

/-- Blocks are told apart by their numbers. -/
theorem toNat_injective : Function.Injective UInt64.toNat := fun _ _ => UInt64.toNat_inj.mp

/-- The free list is as long as there are free blocks. -/
theorem length_freeList (a : BlockAllocator) : a.freeList.length = a.freeCount := by
  have split : (Finset.range a.blockCount.toNat) \ a.occupied =
      (a.freeList.map UInt64.toNat).toFinset := by
    ext i
    rw [Finset.mem_sdiff, Finset.mem_range, List.mem_toFinset, List.mem_map]
    constructor
    · rintro ⟨below, free⟩
      refine ⟨UInt64.ofNat i, (a.mem_freeList _).mpr ⟨?_, ?_⟩, a.toNat_ofNat_of_lt below⟩
      · exact a.ofNat_lt_of_lt below
      · rw [a.toNat_ofNat_of_lt below]
        exact free
    · rintro ⟨index, member, rfl⟩
      obtain ⟨inRange, free⟩ := (a.mem_freeList index).mp member
      exact ⟨UInt64.lt_iff_toNat_lt.mp inRange, free⟩
  have inside : a.occupied ⊆ Finset.range a.blockCount.toNat := Finset.filter_subset _ _
  have counted := congrArg Finset.card split
  rw [Finset.card_sdiff_of_subset inside, Finset.card_range,
    List.toFinset_card_of_nodup (a.freeList_nodup.map toNat_injective), List.length_map] at counted
  rw [← counted, freeCount_eq]

/-- With enough free blocks, allocation returns exactly as many as asked for. -/
theorem length_allocate (a : BlockAllocator) {count : Nat} (enough : count ≤ a.freeCount) :
    (a.allocate count).2.length = count := by
  rw [allocate_eq, List.length_take, length_freeList]
  omega

/-- No block is given out twice. -/
theorem allocate_nodup (a : BlockAllocator) (count : Nat) : (a.allocate count).2.Nodup := by
  rw [allocate_eq]
  exact a.freeList_nodup.sublist (List.take_sublist ..)

/-- Blocks are given out in order. -/
theorem allocate_sorted (a : BlockAllocator) (count : Nat) :
    (a.allocate count).2.Pairwise fun first second => first.toNat < second.toNat := by
  rw [allocate_eq]
  exact a.freeList_sorted.sublist (List.take_sublist ..)

/-- Allocated blocks are in range and were free. -/
theorem mem_allocate (a : BlockAllocator) {count : Nat} {index : UInt64}
    (member : index ∈ (a.allocate count).2) :
    index < a.blockCount ∧ index.toNat ∉ a.occupied := by
  rw [allocate_eq] at member
  exact (a.mem_freeList index).mp (List.mem_of_mem_take member)

/-- First fit leaves no lower free block behind. -/
theorem mem_allocate_of_lt (a : BlockAllocator) {count : Nat} {index lower : UInt64}
    (member : index ∈ (a.allocate count).2) (below : lower.toNat < index.toNat)
    (free : lower.toNat ∉ a.occupied) : lower ∈ (a.allocate count).2 := by
  have inRange := (a.mem_allocate member).1
  have lowerFree : lower ∈ a.freeList :=
    (a.mem_freeList lower).mpr ⟨UInt64.lt_iff_toNat_lt.mpr
      (below.trans (UInt64.lt_iff_toNat_lt.mp inRange)), free⟩
  rw [allocate_eq] at member ⊢
  rw [← List.take_append_drop count a.freeList, List.mem_append] at lowerFree
  rcases lowerFree with taken | later
  · exact taken
  · have sorted := a.freeList_sorted
    rw [← List.take_append_drop count a.freeList, List.pairwise_append] at sorted
    exact absurd (sorted.2.2 index member lower later) (by omega)

end BlockAllocator

end ReVault
