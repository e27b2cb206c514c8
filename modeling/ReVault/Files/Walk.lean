import ReVault.Core.HeaderLayout
import ReVault.Core.Storage
import ReVault.Foundation.Chase

/-!
# Walking an overflow chain

The walk over the index blocks of a file ends only at a zero pointer, which it reads from
the blocks themselves. It returns exactly when it never meets a block twice, the chunk length
is not zero and the first index block is long enough to hold its frame.
-/

namespace ReVault

open Foundation Primitives

/-- A call that returns a value or an error of the engine. -/
def Returns {α : Type} (result : Except Fault α) : Prop :=
  result ≠ .error .panic ∧ result ≠ .error .diverge

section Returns

variable {α β : Type}

/-- A value is a result. -/
theorem Returns.ok (value : α) : Returns (.ok value) := by
  constructor <;> exact fun same => by cases same

/-- So is an error. -/
theorem Returns.error (reason : VaultError) :
    Returns (.error (.error reason) : Except Fault α) := by
  constructor <;> exact fun same => by cases same

/-- A check returns. -/
theorem Returns.checked (result : Except VaultError α) : Returns (checked result) := by
  cases result with
  | ok value => exact Returns.ok value
  | error reason => exact Returns.error reason

/-- A program returns exactly when its parts do. -/
theorem returns_bind_iff {first : Except Fault α} {next : α → Except Fault β} :
    Returns (first >>= next) ↔
      Returns first ∧ ∀ value, first = .ok value → Returns (next value) := by
  cases first with
  | ok value =>
      rw [except_bind_of_ok rfl]
      constructor
      · intro returns
        refine ⟨Returns.ok value, fun other same => ?_⟩
        cases same
        exact returns
      · exact fun both => both.2 value rfl
  | error fault =>
      rw [except_bind_of_error rfl]
      constructor
      · intro returns
        refine ⟨⟨fun same => returns.1 ?_, fun same => returns.2 ?_⟩,
          fun value same => by cases same⟩
        · exact congrArg Except.error (Except.error.inj same)
        · exact congrArg Except.error (Except.error.inj same)
      · rintro ⟨returns, _⟩
        refine ⟨fun same => returns.1 ?_, fun same => returns.2 ?_⟩
        · exact congrArg Except.error (Except.error.inj same)
        · exact congrArg Except.error (Except.error.inj same)

end Returns

/-- An exact read returns. -/
theorem readExact_returns (file : Bytes) (offset : UInt64) (length : Nat) :
    Returns (readExact file offset length) := by
  unfold readExact
  split
  · exact Returns.error _
  · split
    · exact Returns.ok _
    · exact Returns.error _

/-- The bytes of an exact read are as many as were asked for. -/
theorem length_of_readExact {file window : Bytes} {offset : UInt64} {length : Nat}
    (read : readExact file offset length = .ok window) : window.length = length := by
  unfold readExact at read
  split at read
  · cases read
  · split at read
    · rename_i found
      cases read
      exact (readAt_eq_some_iff.mp found).1
    · cases read

section

variable [Primitives]

/-- Unsealing a block returns. -/
theorem MasterKey.decryptBlock_returns (key : MasterKey) (fileId : BitVec 128)
    (blockIndex : UInt64) (ciphertext : Bytes) :
    Returns (key.decryptBlock fileId blockIndex ciphertext) := by
  unfold MasterKey.decryptBlock
  split
  · exact Returns.ok _
  · exact Returns.error _

namespace Vault

/-- Opening a block returns exactly when the block is long enough for its length. -/
theorem openBlock_returns_iff (key : MasterKey) (physicalIdx : UInt64) (fileId : BitVec 128)
    (buf : Bytes) : Returns (openBlock key physicalIdx fileId buf) ↔ 4 ≤ buf.length := by
  unfold openBlock
  split
  · rename_i short
    exact iff_of_false (fun returns => returns.1 rfl) (Nat.not_le.mpr short)
  · rename_i long
    refine iff_of_true ?_ (Nat.le_of_not_lt long)
    split
    · exact Returns.error _
    · split
      · exact Returns.error _
      · exact MasterKey.decryptBlock_returns ..

omit [Primitives] in
/-- Reading the entries of an index block returns. -/
theorem readIndices_returns (payload : Bytes) (count pos : Nat) :
    Returns (readIndices payload count pos) := by
  induction count generalizing pos with
  | zero => exact Returns.ok _
  | succ count ih =>
      unfold readIndices
      split
      · exact Returns.error _
      · exact returns_bind_iff.mpr ⟨ih _, fun rest _ => Returns.ok _⟩

omit [Primitives] in
/-- So does reading its header. -/
theorem parseIndexPayload_returns (payload : Bytes) : Returns (parseIndexPayload payload) := by
  unfold parseIndexPayload
  split
  · exact Returns.error _
  · exact returns_bind_iff.mpr ⟨readIndices_returns .., fun indices _ => Returns.ok _⟩

omit [Primitives] in
/-- A block is long enough to hold the length that frames its content, or cannot be read. -/
def Framed (v : Vault) (block : UInt64) : Prop :=
  4 ≤ v.header.blockSize.toNat ∨
    ∀ window, readExact v.file (v.header.blockOffset block) v.header.blockSize.toNat ≠ .ok window

/-- Reading a block returns exactly when the block is framed. -/
theorem readPhysicalBlock_returns_iff (v : Vault) (block : UInt64) (fileId : BitVec 128) :
    Returns (v.readPhysicalBlock block fileId) ↔ v.Framed block := by
  unfold readPhysicalBlock Framed
  rw [returns_bind_iff]
  simp only [readExact_returns, true_and, openBlock_returns_iff]
  constructor
  · intro long
    by_cases framed : 4 ≤ v.header.blockSize.toNat
    · exact Or.inl framed
    · refine Or.inr fun window read => framed ?_
      rw [← length_of_readExact read]
      exact long window read
  · rintro (framed | unreadable) window read
    · rw [length_of_readExact read]
      exact framed
    · exact absurd read (unreadable window)

/-- So does reading an index block. -/
theorem readIndexBlock_returns_iff (v : Vault) (block : UInt64) (fileId : BitVec 128) :
    Returns (v.readIndexBlock block fileId) ↔ v.Framed block := by
  unfold readIndexBlock
  rw [returns_bind_iff, readPhysicalBlock_returns_iff]
  exact and_iff_left fun payload _ => parseIndexPayload_returns payload

/-- Reading an index block takes no walk. -/
theorem readIndexBlock_ne_diverge (v : Vault) (block : UInt64) (fileId : BitVec 128) :
    v.readIndexBlock block fileId ≠ .error .diverge := by
  have opens : ∀ buf, openBlock v.key block fileId buf ≠ .error .diverge := by
    intro buf
    by_cases framed : 4 ≤ buf.length
    · exact ((openBlock_returns_iff ..).mpr framed).2
    · unfold openBlock
      rw [if_pos (Nat.lt_of_not_le framed)]
      exact fun same => by cases same
  exact except_bind_ne_error (except_bind_ne_error (readExact_returns ..).2 opens)
    fun payload => (parseIndexPayload_returns payload).2

omit [Primitives] in
/-- A content is cut into pieces unless its length is divided by zero. -/
theorem dataBlockCount_cases (h : Header) (length : Nat) :
    (length = 0 ∨ h.plainChunkLen ≠ 0) ∧ (∃ count, h.dataBlockCount length = .ok count) ∨
      ¬ (length = 0 ∨ h.plainChunkLen ≠ 0) ∧ h.dataBlockCount length = .error .panic := by
  unfold Header.dataBlockCount
  split
  · rename_i empty
    exact Or.inl ⟨Or.inl empty, 0, rfl⟩
  · rename_i some
    split
    · rename_i zero
      exact Or.inr ⟨not_or.mpr ⟨some, not_not.mpr zero⟩, rfl⟩
    · rename_i live
      exact Or.inl ⟨Or.inr live, _, rfl⟩

/-! ## The walk -/

omit [Primitives] in
/-- There are as many block numbers as the walk has fuel. -/
def blockNumber (block : UInt64) : Fin walkFuel := block.toFin

omit [Primitives] in
/-- Block numbers tell blocks apart. -/
theorem blockNumber_injective : Function.Injective blockNumber :=
  fun _ _ same => UInt64.toFin_inj.mp same

/-- The walk over the index blocks chases their pointers down to zero. -/
theorem overflowNodes_eq_chase (v : Vault) (fileId : BitVec 128) (fuel : Nat) (next : UInt64) :
    v.overflowNodes fileId fuel next =
      chase (fun block => v.readIndexBlock block fileId) 0 .diverge fuel next := by
  induction fuel generalizing next with
  | zero => rfl
  | succ fuel ih =>
      unfold overflowNodes chase
      simp only [ih]

/-- The pointers of the overflow chain of an entry, in the order the walk follows them. -/
def chainPointer (v : Vault) (entry : FileEntry) : Nat → Option UInt64 :=
  pointer (fun block => v.readIndexBlock block entry.id) 0 entry.overflowBlock

/-- What the walk over an entry needs to return: the size is not divided by zero, the first
index block holds its frame, and no block comes twice. -/
structure Walkable (v : Vault) (entry : FileEntry) : Prop where
  divides : entry.size.toNat = 0 ∨ v.header.plainChunkLen ≠ 0
  framed : entry.overflowBlock = 0 ∨ v.Framed entry.overflowBlock
  onward : ∀ early late block, v.chainPointer entry early = some block →
    v.chainPointer entry late = some block → early = late

/-- A block that leads on is framed. -/
theorem framed_of_follow {v : Vault} {fileId : BitVec 128} {block following : UInt64}
    (followed : follow (fun block => v.readIndexBlock block fileId) 0 block = some following) :
    4 ≤ v.header.blockSize.toNat := by
  obtain ⟨indices, found⟩ := exists_of_follow followed
  obtain ⟨payload, opened, _⟩ := except_bind_eq_ok_iff.mp found
  obtain ⟨window, read, opened⟩ := except_bind_eq_ok_iff.mp opened
  have returns : Returns (openBlock v.key block fileId window) := by
    rw [opened]
    exact Returns.ok payload
  rw [← length_of_readExact read]
  exact (openBlock_returns_iff ..).mp returns

/-- The walk returns exactly when its first block is framed and no pointer comes twice. -/
theorem overflowNodes_returns_iff (v : Vault) (entry : FileEntry) :
    Returns (v.overflowNodes entry.id walkFuel entry.overflowBlock) ↔
      (entry.overflowBlock = 0 ∨ v.Framed entry.overflowBlock) ∧
      ∀ early late block, v.chainPointer entry early = some block →
        v.chainPointer entry late = some block → early = late := by
  have start : walkFuel = (2 ^ 64 - 1) + 1 := by decide
  rw [overflowNodes_eq_chase]
  have panics : chase (fun block => v.readIndexBlock block entry.id) 0 .diverge walkFuel
      entry.overflowBlock ≠ .error .panic ↔
      (entry.overflowBlock = 0 ∨ v.Framed entry.overflowBlock) := by
    constructor
    · intro calm
      by_contra broken
      obtain ⟨live, frameless⟩ := not_or.mp broken
      have failed : v.readIndexBlock entry.overflowBlock entry.id = .error .panic := by
        by_contra calm'
        exact frameless ((readIndexBlock_returns_iff ..).mp
          ⟨calm', readIndexBlock_ne_diverge v _ _⟩)
      refine calm ?_
      rw [start, chase, if_neg live, failed]
      rfl
    · intro framed failed
      obtain ⟨count, node, reached, live, failed⟩ :=
        chase_eq_error (fun same => by cases same) failed
      have here : ¬ v.Framed node := fun here =>
        ((readIndexBlock_returns_iff ..).mpr here).1 failed
      cases count with
      | zero =>
          cases reached
          exact framed.elim live here
      | succ count =>
          obtain ⟨before, _, followed⟩ := Option.bind_eq_some_iff.mp reached
          exact here (Or.inl (framed_of_follow followed))
  have diverges : chase (fun block => v.readIndexBlock block entry.id) 0 .diverge walkFuel
      entry.overflowBlock ≠ .error .diverge ↔
      ∀ early late block, v.chainPointer entry early = some block →
        v.chainPointer entry late = some block → early = late := by
    rw [Ne, chase_eq_lost_iff_repeats (fun block => readIndexBlock_ne_diverge v block entry.id)
      blockNumber_injective]
    constructor
    · intro none early late block first again
      rcases Nat.lt_trichotomy early late with ordered | same | ordered
      · exact absurd ⟨early, late, block, ordered, first, again⟩ none
      · exact same
      · exact absurd ⟨late, early, block, ordered, again, first⟩ none
    · rintro onward ⟨early, late, block, ordered, first, again⟩
      exact absurd (onward early late block first again) (Nat.ne_of_lt ordered)
  exact and_congr panics diverges

/-- **Walks.** Collecting the blocks of an entry returns exactly when the walk over its chain
does not divide by zero, leave a frame or meet a block twice. -/
theorem collects_iff (v : Vault) (entry : FileEntry) :
    Returns (v.collectDataBlocks entry) ∧ Returns (v.collectAllBlocks entry) ↔
      v.Walkable entry := by
  unfold collectDataBlocks collectAllBlocks
  rcases dataBlockCount_cases v.header entry.size.toNat with ⟨divides, count, counted⟩ | broken
  · have walked := overflowNodes_returns_iff v entry
    rw [counted, except_bind_of_ok rfl, except_bind_of_ok rfl, returns_bind_iff,
      returns_bind_iff, walked]
    constructor
    · rintro ⟨⟨⟨framed, onward⟩, _⟩, _⟩
      exact ⟨divides, framed, onward⟩
    · intro walkable
      refine ⟨⟨⟨walkable.framed, walkable.onward⟩, fun nodes _ => ?_⟩,
        ⟨walkable.framed, walkable.onward⟩, fun nodes _ => Returns.ok _⟩
      dsimp only
      split
      · exact Returns.error _
      · exact Returns.ok _
  · rw [broken.2, except_bind_of_error rfl]
    exact iff_of_false (fun returns => returns.1.1 rfl) fun walkable => broken.1 walkable.divides

end Vault

end

namespace Transparent

/-- A header with two blocks of 32 bytes right behind it. -/
def loopedHeader : Header :=
  { bareHeader (zeroArr 32) with blockSize := 32, blockCount := 2, capacityBytes := 64 }

/-- An index block that lists nothing and points to block 1. -/
def loopedBlock : Bytes := toLE 4 12 ++ (Vault.indexPayload 1 [] ++ List.replicate tagLen 0)

/-- A container whose block 1 points to itself. -/
def loopedVault : Vault where
  file := loopedHeader.image ++ (List.replicate 32 0 ++ loopedBlock)
  header := loopedHeader
  allocator := BlockAllocator.new 2
  key := zeroArr keyLen
  adminIdentity := none
  changeLog := []
  seals := []

/-- An entry that claims one byte, and an overflow chain that starts at block 1. -/
def loopedEntry : FileEntry :=
  { FileEntry.empty with size := 1, blocksUsed := 1, overflowBlock := 1, flags := 1 }

/-- The looped header can be encoded. -/
theorem loopedHeader_encodable : loopedHeader.Encodable where
  name := Nat.zero_le _
  description := Nat.zero_le _
  adminKeySlot := Nat.zero_le _

/-- The index block names itself as its successor. -/
theorem readIndexBlock_looped : loopedVault.readIndexBlock 1 0 = .ok (1, []) := by
  have found : readAt loopedVault.file (headerSize + 32) 32 = some loopedBlock := by
    have length := loopedHeader.length_image loopedHeader_encodable
    unfold loopedVault
    rw [readAt_append_right (by rw [length]; omega), length, Nat.add_sub_cancel_left,
      readAt_append_right (by rw [List.length_replicate]), List.length_replicate, Nat.sub_self]
    exact readAt_self loopedBlock
  have read : readExact loopedVault.file (loopedVault.header.blockOffset 1)
      loopedVault.header.blockSize.toNat = .ok loopedBlock := by
    have start : (loopedVault.header.blockOffset 1).toNat = headerSize + 32 := by decide
    have size : loopedVault.header.blockSize.toNat = 32 := by decide
    unfold readExact
    rw [start, size, if_neg (by decide), found]
  unfold Vault.readIndexBlock Vault.readPhysicalBlock
  rw [except_bind_of_ok read]
  rfl

/-- An index block that points to itself is walked for ever. -/
theorem looped_walk_diverges : ¬ ∀ (v : Vault) (entry : FileEntry),
    Returns (v.collectDataBlocks entry) ∧ Returns (v.collectAllBlocks entry) := by
  intro claim
  have returns := (claim loopedVault loopedEntry).1
  have counted : loopedVault.header.dataBlockCount loopedEntry.size.toNat = .ok 1 := by decide
  rw [Vault.collectDataBlocks, counted, except_bind_of_ok rfl, returns_bind_iff] at returns
  have onward := ((loopedVault.overflowNodes_returns_iff loopedEntry).mp returns.1).2
  have again : loopedVault.chainPointer loopedEntry 1 = some 1 := by
    unfold Vault.chainPointer
    rw [pointer_one]
    exact follow_of_ok (show (1 : UInt64) ≠ 0 by decide) readIndexBlock_looped
  exact absurd (onward 0 1 1 rfl again) (by decide)

end Transparent

end ReVault
