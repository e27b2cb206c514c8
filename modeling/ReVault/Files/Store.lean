import ReVault.Files.Content

/-!
# Storing content

Sealing a list of plaintexts into blocks, one write after the other, and the plan of
`store_new_content`: which blocks first fit hands out for a content, and that the
data loop followed by the overflow loop seals exactly what the stored file is made of.
-/

namespace ReVault

open Foundation Primitives

namespace Disk

/-- Seals several plaintexts under one key. -/
def setBlocks (d : Disk) (key : MasterKey) (uses : List Vault.BlockInUse) : Disk :=
  uses.foldl (fun current use => current.setBlock (use.sealedUnder key)) d

variable (d : Disk) (key : MasterKey) (uses : List Vault.BlockInUse)

/-- Blocks are sealed one after the other. -/
theorem setBlocks_append (later : List Vault.BlockInUse) :
    d.setBlocks key (uses ++ later) = (d.setBlocks key uses).setBlocks key later :=
  List.foldl_append ..

/-- Sealing blocks changes only the blocks. -/
theorem setBlocks_eq : d.setBlocks key uses =
    { d with blocks := (d.setBlocks key uses).blocks } := by
  induction uses generalizing d with
  | nil => rfl
  | cons use rest ih => exact ih (d.setBlock (use.sealedUnder key))

/-- Sealing blocks leaves the bitmap alone. -/
@[simp] theorem bitmap_setBlocks : (d.setBlocks key uses).bitmap = d.bitmap := by
  rw [setBlocks_eq]

/-- It leaves the entries alone. -/
@[simp] theorem entries_setBlocks : (d.setBlocks key uses).entries = d.entries := by
  rw [setBlocks_eq]

/-- It leaves the recipients alone. -/
@[simp] theorem recipients_setBlocks : (d.setBlocks key uses).recipients = d.recipients := by
  rw [setBlocks_eq]

/-- It leaves the records alone. -/
@[simp] theorem records_setBlocks : (d.setBlocks key uses).records = d.records := by
  rw [setBlocks_eq]

variable {uses}

/-- The other blocks keep their seals. -/
theorem blocks_setBlocks_of_notMem {block : UInt64}
    (outside : ∀ use ∈ uses, use.block ≠ block) :
    (d.setBlocks key uses).blocks block = d.blocks block := by
  induction uses generalizing d with
  | nil => rfl
  | cons use rest ih =>
      have apart := outside use List.mem_cons_self
      have tail := ih (d.setBlock (use.sealedUnder key)) fun later member =>
        outside later (List.mem_cons_of_mem use member)
      exact tail.trans (Function.update_of_ne (Ne.symm apart) _ _)

/-- A block sealed once holds its seal. -/
theorem blocks_setBlocks_of_mem (nodup : (uses.map fun use => use.block).Nodup)
    {use : Vault.BlockInUse} (member : use ∈ uses) :
    (d.setBlocks key uses).blocks use.block = some (use.sealedUnder key) := by
  induction uses generalizing d with
  | nil => cases member
  | cons head rest ih =>
      rw [List.map_cons, List.nodup_cons] at nodup
      rcases List.mem_cons.mp member with rfl | later
      · have once : ∀ other ∈ rest, other.block ≠ use.block := fun other inRest same =>
          nodup.1 (by rw [← same]; exact List.mem_map_of_mem inRest)
        exact (blocks_setBlocks_of_notMem (d.setBlock (use.sealedUnder key)) key once).trans
          (Function.update_self ..)
      · exact ih (d.setBlock (head.sealedUnder key)) nodup.2 later

end Disk

/-- A block whose bytes start within the file offsets and end beyond them. -/
def Straddles (h : Header) (block : UInt64) : Prop :=
  ((Region.block block).extent h).start ≤ ioLimit ∧ ioLimit < ((Region.block block).extent h).stop

variable [Primitives]

namespace Vault

variable {v : Vault} {d : Disk}

/-- Writing a block that straddles the last offset is an I/O error. -/
theorem writePhysicalBlock_straddles [Lawful] {block : UInt64}
    (straddles : Straddles v.header block) (fileId : BitVec 128) {plaintext : Bytes}
    (fits : plaintext.length + 20 ≤ v.header.blockSize.toNat) :
    ∃ final, writePhysicalBlock block fileId plaintext v = .error (.error .io) final := by
  obtain ⟨ciphertext, _, framedSize, framed⟩ := writePhysicalBlock_framed block fileId fits
  have offset := Layout.toNat_table v.header.dataOffset block.toNat v.header.blockSize
    (lt_of_le_of_lt straddles.1 (by decide))
  rw [UInt64.ofNat_toNat] at offset
  refine ⟨_, framed.trans (writeAt_refused ?_)⟩
  have past := straddles.2
  rw [length_padTo framedSize]
  unfold Header.blockOffset
  rw [offset]
  exact Nat.not_le.mpr past

/-- **Sealing loop.** Blocks that are reached in an order in which none lies beyond the
file offsets before one straddles them are either all sealed, or the loop stops with an
I/O error at the one that straddles. -/
theorem sealUses_yields [Lawful] (tracks : Tracks v.header v.file d) (uses : List BlockInUse)
    (fits : ∀ use ∈ uses, use.plaintext.length + 20 ≤ v.header.blockSize.toNat)
    (orderly : ∀ done use rest, uses = done ++ use :: rest →
      (∀ before ∈ done, (Region.block before.block).Valid v.header) →
      (Region.block use.block).Valid v.header ∨ Straddles v.header use.block) :
    Yields (uses.forM fun use => writePhysicalBlock use.block use.fileId use.plaintext) v
      (fun _ final => (∀ use ∈ uses, (Region.block use.block).Valid v.header) ∧
        Wrote v.header v final (uses.map fun use => .block use.block) ∧
        ∃ file log, final = { v with
            file := file
            changeLog := log
            seals := v.seals ++ uses.map fun use => use.sealedUnder v.key } ∧
          Tracks v.header file (d.setBlocks v.key uses))
      (fun error _ => error = .error .io ∧
        ∃ use ∈ uses, ¬ (Region.block use.block).Valid v.header) := by
  refine forM_yields (fun done state =>
    (∀ use ∈ done, (Region.block use.block).Valid v.header) ∧
      Wrote v.header v state (done.map fun use => .block use.block) ∧
      ∃ file log, state = { v with
          file := file
          changeLog := log
          seals := v.seals ++ done.map fun use => use.sealedUnder v.key } ∧
        Tracks v.header file (d.setBlocks v.key done)) uses ?_ v ?_
  · intro done use rest split state holds
    obtain ⟨valid, filled, file, log, rfl, tracked⟩ := holds
    have inUses : use ∈ uses := by
      rw [split]
      exact List.mem_append_right _ List.mem_cons_self
    rcases orderly done use rest split valid with within | straddles
    · obtain ⟨file', log', wrote, tracked', filled'⟩ := writePhysicalBlock_eq
        (v := { v with
          file := file
          changeLog := log
          seals := v.seals ++ done.map fun use => use.sealedUnder v.key }) tracked use.fileId
        within (fits use inUses)
      refine Yields.of_ok wrote ⟨?_, ?_, file', log', ?_, ?_⟩
      · intro other member
        rcases List.mem_append.mp member with before | last
        · exact valid other before
        · rw [List.mem_singleton.mp last]
          exact within
      · rw [List.map_append]
        exact filled.trans filled'
      · rw [List.map_append, List.append_assoc]
        rfl
      · rw [Disk.setBlocks_append]
        exact tracked'
    · obtain ⟨final, failed⟩ := writePhysicalBlock_straddles
        (v := { v with
          file := file
          changeLog := log
          seals := v.seals ++ done.map fun use => use.sealedUnder v.key })
        straddles use.fileId (fits use inUses)
      refine Yields.of_error failed ⟨rfl, use, inUses, fun within => ?_⟩
      exact absurd within.2 (Nat.not_le_of_lt straddles.2)
  · refine ⟨fun use member => absurd member List.not_mem_nil, Wrote.nothing rfl rfl, v.file,
      v.changeLog, ?_, tracks⟩
    rw [List.map_nil, List.append_nil]

/-- Sealing blocks that all lie within the file offsets. -/
theorem sealUses_eq [Lawful] (tracks : Tracks v.header v.file d) (uses : List BlockInUse)
    (fits : ∀ use ∈ uses, use.plaintext.length + 20 ≤ v.header.blockSize.toNat)
    (valid : ∀ use ∈ uses, (Region.block use.block).Valid v.header) :
    ∃ file log,
      (uses.forM fun use => writePhysicalBlock use.block use.fileId use.plaintext) v =
        .ok () { v with
          file := file
          changeLog := log
          seals := v.seals ++ uses.map fun use => use.sealedUnder v.key } ∧
      Tracks v.header file (d.setBlocks v.key uses) ∧
      Wrote v.header v { v with
        file := file
        changeLog := log
        seals := v.seals ++ uses.map fun use => use.sealedUnder v.key }
        (uses.map fun use => .block use.block) := by
  have outcome := sealUses_yields tracks uses fits (by
    intro done use rest split _
    left
    apply valid
    rw [split]
    exact List.mem_append_right _ List.mem_cons_self)
  unfold Yields at outcome
  split at outcome
  · rename_i result final ran
    obtain ⟨_, filled, file, log, rfl, tracked⟩ := outcome
    exact ⟨file, log, ran, tracked, filled⟩
  · obtain ⟨_, use, member, invalid⟩ := outcome
    exact absurd (valid use member) invalid

/-! ## The plan of `store_new_content` -/

omit [Primitives] in
/-- The blocks that first fit hands out for a content of the given length. -/
def allocation (v : Vault) (length : Nat) : List UInt64 :=
  (v.allocator.allocate (v.header.blocksFor length)).2

omit [Primitives] in
/-- The allocator after a content of the given length has been placed. -/
def allocatorAfter (v : Vault) (length : Nat) : BlockAllocator :=
  (v.allocator.allocate (v.header.blocksFor length)).1

omit [Primitives] in
/-- A stored file lies on the blocks that first fit hands out for its content. -/
structure Places (v : Vault) (file : StoredFile) : Prop where
  dataBlocks : file.dataBlocks =
    (v.allocation file.data.length).take (v.header.dataBlocksFor file.data.length)
  indexBlocks : file.indexBlocks =
    (v.allocation file.data.length).drop (v.header.dataBlocksFor file.data.length)
  enough : v.header.blocksFor file.data.length ≤ v.allocator.freeCount

namespace Places

variable {file : StoredFile} (places : v.Places file)

include places

omit [Primitives]

/-- The file takes the blocks that were given out. -/
theorem blocks_eq : file.blocks = v.allocation file.data.length := by
  unfold StoredFile.blocks
  rw [places.dataBlocks, places.indexBlocks, List.take_append_drop]

/-- As many blocks are given out as the content takes. -/
theorem length_allocation :
    (v.allocation file.data.length).length = v.header.blocksFor file.data.length :=
  v.allocator.length_allocate places.enough

/-- As many of them hold data as the length asks for. -/
theorem length_dataBlocks :
    file.dataBlocks.length = v.header.dataBlocksFor file.data.length := by
  rw [places.dataBlocks, List.length_take, places.length_allocation]
  unfold Header.blocksFor
  omega

/-- The others are index blocks. -/
theorem length_indexBlocks :
    file.indexBlocks.length = v.header.indexBlocksFor file.data.length := by
  rw [places.indexBlocks, List.length_drop, places.length_allocation]
  unfold Header.blocksFor
  omega

/-- An index block comes after at least nine data blocks, so it is never block zero. -/
theorem zero_notMem_indexBlocks : 0 ∉ file.indexBlocks := by
  intro member
  have sorted := v.allocator.allocate_sorted (v.header.blocksFor file.data.length)
  have split := places.blocks_eq
  unfold StoredFile.blocks at split
  unfold allocation at split
  rw [← split, List.pairwise_append] at sorted
  have some : file.dataBlocks ≠ [] := by
    intro none
    have count := places.length_indexBlocks
    have positive := List.length_pos_of_mem member
    have dataCount := places.length_dataBlocks
    rw [none, List.length_nil] at dataCount
    unfold Header.indexBlocksFor at count
    rw [← dataCount, Nat.zero_sub, pieceCount_zero] at count
    omega
  obtain ⟨first, inData⟩ := List.exists_mem_of_ne_nil _ some
  exact Nat.not_lt_zero _ (sorted.2.2 first inData 0 member)

/-- They are all different. -/
theorem nodup : file.blocks.Nodup := by
  rw [places.blocks_eq]
  exact v.allocator.allocate_nodup _

/-- A placed file is on blocks that were free. -/
theorem free {block : UInt64} (member : block ∈ file.blocks) :
    block < v.allocator.blockCount ∧ block.toNat ∉ v.allocator.occupied := by
  rw [places.blocks_eq] at member
  exact v.allocator.mem_allocate member

end Places

omit [Primitives] in
/-- The nodes of a chain, by position. -/
theorem chainNodes_eq {indexBlocks : List UInt64} {chunks : List (List UInt64)}
    (same : indexBlocks.length = chunks.length) :
    chainNodes indexBlocks chunks = indexBlocks.zipIdx.map fun node =>
      (node.1, (indexBlocks[node.2 + 1]?).getD 0, (chunks[node.2]?).getD []) := by
  induction indexBlocks generalizing chunks with
  | nil => rfl
  | cons block rest ih =>
      cases chunks with
      | nil => cases same
      | cons chunk chunks =>
          rw [chainNodes, ih (Nat.succ.inj same), List.zipIdx_cons', List.map_cons, List.map_map]
          rfl

section Loops

variable {file : StoredFile}

/-- The data loop seals the data blocks of the placed file. -/
theorem dataLoop_eq
    (sized : file.dataBlocks.length = (pieces v.header.plainChunkLen.toNat file.data).length) :
    (file.dataBlocks.zipIdx.forM fun block =>
      writePhysicalBlock block.1 file.entry.id
        ((file.data.drop (block.2 * v.header.plainChunkLen.toNat)).take
          v.header.plainChunkLen.toNat)) =
      (file.dataUses v.header).forM
        fun use => writePhysicalBlock use.block use.fileId use.plaintext := by
  let toUse : UInt64 × Nat → BlockInUse := fun block =>
    ⟨block.1, file.entry.id, (file.data.drop (block.2 * v.header.plainChunkLen.toNat)).take
      v.header.plainChunkLen.toNat⟩
  have uses : file.dataBlocks.zipIdx.map toUse = file.dataUses v.header := by
    unfold StoredFile.dataUses
    apply List.ext_getElem
    · rw [List.length_map, List.length_map, List.length_zipIdx, List.length_zip, ← sized,
        Nat.min_self]
    · intro index inLeft inRight
      rw [List.getElem_map, List.getElem_map, List.getElem_zipIdx, List.getElem_zip,
        getElem_pieces, Nat.zero_add]
  rw [← uses]
  exact forM_eq_forM_map _ fun _ _ => rfl

/-- The overflow loop seals the index blocks of the placed file. -/
theorem writeOverflow_eq (sized : file.indexBlocks.length = (file.chunks v.header).length) :
    writeOverflow file.entry.id file.indexBlocks (file.chunks v.header) =
      (file.indexUses v.header).forM
        fun use => writePhysicalBlock use.block use.fileId use.plaintext := by
  let toUse : UInt64 × Nat → BlockInUse := fun node =>
    ⟨node.1, file.entry.id, indexPayload ((file.indexBlocks[node.2 + 1]?).getD 0)
      (((file.chunks v.header)[node.2]?).getD [])⟩
  have uses : file.indexBlocks.zipIdx.map toUse = file.indexUses v.header := by
    unfold StoredFile.indexUses
    rw [chainNodes_eq sized, List.map_map]
    rfl
  rw [← uses]
  refine forM_eq_forM_map _ fun node member => ?_
  have inChain : node.2 < (file.chunks v.header).length := by
    rw [← sized]
    exact (List.getElem?_eq_some_iff.mp (List.mem_zipIdx_iff_getElem?.mp member)).1
  rw [List.getElem?_eq_getElem inChain]
  simp only [toUse, List.getElem?_eq_getElem inChain, Option.getD_some]
  rfl

/-- First fit never skips the block that straddles the last offset, so the loops reach
it before any block beyond it. -/
theorem Places.orderly (tracks : Tracks v.header v.file d)
    (counted : v.allocator.blockCount = v.header.blockCount)
    (takenValid : ∀ block : UInt64, block.toNat ∈ v.allocator.occupied →
      (Region.block block).Valid v.header)
    (places : v.Places file) (blocksOf : (file.uses v.header).map (fun use => use.block) =
      file.blocks) (done : List BlockInUse) (use : BlockInUse) (rest : List BlockInUse)
    (split : file.uses v.header = done ++ use :: rest)
    (valid : ∀ before ∈ done, (Region.block before.block).Valid v.header) :
    (Region.block use.block).Valid v.header ∨ Straddles v.header use.block := by
  by_contra neither
  obtain ⟨invalid, notStraddling⟩ := not_or.mp neither
  have large := tracks.layout.blockSize
  have data := tracks.layout.data
  have division := Nat.div_add_mod' (ioLimit - v.header.dataOffset.toNat)
    v.header.blockSize.toNat
  have remainder := Nat.mod_lt (ioLimit - v.header.dataOffset.toNat)
    (by omega : 0 < v.header.blockSize.toNat)
  -- the edge is the first block whose bytes do not end within the file offsets
  generalize (ioLimit - v.header.dataOffset.toNat) / v.header.blockSize.toNat = edge at division
  have member : use.block ∈ file.blocks := by
    rw [← blocksOf, split, List.map_append, List.map_cons]
    exact List.mem_append_right _ List.mem_cons_self
  have inRange := (places.free member).1
  have beyond : ioLimit < v.header.dataOffset.toNat +
      use.block.toNat * v.header.blockSize.toNat + v.header.blockSize.toNat := by
    rw [counted] at inRange
    exact Nat.lt_of_not_le fun within => invalid ⟨inRange, within⟩
  have past : edge < use.block.toNat := by
    have notStart : ¬ v.header.dataOffset.toNat +
        use.block.toNat * v.header.blockSize.toNat ≤ ioLimit := fun starts =>
      notStraddling ⟨starts, beyond⟩
    by_contra before
    have scaled := Nat.mul_le_mul_right v.header.blockSize.toNat (Nat.le_of_not_lt before)
    omega
  have edgeIs : (UInt64.ofNat edge).toNat = edge := by
    have := use.block.toNat_lt
    rw [UInt64.toNat_ofNat', Nat.mod_eq_of_lt (by omega)]
  have edgeInvalid : ¬ (Region.block (UInt64.ofNat edge)).Valid v.header := by
    rintro ⟨_, within⟩
    change v.header.dataOffset.toNat + (UInt64.ofNat edge).toNat * v.header.blockSize.toNat +
      v.header.blockSize.toNat ≤ ioLimit at within
    rw [edgeIs] at within
    omega
  have edgeTaken : UInt64.ofNat edge ∈ file.blocks := by
    rw [places.blocks_eq] at member ⊢
    exact v.allocator.mem_allocate_of_lt member (by rw [edgeIs]; exact past)
      fun taken => edgeInvalid (takenValid _ taken)
  -- the blocks are visited in increasing order, so the edge came before
  have sorted : file.blocks.Pairwise fun first second => first.toNat < second.toNat := by
    rw [places.blocks_eq]
    exact v.allocator.allocate_sorted _
  rw [← blocksOf, split, List.map_append, List.map_cons] at sorted edgeTaken
  rw [List.pairwise_append, List.pairwise_cons] at sorted
  rcases List.mem_append.mp edgeTaken with before | after
  · obtain ⟨earlier, inDone, sameBlock⟩ := List.mem_map.mp before
    have earlierValid := valid earlier inDone
    rw [sameBlock] at earlierValid
    exact edgeInvalid earlierValid
  · rcases List.mem_cons.mp after with same | later
    · rw [← same, edgeIs] at past
      exact Nat.lt_irrefl _ past
    · have increasing := sorted.2.1.1 _ later
      rw [edgeIs] at increasing
      omega

/-- Content without enough free blocks is refused before anything changes. -/
theorem storeNewContent_refused (layout : Layout v.header) (fileId : BitVec 128) {data : Bytes}
    (short : v.allocator.freeCount < v.header.blocksFor data.length) :
    storeNewContent fileId data v = .error (insufficientSpace v.header
      (v.header.blocksFor data.length) v.allocator.freeCount) v := by
  have refused : observe (fun v : Vault => v.planContent data.length) v =
      .error (insufficientSpace v.header (v.header.blocksFor data.length)
        v.allocator.freeCount) v := by
    apply observe_of_error
    unfold planContent
    rw [except_bind_of_ok (Header.blocksNeeded_eq layout.blockSize _)]
    exact if_pos short
  unfold storeNewContent
  rw [bind_of_error refused]

/-- With enough free blocks, storing content reserves the blocks that first fit hands out, seals
what the stored file is made of, and writes the bitmap. -/
theorem storeNewContent_eq (large : 40 ≤ v.header.blockSize.toNat) (places : v.Places file)
    (described : file.Describes v.header) : storeNewContent file.entry.id file.data v =
      (((file.uses v.header).forM fun use =>
          writePhysicalBlock use.block use.fileId use.plaintext) >>= fun _ =>
        writeBitmap >>= fun _ => pure (directPointers file.dataBlocks,
          (file.indexBlocks[0]?).getD 0, UInt32.ofNat (v.header.blocksFor file.data.length)))
        { v with allocator := v.allocatorAfter file.data.length } := by
  have planned : observe (fun v : Vault => v.planContent file.data.length) v =
      .ok (v.header.dataBlocksFor file.data.length,
        v.header.indexBlocksFor file.data.length) v := by
    apply observe_of_ok
    unfold planContent
    rw [except_bind_of_ok (Header.blocksNeeded_eq large _)]
    exact if_neg (Nat.not_lt.mpr places.enough)
  have loops : writeContent v.header file.entry.id file.data file.dataBlocks file.indexBlocks =
      (file.uses v.header).forM
        fun use => writePhysicalBlock use.block use.fileId use.plaintext := by
    unfold writeContent StoredFile.uses
    rw [forM_append, dataLoop_eq described.length_dataPieces]
    congr 1
    funext _
    exact writeOverflow_eq described.length_chunks
  rw [← loops, places.dataBlocks, places.indexBlocks]
  unfold storeNewContent
  rw [bind_of_ok planned]
  rfl

/-- **Storing content.** With enough free blocks, the content lands on the blocks that
first fit hands out, or the loops stop with an I/O error at a block beyond the file
offsets. -/
theorem storeNewContent_yields [Lawful] (tracks : Tracks v.header v.file d)
    (counted : v.allocator.blockCount = v.header.blockCount)
    (takenValid : ∀ block : UInt64, block.toNat ∈ v.allocator.occupied →
      (Region.block block).Valid v.header)
    (places : v.Places file) (described : file.Describes v.header) :
    Yields (storeNewContent file.entry.id file.data) v
      (fun result final => result = (directPointers file.dataBlocks,
          (file.indexBlocks[0]?).getD 0,
          UInt32.ofNat (v.header.blocksFor file.data.length)) ∧
        (∀ block ∈ file.blocks, (Region.block block).Valid v.header) ∧
        Wrote v.header v final (file.blocks.map Region.block ++ [.bitmap]) ∧
        ∃ written log, final = { v with
            file := written
            changeLog := log
            allocator := v.allocatorAfter file.data.length
            seals := v.seals ++ (file.uses v.header).map fun use => use.sealedUnder v.key } ∧
          Tracks v.header written { d.setBlocks v.key (file.uses v.header) with
            bitmap := (v.allocatorAfter file.data.length).bits })
      (fun error _ => error = .error .io ∧
        ∃ block ∈ file.blocks, ¬ (Region.block block).Valid v.header) := by
  have sealing := sealUses_yields
    (v := { v with allocator := v.allocatorAfter file.data.length }) tracks
    (file.uses v.header) (fun use member => StoredFile.fits_of_mem_uses
      tracks.layout.blockSize member)
    (fun done use rest split valid => places.orderly tracks counted takenValid
      described.map_block_uses done use rest split valid)
  unfold Yields
  rw [storeNewContent_eq tracks.layout.blockSize places described]
  refine (sealing.mono (fun _ _ => id) ?_).bind ?_
  · rintro error _ ⟨isIo, use, member, invalid⟩
    exact ⟨isIo, use.block, described.block_mem member, invalid⟩
  · rintro _ _ ⟨valid, filled, written, log, rfl, tracked⟩
    obtain ⟨written', log', wrote, tracked', filled'⟩ := writeBitmap_eq
      (v := { v with
        file := written
        changeLog := log
        allocator := v.allocatorAfter file.data.length
        seals := v.seals ++ (file.uses v.header).map fun use => use.sealedUnder v.key })
      tracked ((v.allocator.blockCount_allocate _).trans counted)
    refine Yields.of_ok (bind_of_ok wrote) ⟨rfl, ?_, ?_, written', log', rfl, tracked'⟩
    · intro block member
      obtain ⟨use, inUses, rfl⟩ := described.exists_use member
      exact valid use inUses
    · have reserved : Wrote v.header v
          { v with allocator := v.allocatorAfter file.data.length } [] := Wrote.nothing rfl rfl
      rw [← described.map_block_uses, List.map_map]
      exact (reserved.trans filled).trans filled'

end Loops

end Vault

end ReVault
