import ReVault.Core.HeaderLayout
import ReVault.Files.Operations

/-!
# Reading back what was stored

Storing content and walking over its entry, for every block size from 40 bytes on and every
state of the allocator: the walk for reading returns the data blocks in the order of the file,
the walk for freeing returns the blocks that were allocated, and no pointer to an index block is
zero. The offsets of the blocks are taken as computed, modulo 2^64.
-/

namespace ReVault

open Foundation Primitives

/-! ## Places on disk -/

namespace Vault

/-- The bytes that the bitmap is written to. -/
def bitmapPlace (v : Vault) : Extent := ⟨v.header.bitmapOffset.toNat, v.allocator.bits.length⟩

/-- The bytes that a block is written to. -/
def blockPlace (v : Vault) (block : UInt64) : Extent :=
  ⟨(v.header.blockOffset block).toNat, v.header.blockSize.toNat⟩

/-- Blocks of less than 2^64 bytes in all do not share a byte, even where their offsets wrap. -/
theorem blockPlace_apart {v : Vault}
    (room : v.allocator.blockCount.toNat * v.header.blockSize.toNat < 2 ^ 64)
    {first second : UInt64}
    (firstIn : first < v.allocator.blockCount) (secondIn : second < v.allocator.blockCount)
    (different : first ≠ second) : (v.blockPlace first).Apart (v.blockPlace second) := by
  have scaled {block : UInt64} (inRange : block < v.allocator.blockCount) :
      block.toNat * v.header.blockSize.toNat + v.header.blockSize.toNat < 2 ^ 64 := by
    have product := Nat.mul_le_mul_right v.header.blockSize.toNat
      (Nat.succ_le_of_lt (UInt64.lt_iff_toNat_lt.mp inRange))
    rw [Nat.succ_mul] at product
    exact product.trans_lt room
  have offset {block : UInt64} (inRange : block < v.allocator.blockCount) :
      (v.header.blockOffset block).toNat =
        (v.header.dataOffset.toNat + block.toNat * v.header.blockSize.toNat) % 2 ^ 64 := by
    have fits := scaled inRange
    unfold Header.blockOffset
    rw [UInt64.toNat_add, UInt64.toNat_mul, UInt32.toNat_toUInt64, Nat.mod_eq_of_lt (by omega :
      block.toNat * v.header.blockSize.toNat < 2 ^ 64)]
  have ordered {low high : UInt64} (lowIn : low < v.allocator.blockCount)
      (highIn : high < v.allocator.blockCount) (less : low.toNat < high.toNat) :
      (v.blockPlace low).Apart (v.blockPlace high) := by
    have step := Nat.mul_le_mul_right v.header.blockSize.toNat (Nat.succ_le_of_lt less)
    have fits := scaled highIn
    have bounded := v.header.dataOffset.toNat_lt
    rw [Nat.succ_mul] at step
    unfold Extent.Apart Extent.stop blockPlace
    rw [offset lowIn, offset highIn]
    dsimp only
    omega
  rcases Nat.lt_or_gt_of_ne (fun same => different (UInt64.toNat_inj.mp same)) with less | greater
  · exact ordered firstIn secondIn less
  · exact (ordered secondIn firstIn greater).symm

/-- In a well-formed layout the bitmap shares no byte with a block. -/
theorem blockPlace_apart_bitmapPlace {v : Vault} (formed : v.header.WellFormed)
    (counted : v.allocator.blockCount = v.header.blockCount) {block : UInt64}
    (inRange : block < v.allocator.blockCount) : (v.blockPlace block).Apart v.bitmapPlace := by
  have bits := formed.counted.bits
  have entries := formed.entries
  have recipients := formed.recipients
  have records := formed.records
  have blocks := formed.blocks
  have stop := formed.stop
  have sized := v.allocator.sized
  rw [counted] at sized inRange
  unfold bitmapLenBytes at sized
  have product := Nat.mul_le_mul_right v.header.blockSize.toNat
    (Nat.le_of_lt (UInt64.lt_iff_toNat_lt.mp inRange))
  have offset := Layout.toNat_table v.header.dataOffset block.toNat v.header.blockSize
    (by omega)
  rw [UInt64.ofNat_toNat] at offset
  right
  change v.header.bitmapOffset.toNat + v.allocator.bits.length ≤
    (v.header.dataOffset + block * v.header.blockSize.toUInt64).toNat
  rw [offset]
  omega

end Vault

section Storing

variable [Primitives]

/-! ## Sealing at any offsets -/

/-- A handle on a file that holds some plaintexts, sealed under the key of another. -/
structure Seals (v state : Vault) (uses : List Vault.BlockInUse) : Prop where
  header : state.header = v.header
  key : state.key = v.key
  allocator : state.allocator = v.allocator
  holds : ∀ use ∈ uses, ∃ content, cell state.file (v.blockPlace use.block) = some content ∧
    (use.sealedUnder v.key).Frames v.header.blockSize.toNat content ∧
      (v.blockPlace use.block).stop ≤ ioLimit

namespace Seals

variable {v state : Vault} {uses : List Vault.BlockInUse}

/-- A write elsewhere keeps what is held. -/
theorem written (seals : Seals v state uses) (offset : UInt64) (data : Bytes)
    (apart : ∀ use ∈ uses,
      (v.blockPlace use.block).Apart ⟨offset.toNat, data.length⟩) :
    Seals v (state.written offset data) uses where
  header := seals.header
  key := seals.key
  allocator := seals.allocator
  holds := by
    intro use member
    obtain ⟨content, found, rest⟩ := seals.holds use member
    have fills : data.length = (⟨offset.toNat, data.length⟩ : Extent).size := rfl
    have kept := cell_writeAt_of_apart found fills (apart use member)
    exact ⟨content, kept, rest⟩

/-- What is held is read back. -/
theorem readPhysicalBlock_eq [Lawful] (seals : Seals v state uses) {use : Vault.BlockInUse}
    (member : use ∈ uses) :
    state.readPhysicalBlock use.block use.fileId = .ok use.plaintext := by
  obtain ⟨content, found, frames, within⟩ := seals.holds use member
  rw [← seals.header] at frames
  have start : (state.header.blockOffset use.block).toNat = (v.blockPlace use.block).start := by
    rw [seals.header]
    rfl
  have size : state.header.blockSize.toNat = (v.blockPlace use.block).size := by
    rw [seals.header]
    rfl
  have opened : state.readPhysicalBlock (use.sealedUnder v.key).block
      (use.sealedUnder v.key).fileId = .ok (use.sealedUnder v.key).plaintext :=
    Vault.readPhysicalBlock_of_frames start size within found frames seals.key.symm
  exact opened

/-- One more block is sealed, or ends past the file offsets. -/
theorem sealBlock_yields [Lawful]
    (room : v.allocator.blockCount.toNat * v.header.blockSize.toNat < 2 ^ 64)
    (seals : Seals v state uses) {use : Vault.BlockInUse}
    (fits : use.plaintext.length + 20 ≤ v.header.blockSize.toNat)
    (inRange : ∀ other ∈ uses ++ [use], other.block < v.allocator.blockCount)
    (fresh : ∀ other ∈ uses, other.block ≠ use.block) :
    Yields (Vault.writePhysicalBlock use.block use.fileId use.plaintext) state
      (fun _ final => Seals v final (uses ++ [use]))
      (fun error _ => error = .error .io ∧ ioLimit < (v.blockPlace use.block).stop) := by
  rw [← seals.header] at fits
  obtain ⟨ciphertext, encrypted, framedSize, framed⟩ :=
    Vault.writePhysicalBlock_framed (v := state) use.block use.fileId fits
  generalize contentIs : padTo state.header.blockSize.toNat
    (toLE 4 use.plaintext.length ++ ciphertext) = content at framed
  have filled : content.length = v.header.blockSize.toNat := by
    rw [← contentIs, length_padTo framedSize, seals.header]
  have here : (⟨(state.header.blockOffset use.block).toNat, content.length⟩ : Extent) =
      v.blockPlace use.block := by
    rw [filled, seals.header]
    rfl
  rw [seals.key] at encrypted
  rw [seals.header] at fits contentIs
  by_cases within : (v.blockPlace use.block).stop ≤ ioLimit
  · have inside : (state.header.blockOffset use.block).toNat + content.length ≤ ioLimit := by
      rw [← here] at within
      exact within
    refine Yields.of_ok (framed.trans (Vault.writeAt_eq inside)) ?_
    have noted : Seals v
        { state with seals := state.seals ++ [⟨state.key, use.fileId, use.block,
          use.plaintext⟩] } uses := { seals with }
    have kept := noted.written (state.header.blockOffset use.block) content (by
      intro other member
      rw [here]
      exact Vault.blockPlace_apart room (inRange other (List.mem_append_left _ member))
        (inRange use (List.mem_append_right _ List.mem_cons_self)) (fresh other member))
    refine { kept with holds := ?_ }
    intro other member
    rcases List.mem_append.mp member with before | last
    · exact kept.holds other before
    · rw [List.mem_singleton.mp last]
      have start : (state.header.blockOffset use.block).toNat = (v.blockPlace use.block).start := by
        rw [← here]
      have held := @cell_writeAt_self state.file content (v.blockPlace use.block) filled
      rw [← start] at held
      exact ⟨content, held, ⟨fits, ciphertext, encrypted, contentIs.symm⟩, within⟩
  · refine Yields.of_error (framed.trans (Vault.writeAt_refused fun inside => within ?_))
      ⟨rfl, Nat.lt_of_not_le within⟩
    rw [← here]
    exact inside

/-- The blocks of a list without repetitions are all sealed, or one ends past the file offsets. -/
theorem sealUses_yields [Lawful] (uses : List Vault.BlockInUse)
    (room : v.allocator.blockCount.toNat * v.header.blockSize.toNat < 2 ^ 64)
    (fits : ∀ use ∈ uses, use.plaintext.length + 20 ≤ v.header.blockSize.toNat)
    (inRange : ∀ use ∈ uses, use.block < v.allocator.blockCount)
    (nodup : (uses.map fun use => use.block).Nodup) :
    Yields (uses.forM fun use =>
        Vault.writePhysicalBlock use.block use.fileId use.plaintext) v
      (fun _ final => Seals v final uses)
      (fun error _ => error = .error .io ∧ ∃ use ∈ uses,
        ioLimit < (v.blockPlace use.block).stop) := by
  refine forM_yields (fun done state => Seals v state done) uses ?_ v
    ⟨rfl, rfl, rfl, fun use member => absurd member List.not_mem_nil⟩
  intro done use rest split state seals
  have sublist : ∀ other ∈ done ++ [use], other ∈ uses := by
    intro other member
    rw [split, List.append_cons]
    exact List.mem_append_left _ member
  have here := sublist use (List.mem_append_right _ List.mem_cons_self)
  rw [split, List.map_append, List.map_cons, List.nodup_append] at nodup
  refine (seals.sealBlock_yields room (fits use here)
    (fun other member => inRange other (sublist other member)) fun other member => ?_).mono
      (fun _ _ => id) fun error _ failed => ⟨failed.1, use, here, failed.2⟩
  exact nodup.2.2 _ (List.mem_map_of_mem member) _ List.mem_cons_self

end Seals

/-! ## What storing leaves behind -/

/-- An entry that is filled from what storing a content has returned. -/
structure FileEntry.Records (entry : FileEntry) (fileId : BitVec 128) (data : Bytes)
    (stored : List.Vector UInt64 directBlocksLen × UInt64 × UInt32) : Prop where
  id : entry.id = fileId
  size : entry.size = UInt64.ofNat data.length
  directBlocks : entry.directBlocks = stored.1
  overflowBlock : entry.overflowBlock = stored.2.1

namespace Vault

/-- The data blocks of a content, in the order of the file. -/
def dataAllocation (v : Vault) (length : Nat) : List UInt64 :=
  (v.allocation length).take (v.header.dataBlocksFor length)

/-- The index blocks of a content, in the order of the chain. -/
def indexAllocation (v : Vault) (length : Nat) : List UInt64 :=
  (v.allocation length).drop (v.header.dataBlocksFor length)

/-- What a walk finds after a content has been stored on the blocks that were allocated. -/
structure ReadsBack (v final : Vault) (fileId : BitVec 128) (data : Bytes)
    (stored : List.Vector UInt64 directBlocksLen × UInt64 × UInt32) : Prop where
  allocator : final.allocator = v.allocatorAfter data.length
  dataBlocks : ∀ entry : FileEntry, entry.Records fileId data stored →
    final.collectDataBlocks entry = .ok (v.dataAllocation data.length)
  content : final.readContent fileId (v.dataAllocation data.length) = .ok data
  allBlocks : ∀ entry : FileEntry, entry.Records fileId data stored →
    ∃ all, final.collectAllBlocks entry = .ok all ∧ all.Perm (v.allocation data.length)
  payloads : ∀ index (inChain : index < (v.indexAllocation data.length).length),
    ∃ next chunk, next = ((v.indexAllocation data.length)[index + 1]?).getD 0 ∧
      final.readPhysicalBlock (v.indexAllocation data.length)[index] fileId =
        .ok (indexPayload next chunk) ∧
      final.readIndexBlock (v.indexAllocation data.length)[index] fileId = .ok (next, chunk) ∧
      (indexPayload next chunk).length + 20 ≤ v.header.blockSize.toNat ∧
      (index + 1 < (v.indexAllocation data.length).length → next ≠ 0)
  head : stored.2.1 = ((v.indexAllocation data.length)[0]?).getD 0
  overflow : v.indexAllocation data.length ≠ [] → stored.2.1 ≠ 0

/-- Walks look at nothing else of an entry. -/
theorem collect_congr (v : Vault) (entry other : FileEntry) (id : entry.id = other.id)
    (size : entry.size = other.size) (direct : entry.directBlocks = other.directBlocks)
    (overflow : entry.overflowBlock = other.overflowBlock) :
    v.collectDataBlocks entry = v.collectDataBlocks other ∧
      v.collectAllBlocks entry = v.collectAllBlocks other := by
  unfold collectDataBlocks collectAllBlocks usedDirectBlocks
  rw [id, size, direct, overflow]
  exact ⟨rfl, rfl⟩

section

variable {v final : Vault} {file : StoredFile}

/-- The node of every index block of a described file. -/
theorem exists_node {h : Header} (described : file.Describes h) {index : Nat}
    (inChain : index < file.indexBlocks.length) :
    ∃ chunk, (file.indexBlocks[index], (file.indexBlocks[index + 1]?).getD 0, chunk) ∈
      chainNodes file.indexBlocks (file.chunks h) := by
  refine ⟨((file.chunks h)[index]?).getD [], ?_⟩
  rw [chainNodes_eq described.length_chunks]
  refine List.mem_map.mpr ⟨(file.indexBlocks[index], index), ?_, rfl⟩
  exact List.mem_zipIdx_iff_getElem?.mpr (List.getElem?_eq_getElem inChain)

/-- The index blocks of a file that can be read hold its chain, whose inner pointers are not
zero. -/
theorem exists_payload (large : 40 ≤ final.header.blockSize.toNat)
    (described : file.Describes final.header) (reads : file.ReadsIn final) {index : Nat}
    (inChain : index < file.indexBlocks.length) :
    ∃ next chunk, next = (file.indexBlocks[index + 1]?).getD 0 ∧
      final.readPhysicalBlock file.indexBlocks[index] file.entry.id =
        .ok (indexPayload next chunk) ∧
      final.readIndexBlock file.indexBlocks[index] file.entry.id = .ok (next, chunk) ∧
      (indexPayload next chunk).length + 20 ≤ final.header.blockSize.toNat ∧
      (index + 1 < file.indexBlocks.length → next ≠ 0) := by
  obtain ⟨chunk, node⟩ := exists_node described inChain
  have inUses := StoredFile.use_of_mem_chainNodes node
  have read := reads _ inUses
  have walked := StoredFile.Describes.readIndexBlock_eq large reads node
  have fits := StoredFile.fits_of_mem_uses large inUses
  dsimp only at read walked fits
  refine ⟨_, chunk, rfl, read, walked, fits, ?_⟩
  intro more zero
  rw [List.getElem?_eq_getElem more, Option.getD_some] at zero
  exact described.nonzero (zero ▸ List.getElem_mem more)

end

section

variable {v final : Vault} {fileId : BitVec 128} {data : Bytes}

/-- A handle that opens the blocks of the placed file finds all of it. -/
theorem ReadsBack.of_reads (large : 40 ≤ v.header.blockSize.toNat)
    (room : v.allocator.blockCount.toNat * v.header.blockSize.toNat < 2 ^ 64)
    (enough : v.header.blocksFor data.length ≤ v.allocator.freeCount)
    (header : final.header = v.header) (allocator : final.allocator = v.allocatorAfter data.length)
    (reads : (v.placedFile fileId "" 0 0 data).ReadsIn final) (used : UInt32) :
    v.ReadsBack final fileId data (directPointers (v.dataAllocation data.length),
      ((v.indexAllocation data.length)[0]?).getD 0, used) := by
  have places := places_placedFile fileId "" 0 0 enough
  have described := describes_placedFile fileId "" 0 0 large room enough (Nat.zero_le _)
  have walks {entry : FileEntry} (records : entry.Records fileId data
      (directPointers (v.dataAllocation data.length),
        ((v.indexAllocation data.length)[0]?).getD 0, used)) :=
    final.collect_congr entry (v.placedFile fileId "" 0 0 data).entry records.id records.size
      records.directBlocks records.overflowBlock
  rw [← header] at large described
  exact {
    allocator := allocator
    dataBlocks := fun entry records =>
      (walks records).1.trans (described.collectDataBlocks_eq large reads)
    content := described.readContent_eq large reads
    allBlocks := by
      intro entry records
      obtain ⟨all, collected, perm⟩ := described.collectAllBlocks_eq large reads
      refine ⟨all, (walks records).2.trans collected, ?_⟩
      rw [places.blocks_eq] at perm
      exact perm
    payloads := by
      rw [← header]
      exact fun index inChain => exists_payload large described reads inChain
    head := rfl
    overflow := by
      intro some zero
      obtain ⟨head, rest, blocksAre⟩ := List.exists_cons_of_ne_nil some
      have nonzero : 0 ∉ v.indexAllocation data.length := described.nonzero
      rw [blocksAre] at nonzero zero
      exact nonzero (List.mem_cons.mpr (Or.inl (Eq.symm zero))) }

end

/-- Storing a content leaves it readable, or stops with an I/O error at a place past the file
offsets. -/
theorem storeNewContent_readsBack [Lawful] {v : Vault} (fileId : BitVec 128) {data : Bytes}
    (large : 40 ≤ v.header.blockSize.toNat)
    (room : v.allocator.blockCount.toNat * v.header.blockSize.toNat < 2 ^ 64)
    (clear : ∀ block ∈ v.allocation data.length, (v.blockPlace block).Apart v.bitmapPlace)
    (enough : v.header.blocksFor data.length ≤ v.allocator.freeCount) :
    Yields (storeNewContent fileId data) v
      (fun stored final => v.ReadsBack final fileId data stored)
      (fun error _ => error = .error .io ∧
        ∃ place ∈ v.bitmapPlace :: (v.allocation data.length).map v.blockPlace,
          ioLimit < place.stop) := by
  have places := places_placedFile fileId "" 0 0 enough
  have described := describes_placedFile fileId "" 0 0 large room enough (Nat.zero_le _)
  have stored := storeNewContent_eq large places described
  generalize usesAre : (v.placedFile fileId "" 0 0 data).uses v.header = uses at stored
  have blocksAre : uses.map (fun use => use.block) = v.allocation data.length := by
    rw [← usesAre]
    exact described.map_block_uses.trans places.blocks_eq
  have isAllocated {use : BlockInUse} (member : use ∈ uses) :
      use.block ∈ v.allocation data.length := by
    rw [← blocksAre]
    exact List.mem_map_of_mem member
  have sameCount : (v.allocatorAfter data.length).blockCount = v.allocator.blockCount :=
    v.allocator.blockCount_allocate _
  have sealing := Seals.sealUses_yields
    (v := { v with allocator := v.allocatorAfter data.length }) uses
    (by rw [sameCount]; exact room)
    (fun use member => StoredFile.fits_of_mem_uses large (usesAre ▸ member))
    (fun use member => by
      rw [sameCount]
      exact (v.allocator.mem_allocate (isAllocated member)).1)
    (by rw [blocksAre]; exact v.allocator.allocate_nodup _)
  have sameBitmap : (⟨v.header.bitmapOffset.toNat,
      (v.allocatorAfter data.length).asBytes.length⟩ : Extent) = v.bitmapPlace := by
    unfold bitmapPlace BlockAllocator.asBytes
    rw [BlockAllocator.sized, BlockAllocator.sized, sameCount]
  unfold Yields
  rw [show storeNewContent fileId data v = _ from stored]
  refine (sealing.mono (fun _ _ => id) ?_).bind ?_
  · rintro error _ ⟨isIo, use, member, past⟩
    exact ⟨isIo, _, List.mem_cons_of_mem _ (List.mem_map_of_mem (isAllocated member)), past⟩
  · rintro _ state seals
    have bitmap : writeBitmap state =
        writeAt v.header.bitmapOffset (v.allocatorAfter data.length).asBytes state := by
      unfold writeBitmap
      rw [bind_of_ok (get_apply state), seals.header, seals.allocator]
    by_cases within : v.bitmapPlace.stop ≤ ioLimit
    · rw [← sameBitmap] at within
      have kept := seals.written v.header.bitmapOffset (v.allocatorAfter data.length).asBytes
        fun use member => sameBitmap ▸ clear use.block (isAllocated member)
      refine Yields.of_ok (bind_of_ok (bitmap.trans (writeAt_eq within))) ?_
      refine ReadsBack.of_reads large room enough kept.header kept.allocator ?_ _
      intro use member
      rw [kept.header] at member
      exact kept.readPhysicalBlock_eq (usesAre ▸ member)
    · refine Yields.of_error (bind_of_error (bitmap.trans (writeAt_refused fun inside =>
        within (sameBitmap ▸ inside)))) ⟨rfl, _, List.mem_cons_self, Nat.lt_of_not_le within⟩

/-- **Storing and walking.** For every block size from 40 bytes on and every state of the
allocator, a content for which enough blocks are free is stored so that the walks over its entry
find it again, or an I/O error is returned because a write would end past the file offsets. -/
theorem storing_reads_back [Lawful] (v : Vault) (fileId : BitVec 128) (data : Bytes)
    (large : 40 ≤ v.header.blockSize.toNat)
    (room : v.allocator.blockCount.toNat * v.header.blockSize.toNat < 2 ^ 64)
    (clear : ∀ block ∈ v.allocation data.length, (v.blockPlace block).Apart v.bitmapPlace)
    (enough : v.header.blocksFor data.length ≤ v.allocator.freeCount) :
    (∃ stored final, storeNewContent fileId data v = .ok stored final ∧
      v.ReadsBack final fileId data stored) ∨
    ((∃ final, storeNewContent fileId data v = .error (.error .io) final) ∧
      ∃ place ∈ v.bitmapPlace :: (v.allocation data.length).map v.blockPlace,
        ioLimit < place.stop) := by
  have outcome := storeNewContent_readsBack fileId large room clear enough
  unfold Yields at outcome
  split at outcome
  · rename_i stored final ran
    exact Or.inl ⟨stored, final, ran, outcome⟩
  · rename_i error final ran
    obtain ⟨rfl, past⟩ := outcome
    exact Or.inr ⟨⟨final, ran⟩, past⟩

end Vault

end Storing

namespace Transparent

/-- A handle on an empty file with ten free blocks of 40 bytes behind a bitmap of two. -/
def tinyVault : Vault where
  file := []
  header := { bareHeader (zeroArr 32) with
    blockSize := 40
    blockCount := 10
    capacityBytes := 400
    bitmapLen := 2
    fileTableOffset := 1026
    recipientOffset := 1026
    chainOffset := 1026
    dataOffset := 1026 }
  allocator := BlockAllocator.new 10
  key := zeroArr keyLen
  adminIdentity := none
  changeLog := []
  seals := []

/-- The tiny vault is well formed. -/
theorem tinyVault_wellFormed : tinyVault.header.WellFormed := by
  constructor
  case counted => constructor <;> decide
  all_goals decide

/-- A content of nine data blocks, the last of them named by an index block. -/
theorem storing_reads_back_tiny :
    (∃ stored final,
      Vault.storeNewContent 7 (List.replicate 170 1) tinyVault = .ok stored final ∧
        tinyVault.ReadsBack final 7 (List.replicate 170 1) stored) ∨
    ((∃ final, Vault.storeNewContent 7 (List.replicate 170 1) tinyVault =
        .error (.error .io) final) ∧
      ∃ place ∈ tinyVault.bitmapPlace :: (tinyVault.allocation
          (List.replicate 170 (1 : UInt8)).length).map tinyVault.blockPlace,
        ioLimit < place.stop) :=
  Vault.storing_reads_back tinyVault 7 (List.replicate 170 1) (by decide) (by decide)
    (fun _ member => Vault.blockPlace_apart_bitmapPlace tinyVault_wellFormed rfl
      (tinyVault.allocator.mem_allocate member).1) (by decide +kernel)

end Transparent

end ReVault
