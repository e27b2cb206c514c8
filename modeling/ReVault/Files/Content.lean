import Mathlib.Data.List.Nodup
import Mathlib.Data.List.Perm.Basic
import ReVault.Disk.Tracks

/-!
# Files on disk

A stored file is an entry with its content and the blocks that hold it: data blocks,
the first eight named by the entry, and a linked chain of index blocks that list the
others. When every block of a stored file is sealed under the vault's key, the walks
over its entry return its blocks, and reading it returns its content.
-/

namespace ReVault

open Foundation Primitives

/-! ## Block counts -/

namespace Header

variable {h : Header} (large : 40 ≤ h.blockSize.toNat)

include large

/-- A block holds something of a file. -/
theorem chunk_pos : 0 < h.plainChunkLen.toNat := by
  rw [toNat_plainChunkLen (le_trans (by decide) large)]
  omega

/-- What an index block names, from the size of a block. -/
theorem toNat_indexBlockCapacity :
    h.indexBlockCapacity.toNat = (h.blockSize.toNat - 32) / 8 := by
  have chunk := toNat_plainChunkLen (h := h) (le_trans (by decide) large)
  unfold Header.indexBlockCapacity
  rw [UInt64.toNat_div, UInt64.toNat_sub_of_le, chunk]
  · change (h.blockSize.toNat - 20 - 12) / 8 = _
    rw [Nat.sub_sub]
  · rw [UInt64.le_iff_toNat_le, chunk]
    change 12 ≤ _
    omega

/-- An index block names something. -/
theorem capacity_pos : 0 < h.indexBlockCapacity.toNat := by
  rw [toNat_indexBlockCapacity large]
  omega

end Header

/-- The blocks of 4096 bytes that a content of the given size takes: one data block for
every 4076 bytes, and beyond eight of them one index block for every 508. -/
def blocksOfSize (size : Nat) : Nat :=
  (size + 4075) / 4076 + ((size + 4075) / 4076 - 8 + 507) / 508

namespace Header

/-- The number of data blocks of a content of the given length. -/
def dataBlocksFor (h : Header) (length : Nat) : Nat := pieceCount h.plainChunkLen.toNat length

/-- The number of index blocks of a content of the given length. -/
def indexBlocksFor (h : Header) (length : Nat) : Nat :=
  pieceCount h.indexBlockCapacity.toNat (h.dataBlocksFor length - directBlocksLen)

/-- All the blocks that a content of the given length takes. -/
def blocksFor (h : Header) (length : Nat) : Nat :=
  h.dataBlocksFor length + h.indexBlocksFor length

/-- The number of data blocks of a length. -/
theorem dataBlockCount_eq {h : Header} (large : 40 ≤ h.blockSize.toNat) (length : Nat) :
    h.dataBlockCount length = .ok (h.dataBlocksFor length) := by
  unfold dataBlockCount dataBlocksFor
  by_cases empty : length = 0
  · rw [if_pos empty, empty, pieceCount_zero]
  · rw [if_neg empty, if_neg]
    intro zero
    have positive := chunk_pos large
    rw [zero] at positive
    exact Nat.lt_irrefl _ positive

/-- The numbers of data and index blocks of a length. -/
theorem blocksNeeded_eq {h : Header} (large : 40 ≤ h.blockSize.toNat) (length : Nat) :
    h.blocksNeeded length = .ok (h.dataBlocksFor length, h.indexBlocksFor length) := by
  unfold blocksNeeded indexBlocksFor
  rw [except_bind_of_ok (dataBlockCount_eq large length)]
  by_cases direct : h.dataBlocksFor length - directBlocksLen = 0
  · simp only [direct, ↓reduceIte, pieceCount_zero]
  · simp only [direct, ↓reduceIte]
    rw [if_neg]
    intro zero
    have positive := capacity_pos large
    rw [zero] at positive
    exact Nat.lt_irrefl _ positive

/-- An empty content takes no blocks. -/
theorem blocksFor_zero (h : Header) : h.blocksFor 0 = 0 := by
  unfold blocksFor indexBlocksFor dataBlocksFor
  rw [pieceCount_zero, Nat.zero_sub, pieceCount_zero]

/-- The block counts of a container with blocks of 4096 bytes. -/
theorem blocksFor_eq {h : Header} (size : h.blockSize = defaultBlockSize) (length : Nat) :
    h.blocksFor length = blocksOfSize length := by
  have chunk : h.plainChunkLen.toNat = 4076 := by
    rw [toNat_plainChunkLen (by rw [size]; decide), size]
    rfl
  have capacity : h.indexBlockCapacity.toNat = 508 := by
    rw [toNat_indexBlockCapacity (by rw [size]; decide), size]
    rfl
  have ceil : ∀ count, pieceCount 4076 count = (count + 4075) / 4076 ∧
      pieceCount 508 count = (count + 507) / 508 := by
    intro count
    unfold pieceCount
    constructor <;> split <;> omega
  unfold blocksFor indexBlocksFor dataBlocksFor blocksOfSize
  rw [chunk, capacity, (ceil length).1, (ceil _).2]

end Header

/-! ## Index payloads -/

section Payload

/-- The length of what an index block holds. -/
theorem length_indexPayload (next : UInt64) (indices : List UInt64) :
    (Vault.indexPayload next indices).length = 12 + 8 * indices.length := by
  have listed : (indices.map fun index => toLE 8 index.toNat).flatten.length =
      8 * indices.length := by
    induction indices with
    | nil => rfl
    | cons index rest ih =>
        rw [List.map_cons, List.flatten_cons, List.length_append, length_toLE, ih,
          List.length_cons]
        omega
  unfold Vault.indexPayload
  rw [List.length_append, List.length_append, length_toLE, length_toLE, listed]
  omega

/-- The blocks that were written into an index block are read back. -/
private theorem readIndices_eq (before : Bytes) (indices : List UInt64) :
    Vault.readIndices (before ++ (indices.map fun index => toLE 8 index.toNat).flatten)
      indices.length before.length = .ok indices := by
  induction indices generalizing before with
  | nil => rfl
  | cons index rest ih =>
      have later := ih (before ++ toLE 8 index.toNat)
      rw [List.append_assoc, List.length_append, length_toLE] at later
      rw [List.map_cons, List.flatten_cons, List.length_cons, Vault.readIndices, if_neg (by
        rw [List.length_append, List.length_append, length_toLE]
        omega), except_bind_of_ok later, List.drop_left,
        List.take_left' (length_toLE 8 index.toNat), ofLE_toLE_of_lt index.toNat_lt,
        UInt64.ofNat_toNat]

/-- An index payload parses back to the node it was written for. -/
theorem parseIndexPayload_indexPayload (next : UInt64) {indices : List UInt64}
    (small : indices.length < 2 ^ 32) :
    Vault.parseIndexPayload (Vault.indexPayload next indices) = .ok (next, indices) := by
  have listed := readIndices_eq (toLE 8 next.toNat ++ toLE 4 indices.length) indices
  rw [List.length_append, length_toLE, length_toLE, List.append_assoc] at listed
  have count : ofLE (((Vault.indexPayload next indices).drop 8).take 4) = indices.length := by
    unfold Vault.indexPayload
    rw [List.drop_left' (length_toLE 8 _), List.take_left' (length_toLE 4 _)]
    exact ofLE_toLE_of_lt small
  have following : UInt64.ofNat (ofLE ((Vault.indexPayload next indices).take 8)) = next := by
    unfold Vault.indexPayload
    rw [List.take_left' (length_toLE 8 _), ofLE_toLE_of_lt next.toNat_lt, UInt64.ofNat_toNat]
  unfold Vault.parseIndexPayload
  rw [if_neg (by rw [length_indexPayload]; change ¬ _ < 12; omega), count, following]
  exact except_bind_of_ok listed

end Payload

/-! ## Stored files -/

/-- A file with its content and the blocks that hold it. -/
structure StoredFile where
  entry : FileEntry
  data : Bytes
  dataBlocks : List UInt64
  indexBlocks : List UInt64

/-- The nodes of an overflow chain: each index block, its successor, its list. -/
def chainNodes : List UInt64 → List (List UInt64) → List (UInt64 × UInt64 × List UInt64)
  | block :: rest, chunk :: chunks => (block, (rest[0]?).getD 0, chunk) :: chainNodes rest chunks
  | _, _ => []

namespace StoredFile

/-- Every block of a stored file. -/
def blocks (file : StoredFile) : List UInt64 := file.dataBlocks ++ file.indexBlocks

/-- The lists of the index blocks. -/
def chunks (h : Header) (file : StoredFile) : List (List UInt64) :=
  pieces h.indexBlockCapacity.toNat (file.dataBlocks.drop directBlocksLen)

/-- The plaintexts of the data blocks. -/
def dataUses (h : Header) (file : StoredFile) : List Vault.BlockInUse :=
  (file.dataBlocks.zip (pieces h.plainChunkLen.toNat file.data)).map fun cell =>
    ⟨cell.1, file.entry.id, cell.2⟩

/-- The plaintexts of the index blocks. -/
def indexUses (h : Header) (file : StoredFile) : List Vault.BlockInUse :=
  (chainNodes file.indexBlocks (file.chunks h)).map fun node =>
    ⟨node.1, file.entry.id, Vault.indexPayload node.2.1 node.2.2⟩

/-- What the blocks of a stored file hold. -/
def uses (h : Header) (file : StoredFile) : List Vault.BlockInUse :=
  file.dataUses h ++ file.indexUses h

end StoredFile

/-- A block in use, sealed under a key. -/
def Vault.BlockInUse.sealedUnder (use : Vault.BlockInUse) (key : MasterKey) : BlockSeal :=
  ⟨key, use.fileId, use.block, use.plaintext⟩

variable [Primitives]

/-- The entry of a stored file describes its content and its blocks. -/
structure StoredFile.Describes (h : Header) (file : StoredFile) : Prop where
  occupied : file.entry.isOccupied = true
  named : (utf8 file.entry.name).length ≤ maxFilenameLen
  size : file.entry.size.toNat = file.data.length
  hash : file.entry.fileHash = sha256 file.data
  dataCount : file.dataBlocks.length = h.dataBlocksFor file.data.length
  indexCount : file.indexBlocks.length = h.indexBlocksFor file.data.length
  direct : file.entry.directBlocks = Vault.directPointers file.dataBlocks
  overflow : file.entry.overflowBlock = (file.indexBlocks[0]?).getD 0
  nonzero : 0 ∉ file.indexBlocks
  nodup : file.blocks.Nodup

/-- A described file whose blocks a disk holds under a key. -/
structure Stored (h : Header) (d : Disk) (key : MasterKey) (file : StoredFile) : Prop
    extends file.Describes h where
  sealed : ∀ use ∈ file.uses h, d.blocks use.block = some (use.sealedUnder key)

/-! ## Shape of a described file -/

omit [Primitives] in
/-- The nodes are the index blocks. -/
theorem map_fst_chainNodes {indexBlocks : List UInt64} {chunks : List (List UInt64)}
    (same : indexBlocks.length = chunks.length) :
    (chainNodes indexBlocks chunks).map Prod.fst = indexBlocks := by
  induction indexBlocks generalizing chunks with
  | nil => rfl
  | cons block rest ih =>
      cases chunks with
      | nil => cases same
      | cons chunk chunks =>
          rw [chainNodes, List.map_cons, ih (Nat.succ.inj same)]

omit [Primitives] in
/-- A node names one of the groups of blocks. -/
theorem snd_mem_of_mem_chainNodes {indexBlocks : List UInt64} {chunks : List (List UInt64)}
    {node : UInt64 × UInt64 × List UInt64} (member : node ∈ chainNodes indexBlocks chunks) :
    node.2.2 ∈ chunks := by
  induction indexBlocks generalizing chunks with
  | nil => cases member
  | cons block rest ih =>
      cases chunks with
      | nil => cases member
      | cons chunk chunks =>
          rcases List.mem_cons.mp member with rfl | later
          · exact List.mem_cons_self
          · exact List.mem_cons_of_mem _ (ih later)

omit [Primitives] in
/-- The nodes name the groups, one after the other. -/
theorem map_snd_chainNodes {indexBlocks : List UInt64} {chunks : List (List UInt64)}
    (same : indexBlocks.length = chunks.length) :
    (chainNodes indexBlocks chunks).map (fun node => node.2.2) = chunks := by
  induction indexBlocks generalizing chunks with
  | nil =>
      cases chunks with
      | nil => rfl
      | cons chunk chunks => cases same
  | cons block rest ih =>
      cases chunks with
      | nil => cases same
      | cons chunk chunks =>
          rw [chainNodes, List.map_cons, ih (Nat.succ.inj same)]

namespace StoredFile.Describes

variable {h : Header} {file : StoredFile} (described : file.Describes h)

include described

/-- There is a data block for every piece. -/
theorem length_dataPieces :
    file.dataBlocks.length = (pieces h.plainChunkLen.toNat file.data).length := by
  rw [length_pieces]
  exact described.dataCount

/-- There is an index block for every group. -/
theorem length_chunks : file.indexBlocks.length = (file.chunks h).length := by
  unfold StoredFile.chunks
  rw [length_pieces, List.length_drop, described.dataCount, described.indexCount]
  rfl

/-- The data blocks hold the pieces. -/
theorem map_block_dataUses : (file.dataUses h).map (fun use => use.block) = file.dataBlocks := by
  unfold StoredFile.dataUses
  rw [List.map_map]
  exact List.map_fst_zip (Nat.le_of_eq described.length_dataPieces)

/-- The index blocks hold the groups. -/
theorem map_block_indexUses :
    (file.indexUses h).map (fun use => use.block) = file.indexBlocks := by
  unfold StoredFile.indexUses
  rw [List.map_map]
  exact map_fst_chainNodes described.length_chunks

/-- The uses of a file are over its blocks, in order. -/
theorem map_block_uses : (file.uses h).map (fun use => use.block) = file.blocks := by
  unfold StoredFile.uses StoredFile.blocks
  rw [List.map_append, described.map_block_dataUses, described.map_block_indexUses]

/-- Every block of the file is in use. -/
theorem exists_use {block : UInt64} (member : block ∈ file.blocks) :
    ∃ use ∈ file.uses h, use.block = block := by
  rw [← described.map_block_uses] at member
  exact List.mem_map.mp member

/-- What is in use is a block of the file. -/
theorem block_mem {use : Vault.BlockInUse} (member : use ∈ file.uses h) :
    use.block ∈ file.blocks := by
  rw [← described.map_block_uses]
  exact List.mem_map_of_mem member

/-- The number of blocks of a file. -/
theorem length_blocks : file.blocks.length = h.blocksFor file.data.length := by
  unfold StoredFile.blocks
  rw [List.length_append, described.dataCount, described.indexCount]
  rfl

/-- Only an empty file has no blocks. -/
theorem blocks_eq_nil_iff (large : 40 ≤ h.blockSize.toNat) : file.blocks = [] ↔ file.data = [] := by
  constructor
  · intro noBlocks
    have noPieces := described.length_dataPieces
    rw [(List.append_eq_nil_iff.mp noBlocks).1] at noPieces
    rw [← flatten_pieces (Header.chunk_pos large) file.data,
      List.eq_nil_of_length_eq_zero noPieces.symm, List.flatten_nil]
  · intro empty
    rw [← List.length_eq_zero_iff, described.length_blocks, empty]
    exact h.blocksFor_zero

end StoredFile.Describes

omit [Primitives] in
/-- Every use of a file is under its identifier. -/
theorem StoredFile.fileId_of_mem_uses {h : Header} {file : StoredFile} {use : Vault.BlockInUse}
    (member : use ∈ file.uses h) : use.fileId = file.entry.id := by
  rcases List.mem_append.mp member with isData | isIndex
  · obtain ⟨cell, _, rfl⟩ := List.mem_map.mp isData
    rfl
  · obtain ⟨node, _, rfl⟩ := List.mem_map.mp isIndex
    rfl

omit [Primitives] in
/-- Every node of the chain of a file is one of its uses. -/
theorem StoredFile.use_of_mem_chainNodes {h : Header} {file : StoredFile}
    {node : UInt64 × UInt64 × List UInt64}
    (member : node ∈ chainNodes file.indexBlocks (file.chunks h)) :
    ⟨node.1, file.entry.id, Vault.indexPayload node.2.1 node.2.2⟩ ∈ file.uses h :=
  List.mem_append_right _ (List.mem_map_of_mem member)

omit [Primitives] in
/-- Every use of a file fits a block. -/
theorem StoredFile.fits_of_mem_uses {h : Header} (large : 40 ≤ h.blockSize.toNat)
    {file : StoredFile} {use : Vault.BlockInUse} (member : use ∈ file.uses h) :
    use.plaintext.length + 20 ≤ h.blockSize.toNat := by
  rcases List.mem_append.mp member with isData | isIndex
  · obtain ⟨cell, inZip, rfl⟩ := List.mem_map.mp isData
    have short := length_le_of_mem_pieces (List.of_mem_zip inZip).2
    rw [Header.toNat_plainChunkLen (le_trans (by decide) large)] at short
    change cell.2.length + 20 ≤ h.blockSize.toNat
    omega
  · obtain ⟨node, inChain, rfl⟩ := List.mem_map.mp isIndex
    have short := length_le_of_mem_pieces (snd_mem_of_mem_chainNodes inChain)
    rw [Header.toNat_indexBlockCapacity large] at short
    rw [length_indexPayload]
    omega

/-! ## Walking and reading a stored file -/

/-- With enough fuel, the walk over a chain meets its nodes in order. -/
theorem Vault.overflowNodes_eq {v : Vault} {fileId : BitVec 128} {indexBlocks : List UInt64}
    {chunks : List (List UInt64)} (same : indexBlocks.length = chunks.length)
    (nonzero : 0 ∉ indexBlocks)
    (readable : ∀ node ∈ chainNodes indexBlocks chunks,
      v.readIndexBlock node.1 fileId = .ok (node.2.1, node.2.2))
    {fuel : Nat} (enough : indexBlocks.length ≤ fuel) :
    v.overflowNodes fileId fuel ((indexBlocks[0]?).getD 0) =
      .ok ((chainNodes indexBlocks chunks).map fun node => (node.1, node.2.2)) := by
  induction indexBlocks generalizing chunks fuel with
  | nil => cases fuel <;> rfl
  | cons block rest ih =>
      cases chunks with
      | nil => cases same
      | cons chunk chunks =>
          obtain ⟨fuel, rfl⟩ : ∃ less, fuel = less + 1 :=
            ⟨fuel - 1, by rw [List.length_cons] at enough; omega⟩
          have live : block ≠ 0 := fun zero => nonzero (by rw [zero]; exact List.mem_cons_self)
          have head := readable (block, (rest[0]?).getD 0, chunk) List.mem_cons_self
          have tail : v.overflowNodes fileId fuel ((rest[0]?).getD 0) =
              .ok ((chainNodes rest chunks).map fun node => (node.1, node.2.2)) :=
            ih (Nat.succ.inj same) (fun member => nonzero (List.mem_cons_of_mem _ member))
              (fun node member => readable node (List.mem_cons_of_mem _ member))
              (Nat.le_of_succ_le_succ enough)
          rw [List.getElem?_cons_zero, Option.getD_some, Vault.overflowNodes, if_neg live,
            except_bind_of_ok head]
          change (Vault.overflowNodes v fileId fuel ((rest[0]?).getD 0) >>= _) = _
          rw [except_bind_of_ok tail]
          rfl

/-- A handle opens every block of a stored file to what it holds. -/
def StoredFile.ReadsIn (file : StoredFile) (v : Vault) : Prop :=
  ∀ use ∈ file.uses v.header, v.readPhysicalBlock use.block use.fileId = .ok use.plaintext

namespace StoredFile.Describes

variable {v : Vault} {file : StoredFile} (described : file.Describes v.header)

include described

/-- There are fewer index blocks than the walk may take steps. -/
theorem length_indexBlocks_le : file.indexBlocks.length ≤ Vault.walkFuel := by
  have nodup := described.nodup.sublist (List.sublist_append_right _ _)
  have bounded : (file.indexBlocks.map UInt64.toNat).length ≤ (List.range (2 ^ 64)).length := by
    apply List.Subperm.length_le
    apply List.subperm_of_subset (nodup.map BlockAllocator.toNat_injective)
    intro number member
    obtain ⟨block, _, rfl⟩ := List.mem_map.mp member
    exact List.mem_range.mpr block.toNat_lt
  rwa [List.length_map, List.length_range] at bounded

/-- The entry names the first data blocks. -/
theorem usedDirectBlocks_eq : Vault.usedDirectBlocks file.entry
    (v.header.dataBlocksFor file.data.length) = file.dataBlocks.take directBlocksLen := by
  unfold Vault.usedDirectBlocks
  rw [described.direct, ← described.dataCount]
  apply List.ext_getElem?
  intro index
  by_cases inside : index < min file.dataBlocks.length directBlocksLen
  · have inFile : index < file.dataBlocks.length := by omega
    have inDirect : index < directBlocksLen := by omega
    rw [List.getElem?_take_of_lt inside, List.getElem?_take_of_lt inDirect]
    unfold Vault.directPointers
    rw [List.Vector.toList_ofFn, List.getElem?_ofFn]
    simp only [inDirect, ↓reduceDIte, List.getElem?_eq_getElem inFile, Option.getD_some]
  · rw [List.getElem?_eq_none (by rw [List.length_take]; omega),
      List.getElem?_eq_none (by rw [List.length_take]; omega)]

/-- Reading a file with content opens at least its first block. -/
theorem exists_read_of_readEntry (large : 40 ≤ v.header.blockSize.toNat)
    (content : file.data ≠ []) {data : Bytes} (read : v.readEntry file.entry = .ok data) :
    ∃ block ∈ file.blocks, ∃ plaintext,
      v.readPhysicalBlock block file.entry.id = .ok plaintext := by
  have sized : file.entry.size ≠ 0 := by
    intro zero
    have size := described.size
    rw [zero] at size
    exact content (List.length_eq_zero_iff.mp size.symm)
  unfold Vault.readEntry at read
  rw [if_neg sized] at read
  obtain ⟨blocks, collected, joined⟩ := except_bind_eq_ok_iff.mp read
  obtain ⟨chunks, opened, _⟩ := except_bind_eq_ok_iff.mp joined
  unfold Vault.collectDataBlocks at collected
  rw [described.size, except_bind_of_ok (Header.dataBlockCount_eq large _)] at collected
  obtain ⟨nodes, _, counted⟩ := except_bind_eq_ok_iff.mp collected
  rw [described.usedDirectBlocks_eq] at counted
  cases blocksIs : file.dataBlocks with
  | nil =>
      have noPieces := described.length_dataPieces
      rw [blocksIs] at noPieces
      have joins := flatten_pieces (Header.chunk_pos large) file.data
      rw [List.eq_nil_of_length_eq_zero noPieces.symm] at joins
      exact absurd joins.symm content
  | cons block rest =>
      rw [blocksIs] at counted
      dsimp only at counted
      split at counted
      · cases counted
      · cases counted
        obtain ⟨plaintext, found, _⟩ := except_bind_eq_ok_iff.mp opened
        refine ⟨block, ?_, plaintext, found⟩
        unfold StoredFile.blocks
        rw [blocksIs]
        exact List.mem_cons_self

section Walks

variable (large : 40 ≤ v.header.blockSize.toNat) (reads : file.ReadsIn v)

include large reads

omit described in
/-- An index block is read back. -/
theorem readIndexBlock_eq {node : UInt64 × UInt64 × List UInt64}
    (member : node ∈ chainNodes file.indexBlocks (file.chunks v.header)) :
    v.readIndexBlock node.1 file.entry.id = .ok (node.2.1, node.2.2) := by
  have inUses := StoredFile.use_of_mem_chainNodes member
  have fits := StoredFile.fits_of_mem_uses large inUses
  have bounded := v.header.blockSize.toNat_lt
  simp only [length_indexPayload] at fits
  unfold Vault.readIndexBlock
  rw [except_bind_of_ok (reads _ inUses)]
  exact parseIndexPayload_indexPayload _ (by omega)

/-- The walk along the index blocks finds the nodes. -/
theorem overflowNodes_entry :
    v.overflowNodes file.entry.id Vault.walkFuel file.entry.overflowBlock =
      .ok ((chainNodes file.indexBlocks (file.chunks v.header)).map
        fun node => (node.1, node.2.2)) := by
  rw [described.overflow]
  exact Vault.overflowNodes_eq described.length_chunks described.nonzero
    (fun node member => readIndexBlock_eq large reads member) described.length_indexBlocks_le

/-- The walk for reading returns the data blocks in order. -/
theorem collectDataBlocks_eq : v.collectDataBlocks file.entry = .ok file.dataBlocks := by
  have listed : ((chainNodes file.indexBlocks (file.chunks v.header)).map
      fun node => (node.1, node.2.2)).flatMap (fun node => node.2) =
      file.dataBlocks.drop directBlocksLen := by
    rw [List.flatMap_def, List.map_map]
    change ((chainNodes _ _).map fun node => node.2.2).flatten = _
    rw [map_snd_chainNodes described.length_chunks]
    exact flatten_pieces (Header.capacity_pos large) _
  unfold Vault.collectDataBlocks
  rw [described.size, except_bind_of_ok (Header.dataBlockCount_eq large _),
    except_bind_of_ok (described.overflowNodes_entry large reads)]
  rw [listed, described.usedDirectBlocks_eq, List.take_append_drop,
    if_neg (by rw [described.dataCount]; exact not_not_intro rfl)]

/-- The walk for freeing returns every block of the file once. -/
theorem collectAllBlocks_eq :
    ∃ all, v.collectAllBlocks file.entry = .ok all ∧ all.Perm file.blocks := by
  have listed : ∀ (indexBlocks : List UInt64) (chunks : List (List UInt64)),
      indexBlocks.length = chunks.length →
      (((chainNodes indexBlocks chunks).map fun node => (node.1, node.2.2)).flatMap
        fun node => node.1 :: node.2).Perm (chunks.flatten ++ indexBlocks) := by
    intro indexBlocks
    induction indexBlocks with
    | nil =>
        intro chunks same
        cases chunks with
        | nil => exact List.Perm.nil
        | cons chunk chunks => cases same
    | cons block rest ih =>
        intro chunks same
        cases chunks with
        | nil => cases same
        | cons chunk chunks =>
            rw [chainNodes, List.map_cons, List.flatMap_cons, List.flatten_cons, List.cons_append]
            refine (((ih chunks (Nat.succ.inj same)).append_left chunk).cons block).trans ?_
            rw [← List.append_assoc]
            exact List.perm_middle.symm
  refine ⟨Vault.usedDirectBlocks file.entry (v.header.dataBlocksFor file.data.length) ++
    ((chainNodes file.indexBlocks (file.chunks v.header)).map
      fun node => (node.1, node.2.2)).flatMap (fun node => node.1 :: node.2), ?_, ?_⟩
  · unfold Vault.collectAllBlocks
    rw [described.size, except_bind_of_ok (Header.dataBlockCount_eq large _),
      except_bind_of_ok (described.overflowNodes_entry large reads)]
  · rw [described.usedDirectBlocks_eq]
    refine ((listed _ _ described.length_chunks).append_left _).trans ?_
    unfold StoredFile.chunks StoredFile.blocks
    rw [flatten_pieces (Header.capacity_pos large), ← List.append_assoc, List.take_append_drop]

/-- Reading the data blocks of a stored file in order gives its content. -/
theorem readContent_eq : v.readContent file.entry.id file.dataBlocks = .ok file.data := by
  have readable : ∀ cell ∈ file.dataBlocks.zip (pieces v.header.plainChunkLen.toNat file.data),
      v.readPhysicalBlock cell.1 file.entry.id = .ok cell.2 := by
    intro cell member
    have inUses : ⟨cell.1, file.entry.id, cell.2⟩ ∈ file.uses v.header :=
      List.mem_append_left _ (List.mem_map.mpr ⟨cell, member, rfl⟩)
    have read := reads _ inUses
    exact read
  have joined : ∀ (blocks : List UInt64) (chunks : List Bytes),
      blocks.length = chunks.length →
      (∀ cell ∈ blocks.zip chunks, v.readPhysicalBlock cell.1 file.entry.id = .ok cell.2) →
      v.readContent file.entry.id blocks = .ok chunks.flatten := by
    intro blocks
    induction blocks with
    | nil =>
        intro chunks same _
        cases chunks with
        | nil => rfl
        | cons chunk chunks => cases same
    | cons block rest ih =>
        intro chunks same reads
        cases chunks with
        | nil => cases same
        | cons chunk chunks =>
            rw [Vault.readContent, except_bind_of_ok (reads (block, chunk) List.mem_cons_self),
              except_bind_of_ok (ih chunks (Nat.succ.inj same) fun cell member =>
                reads cell (List.mem_cons_of_mem _ member)), List.flatten_cons]
  have whole := joined _ _ described.length_dataPieces readable
  rwa [flatten_pieces (Header.chunk_pos large)] at whole

/-- A stored file reads back its content. -/
theorem readEntry_eq : v.readEntry file.entry = .ok file.data := by
  unfold Vault.readEntry
  by_cases empty : file.entry.size = 0
  · have noData : file.data = [] := by
      rw [← List.length_eq_zero_iff, ← described.size, empty]
      rfl
    rw [if_pos empty, if_neg (by rw [described.hash, noData]; exact not_not_intro rfl), noData]
  · rw [if_neg empty, except_bind_of_ok (described.collectDataBlocks_eq large reads),
      except_bind_of_ok (described.readContent_eq large reads), described.size, List.take_length,
      if_neg (by rw [described.hash]; exact not_not_intro rfl)]

end Walks

end StoredFile.Describes

namespace Stored

variable {v : Vault} {d : Disk} {file : StoredFile} (tracks : Tracks v.header v.file d)
  (stored : Stored v.header d v.key file)

include tracks stored

/-- A block of the file has its region. -/
theorem valid_of_mem {block : UInt64} (member : block ∈ file.blocks) :
    (Region.block block).Valid v.header := by
  obtain ⟨use, inUses, rfl⟩ := stored.exists_use member
  exact tracks.inRange _ _ (stored.sealed use inUses)

/-- The container has every block of a stored file. -/
theorem exists_cell {block : UInt64} (member : block ∈ file.blocks) :
    ∃ content, cell v.file ((Region.block block).extent v.header) = some content := by
  obtain ⟨use, inUses, rfl⟩ := stored.exists_use member
  have sealed := stored.sealed use inUses
  have shown : d.Shows (.block use.block) := by
    intro absent
    rw [show d.blocks use.block = _ from sealed] at absent
    cases absent
  obtain ⟨content, found, _⟩ :=
    tracks.cells (.block use.block) (tracks.inRange _ _ sealed) shown
  exact ⟨content, found⟩

variable [Lawful]

/-- A block in use is read back. -/
theorem readPhysicalBlock_eq {use : Vault.BlockInUse} (member : use ∈ file.uses v.header) :
    v.readPhysicalBlock use.block use.fileId = .ok use.plaintext := by
  have sealed : d.blocks (use.sealedUnder v.key).block = some (use.sealedUnder v.key) :=
    stored.sealed use member
  have read := Vault.readPhysicalBlock_eq tracks sealed rfl
  exact read

/-- A handle with the key of a stored file opens its blocks. -/
theorem readsIn : file.ReadsIn v := fun _ member => stored.readPhysicalBlock_eq tracks member

/-- All blocks of the file are collected. -/
theorem collectAllBlocks_eq :
    ∃ all, v.collectAllBlocks file.entry = .ok all ∧ all.Perm file.blocks :=
  stored.toDescribes.collectAllBlocks_eq tracks.layout.blockSize (stored.readsIn tracks)

end Stored

end ReVault
