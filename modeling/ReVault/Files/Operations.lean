import ReVault.Files.Sound

/-!
# The file operations

What adding, updating and deleting a file does to a sound vault: it stays sound, the
stored files change in one slot, and the chain gains one signed record. An operation
that is refused changes nothing, and it is refused exactly when its condition on the
stored files and the free blocks fails.
-/

namespace ReVault

open Foundation Primitives

/-- A slot that holds a file is occupied. -/
theorem FileEntry.isOccupied_of_flags {entry : FileEntry}
    (flags : entry.flags = entryFlagOccupied) : entry.isOccupied = true := by
  unfold isOccupied
  rw [flags]
  decide

/-- A slot whose file was deleted is not. -/
theorem FileEntry.not_isOccupied_of_flags {entry : FileEntry}
    (flags : entry.flags = entryFlagDeleted) : entry.isOccupied = false := by
  unfold isOccupied
  rw [flags]
  decide

/-- Every block lies within the file offsets. -/
def Header.Fits (h : Header) : Prop :=
  ∀ block, block < h.blockCount → (Region.block block).Valid h

namespace SameShape

variable {h h' : Header} (same : SameShape h h')

include same

/-- How many blocks a content takes depends on the shape. -/
theorem blocksFor_eq (length : Nat) :
    h'.dataBlocksFor length = h.dataBlocksFor length ∧
      h'.indexBlocksFor length = h.indexBlocksFor length := by
  unfold SameShape at same
  rw [same]
  exact ⟨rfl, rfl⟩

/-- So does what the blocks of a file hold. -/
theorem uses_eq (file : StoredFile) : file.uses h' = file.uses h := by
  unfold SameShape at same
  rw [same]
  rfl

/-- The file table keeps its length. -/
theorem maxFiles_eq : h'.maxFiles = h.maxFiles := by
  unfold SameShape at same
  rw [same]

/-- The blocks keep their number. -/
theorem blockCount_eq : h'.blockCount = h.blockCount := by
  unfold SameShape at same
  rw [same]

end SameShape

variable [Primitives]

/-- So does whether an entry describes its file. -/
theorem StoredFile.Describes.of_sameShape {h h' : Header} {file : StoredFile}
    (described : file.Describes h) (same : SameShape h h') : file.Describes h' where
  occupied := described.occupied
  named := described.named
  size := described.size
  hash := described.hash
  dataCount := by
    rw [(same.blocksFor_eq _).1]
    exact described.dataCount
  indexCount := by
    rw [(same.blocksFor_eq _).2]
    exact described.indexCount
  direct := described.direct
  overflow := described.overflow
  nonzero := described.nonzero
  nodup := described.nodup

/-- A stored file stays stored under a header of the same shape. -/
theorem Stored.of_sameShape {h h' : Header} {d : Disk} {key : MasterKey} {file : StoredFile}
    (stored : Stored h d key file) (same : SameShape h h') : Stored h' d key file where
  toDescribes := stored.toDescribes.of_sameShape same
  sealed := by
    rw [same.uses_eq]
    exact stored.sealed

/-- What every accepted mutation does: one record goes into its ring slot, the anchor
moves, and the header on disk is the one in memory. -/
structure Commits (v v' : Vault) (d d' : Disk) (record : ChainRecord) : Prop where
  tracks : Tracks v'.header v'.file d'
  header : v'.header =
    { Vault.anchored v.header record with adminKeySlot := v'.header.adminKeySlot }
  synced : d'.header = v'.header
  records : d'.records =
    Function.update d.records (Layout.ringSlot v.header record.seq) (some record)
  adminIdentity : v'.adminIdentity = v.adminIdentity

/-- A commit keeps the shape of the header. -/
theorem Commits.sameShape {v v' : Vault} {d d' : Disk} {record : ChainRecord}
    (commits : Commits v v' d d' record) : SameShape v.header v'.header := by
  unfold SameShape
  rw [commits.header]
  rfl

/-- The content key and everything that wraps it are untouched. -/
structure KeepsKeys (v v' : Vault) (d d' : Disk) : Prop where
  key : v'.key = v.key
  adminKeySlot : v'.header.adminKeySlot = v.header.adminKeySlot
  recipients : d'.recipients = d.recipients

/-- The record an admin's handle appends. -/
def signedRecord (v : Vault) (admin : Identity) (op : ChainOp) (targetId : BitVec 128)
    (dataHash : ByteArr 32) (timestamp : Int64) : ChainRecord :=
  ChainRecord.newSigned v.header.chainNextSeq v.header.chainLastHash op targetId dataHash
    timestamp admin

namespace Vault

variable {v : Vault} {d : Disk} {files : Files}

omit [Primitives] in
/-- The regions that committing an entry fills: its slot, the ring slot of the next record
and the header. -/
def commitRegions (v : Vault) (idx : Nat) : List Region :=
  [.entry idx, .record (Layout.ringSlot v.header v.header.chainNextSeq), .header]

/-- Writing an entry and appending its record, the end of every file operation. -/
theorem commitSlot_eq (tracks : Tracks v.header v.file d) {admin : Identity}
    (authorized : v.adminIdentity = some admin) {idx : Nat} {entry : FileEntry}
    (inTable : idx < v.header.maxFiles.toNat)
    (fits : (utf8 entry.name).length ≤ maxFilenameLen) (op : ChainOp) (targetId : BitVec 128)
    (dataHash : ByteArr 32) (timestamp : Int64) :
    ∃ v' d', (writeSlot idx entry >>= fun _ =>
        appendSignedChainRecord op targetId dataHash timestamp) v = .ok () v' ∧
      Commits v v' d d' (signedRecord v admin op targetId dataHash timestamp) ∧
      KeepsKeys v v' d d' ∧ d'.entries = Function.update d.entries idx entry ∧
      d'.bitmap = d.bitmap ∧ d'.blocks = d.blocks ∧ v'.allocator = v.allocator ∧
      v'.seals = v.seals ∧ Wrote v.header v v' (v.commitRegions idx) := by
  obtain ⟨file₁, log₁, wrote, tracks₁, filled⟩ := writeSlot_eq tracks inTable fits
  obtain ⟨file₂, log₂, record, recordIs, appended, tracks₂, filled'⟩ := appendSignedChainRecord_eq
    (v := { v with file := file₁, changeLog := log₁ }) tracks₁ authorized op targetId dataHash
    timestamp
  have same : record = signedRecord v admin op targetId dataHash timestamp := recordIs
  subst same
  exact ⟨_, _, (bind_of_ok wrote).trans appended, ⟨tracks₂, rfl, rfl, rfl, rfl⟩,
    ⟨rfl, rfl, rfl⟩, rfl, rfl, rfl, rfl, rfl, filled.trans filled'⟩

/-- The vault once a file's blocks have been freed in the bitmap. -/
def released (v : Vault) (blocks : List UInt64) : Vault :=
  { v with allocator := v.allocator.free blocks }

/-- What freeing the blocks of a file and writing the bitmap does. -/
structure Releases (v v' : Vault) (d : Disk) (blocks : List UInt64) : Prop where
  vault : v' = { v.released blocks with file := v'.file, changeLog := v'.changeLog }
  tracks : Tracks v.header v'.file { d with bitmap := (v.allocator.free blocks).bits }
  wrote : Wrote v.header v v' [.bitmap]

namespace Releases

variable {freed : Vault} {blocks : List UInt64} (releases : v.Releases freed d blocks)

include releases

/-- Releasing blocks keeps the header. -/
theorem header_eq : freed.header = v.header := by rw [releases.vault]; rfl

/-- It keeps the key. -/
theorem key_eq : freed.key = v.key := by rw [releases.vault]; rfl

end Releases

/-- Blocks are released in the bitmap, and the bitmap is written. -/
theorem releaseBlocks_eq (tracks : Tracks v.header v.file d)
    (counted : v.allocator.blockCount = v.header.blockCount) (blocks : List UInt64) :
    ∃ file log, releaseBlocks blocks v = .ok () { v.released blocks with
        file := file
        changeLog := log } ∧
      v.Releases { v.released blocks with file := file, changeLog := log } d blocks := by
  obtain ⟨file, log, wrote, tracked, filled⟩ := writeBitmap_eq (v := v.released blocks) tracks
    ((v.allocator.blockCount_free blocks).trans counted)
  have freed : Wrote v.header v (v.released blocks) [] := Wrote.nothing rfl rfl
  refine ⟨file, log, ?_, rfl, tracked, freed.trans filled⟩
  unfold releaseBlocks
  rw [bind_of_ok (modify_apply _ _)]
  exact wrote

end Vault

namespace Placed

variable {v v' : Vault} {d d' : Disk} {files : Files}

/-- The stored files survive when one slot gives up its file. -/
theorem release (placed : Placed v d files) {idx : Nat} {file : StoredFile}
    (found : files idx = some file) (tracks : Tracks v'.header v'.file d')
    (shape : SameShape v.header v'.header) (key : v'.key = v.key)
    (allocator : v'.allocator.blockCount = v.allocator.blockCount)
    (occupied : v'.allocator.occupied =
      v.allocator.occupied \ (file.blocks.map UInt64.toNat).toFinset)
    (entries : ∀ other, other ≠ idx → d'.entries other = d.entries other)
    (blocks : d'.blocks = d.blocks) : Placed v' d' (Function.update files idx none) where
  tracks := tracks
  counted := by rw [allocator, placed.counted, shape.blockCount_eq]
  shown := by
    intro other held foundOther
    by_cases same : other = idx
    · rw [same, Function.update_self] at foundOther
      cases foundOther
    · rw [Function.update_of_ne same] at foundOther
      rw [entries other same, shape.maxFiles_eq]
      exact placed.shown other held foundOther
  stored := by
    intro other held foundOther
    by_cases same : other = idx
    · rw [same, Function.update_self] at foundOther
      cases foundOther
    · rw [Function.update_of_ne same] at foundOther
      rw [key]
      exact ((placed.stored other held foundOther).of_sameShape shape).of_blocks
        fun block _ => by rw [blocks]
  named := by
    intro first second held held' foundFirst foundSecond sameName
    by_cases isFirst : first = idx
    · rw [isFirst, Function.update_self] at foundFirst
      cases foundFirst
    · by_cases isSecond : second = idx
      · rw [isSecond, Function.update_self] at foundSecond
        cases foundSecond
      · rw [Function.update_of_ne isFirst] at foundFirst
        rw [Function.update_of_ne isSecond] at foundSecond
        exact placed.named first second held held' foundFirst foundSecond sameName
  owned := by
    rw [ownedBy_update, occupied, ← ownedBy_of_some found]
    exact placed.owned.release idx

/-- The stored files survive when a free slot takes a file placed by first fit. -/
theorem place (placed : Placed v d files) {idx : Nat} (vacant : files idx = none)
    (inTable : idx < v.header.maxFiles.toNat) {file : StoredFile} (places : v.Places file)
    (described : file.Describes v.header) (fresh : files.Absent file.entry.name)
    (tracks : Tracks v'.header v'.file d') (shape : SameShape v.header v'.header)
    (key : v'.key = v.key) (allocator : v'.allocator = v.allocatorAfter file.data.length)
    (entries : d'.entries = Function.update d.entries idx file.entry)
    (blocks : d'.blocks = (d.setBlocks v.key (file.uses v.header)).blocks) :
    Placed v' d' (Function.update files idx (some file)) where
  tracks := tracks
  counted := by
    rw [allocator, shape.blockCount_eq, ← placed.counted]
    exact v.allocator.blockCount_allocate _
  shown := by
    intro other held foundOther
    rw [entries, shape.maxFiles_eq]
    by_cases same : other = idx
    · rw [same, Function.update_self] at foundOther ⊢
      cases foundOther
      exact ⟨inTable, rfl⟩
    · rw [Function.update_of_ne same] at foundOther ⊢
      exact placed.shown other held foundOther
  stored := by
    intro other held foundOther
    rw [key]
    by_cases same : other = idx
    · rw [same, Function.update_self] at foundOther
      cases foundOther
      refine Stored.of_sameShape ⟨described, fun use member => ?_⟩ shape
      rw [blocks]
      refine d.blocks_setBlocks_of_mem v.key ?_ member
      rw [described.map_block_uses]
      exact described.nodup
    · rw [Function.update_of_ne same] at foundOther
      refine ((placed.stored other held foundOther).of_sameShape shape).of_blocks
        fun block member => ?_
      rw [blocks]
      refine d.blocks_setBlocks_of_notMem v.key fun use inUses sameBlock => ?_
      have free := (places.free (described.block_mem inUses)).2
      rw [sameBlock] at free
      exact free (placed.occupied_of_mem foundOther member)
  named := by
    intro first second held held' foundFirst foundSecond sameName
    by_cases isFirst : first = idx
    · by_cases isSecond : second = idx
      · rw [isFirst, isSecond]
      · rw [isFirst, Function.update_self] at foundFirst
        rw [Function.update_of_ne isSecond] at foundSecond
        cases foundFirst
        exact absurd sameName.symm (fresh second held' foundSecond)
    · rw [Function.update_of_ne isFirst] at foundFirst
      by_cases isSecond : second = idx
      · rw [isSecond, Function.update_self] at foundSecond
        cases foundSecond
        exact absurd sameName (fresh first held foundFirst)
      · rw [Function.update_of_ne isSecond] at foundSecond
        exact placed.named first second held held' foundFirst foundSecond sameName
  owned := by
    have free : Disjoint (file.blocks.map UInt64.toNat).toFinset v.allocator.occupied := by
      rw [Finset.disjoint_left]
      intro number member
      obtain ⟨block, inFile, rfl⟩ := List.mem_map.mp (List.mem_toFinset.mp member)
      exact (places.free inFile).2
    have occupied : v'.allocator.occupied =
        v.allocator.occupied ∪ (file.blocks.map UInt64.toNat).toFinset := by
      rw [allocator, places.blocks_eq]
      exact v.allocator.occupied_allocate _
    rw [ownedBy_update, occupied]
    exact placed.owned.acquire (ownedBy_of_none vacant) free

end Placed

/-! ## Placing new content -/

namespace Vault

variable {v : Vault} {d : Disk} {files : Files}

/-- The stored file that first fit makes of a content. -/
def placedFile (v : Vault) (id : BitVec 128) (name : String) (createdAt modifiedAt : Int64)
    (data : Bytes) : StoredFile :=
  let allocated := v.allocation data.length
  let dataBlocks := allocated.take (v.header.dataBlocksFor data.length)
  let indexBlocks := allocated.drop (v.header.dataBlocksFor data.length)
  { entry :=
      { id, name, size := UInt64.ofNat data.length
        blocksUsed := UInt32.ofNat (v.header.blocksFor data.length)
        directBlocks := directPointers dataBlocks
        overflowBlock := (indexBlocks[0]?).getD 0, fileHash := sha256 data, createdAt,
        modifiedAt, flags := entryFlagOccupied }
    data, dataBlocks, indexBlocks }

section PlacedFile

variable (id : BitVec 128) (name : String) (createdAt modifiedAt : Int64) {data : Bytes}

/-- The new file is placed on free blocks. -/
theorem places_placedFile (enough : v.header.blocksFor data.length ≤ v.allocator.freeCount) :
    v.Places (v.placedFile id name createdAt modifiedAt data) := ⟨rfl, rfl, enough⟩

omit [Primitives] in
/-- The blocks of a sound layout have a 64-bit size. -/
theorem room_of_layout (layout : Layout v.header)
    (counted : v.allocator.blockCount = v.header.blockCount) :
    v.allocator.blockCount.toNat * v.header.blockSize.toNat < 2 ^ 64 := by
  have total := layout.structured.dataLen
  rw [counted]
  omega

omit [Primitives] in
/-- A content for which enough blocks exist has a 64-bit length. -/
theorem length_lt_of_enough (large : 40 ≤ v.header.blockSize.toNat)
    (room : v.allocator.blockCount.toNat * v.header.blockSize.toNat < 2 ^ 64)
    (enough : v.header.blocksFor data.length ≤ v.allocator.freeCount) :
    data.length < 2 ^ 64 := by
  have covered := le_pieceCount_mul (Header.chunk_pos large) data.length
  have blocks : v.header.dataBlocksFor data.length ≤ v.allocator.blockCount.toNat :=
    (Nat.le_add_right _ _).trans (enough.trans (Nat.sub_le _ _))
  have chunk : v.header.plainChunkLen.toNat ≤ v.header.blockSize.toNat := by
    rw [Header.toNat_plainChunkLen (le_trans (by decide) large)]
    exact Nat.sub_le _ _
  have product := Nat.mul_le_mul blocks chunk
  change data.length ≤ v.header.dataBlocksFor data.length * _ at covered
  omega

/-- Its entry describes it. -/
theorem describes_placedFile (large : 40 ≤ v.header.blockSize.toNat)
    (room : v.allocator.blockCount.toNat * v.header.blockSize.toNat < 2 ^ 64)
    (enough : v.header.blocksFor data.length ≤ v.allocator.freeCount)
    (named : (utf8 name).length ≤ maxFilenameLen) :
    (v.placedFile id name createdAt modifiedAt data).Describes v.header where
  occupied := FileEntry.isOccupied_of_flags rfl
  named := named
  size := by
    change (UInt64.ofNat data.length).toNat = data.length
    rw [UInt64.toNat_ofNat', Nat.mod_eq_of_lt (length_lt_of_enough large room enough)]
  hash := rfl
  dataCount := (places_placedFile id name createdAt modifiedAt enough).length_dataBlocks
  indexCount := (places_placedFile id name createdAt modifiedAt enough).length_indexBlocks
  direct := rfl
  overflow := rfl
  nonzero := (places_placedFile id name createdAt modifiedAt enough).zero_notMem_indexBlocks
  nodup := (places_placedFile id name createdAt modifiedAt enough).nodup

end PlacedFile

/-- What storing a file in a slot does: the slot's file, the blocks it seals, the
record appended. The slot was free, or its file had been given up. -/
structure StoresFile (v v' : Vault) (d d' : Disk) (files : Files) (idx : Nat)
    (file : StoredFile) (record : ChainRecord) : Prop where
  commits : Commits v v' d d' record
  keepsKeys : KeepsKeys v v' d d'
  sound : Sound v' d' (Function.update files idx (some file))
  seals : v'.seals = v.seals ++ (file.uses v.header).map fun use => use.sealedUnder v.key

/-- The regions that storing a file in a slot fills: its blocks, the bitmap, and those of the
commit. -/
def storeRegions (v : Vault) (idx : Nat) (file : StoredFile) : List Region :=
  file.blocks.map Region.block ++ [.bitmap] ++ v.commitRegions idx

/-- Storing content in a slot and committing it, from a placed vault whose slot is free
in memory. -/
theorem storeIn_yields [Lawful] (placed : Placed v d files) {admin : Identity}
    (authorized : v.adminIdentity = some admin) {idx : Nat} (vacant : files idx = none)
    (inTable : idx < v.header.maxFiles.toNat)
    (others : ∀ other, other ≠ idx → other < v.header.maxFiles.toNat → files other = none →
      (d.entries other).isOccupied = false)
    (id : BitVec 128) {name : String} (createdAt modifiedAt : Int64) {data : Bytes}
    (fresh : files.Absent name)
    (named : (utf8 name).length ≤ maxFilenameLen)
    (enough : v.header.blocksFor data.length ≤ v.allocator.freeCount)
    (op : ChainOp) (dataHash : ByteArr 32) (timestamp : Int64) :
    Yields (storeNewContent id data >>= fun stored =>
        writeSlot idx
          { id, name, size := UInt64.ofNat data.length, blocksUsed := stored.2.2,
            directBlocks := stored.1, overflowBlock := stored.2.1, fileHash := sha256 data,
            createdAt, modifiedAt, flags := entryFlagOccupied } >>= fun _ =>
        appendSignedChainRecord op id dataHash timestamp) v
      (fun _ v' => ∃ d', StoresFile v v' d d' files idx
        (v.placedFile id name createdAt modifiedAt data)
        (signedRecord v admin op id dataHash timestamp) ∧
        Wrote v.header v v' (v.storeRegions idx (v.placedFile id name createdAt modifiedAt data)))
      (fun error _ => error = .error .io ∧ ¬ v.header.Fits) := by
  have places := places_placedFile id name createdAt modifiedAt enough
  have layout := placed.tracks.layout
  have described := describes_placedFile id name createdAt modifiedAt layout.blockSize
    (room_of_layout layout placed.counted) enough named
  have nameFits : (utf8 (v.placedFile id name createdAt modifiedAt data).entry.name).length ≤
      maxFilenameLen := named
  have stores := storeNewContent_yields placed.tracks placed.counted placed.takenValid places
    described
  refine (stores.mono (fun _ _ => fun post => post) ?_).bind ?_
  · rintro error _ ⟨isIo, block, member, invalid⟩
    refine ⟨isIo, fun fits => invalid (fits block ?_)⟩
    rw [← placed.counted]
    exact (places.free member).1
  · rintro stored _ ⟨rfl, _, filled, written, log, rfl, tracked⟩
    obtain ⟨v', d', ran, commits, keeps, entries, bitmap, blocks, allocator, seals, filled'⟩ :=
      commitSlot_eq (v := { v with
        file := written
        changeLog := log
        allocator := v.allocatorAfter data.length
        seals := v.seals ++ ((v.placedFile id name createdAt modifiedAt data).uses v.header).map
          fun use => use.sealedUnder v.key }) tracked authorized inTable nameFits op id dataHash
        timestamp
    have sameBlocks : d'.blocks = (d.setBlocks v.key
        ((v.placedFile id name createdAt modifiedAt data).uses v.header)).blocks := blocks
    have sameEntries : d'.entries = Function.update d.entries idx
        (v.placedFile id name createdAt modifiedAt data).entry := by
      rw [entries, Disk.entries_setBlocks]
    have shape := commits.sameShape
    have commits' : Commits v v' d d' (signedRecord v admin op id dataHash timestamp) :=
      { commits with
        records := by
          rw [commits.records, Disk.records_setBlocks]
          rfl }
    refine Yields.of_ok ran ⟨d', ⟨commits', ⟨keeps.key, keeps.adminKeySlot, ?_⟩, ?_, seals⟩,
      filled.trans filled'⟩
    · rw [keeps.recipients, Disk.recipients_setBlocks]
    · exact {
        toPlaced := placed.place vacant inTable places described fresh commits.tracks shape
          keeps.key allocator sameEntries sameBlocks
        header := commits.synced
        bitmap := by
          rw [bitmap, allocator]
          rfl
        vacant := by
          intro other inTable' vacant'
          have different : other ≠ idx := by
            rintro rfl
            rw [Function.update_self] at vacant'
            cases vacant'
          rw [Function.update_of_ne different] at vacant'
          rw [shape.maxFiles_eq] at inTable'
          rw [sameEntries, Function.update_of_ne different]
          exact others other different inTable' vacant' }

/-! ## Adding a file -/

/-- When a file can be added. -/
structure CanAdd (v : Vault) (files : Files) (name : String) (length : Nat) : Prop where
  named : 1 ≤ (utf8 name).length ∧ (utf8 name).length ≤ maxFilenameLen
  absent : files.Absent name
  slot : ∃ idx, idx < v.header.maxFiles.toNat ∧ files idx = none
  space : v.header.blocksFor length ≤ v.allocator.freeCount

omit [Primitives] in
/-- The admin may change the vault. -/
theorem requireAdmin_eq {admin : Identity} (authorized : v.adminIdentity = some admin) :
    v.requireAdmin = .ok () := by
  unfold requireAdmin isAdmin
  rw [authorized]
  rfl

omit [Primitives] in
/-- Nobody else may. -/
theorem requireAdmin_refused (unauthorized : v.adminIdentity = none) :
    v.requireAdmin = .error (.error .notAuthorized) := by
  unfold requireAdmin isAdmin
  rw [unauthorized]
  rfl

/-- The checks of `add_file` pass with a free slot, or name what is wrong. -/
theorem slotForNew_cases (sound : Sound v d files) {admin : Identity}
    (authorized : v.adminIdentity = some admin) (name : String) :
    (∃ idx, v.slotForNew name = .ok idx ∧ idx < v.header.maxFiles.toNat ∧ files idx = none ∧
      (1 ≤ (utf8 name).length ∧ (utf8 name).length ≤ maxFilenameLen) ∧ files.Absent name) ∨
    ∃ reason : VaultError, v.slotForNew name = .error (.error reason) ∧
      reason.environmental = false ∧ ∀ length, ¬ v.CanAdd files name length := by
  unfold slotForNew
  rw [except_bind_of_ok (requireAdmin_eq authorized)]
  by_cases badName : (utf8 name).length = 0 ∨ (utf8 name).length > maxFilenameLen
  · rw [if_pos badName]
    refine Or.inr ⟨.fieldTooLong, rfl, rfl, fun length can => ?_⟩
    have := can.named
    omega
  · rw [if_neg badName]
    rcases files.absent_or_present name with absent | ⟨idx, file, present⟩
    · rw [except_bind_of_ok (sound.findSlotByName_of_absent absent)]
      rcases sound.findFreeSlot_eq with ⟨idx, entry, found, inTable, vacant⟩ | ⟨found, full⟩
      · refine Or.inl ⟨idx, ?_, inTable, vacant, by omega, absent⟩
        exact except_bind_of_ok found
      · refine Or.inr ⟨.fileTableFull, except_bind_of_ok found, rfl, fun length can => ?_⟩
        obtain ⟨idx, inTable, vacant⟩ := can.slot
        exact full idx inTable vacant
    · rw [except_bind_of_ok (sound.findSlotByName_of_present present)]
      exact Or.inr ⟨.fileAlreadyExists name, rfl, rfl, fun length can =>
        can.absent idx file present.1 present.2⟩

/-- A refusal that changes nothing. -/
def Refused (v : Vault) (error : Fault) (v' : Vault) : Prop :=
  error.refusal = true ∧ v' = v

section Slot

variable (sound : Sound v d files) {name : String} {idx : Nat}
  (found : v.slotForNew name = .ok idx) {data : Bytes}

include sound found

/-- Adding a file stores it in the slot that the checks find. -/
theorem addFile_of_slot [Lawful] {admin : Identity} (authorized : v.adminIdentity = some admin)
    (inTable : idx < v.header.maxFiles.toNat) (vacant : files idx = none)
    (named : (utf8 name).length ≤ maxFilenameLen) (absent : files.Absent name)
    (enough : v.header.blocksFor data.length ≤ v.allocator.freeCount) (draws : Draws) :
    Yields (addFile name data draws) v
      (fun _ v' => ∃ d', StoresFile v v' d d' files idx
          (v.placedFile draws.fileId name draws.slotTime draws.slotTime data)
          (signedRecord v admin .fileAdded draws.fileId (sha256 data) draws.recordTime) ∧
        Wrote v.header v v' (v.storeRegions idx
          (v.placedFile draws.fileId name draws.slotTime draws.slotTime data)))
      (fun error _ => error = .error .io ∧ ¬ v.header.Fits) := by
  have observed : observe (fun v : Vault => v.slotForNew name) v = .ok idx v :=
    observe_of_ok found
  have stored := storeIn_yields sound.toPlaced authorized vacant inTable
    (fun other _ inTable' vacant' => sound.vacant other inTable' vacant') draws.fileId
    draws.slotTime draws.slotTime absent named enough .fileAdded (sha256 data)
    draws.recordTime
  unfold addFile Yields
  rw [bind_of_ok observed]
  exact stored

/-- Without enough free blocks the file is not added. -/
theorem addFile_of_short (short : v.allocator.freeCount < v.header.blocksFor data.length)
    (draws : Draws) : addFile name data draws v = .error (insufficientSpace v.header
      (v.header.blocksFor data.length) v.allocator.freeCount) v := by
  have observed : observe (fun v : Vault => v.slotForNew name) v = .ok idx v :=
    observe_of_ok found
  unfold addFile
  rw [bind_of_ok observed,
    bind_of_error (storeNewContent_refused sound.tracks.layout draws.fileId short)]

end Slot

/-- **Adding a file** stores it in a free slot exactly when it can be added; otherwise
nothing changes. -/
theorem addFile_yields [Lawful] (sound : Sound v d files) {admin : Identity}
    (authorized : v.adminIdentity = some admin) (name : String) (data : Bytes) (draws : Draws) :
    Yields (addFile name data draws) v
      (fun _ v' => v.CanAdd files name data.length ∧ ∃ idx d', files idx = none ∧
        StoresFile v v' d d' files idx
          (v.placedFile draws.fileId name draws.slotTime draws.slotTime data)
          (signedRecord v admin .fileAdded draws.fileId (sha256 data) draws.recordTime) ∧
        Wrote v.header v v' (v.storeRegions idx
          (v.placedFile draws.fileId name draws.slotTime draws.slotTime data)))
      (fun error v' => (Refused v error v' ∧ ¬ v.CanAdd files name data.length) ∨
        (error = .error .io ∧ ¬ v.header.Fits)) := by
  rcases slotForNew_cases sound authorized name with
    ⟨idx, found, inTable, vacant, named, absent⟩ | ⟨reason, failed, checkedBy, cannot⟩
  · by_cases enough : v.header.blocksFor data.length ≤ v.allocator.freeCount
    · refine (addFile_of_slot sound found authorized inTable vacant named.2 absent enough
        draws).mono ?_ fun _ _ failed => Or.inr failed
      rintro _ v' ⟨d', stores, wrote⟩
      exact ⟨⟨named, absent, ⟨idx, inTable, vacant⟩, enough⟩, idx, d', vacant, stores, wrote⟩
    · have short := addFile_of_short sound found (Nat.lt_of_not_le enough) draws
      exact Yields.of_error short (Or.inl ⟨⟨rfl, rfl⟩, fun can => enough can.space⟩)
  · have observed : observe (fun v : Vault => v.slotForNew name) v =
        .error (.error reason) v := observe_of_error failed
    unfold addFile
    refine Yields.of_error (bind_of_error observed) (Or.inl ⟨⟨?_, rfl⟩, cannot _⟩)
    change (!reason.environmental) = true
    rw [checkedBy]
    rfl

/-! ## Updating and deleting a file -/

/-- When a file can be updated. -/
def CanUpdate (v : Vault) (files : Files) (name : String) (length : Nat) : Prop :=
  ∃ idx file, files.Present name idx file ∧
    v.header.blocksFor length ≤ v.allocator.freeCount + file.blocks.length

/-- An absent file is not located. -/
theorem locate_of_absent (sound : Sound v d files) {admin : Identity}
    (authorized : v.adminIdentity = some admin) {name : String} (absent : files.Absent name) :
    v.locate name = .error (.error (.fileNotFound name)) := by
  unfold locate
  rw [except_bind_of_ok (requireAdmin_eq authorized),
    except_bind_of_ok (sound.findSlotByName_of_absent absent)]

/-- A present file is located with all its blocks. -/
theorem locate_of_present [Lawful] (sound : Sound v d files) {admin : Identity}
    (authorized : v.adminIdentity = some admin) {name : String} {idx : Nat} {file : StoredFile}
    (present : files.Present name idx file) :
    ∃ all, v.locate name = .ok (idx, file.entry, all) ∧ all.Perm file.blocks := by
  obtain ⟨all, collected, perm⟩ :=
    (sound.stored idx file present.1).collectAllBlocks_eq sound.tracks
  refine ⟨all, ?_, perm⟩
  unfold locate
  rw [except_bind_of_ok (requireAdmin_eq authorized),
    except_bind_of_ok (sound.findSlotByName_of_present present)]
  exact except_bind_of_ok collected

/-- The plan of an update of a present file: its slot and blocks, when they suffice together
with the free ones. -/
theorem planUpdate_of_present [Lawful] (sound : Sound v d files) {admin : Identity}
    (authorized : v.adminIdentity = some admin) {name : String} {idx : Nat} {old : StoredFile}
    (present : files.Present name idx old) :
    ∃ all, all.Perm old.blocks ∧ ∀ length, v.planUpdate name length =
      if v.allocator.freeCount + all.length < v.header.blocksFor length then
        .error (insufficientSpace v.header (v.header.blocksFor length)
          (v.allocator.freeCount + all.length))
      else .ok (idx, old.entry, all) := by
  obtain ⟨all, located, perm⟩ := locate_of_present sound authorized present
  refine ⟨all, perm, fun length => ?_⟩
  unfold planUpdate
  rw [except_bind_of_ok located]
  change (v.header.blocksNeeded length >>= _) = _
  rw [except_bind_of_ok (Header.blocksNeeded_eq sound.tracks.layout.blockSize _)]
  rfl

section Release

variable (sound : Sound v d files) {idx : Nat} {old : StoredFile} (found : files idx = some old)
  {all : List UInt64} (perm : all.Perm old.blocks)

omit [Primitives] in
include perm in
/-- Releasing the blocks of a file leaves the rest occupied. -/
theorem occupied_free_perm : (v.allocator.free all).occupied =
    v.allocator.occupied \ (old.blocks.map UInt64.toNat).toFinset := by
  rw [v.allocator.occupied_free, List.toFinset_eq_of_perm _ _ (perm.map UInt64.toNat)]

include sound found perm

/-- Freeing the blocks of a file makes exactly them available. -/
theorem freeCount_released :
    (v.released all).allocator.freeCount = v.allocator.freeCount + old.blocks.length := by
  have inside : (old.blocks.map UInt64.toNat).toFinset ⊆ v.allocator.occupied := by
    rw [← ownedBy_of_some found]
    exact sound.owned.subset idx
  have counted : (old.blocks.map UInt64.toNat).toFinset.card = old.blocks.length := by
    rw [List.toFinset_card_of_nodup ((sound.stored idx old found).nodup.map
      BlockAllocator.toNat_injective), List.length_map]
  have bounded := v.allocator.card_occupied_le
  have part := Finset.card_le_card inside
  change (v.allocator.free all).freeCount = _
  rw [BlockAllocator.freeCount_eq, BlockAllocator.freeCount_eq, occupied_free_perm perm,
    Finset.card_sdiff_of_subset inside, counted, v.allocator.blockCount_free]
  omega

/-- Freeing the blocks of a file and writing the bitmap leaves the other files placed. -/
theorem release_placed : ∃ file log, releaseBlocks all v = .ok () { v.released all with
        file := file
        changeLog := log } ∧
      Placed { v.released all with file := file, changeLog := log }
        { d with bitmap := (v.allocator.free all).bits } (Function.update files idx none) ∧
      v.Releases { v.released all with file := file, changeLog := log } d all := by
  obtain ⟨file, log, ran, releases⟩ := releaseBlocks_eq sound.tracks sound.counted all
  refine ⟨file, log, ran, ?_, releases⟩
  exact sound.toPlaced.release found releases.tracks (SameShape.refl _) rfl
    (v.allocator.blockCount_free all) (occupied_free_perm perm) (fun _ _ => rfl) rfl

end Release

/-- **Updating a file** replaces the content of its slot exactly when the file is present
and the free blocks with its own suffice; otherwise nothing changes. -/
theorem updateFile_yields [Lawful] (sound : Sound v d files) {admin : Identity}
    (authorized : v.adminIdentity = some admin) (name : String) (data : Bytes) (draws : Draws) :
    Yields (updateFile name data draws) v
      (fun _ v' => v.CanUpdate files name data.length ∧ ∃ idx old all d',
        files.Present name idx old ∧ all.Perm old.blocks ∧
        v.planUpdate name data.length = .ok (idx, old.entry, all) ∧
        StoresFile v v' d d' files idx
          ((v.released all).placedFile old.entry.id name old.entry.createdAt draws.slotTime data)
          (signedRecord v admin .fileUpdated old.entry.id (sha256 data) draws.recordTime) ∧
        ∃ freed, v.Releases freed d all ∧ Wrote v.header freed v' (v.storeRegions idx
          ((v.released all).placedFile old.entry.id name old.entry.createdAt draws.slotTime
            data)))
      (fun error v' => (Refused v error v' ∧ ¬ v.CanUpdate files name data.length) ∨
        (error = .error .io ∧ ¬ v.header.Fits)) := by
  rcases files.absent_or_present name with absent | ⟨idx, old, present⟩
  · have failed : observe (fun v : Vault => v.planUpdate name data.length) v =
        .error (.error (.fileNotFound name)) v := by
      apply observe_of_error
      unfold planUpdate
      rw [except_bind_of_error (locate_of_absent sound authorized absent)]
    unfold updateFile
    refine Yields.of_error (bind_of_error failed) (Or.inl ⟨⟨rfl, rfl⟩, ?_⟩)
    rintro ⟨idx, file, present, _⟩
    exact absent idx file present.1 present.2
  · obtain ⟨all, perm, planned⟩ := planUpdate_of_present sound authorized present
    have unique : ∀ idx' file', files.Present name idx' file' → file' = old := by
      intro idx' file' present'
      have same := sound.named idx' idx file' old present'.1 present.1
        (present'.2.trans present.2.symm)
      have found := present'.1
      rw [same, present.1] at found
      exact (Option.some.inj found).symm
    by_cases short : v.allocator.freeCount + all.length < v.header.blocksFor data.length
    · have failed : observe (fun v : Vault => v.planUpdate name data.length) v =
          .error (insufficientSpace v.header (v.header.blocksFor data.length)
            (v.allocator.freeCount + all.length)) v := by
        apply observe_of_error
        rw [planned, if_pos short]
      unfold updateFile
      refine Yields.of_error (bind_of_error failed) (Or.inl ⟨⟨rfl, rfl⟩, ?_⟩)
      rintro ⟨idx', file', present', enough⟩
      rw [unique idx' file' present', ← perm.length_eq] at enough
      omega
    · have observed : observe (fun v : Vault => v.planUpdate name data.length) v =
          .ok (idx, old.entry, all) v := by
        apply observe_of_ok
        rw [planned, if_neg short]
      obtain ⟨file, log, freed, placed, releases⟩ := release_placed sound present.1 perm
      have fresh : Files.Absent (Function.update files idx none) old.entry.name := by
        intro other held found sameName
        by_cases same : other = idx
        · rw [same, Function.update_self] at found
          cases found
        · rw [Function.update_of_ne same] at found
          exact same (sound.named other idx held old found present.1 sameName)
      have enough : v.header.blocksFor data.length ≤
          (v.released all).allocator.freeCount := by
        rw [freeCount_released sound present.1 perm, ← perm.length_eq]
        omega
      have stored := storeIn_yields placed authorized (Function.update_self ..)
        (sound.shown idx old present.1).1
        (fun other different inTable vacant => by
          rw [Function.update_of_ne different] at vacant
          exact sound.vacant other inTable vacant)
        old.entry.id old.entry.createdAt draws.slotTime fresh
        (sound.stored idx old present.1).named enough .fileUpdated (sha256 data)
        draws.recordTime
      unfold updateFile Yields
      rw [bind_of_ok observed]
      change Yields (releaseBlocks all >>= _) v _ _
      unfold Yields
      rw [bind_of_ok freed]
      refine stored.mono ?_ fun _ _ failed => Or.inr failed
      rintro _ v' ⟨d', stores, wrote⟩
      refine ⟨⟨idx, old, present, by rw [← perm.length_eq]; omega⟩, idx, old, all, d', present,
        perm, (planned _).trans (if_neg short), ?_, _, releases, by rw [← present.2]; exact wrote⟩
      rw [← present.2]
      have sound' := stores.sound
      rw [Function.update_idem] at sound'
      exact {
        commits := { stores.commits with }
        keepsKeys := { stores.keepsKeys with }
        sound := sound'
        seals := stores.seals }

/-- What deleting a file does. -/
structure Deletes (v v' : Vault) (d d' : Disk) (files : Files) (idx : Nat)
    (record : ChainRecord) : Prop where
  commits : Commits v v' d d' record
  keepsKeys : KeepsKeys v v' d d'
  sound : Sound v' d' (Function.update files idx none)
  seals : v'.seals = v.seals

/-- **Deleting a file** empties its slot exactly when the file is present; otherwise
nothing changes. -/
theorem deleteFile_yields [Lawful] (sound : Sound v d files) {admin : Identity}
    (authorized : v.adminIdentity = some admin) (name : String) (draws : Draws) :
    Yields (deleteFile name draws) v
      (fun _ v' => ∃ idx old d', files.Present name idx old ∧
        Deletes v v' d d' files idx
          (signedRecord v admin .fileDeleted old.entry.id (sha256 (utf8 name))
            draws.recordTime) ∧
        ∃ all freed, all.Perm old.blocks ∧ v.Releases freed d all ∧
          Wrote v.header freed v' (v.commitRegions idx))
      (fun error v' => Refused v error v' ∧ files.Absent name) := by
  rcases files.absent_or_present name with absent | ⟨idx, old, present⟩
  · have failed : observe (fun v : Vault => v.locate name) v =
        .error (.error (.fileNotFound name)) v :=
      observe_of_error (locate_of_absent sound authorized absent)
    unfold deleteFile
    exact Yields.of_error (bind_of_error failed) ⟨⟨rfl, rfl⟩, absent⟩
  · obtain ⟨all, located, perm⟩ := locate_of_present sound authorized present
    have observed : observe (fun v : Vault => v.locate name) v = .ok (idx, old.entry, all) v :=
      observe_of_ok located
    obtain ⟨file, log, freed, placed, releases⟩ := release_placed sound present.1 perm
    have inTable := (sound.shown idx old present.1).1
    have nameFits : (utf8 { old.entry with flags := entryFlagDeleted }.name).length ≤
        maxFilenameLen := (sound.stored idx old present.1).named
    obtain ⟨v', d', ran, commits, keeps, entries, bitmap, blocks, allocator, seals, wrote⟩ :=
      commitSlot_eq placed.tracks authorized inTable nameFits .fileDeleted old.entry.id
        (sha256 (utf8 old.entry.name)) draws.recordTime
    have shape : SameShape v.header v'.header := commits.sameShape
    unfold deleteFile Yields
    rw [bind_of_ok observed]
    change Yields (releaseBlocks all >>= _) v _ _
    unfold Yields
    rw [bind_of_ok freed]
    refine Yields.of_ok ran ⟨idx, old, d', present, ?_, all, _, perm, releases, wrote⟩
    rw [← present.2]
    refine ⟨{ commits with }, { keeps with }, ?_, seals⟩
    exact {
      toPlaced := sound.toPlaced.release present.1 commits.tracks shape keeps.key
        (by rw [allocator]; exact v.allocator.blockCount_free all)
        (by rw [allocator]; exact occupied_free_perm perm)
        (fun other different => by rw [entries, Function.update_of_ne different]) blocks
      header := commits.synced
      bitmap := by
        rw [bitmap, allocator]
        rfl
      vacant := by
        intro other inTable' vacant
        rw [entries]
        by_cases same : other = idx
        · rw [same, Function.update_self]
          exact FileEntry.not_isOccupied_of_flags rfl
        · rw [Function.update_of_ne same] at vacant ⊢
          rw [shape.maxFiles_eq] at inTable'
          exact sound.vacant other inTable' vacant }

end Vault

end ReVault
