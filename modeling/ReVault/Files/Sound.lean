import ReVault.Files.Store
import ReVault.Foundation.Ownership

/-!
# Soundness of an open vault

A vault is sound when its file, its header and its bitmap agree, and the occupied
entries are stored files that own the occupied blocks between them. The scans of the
file table then find a file by its name, or a free slot.
-/

namespace ReVault

open Foundation Primitives

/-- The stored file of each slot of the file table. -/
abbrev Files := Nat → Option StoredFile

/-- The block numbers that a slot owns. -/
def ownedBy (files : Files) (idx : Nat) : Finset Nat :=
  match files idx with
  | some file => (file.blocks.map UInt64.toNat).toFinset
  | none => ∅

/-- A block is told by its number. -/
theorem toNat_mem_map {blocks : List UInt64} (block : UInt64) :
    block.toNat ∈ (blocks.map UInt64.toNat).toFinset ↔ block ∈ blocks := by
  rw [List.mem_toFinset]
  exact List.mem_map_of_injective BlockAllocator.toNat_injective

/-- The blocks of a file. -/
theorem ownedBy_of_some {files : Files} {idx : Nat} {file : StoredFile}
    (found : files idx = some file) :
    ownedBy files idx = (file.blocks.map UInt64.toNat).toFinset := by
  unfold ownedBy
  rw [found]

/-- A vacant slot owns nothing. -/
theorem ownedBy_of_none {files : Files} {idx : Nat} (vacant : files idx = none) :
    ownedBy files idx = ∅ := by
  unfold ownedBy
  rw [vacant]

/-- What a slot owns changes with it. -/
theorem ownedBy_update (files : Files) (idx : Nat) (slot : Option StoredFile) :
    ownedBy (Function.update files idx slot) =
      Function.update (ownedBy files) idx (match slot with
        | some file => (file.blocks.map UInt64.toNat).toFinset
        | none => ∅) := by
  funext other
  unfold ownedBy
  by_cases same : other = idx
  · rw [same, Function.update_self, Function.update_self]
  · rw [Function.update_of_ne same, Function.update_of_ne same]

/-- A file that is present under a name. -/
def Files.Present (files : Files) (name : String) (idx : Nat) (file : StoredFile) : Prop :=
  files idx = some file ∧ file.entry.name = name

/-- No file is present under a name. -/
def Files.Absent (files : Files) (name : String) : Prop :=
  ∀ idx file, files idx = some file → file.entry.name ≠ name

/-- The line of a stored file in the listing. -/
def StoredFile.info (file : StoredFile) : FileInfo where
  name := file.entry.name
  size := file.entry.size
  createdAt := file.entry.createdAt
  modifiedAt := file.entry.modifiedAt

/-- A name is taken or not. -/
theorem Files.absent_or_present (files : Files) (name : String) :
    files.Absent name ∨ ∃ idx file, files.Present name idx file := by
  by_cases present : ∃ idx file, files.Present name idx file
  · exact Or.inr present
  · refine Or.inl fun idx file found same => present ⟨idx, file, found, same⟩

variable [Primitives]

/-- The stored files lie on the disk, own the occupied blocks and have distinct names. -/
structure Placed (v : Vault) (d : Disk) (files : Files) : Prop where
  tracks : Tracks v.header v.file d
  counted : v.allocator.blockCount = v.header.blockCount
  shown : ∀ idx file, files idx = some file →
    idx < v.header.maxFiles.toNat ∧ d.entries idx = file.entry
  stored : ∀ idx file, files idx = some file → Stored v.header d v.key file
  named : ∀ idx idx' file file', files idx = some file → files idx' = some file' →
    file.entry.name = file'.entry.name → idx = idx'
  owned : Owns (ownedBy files) v.allocator.occupied

/-- The vault between two operations: the header and the bitmap in memory are those on
disk, and the slots without a stored file are unoccupied. -/
structure Sound (v : Vault) (d : Disk) (files : Files) : Prop extends Placed v d files where
  header : d.header = v.header
  bitmap : d.bitmap = v.allocator.bits
  vacant : ∀ idx, idx < v.header.maxFiles.toNat → files idx = none →
    (d.entries idx).isOccupied = false

/-- A stored file needs nothing of a disk but its own blocks. -/
theorem Stored.of_blocks {h : Header} {d d' : Disk} {key : MasterKey} {file : StoredFile}
    (stored : Stored h d key file)
    (same : ∀ block ∈ file.blocks, d'.blocks block = d.blocks block) :
    Stored h d' key file where
  toDescribes := stored.toDescribes
  sealed := by
    intro use member
    rw [same use.block (stored.block_mem member)]
    exact stored.sealed use member

/-- No block belongs to two files. -/
def Files.Apart (files : Files) : Prop :=
  ∀ idx idx' file file', files idx = some file → files idx' = some file' → idx ≠ idx' →
    ∀ block ∈ file.blocks, block ∉ file'.blocks

namespace Placed

variable {v : Vault} {d : Disk} {files : Files} (placed : Placed v d files)

include placed

/-- The blocks of a file are occupied. -/
theorem occupied_of_mem {idx : Nat} {file : StoredFile} (found : files idx = some file)
    {block : UInt64} (member : block ∈ file.blocks) : block.toNat ∈ v.allocator.occupied := by
  refine (placed.owned.covers _).mpr ⟨idx, ?_⟩
  rw [ownedBy_of_some found, toNat_mem_map]
  exact member

/-- Every occupied block belongs to a file. -/
theorem owner_of_occupied {block : UInt64} (taken : block.toNat ∈ v.allocator.occupied) :
    ∃ idx file, files idx = some file ∧ block ∈ file.blocks := by
  obtain ⟨idx, member⟩ := (placed.owned.covers _).mp taken
  cases found : files idx with
  | none =>
      rw [ownedBy_of_none found] at member
      exact absurd member (Finset.notMem_empty _)
  | some file =>
      rw [ownedBy_of_some found, toNat_mem_map] at member
      exact ⟨idx, file, found, member⟩

/-- Every occupied block lies within the file offsets. -/
theorem takenValid (block : UInt64) (taken : block.toNat ∈ v.allocator.occupied) :
    (Region.block block).Valid v.header := by
  obtain ⟨idx, file, found, member⟩ := placed.owner_of_occupied taken
  exact (placed.stored idx file found).valid_of_mem placed.tracks member

/-- No block belongs to two files. -/
theorem notMem_of_ne {idx idx' : Nat} {file file' : StoredFile} (found : files idx = some file)
    (found' : files idx' = some file') (different : idx ≠ idx') {block : UInt64}
    (member : block ∈ file.blocks) : block ∉ file'.blocks := by
  intro member'
  have apart := placed.owned.apart idx idx' different
  rw [ownedBy_of_some found, ownedBy_of_some found'] at apart
  exact Finset.disjoint_left.mp apart ((toNat_mem_map block).mpr member)
    ((toNat_mem_map block).mpr member')

/-- Files have no block in common. -/
theorem apart : files.Apart := fun _ _ _ _ found found' different _ member =>
  placed.notMem_of_ne found found' different member

end Placed

/-! ## Reading a table of stored files -/

/-- A handle that reads the entries of a table of stored files. -/
structure Listed (v : Vault) (entries : Nat → FileEntry) (files : Files) : Prop where
  slots : ∀ idx, idx < v.header.maxFiles.toNat → v.readSlot idx = .ok (entries idx)
  shown : ∀ idx file, files idx = some file →
    idx < v.header.maxFiles.toNat ∧ entries idx = file.entry
  vacant : ∀ idx, idx < v.header.maxFiles.toNat → files idx = none →
    (entries idx).isOccupied = false
  described : ∀ idx file, files idx = some file → file.Describes v.header
  named : ∀ idx idx' file file', files idx = some file → files idx' = some file' →
    file.entry.name = file'.entry.name → idx = idx'

namespace Listed

variable {v : Vault} {entries : Nat → FileEntry} {files : Files}
  (listed : Listed v entries files)

include listed

/-- Every slot is read back. -/
theorem readSlots : ∀ idx ∈ v.slotIndices, v.readSlot idx = .ok (entries idx) :=
  fun idx member => listed.slots idx (List.mem_range.mp member)

/-- The occupied slots are those of the files. -/
theorem isOccupied_iff {idx : Nat} (inTable : idx < v.header.maxFiles.toNat) :
    (entries idx).isOccupied = true ↔ ∃ file, files idx = some file := by
  cases found : files idx with
  | none =>
      rw [listed.vacant idx inTable found]
      simp only [Bool.false_eq_true, reduceCtorEq, exists_false]
  | some file =>
      rw [(listed.shown idx file found).2, (listed.described idx file found).occupied]
      simp only [Option.some.injEq, exists_eq']

/-- An occupied slot holds the entry of a stored file. -/
theorem exists_stored {idx : Nat} {entry : FileEntry} (inTable : idx < v.header.maxFiles.toNat)
    (read : v.readSlot idx = .ok entry) (occupied : entry.isOccupied = true) :
    ∃ file, files idx = some file ∧ entry = file.entry := by
  rw [listed.slots idx inTable] at read
  cases read
  obtain ⟨file, found⟩ := (listed.isOccupied_iff inTable).mp occupied
  exact ⟨file, found, (listed.shown idx file found).2⟩

/-- The slots that a search for a name stops at. -/
private theorem matches_iff (name : String) {idx : Nat}
    (inTable : idx < v.header.maxFiles.toNat) :
    ((entries idx).isOccupied && (entries idx).name == name) = true ↔
      ∃ file, files.Present name idx file := by
  rw [Bool.and_eq_true, listed.isOccupied_iff inTable, beq_iff_eq]
  constructor
  · rintro ⟨⟨file, found⟩, named⟩
    rw [(listed.shown idx file found).2] at named
    exact ⟨file, found, named⟩
  · rintro ⟨file, found, named⟩
    rw [(listed.shown idx file found).2]
    exact ⟨⟨file, found⟩, named⟩

/-- Looking up an absent name finds no slot. -/
theorem findSlotByName_of_absent {name : String} (absent : files.Absent name) :
    v.findSlotByName name = .ok none := by
  unfold Vault.findSlotByName
  rw [findSlot_eq listed.readSlots, List.find?_eq_none.mpr]
  · rfl
  · intro idx member isMatch
    obtain ⟨file, found, named⟩ := (listed.matches_iff name (List.mem_range.mp member)).mp isMatch
    exact absent idx file found named

/-- Looking up a present name finds its slot. -/
theorem findSlotByName_of_present {name : String} {idx : Nat} {file : StoredFile}
    (present : files.Present name idx file) :
    v.findSlotByName name = .ok (some (idx, file.entry)) := by
  have inTable := (listed.shown idx file present.1).1
  unfold Vault.findSlotByName
  rw [findSlot_eq listed.readSlots]
  cases searched : v.slotIndices.find? fun idx =>
      (entries idx).isOccupied && (entries idx).name == name with
  | none =>
      have missed := List.find?_eq_none.mp searched idx (List.mem_range.mpr inTable)
      exact absurd ((listed.matches_iff name inTable).mpr ⟨file, present⟩) missed
  | some other =>
      have isMatch := List.find?_some searched
      have otherIn := List.mem_range.mp (List.mem_of_find?_eq_some searched)
      obtain ⟨file', found', named'⟩ := (listed.matches_iff name otherIn).mp isMatch
      have same := listed.named other idx file' file found' present.1
        (named'.trans present.2.symm)
      rw [Option.map_some, same, (listed.shown idx file present.1).2]

/-- The occupied entries are those of the stored files, in slot order. -/
theorem allOccupiedEntries_eq : v.allOccupiedEntries =
    .ok (v.slotIndices.filterMap fun idx => (files idx).map fun file => (idx, file.entry)) := by
  unfold Vault.allOccupiedEntries
  rw [keepSlots_eq listed.readSlots]
  congr 1
  have inTable : ∀ idx ∈ v.slotIndices, idx < v.header.maxFiles.toNat := fun idx member =>
    List.mem_range.mp member
  generalize v.slotIndices = indices at inTable
  induction indices with
  | nil => rfl
  | cons idx rest ih =>
      have tail := ih fun later member => inTable later (List.mem_cons_of_mem idx member)
      have here := inTable idx List.mem_cons_self
      cases found : files idx with
      | none =>
          rw [List.filter_cons, listed.vacant idx here found, List.filterMap_cons, found]
          exact tail
      | some file =>
          rw [List.filter_cons, (listed.isOccupied_iff here).mpr ⟨file, found⟩,
            List.filterMap_cons, found]
          simp only [↓reduceIte, List.map_cons, Option.map_some]
          rw [tail, (listed.shown idx file found).2]

/-- Reading an absent file fails with `FileNotFound`. -/
theorem readFile_of_absent {name : String} (absent : files.Absent name) :
    v.readFile name = .error (.error (.fileNotFound name)) := by
  unfold Vault.readFile
  rw [except_bind_of_ok (listed.findSlotByName_of_absent absent)]

end Listed

/-- A handle that reads the entries of a table of stored files, and opens their blocks. -/
structure Legible (v : Vault) (entries : Nat → FileEntry) (files : Files) : Prop
    extends Listed v entries files where
  layout : Layout v.header
  valid : ∀ idx file, files idx = some file → ∀ block ∈ file.blocks,
    (Region.block block).Valid v.header
  readable : ∀ idx file, files idx = some file → file.ReadsIn v

/-- Reading a present file returns its content. -/
theorem Legible.readFile_of_present {v : Vault} {entries : Nat → FileEntry} {files : Files}
    (legible : Legible v entries files) {name : String} {idx : Nat} {file : StoredFile}
    (present : files.Present name idx file) : v.readFile name = .ok file.data := by
  unfold Vault.readFile
  rw [except_bind_of_ok (legible.toListed.findSlotByName_of_present present)]
  exact (legible.described idx file present.1).readEntry_eq legible.layout.blockSize
    (legible.readable idx file present.1)

section Alike

variable {v w : Vault} {entries entries' : Nat → FileEntry} {files files' : Files} {name : String}
  (same : ∀ idx file, files'.Present name idx file ↔ files.Present name idx file)

include same

omit [Primitives] in
/-- Tables with the same files of a name have none, or one. -/
theorem Files.absent_or_present_alike : files.Absent name ∧ files'.Absent name ∨
    ∃ idx file, files.Present name idx file ∧ files'.Present name idx file := by
  rcases files.absent_or_present name with absent | ⟨idx, file, present⟩
  · exact Or.inl ⟨absent, fun idx file found named =>
      absent idx file ((same idx file).mp ⟨found, named⟩).1 named⟩
  · exact Or.inr ⟨idx, file, present, (same idx file).mpr present⟩

/-- Handles that read tables with the same files of a name find the same in the table. -/
theorem Listed.findSlotByName_eq (listed : Listed v entries files)
    (listed' : Listed w entries' files') : w.findSlotByName name = v.findSlotByName name := by
  rcases Files.absent_or_present_alike same with
    ⟨absent, absent'⟩ | ⟨idx, file, present, present'⟩
  · rw [listed.findSlotByName_of_absent absent, listed'.findSlotByName_of_absent absent']
  · rw [listed.findSlotByName_of_present present, listed'.findSlotByName_of_present present']

/-- Handles that read tables with the same files of a name read the same from it. -/
theorem Legible.readFile_eq (legible : Legible v entries files)
    (legible' : Legible w entries' files') : w.readFile name = v.readFile name := by
  rcases Files.absent_or_present_alike same with
    ⟨absent, absent'⟩ | ⟨idx, file, present, present'⟩
  · rw [legible.toListed.readFile_of_absent absent, legible'.toListed.readFile_of_absent absent']
  · rw [legible.readFile_of_present present, legible'.readFile_of_present present']

end Alike

/-- The slots of a sound vault list its stored files. -/
theorem Sound.listed {v : Vault} {d : Disk} {files : Files} (sound : Sound v d files) :
    Listed v d.entries files where
  slots := fun _ inTable => Vault.readSlot_eq sound.tracks inTable
  shown := sound.shown
  vacant := sound.vacant
  described := fun idx file found => (sound.stored idx file found).toDescribes
  named := sound.named

/-- A sound vault reads its stored files. -/
theorem Sound.legible [Lawful] {v : Vault} {d : Disk} {files : Files} (sound : Sound v d files) :
    Legible v d.entries files where
  toListed := sound.listed
  layout := sound.tracks.layout
  valid := fun idx file found _ member =>
    (sound.stored idx file found).valid_of_mem sound.tracks member
  readable := fun idx file found => (sound.stored idx file found).readsIn sound.tracks

namespace Sound

variable {v : Vault} {d : Disk} {files : Files} (sound : Sound v d files)

include sound

/-- The occupied slots are those of the files. -/
theorem isOccupied_iff {idx : Nat} (inTable : idx < v.header.maxFiles.toNat) :
    (d.entries idx).isOccupied = true ↔ ∃ file, files idx = some file :=
  sound.listed.isOccupied_iff inTable

/-- An occupied slot holds the entry of a stored file. -/
theorem exists_stored {idx : Nat} {entry : FileEntry} (inTable : idx < v.header.maxFiles.toNat)
    (read : v.readSlot idx = .ok entry) (occupied : entry.isOccupied = true) :
    ∃ file, files idx = some file ∧ entry = file.entry :=
  sound.listed.exists_stored inTable read occupied

/-- A search for a name that is not taken finds nothing. -/
theorem findSlotByName_of_absent {name : String} (absent : files.Absent name) :
    v.findSlotByName name = .ok none := sound.listed.findSlotByName_of_absent absent

/-- A search for a name that is taken finds its file. -/
theorem findSlotByName_of_present {name : String} {idx : Nat} {file : StoredFile}
    (present : files.Present name idx file) :
    v.findSlotByName name = .ok (some (idx, file.entry)) :=
  sound.listed.findSlotByName_of_present present

/-- The search for a free slot fails exactly when every slot holds a file. -/
theorem findFreeSlot_eq : (∃ idx entry, v.findFreeSlot = .ok (some (idx, entry)) ∧
      idx < v.header.maxFiles.toNat ∧ files idx = none) ∨
    (v.findFreeSlot = .ok none ∧
      ∀ idx, idx < v.header.maxFiles.toNat → files idx ≠ none) := by
  unfold Vault.findFreeSlot
  rw [findSlot_eq sound.listed.readSlots]
  cases searched : v.slotIndices.find? fun idx => !(d.entries idx).isOccupied with
  | none =>
      right
      refine ⟨rfl, fun idx inTable vacant => ?_⟩
      have missed := List.find?_eq_none.mp searched idx (List.mem_range.mpr inTable)
      rw [sound.vacant idx inTable vacant] at missed
      exact missed rfl
  | some idx =>
      left
      have inTable := List.mem_range.mp (List.mem_of_find?_eq_some searched)
      have isFree := List.find?_some searched
      refine ⟨idx, d.entries idx, rfl, inTable, ?_⟩
      cases found : files idx with
      | none => rfl
      | some file =>
          rw [(sound.isOccupied_iff inTable).mpr ⟨file, found⟩] at isFree
          cases isFree

/-- The files are listed slot by slot. -/
theorem allOccupiedEntries_eq : v.allOccupiedEntries =
    .ok (v.slotIndices.filterMap fun idx => (files idx).map fun file => (idx, file.entry)) :=
  sound.listed.allOccupiedEntries_eq

/-- Listing the files returns one line for every stored file. -/
theorem listFiles_eq : v.listFiles = .ok (v.slotIndices.filterMap fun idx =>
    (files idx).map StoredFile.info) := by
  unfold Vault.listFiles
  rw [except_bind_of_ok sound.allOccupiedEntries_eq, List.map_filterMap]
  congr 2
  funext idx
  rw [Option.map_map]
  rfl

/-- Every listed line is that of a stored file, and every stored file is listed. -/
theorem mem_infos (info : FileInfo) : info ∈ (v.slotIndices.filterMap fun idx =>
      (files idx).map StoredFile.info) ↔
    ∃ idx file, files idx = some file ∧ file.info = info := by
  rw [List.mem_filterMap]
  constructor
  · rintro ⟨idx, _, held⟩
    obtain ⟨file, found, same⟩ := Option.map_eq_some_iff.mp held
    exact ⟨idx, file, found, same⟩
  · rintro ⟨idx, file, found, same⟩
    exact ⟨idx, List.mem_range.mpr (sound.shown idx file found).1,
      Option.map_eq_some_iff.mpr ⟨file, found, same⟩⟩

/-- No name is listed twice. -/
theorem nodup_names : ((v.slotIndices.filterMap fun idx =>
    (files idx).map StoredFile.info).map fun info => info.name).Nodup := by
  rw [List.map_filterMap]
  refine List.nodup_range.filterMap ?_
  intro first second name inFirst inSecond
  obtain ⟨info, held, sameName⟩ := Option.map_eq_some_iff.mp inFirst
  obtain ⟨info', held', sameName'⟩ := Option.map_eq_some_iff.mp inSecond
  obtain ⟨file, found, rfl⟩ := Option.map_eq_some_iff.mp held
  obtain ⟨file', found', rfl⟩ := Option.map_eq_some_iff.mp held'
  exact sound.named first second file file' found found' (sameName.trans sameName'.symm)

/-- A file is read back. -/
theorem readFile_of_present [Lawful] {name : String} {idx : Nat} {file : StoredFile}
    (present : files.Present name idx file) : v.readFile name = .ok file.data :=
  sound.legible.readFile_of_present present

/-- A file that is not there is not. -/
theorem readFile_of_absent {name : String} (absent : files.Absent name) :
    v.readFile name = .error (.error (.fileNotFound name)) :=
  sound.listed.readFile_of_absent absent

end Sound

end ReVault
