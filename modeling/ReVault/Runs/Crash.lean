import ReVault.Access.Recovery
import ReVault.Runs.Course

/-!
# Crashes in file operations

Only the first writes of an operation may reach the container. An operation on a name that
held no content survives this at every point: the container opens with the password, the
other files are untouched, the file of the name is the old or the new one, and every block
of an occupied entry is marked in the bitmap. An update or a deletion of a file with content
does not: it first frees the blocks of the file, while the entry still lists them.
-/

namespace ReVault

open Foundation Primitives

/-- However many of the ranges recorded between two states are written to the container of
the first, the container is of a kind. -/
def Endures (good : Bytes → Prop) (v v' : Vault) : Prop :=
  ∃ piece, Logged v v' piece ∧ ∀ count, good (replay (Piece.patch (piece.take count)) v.file)

namespace Endures

variable {good : Bytes → Prop} {v v' v'' : Vault} {piece : Piece}

/-- Whatever is between two changes endures, if both do. -/
theorem trans (head : Endures good v v') (tail : Endures good v' v'') : Endures good v v'' := by
  obtain ⟨first, logged, before⟩ := head
  obtain ⟨second, logged', after⟩ := tail
  refine ⟨first ++ second, logged.trans logged', fun count => ?_⟩
  rw [List.take_append, Piece.patch_append, replay_append]
  rcases Nat.le_total count first.length with early | late
  · rw [Nat.sub_eq_zero_of_le early, List.take_zero]
    exact before count
  · rw [List.take_of_length_le late, ← logged.replayed]
    exact after _

/-- What a handle recorded between two states is determined by them. -/
theorem at_count (endures : Endures good v v') (logged : Logged v v' piece) (count : Nat) :
    good (replay (Piece.patch (piece.take count)) v.file) := by
  obtain ⟨other, logged', kept⟩ := endures
  have same : piece = other :=
    List.append_cancel_left (logged.recorded.symm.trans logged'.recorded)
  rw [same]
  exact kept count

/-- A weaker condition on the files between. -/
theorem mono {good' : Bytes → Prop} (endures : Endures good v v')
    (implies : ∀ file, good file → good' file) : Endures good' v v' := by
  obtain ⟨piece, logged, kept⟩ := endures
  exact ⟨piece, logged, fun count => implies _ (kept count)⟩

/-- A single write leaves the container before it or the one after it. -/
theorem of_single {region : Region} {h : Header} (wrote : Wrote h v v' [region])
    (before : good v.file) (after : good v'.file) : Endures good v v' := by
  obtain ⟨piece, logged, fills⟩ := wrote
  refine ⟨piece, logged, fun count => ?_⟩
  cases count with
  | zero => exact before
  | succ count =>
      have whole : piece.take (count + 1) = piece := by
        apply List.take_of_length_le
        rw [← fills.length_eq, List.length_singleton]
        exact Nat.succ_le_succ (Nat.zero_le count)
      rw [whole, ← logged.replayed]
      exact after

end Endures

section

variable [Primitives]

/-! ## Recovered containers -/

/-- A container that opens with the password to one of two tables of stored files and marks
the blocks of that table. -/
def Recovers (files files' : Files) (password : String) (file : Bytes) : Prop :=
  ∀ identity, ∃ w entries table, (table = files ∨ table = files') ∧
    Vault.openWithPassword file password identity = .ok w ∧ Legible w entries table ∧
    ∀ idx stored, table idx = some stored → ∀ block ∈ stored.blocks,
      block.toNat ∈ w.allocator.occupied

/-- A file that shelters the table of before or after recovers. -/
theorem Shelters.recovers [Lawful] {v : Vault} {entries : Nat → FileEntry}
    {files files' table : Files} {password : String} {file : Bytes}
    (shelters : Shelters v table password file) (legible : Legible v entries table)
    (either : table = files ∨ table = files') : Recovers files files' password file := by
  intro identity
  obtain ⟨w, opened, reads, marks⟩ := shelters.opens legible identity
  exact ⟨w, entries, table, either, opened, reads, marks⟩

section Commit

variable {v v' : Vault} {d d' : Disk} {files : Files} {idx : Nat} {slot : Option StoredFile}
  {before : List Region} {password : String}

namespace CommitPhase

variable (phase : CommitPhase v v' d' files idx slot before) (sound : Sound v d files)
  (wraps : WrapsForPassword v.header password v.key)
  (idle : ∀ old, files idx = some old → old.blocks = [])

include phase sound

section Idle

include idle

/-- The blocks of the old files are marked before and after. -/
theorem marked {other : Nat} {stored : StoredFile} (found : files other = some stored)
    {block : UInt64} (member : block ∈ stored.blocks) :
    block.toNat ∈ v.allocator.occupied ∧ block.toNat ∈ v'.allocator.occupied := by
  refine ⟨sound.occupied_of_mem found member, ?_⟩
  have different : other ≠ idx := by
    rintro rfl
    rw [idle stored found] at member
    cases member
  have found' : Function.update files idx slot other = some stored := by
    rw [Function.update_of_ne different]
    exact found
  exact phase.sound'.occupied_of_mem found' member

omit sound in
/-- The blocks of the old files are not filled. -/
theorem notMem_before {other : Nat} {stored : StoredFile} (found : files other = some stored)
    {block : UInt64} (member : block ∈ stored.blocks) : .block block ∉ before := by
  intro filled
  rcases phase.filled _ filled with same | ⟨file, _, slotIs, inFile, same⟩
  · cases same
  · cases same
    have different : idx ≠ other := by
      rintro rfl
      rw [idle stored found] at member
      cases member
    have found' : Function.update files idx slot other = some stored := by
      rw [Function.update_of_ne different.symm]
      exact found
    exact phase.sound'.notMem_of_ne ((Function.update_self ..).trans slotIs) found' different
      inFile member

end Idle

section Prefix

variable {piece : Piece}
  (fills : List.Forall₂ (Fills v.header) (before ++ v.commitRegions idx) piece) {count : Nat}
  {region : Region} {content : Bytes}

include fills

/-- A region that some of the first ranges fill holds what it holds in the end. -/
theorem cell_of_mem (logged : Logged v v' piece) (valid : region.Valid v.header)
    (member : region ∈ (before ++ v.commitRegions idx).take count)
    (found : cell v'.file (region.extent v.header) = some content) :
    cell (replay (Piece.patch (piece.take count)) v.file) (region.extent v.header) =
      some content := by
  rw [logged.replayed] at found
  refine cell_take_of_notMem_drop sound.tracks.layout fills valid ?_
    (Or.inl (List.mem_of_mem_take member)) found
  exact List.disjoint_left.mp (List.disjoint_take_drop phase.nodup (Nat.le_refl count)) member

variable (logged : Logged v v' piece)

include wraps logged

include idle in
/-- Before the slot is written, the container shelters the old files. -/
theorem shelters_early (early : count ≤ before.length) :
    Shelters v files password (replay (Piece.patch (piece.take count)) v.file) := by
  have first : (before ++ v.commitRegions idx).take count = before.take count :=
    List.take_append_of_le_length early
  have kept : ∀ (region : Region) {content : Bytes}, region.Valid v.header → region ∉ before →
      cell v.file (region.extent v.header) = some content →
      cell (replay (Piece.patch (piece.take count)) v.file) (region.extent v.header) =
        some content := by
    intro region content valid notBefore found
    refine cell_take_of_notMem sound.tracks.layout fills valid (fun member => notBefore ?_) found
    rw [first] at member
    exact List.mem_of_mem_take member
  have old := sound.shelters wraps
  constructor
  · obtain ⟨h, shape, layout, wraps, found⟩ := old.header
    refine ⟨h, shape, layout, wraps, kept .header trivial (fun member => ?_) found⟩
    rcases phase.filled _ member with same | ⟨_, _, _, _, same⟩ <;> cases same
  · by_cases member : Region.bitmap ∈ (before ++ v.commitRegions idx).take count
    · obtain ⟨content, found, rfl⟩ := phase.sound'.tracks.cells .bitmap trivial trivial
      rw [phase.shape.extent_eq, phase.sound'.bitmap] at found
      exact ⟨v'.allocator, phase.sound'.counted.trans phase.shape.blockCount_eq,
        phase.cell_of_mem sound fills logged trivial member found,
        fun other stored found block inFile => (phase.marked sound idle found inFile).2⟩
    · obtain ⟨allocator, counted, found, marks⟩ := old.bitmap
      have valid : Region.bitmap.Valid v.header := trivial
      exact ⟨allocator, counted, cell_take_of_notMem sound.tracks.layout fills valid member found,
        marks⟩
  · intro other inTable
    obtain ⟨content, found, _⟩ := sound.tracks.cells (.entry other) inTable trivial
    rw [found]
    refine kept (.entry other) inTable (fun member => ?_) found
    rcases phase.filled _ member with same | ⟨_, _, _, _, same⟩ <;> cases same
  · intro other stored held block inFile
    have placed := sound.stored other stored held
    obtain ⟨content, found⟩ := placed.exists_cell sound.tracks inFile
    rw [found]
    exact kept (.block block) (placed.valid_of_mem sound.tracks inFile)
      (phase.notMem_before idle held inFile) found

/-- Once the slot is written, the container shelters the new files. -/
theorem shelters_late (late : before.length < count) :
    Shelters v' (Function.update files idx slot) password
      (replay (Piece.patch (piece.take count)) v.file) := by
  have extents := phase.shape.extent_eq
  have last : ∀ region ∈ (before ++ v.commitRegions idx).drop count,
      region ∈ [.record (Layout.ringSlot v.header v.header.chainNextSeq), .header] := by
    intro region member
    have split : before ++ v.commitRegions idx = (before ++ [.entry idx]) ++
        [.record (Layout.ringSlot v.header v.header.chainNextSeq), .header] := by
      unfold Vault.commitRegions
      rw [List.append_assoc, List.singleton_append]
    have short : (before ++ [Region.entry idx]).length ≤ count := by
      rw [List.length_append]
      exact late
    rw [split, List.drop_append, List.drop_eq_nil_of_le short, List.nil_append] at member
    exact List.mem_of_mem_drop member
  have kept : ∀ (region : Region) {content : Bytes}, region.Valid v.header →
      region ∉ [.record (Layout.ringSlot v.header v.header.chainNextSeq), .header] →
      (region ∈ before ++ v.commitRegions idx ∨
        ∃ old, cell v.file (region.extent v.header) = some old) →
      cell v'.file (region.extent v'.header) = some content →
      cell (replay (Piece.patch (piece.take count)) v.file) (region.extent v.header) =
        some content := by
    intro region content valid notLast held found
    rw [extents, logged.replayed] at found
    exact cell_take_of_notMem_drop sound.tracks.layout fills valid
      (fun member => notLast (last region member)) held found
  have wraps' : WrapsForPassword v'.header password v'.key := by
    rw [phase.key]
    exact wraps.of_sameShape phase.shape phase.adminKeySlot
  have new := phase.sound'.shelters wraps'
  constructor
  · by_cases member : Region.header ∈ (before ++ v.commitRegions idx).take count
    · obtain ⟨h, shape, layout, wraps, found⟩ := new.header
      rw [extents] at found ⊢
      exact ⟨h, shape, layout, wraps, phase.cell_of_mem sound fills logged trivial member found⟩
    · obtain ⟨h, shape, layout, wraps, found⟩ := (sound.shelters wraps).header
      have valid : Region.header.Valid v.header := trivial
      rw [extents, phase.key]
      exact ⟨h, phase.shape.symm.trans shape, layout, wraps,
        cell_take_of_notMem sound.tracks.layout fills valid member found⟩
  · obtain ⟨allocator, counted, found, marks⟩ := new.bitmap
    obtain ⟨old, before, _⟩ := sound.tracks.cells .bitmap trivial trivial
    rw [extents]
    exact ⟨allocator, counted,
      kept .bitmap trivial (by simp) (Or.inr ⟨old, before⟩) found, marks⟩
  · intro other inTable
    obtain ⟨content, found, _⟩ := phase.sound'.tracks.cells (.entry other) inTable trivial
    rw [phase.shape.maxFiles_eq] at inTable
    obtain ⟨old, before, _⟩ := sound.tracks.cells (.entry other) inTable trivial
    rw [found, extents]
    exact kept (.entry other) inTable (by simp) (Or.inr ⟨old, before⟩) found
  · intro other stored held block inFile
    have placed := phase.sound'.stored other stored held
    obtain ⟨content, found⟩ := placed.exists_cell phase.sound'.tracks inFile
    have valid := placed.valid_of_mem phase.sound'.tracks inFile
    rw [phase.shape.valid_iff] at valid
    rw [found, extents]
    refine kept (.block block) valid (by simp) ?_ found
    by_cases same : other = idx
    · rw [same, Function.update_self] at held
      exact Or.inl (List.mem_append_left _ (phase.covers stored held block inFile))
    · rw [Function.update_of_ne same] at held
      exact Or.inr ((sound.stored other stored held).exists_cell sound.tracks inFile)

end Prefix

include wraps idle in
/-- The commit of a slot which held no blocks leaves the old or the new files at every
point. -/
theorem endures [Lawful] :
    Endures (Recovers files (Function.update files idx slot) password) v v' := by
  obtain ⟨piece, logged, fills⟩ := phase.wrote
  refine ⟨piece, logged, fun count => ?_⟩
  rcases Nat.lt_or_ge before.length count with late | early
  · exact (phase.shelters_late sound wraps fills logged late).recovers phase.sound'.legible
      (Or.inr rfl)
  · exact (phase.shelters_early sound wraps idle fills logged early).recovers sound.legible
      (Or.inl rfl)

end CommitPhase

end Commit

/-! ## Surviving a crash -/

namespace Vault

/-- A name shows the same entry and the same content on two handles. -/
structure ShowsAlike (v w : Vault) (name : String) : Prop where
  entry : w.findSlotByName name = v.findSlotByName name
  content : w.readFile name = v.readFile name

/-- The blocks of every occupied entry are found and marked in the bitmap. -/
def MarksBlocks (w : Vault) : Prop :=
  ∀ idx entry, idx < w.header.maxFiles.toNat → w.readSlot idx = .ok entry →
    entry.isOccupied = true → ∃ blocks, w.collectAllBlocks entry = .ok blocks ∧
      ∀ block ∈ blocks, block.toNat ∈ w.allocator.occupied

/-- A container that opens with the password to a vault in which a name shows what it did
before or after an operation, every other name shows what it did, and the blocks of every
entry are marked. -/
def Survives (v v' : Vault) (name password : String) (file : Bytes) : Prop :=
  ∀ identity, ∃ w, openWithPassword file password identity = .ok w ∧
    (∀ other, other ≠ name → v.ShowsAlike w other) ∧
    (v.ShowsAlike w name ∨ v'.ShowsAlike w name) ∧ w.MarksBlocks

end Vault

namespace Legible

variable {v w : Vault} {entries entries' : Nat → FileEntry} {files files' : Files}

/-- Handles that read tables with the same files of a name show it alike. -/
theorem showsAlike (legible : Legible v entries files) (legible' : Legible w entries' files')
    {name : String}
    (same : ∀ idx file, files'.Present name idx file ↔ files.Present name idx file) :
    v.ShowsAlike w name := by
  constructor
  · exact Listed.findSlotByName_eq same legible.toListed legible'.toListed
  · exact Legible.readFile_eq same legible legible'

/-- A handle that reads a table of files and marks their blocks. -/
theorem marksBlocks (legible : Legible w entries files)
    (marks : ∀ idx stored, files idx = some stored → ∀ block ∈ stored.blocks,
      block.toNat ∈ w.allocator.occupied) : w.MarksBlocks := by
  intro idx entry inTable read occupied
  obtain ⟨stored, found, rfl⟩ := legible.toListed.exists_stored inTable read occupied
  obtain ⟨blocks, collected, perm⟩ := (legible.described idx stored found).collectAllBlocks_eq
    legible.layout.blockSize (legible.readable idx stored found)
  exact ⟨blocks, collected, fun block member =>
    marks idx stored found block (perm.mem_iff.mp member)⟩

end Legible

omit [Primitives] in
/-- A change of the slot of a name leaves the files of the other names. -/
theorem Files.present_update_of_ne {files : Files} {idx : Nat} {slot : Option StoredFile}
    {name other : String} (old : ∀ file, files idx = some file → file.entry.name = name)
    (new : ∀ file, slot = some file → file.entry.name = name) (different : other ≠ name)
    (idx' : Nat) (file : StoredFile) :
    Files.Present (Function.update files idx slot) other idx' file ↔
      files.Present other idx' file := by
  unfold Files.Present
  by_cases same : idx' = idx
  · rw [same, Function.update_self]
    constructor
    · rintro ⟨found, named⟩
      exact absurd (named.symm.trans (new file found)) different
    · rintro ⟨found, named⟩
      exact absurd (named.symm.trans (old file found)) different
  · rw [Function.update_of_ne same]

/-! ## File operations -/

section Operation

variable {v v' freed : Vault} {d d' : Disk} {files files' : Files} {idx : Nat}
  {old : StoredFile} {all : List UInt64} {name password : String}

/-- A container with one of two tables that differ in the files of a name survives. -/
theorem Recovers.survives {entries entries' : Nat → FileEntry} (legible : Legible v entries files)
    (legible' : Legible v' entries' files')
    (others : ∀ other, other ≠ name → ∀ idx file,
      files'.Present other idx file ↔ files.Present other idx file) {file : Bytes}
    (recovers : Recovers files files' password file) : v.Survives v' name password file := by
  intro identity
  obtain ⟨w, shown, table, either, opened, reads, marks⟩ := recovers identity
  refine ⟨w, opened, fun other different => ?_, ?_, reads.marksBlocks marks⟩
  · refine legible.showsAlike reads fun idx stored => ?_
    rcases either with rfl | rfl
    · rfl
    · exact others other different idx stored
  · rcases either with rfl | rfl
    · exact Or.inl (legible.showsAlike reads fun _ _ => Iff.rfl)
    · exact Or.inr (legible'.showsAlike reads fun _ _ => Iff.rfl)

/-- Freeing no blocks leaves the vault sound. -/
theorem Vault.Releases.sound (sound : Sound v d files) (releases : v.Releases freed d []) :
    Sound freed d files := by
  have allocator : freed.allocator = v.allocator := by rw [releases.vault]; rfl
  have tracks := releases.tracks
  rw [← releases.header_eq, show (v.allocator.free []).bits = d.bitmap from sound.bitmap.symm]
    at tracks
  exact sound.frame tracks (by rw [releases.header_eq]; exact SameShape.refl _)
    (sound.header.trans releases.header_eq.symm) releases.key_eq allocator rfl rfl rfl

/-- A container in which the blocks of a file are free while its entry lists them does not
survive, unless there are no such blocks. -/
theorem Vault.Releases.data_eq_nil [Lawful] (sound : Sound v d files)
    (wraps : WrapsForPassword v.header password v.key) (present : files.Present name idx old)
    (perm : all.Perm old.blocks) (releases : v.Releases freed d all)
    (survives : v.Survives v' name password freed.file) : old.data = [] := by
  have tracks := releases.tracks
  have layout := tracks.layout
  obtain ⟨content, headerCell, rfl, _⟩ := tracks.cells .header trivial trivial
  obtain ⟨content', bitmapCell, rfl⟩ := tracks.cells .bitmap trivial trivial
  rw [show ({ d with bitmap := (v.allocator.free all).bits } : Disk).header = v.header from
    sound.header] at headerCell
  have opened := openWithPassword_of_cells layout wraps headerCell
    ((v.allocator.blockCount_free all).trans sound.counted) bitmapCell
  obtain ⟨identity⟩ : Nonempty Identity := ⟨⟨.replicate 32 0, .replicate 32 0⟩⟩
  obtain ⟨w, opened', _, _, marks⟩ := survives identity
  rw [opened] at opened'
  cases opened'
  have stored : Stored v.header { d with bitmap := (v.allocator.free all).bits } v.key old :=
    (sound.stored idx old present.1).of_blocks fun _ _ => rfl
  obtain ⟨inTable, entry⟩ := sound.shown idx old present.1
  have read := Vault.readSlot_eq
    (v := v.openedOn freed.file v.header (v.allocator.free all) identity) tracks inTable
  obtain ⟨blocks, collected, marked⟩ := marks idx old.entry inTable
    (read.trans (congrArg Except.ok entry)) stored.occupied
  obtain ⟨found, collected', perm'⟩ := stored.collectAllBlocks_eq
    (v := v.openedOn freed.file v.header (v.allocator.free all) identity) tracks
  rw [collected] at collected'
  cases collected'
  refine (stored.blocks_eq_nil_iff layout.blockSize).mp (List.eq_nil_iff_forall_not_mem.mpr ?_)
  intro block inFile
  have occupied := marked block (perm'.mem_iff.mpr inFile)
  change block.toNat ∈ (v.allocator.free all).occupied at occupied
  rw [occupied_free_perm perm, Finset.mem_sdiff, toNat_mem_map] at occupied
  exact occupied.2 inFile

/-- When the file of a name has content, an accepted operation on it does not survive a crash
after its first write. -/
theorem Course.exists_not_survives [Lawful] (sound : Sound v d files)
    (wraps : WrapsForPassword v.header password v.key) (course : Course v v' d files name)
    (present : files.Present name idx old) (content : old.data ≠ []) :
    ∃ piece, Logged v v' piece ∧
      ¬ v.Survives v' name password (replay (Piece.patch (piece.take 1)) v.file) := by
  cases course with
  | fresh absent _ _ _ => exact absurd present.2 (absent idx old present.1)
  | @replaced _ idx' _ _ old' all freed present' perm _ releases phase =>
      obtain ⟨piece, logged, fills⟩ := releases.wrote
      obtain ⟨piece', logged', _⟩ := phase.wrote
      refine ⟨piece ++ piece', logged.trans logged', fun survives => content ?_⟩
      have one : piece.length = 1 := fills.length_eq.symm
      rw [← one, List.take_left, ← logged.replayed] at survives
      have same := sound.named idx idx' old old' present.1 present'.1
        (present.2.trans present'.2.symm)
      have found := present'.1
      rw [← same, present.1] at found
      cases found
      exact releases.data_eq_nil sound wraps present perm survives

/-- **Crashes.** An accepted file operation survives a crash at every write exactly when no
file of its name had content. -/
theorem Course.endures_iff [Lawful] (sound : Sound v d files)
    (wraps : WrapsForPassword v.header password v.key) (course : Course v v' d files name) :
    Endures (v.Survives v' name password) v v' ↔
      ∀ idx old, files.Present name idx old → old.data = [] := by
  cases course with
  | @fresh d' idx file _ absent vacant named phase =>
      refine ⟨fun _ other old present => absurd present.2 (absent other old present.1),
        fun _ => ?_⟩
      have free : ∀ old, files idx = some old → old.entry.name = name := by
        intro old found
        rw [vacant] at found
        cases found
      refine (phase.endures sound wraps fun old found => ?_).mono fun image recovers => ?_
      · rw [vacant] at found
        cases found
      · refine recovers.survives sound.legible phase.sound'.legible fun other different =>
          Files.present_update_of_ne free ?_ different
        rintro file' ⟨⟩
        exact named
  | @replaced d' idx slot _ old all freed present perm named releases phase =>
      have mine : ∀ file, files idx = some file → file.entry.name = name := by
        intro file found
        rw [present.1] at found
        cases found
        exact present.2
      constructor
      · intro endures other file present'
        by_contra content
        obtain ⟨piece, logged, lost⟩ := (Course.replaced present perm named releases
          phase).exists_not_survives sound wraps present' content
        exact lost (endures.at_count logged 1)
      · intro empty
        have noBlocks := ((sound.stored idx old present.1).blocks_eq_nil_iff
          sound.tracks.layout.blockSize).mpr (empty idx old present)
        rw [noBlocks, List.perm_nil] at perm
        subst perm
        have sound' := releases.sound sound
        have wraps' : WrapsForPassword freed.header password freed.key := by
          rw [releases.header_eq, releases.key_eq]
          exact wraps
        have survives : ∀ image, Recovers files (Function.update files idx slot) password image →
            v.Survives v' name password image := fun image recovers =>
          recovers.survives sound.legible phase.sound'.legible fun other different =>
            Files.present_update_of_ne mine named different
        refine ((Endures.of_single releases.wrote ?_ ?_).trans (phase.endures sound' wraps'
          fun file found => ?_)).mono survives
        · exact (sound.shelters wraps).recovers sound.legible (Or.inl rfl)
        · exact (sound'.shelters wraps').recovers sound'.legible (Or.inl rfl)
        · rw [present.1] at found
          cases found
          exact noBlocks

end Operation

/-- **Crashes of a run.** An accepted file operation on a reachable vault survives a crash at
every write exactly when its name held no content. -/
theorem Run.crash_safe_iff [Lawful] {password : String} {origin v v' : Vault}
    {trace : List Step} {name description : String} {capacityBytes : UInt64} {admin : Identity}
    {draws draws' : Draws} {op : Op} {file : String}
    (created : Vault.create name description capacityBytes password admin draws = .ok origin)
    (run : Run password origin trace v) (target : op.target = some file)
    (ran : op.exec (passwordAfter password trace) draws' v = .ok () v') :
    Endures (v.Survives v' file (passwordAfter password trace)) v v' ↔
      ∀ data, catalogAfter trace file = some data → data = [] := by
  obtain ⟨d, files, healthy⟩ := run.healthy created
  rw [(Vault.exec_course healthy.sound target ran).endures_iff healthy.sound
    healthy.keyring.password]
  constructor
  · intro empty data held
    obtain ⟨idx, old, present, rfl⟩ := (healthy.shown file data).mp held
    exact empty idx old present
  · intro empty idx old present
    exact empty old.data ((healthy.shown file old.data).mpr ⟨idx, old, present, rfl⟩)

end

namespace Transparent

/-- The added file can be deleted. -/
theorem exists_deleted : ∃ origin v v',
    Vault.create "v" "" 65536 "p" (identity 1) (draws 1) = .ok origin ∧
    Run "p" origin [⟨.addFile "a" [1, 2, 3], draws 2, true⟩] v ∧
    (Op.deleteFile "a").exec "p" (draws 3) v = .ok () v' := by
  obtain ⟨origin, v, created, sized, run⟩ := exists_added
  have isAdmin := Run.isAdmin created (show Run _ _ ([] ++ [_]) _ from run) rfl rfl
  obtain ⟨v', ran⟩ := ((run.serves created sized isAdmin).deletes "a" (draws 3)).mpr
    ⟨[1, 2, 3], rfl⟩
  exact ⟨origin, v, v', created, run, ran⟩

/-- A deletion is safe against a crash exactly when its condition holds. -/
theorem crash_safe_iff_deleted : ∃ origin v v',
    Vault.create "v" "" 65536 "p" (identity 1) (draws 1) = .ok origin ∧
    Run "p" origin [⟨.addFile "a" [1, 2, 3], draws 2, true⟩] v ∧
    (Op.deleteFile "a").exec "p" (draws 3) v = .ok () v' ∧
    (Endures (v.Survives v' "a" "p") v v' ↔
      ∀ data, catalogAfter [⟨.addFile "a" [1, 2, 3], draws 2, true⟩] "a" = some data →
        data = []) := by
  obtain ⟨origin, v, v', created, run, ran⟩ := exists_deleted
  have target : (Op.deleteFile "a").target = some "a" := rfl
  have survives := Run.crash_safe_iff created run target ran
  exact ⟨origin, v, v', created, run, ran, survives⟩

/-- When only the first write of a deletion reaches the container, the blocks of the file
are free while its entry still lists them. -/
theorem deletion_not_crash_safe : ∃ origin v v' piece,
    Vault.create "v" "" 65536 "p" (identity 1) (draws 1) = .ok origin ∧
    Run "p" origin [⟨.addFile "a" [1, 2, 3], draws 2, true⟩] v ∧
    (Op.deleteFile "a").exec "p" (draws 3) v = .ok () v' ∧ Logged v v' piece ∧
    ¬ v.Survives v' "a" "p" (replay (Piece.patch (piece.take 1)) v.file) := by
  obtain ⟨origin, v, v', created, run, ran⟩ := exists_deleted
  obtain ⟨d, files, healthy⟩ := run.healthy created
  obtain ⟨idx, file, present, content⟩ := (healthy.shown "a" [1, 2, 3]).mp rfl
  have course : Course v v' d files "a" := Vault.exec_course healthy.sound rfl ran
  obtain ⟨piece, logged, lost⟩ := course.exists_not_survives healthy.sound
    healthy.keyring.password present (by rw [content]; exact List.cons_ne_nil _ _)
  exact ⟨origin, v, v', piece, created, run, ran, logged, lost⟩

end Transparent

end ReVault
