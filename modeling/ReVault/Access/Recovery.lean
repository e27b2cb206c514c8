import ReVault.Access.Opening

/-!
# Recovering a container

A container that agrees with that of a handle on the file table and on the blocks of its
stored files, and whose header and bitmap can be read, opens with the password and reads
these files, whatever its other regions hold.
-/

namespace ReVault

open Foundation Primitives

/-- Images that agree on an extent read the same there. -/
theorem readExact_congr {file file' : Bytes} {offset : UInt64} {length : Nat} {extent : Extent}
    (same : cell file' extent = cell file extent) (start : offset.toNat = extent.start)
    (size : length = extent.size) :
    readExact file' offset length = readExact file offset length := by
  unfold cell at same
  unfold readExact
  rw [start, size, same]

/-- What an exact read returns is what the extent holds. -/
theorem cell_of_readExact {file : Bytes} {offset : UInt64} {length : Nat} {content : Bytes}
    {extent : Extent} (read : readExact file offset length = .ok content)
    (start : offset.toNat = extent.start) (size : length = extent.size) :
    cell file extent = some content := by
  unfold readExact at read
  rw [start, size] at read
  unfold cell
  split at read
  · cases read
  · split at read
    · rename_i window found
      cases read
      exact found
    · cases read

variable [Primitives]

section Congruence

variable {v w : Vault} (shape : SameShape v.header w.header) (layout : Layout v.header)

include shape layout

/-- Containers that agree on a slot of the file table have the same entry there. -/
theorem readSlot_congr {idx : Nat} (inTable : idx < v.header.maxFiles.toNat)
    (same : cell w.file ((Region.entry idx).extent v.header) =
      cell v.file ((Region.entry idx).extent v.header)) : w.readSlot idx = v.readSlot idx := by
  have offset : w.header.slotOffset idx = v.header.slotOffset idx := by
    unfold SameShape at shape
    rw [shape]
    rfl
  have size : w.header.entrySize = v.header.entrySize := by
    unfold SameShape at shape
    rw [shape]
  unfold Vault.readSlot
  rw [offset, size, readExact_congr same (layout.toNat_slotOffset inTable)
    (by rw [layout.entrySize]; rfl)]

/-- Handles with the same key read the same from a block on which their containers agree. -/
theorem readPhysicalBlock_congr (key : w.key = v.key) {block : UInt64}
    (valid : (Region.block block).Valid v.header)
    (same : cell w.file ((Region.block block).extent v.header) =
      cell v.file ((Region.block block).extent v.header)) (fileId : BitVec 128) :
    w.readPhysicalBlock block fileId = v.readPhysicalBlock block fileId := by
  have offset : w.header.blockOffset block = v.header.blockOffset block := by
    unfold SameShape at shape
    rw [shape]
    rfl
  have size : w.header.blockSize = v.header.blockSize := by
    unfold SameShape at shape
    rw [shape]
  have read : readExact w.file (v.header.blockOffset block) v.header.blockSize.toNat =
      readExact v.file (v.header.blockOffset block) v.header.blockSize.toNat :=
    readExact_congr same (layout.toNat_blockOffset valid) rfl
  unfold Vault.readPhysicalBlock
  rw [offset, size, key, read]

end Congruence

/-- A handle that lists its files has every slot of the file table. -/
theorem Listed.exists_cell {v : Vault} {entries : Nat → FileEntry} {files : Files}
    (listed : Listed v entries files) (layout : Layout v.header) {idx : Nat}
    (inTable : idx < v.header.maxFiles.toNat) :
    ∃ content, cell v.file ((Region.entry idx).extent v.header) = some content := by
  have read := listed.slots idx inTable
  unfold Vault.readSlot at read
  obtain ⟨buf, found, _⟩ := except_bind_eq_ok_iff.mp read
  exact ⟨buf, cell_of_readExact found (layout.toNat_slotOffset inTable)
    (by rw [layout.entrySize]; rfl)⟩

section Transfer

variable {v w : Vault} {entries : Nat → FileEntry} {files : Files}
  (shape : SameShape v.header w.header)
  (sameEntries : ∀ idx, idx < v.header.maxFiles.toNat →
    cell w.file ((Region.entry idx).extent v.header) =
      cell v.file ((Region.entry idx).extent v.header))

include shape sameEntries

/-- A handle whose container agrees on the file table lists the same files. -/
theorem Listed.transfer (listed : Listed v entries files) (layout : Layout v.header) :
    Listed w entries files where
  slots := by
    intro idx inTable
    rw [shape.maxFiles_eq] at inTable
    rw [readSlot_congr shape layout inTable (sameEntries idx inTable)]
    exact listed.slots idx inTable
  shown := by
    rw [shape.maxFiles_eq]
    exact listed.shown
  vacant := by
    rw [shape.maxFiles_eq]
    exact listed.vacant
  described := fun idx file found => (listed.described idx file found).of_sameShape shape
  named := listed.named

/-- A handle whose container agrees on the file table and the stored blocks reads the same
files. -/
theorem Legible.transfer (legible : Legible v entries files) (layout : Layout w.header)
    (key : w.key = v.key)
    (sameBlocks : ∀ idx file, files idx = some file → ∀ block ∈ file.blocks,
      cell w.file ((Region.block block).extent v.header) =
        cell v.file ((Region.block block).extent v.header)) : Legible w entries files where
  toListed := legible.toListed.transfer shape sameEntries legible.layout
  layout := layout
  valid := fun idx file found block member =>
    (shape.valid_iff _).mpr (legible.valid idx file found block member)
  readable := by
    intro idx file found use member
    rw [shape.uses_eq] at member
    have inFile := (legible.described idx file found).block_mem member
    rw [readPhysicalBlock_congr shape legible.layout key (legible.valid idx file found _ inFile)
      (sameBlocks idx file found _ inFile)]
    exact legible.readable idx file found use member

end Transfer

/-- A container in which the stored files of a handle are whole: its header is readable and
wraps the key of the handle, its bitmap marks the stored blocks, and it agrees with the
container of the handle on the file table and on these blocks. -/
structure Shelters (v : Vault) (files : Files) (password : String) (file : Bytes) : Prop where
  header : ∃ h, SameShape v.header h ∧ Layout h ∧ WrapsForPassword h password v.key ∧
    cell file (Region.header.extent v.header) = some h.image
  bitmap : ∃ allocator : BlockAllocator, allocator.blockCount = v.header.blockCount ∧
    cell file (Region.bitmap.extent v.header) = some allocator.bits ∧
    ∀ idx stored, files idx = some stored → ∀ block ∈ stored.blocks,
      block.toNat ∈ allocator.occupied
  entries : ∀ idx, idx < v.header.maxFiles.toNat →
    cell file ((Region.entry idx).extent v.header) =
      cell v.file ((Region.entry idx).extent v.header)
  blocks : ∀ idx stored, files idx = some stored → ∀ block ∈ stored.blocks,
    cell file ((Region.block block).extent v.header) =
      cell v.file ((Region.block block).extent v.header)

/-- The handle that opening a container with a header, a bitmap and a key gives. -/
def Vault.openedOn (v : Vault) (file : Bytes) (h : Header) (allocator : BlockAllocator)
    (identity : Identity) : Vault :=
  { v with
    file := file
    header := h
    allocator := allocator
    adminIdentity :=
      if identity.peerId.signingPublic = h.adminSigningPubkey then some identity else none
    changeLog := []
    seals := [] }

/-- A container whose header and bitmap are readable opens with a password for which the
header wraps a key. -/
theorem openWithPassword_of_cells [Lawful] {v : Vault} {file : Bytes} {h : Header}
    {allocator : BlockAllocator} {password : String} (layout : Layout h)
    (wraps : WrapsForPassword h password v.key)
    (headerCell : cell file (Region.header.extent h) = some h.image)
    (counted : allocator.blockCount = h.blockCount)
    (bitmapCell : cell file (Region.bitmap.extent h) = some allocator.bits)
    (identity : Identity) :
    Vault.openWithPassword file password identity =
      .ok (v.openedOn file h allocator identity) := by
  have adopted : BlockAllocator.fromBytes allocator.bits allocator.blockCount = allocator :=
    allocator.fromBytes_asBytes
  unfold Vault.openWithPassword
  rw [except_bind_of_ok (Tracks.readHeader_of_cell headerCell layout.encodable layout.structured),
    except_bind_of_ok wraps.unwraps,
    except_bind_of_ok (Tracks.readAllocator_of_cell layout bitmapCell), ← counted, adopted]
  rfl

/-- A container that shelters the stored files of a handle opens with the password, reads
them and marks their blocks. -/
theorem Shelters.opens [Lawful] {v : Vault} {entries : Nat → FileEntry} {files : Files}
    {password : String} {file : Bytes} (shelters : Shelters v files password file)
    (legible : Legible v entries files) (identity : Identity) :
    ∃ w, Vault.openWithPassword file password identity = .ok w ∧ Legible w entries files ∧
      ∀ idx stored, files idx = some stored → ∀ block ∈ stored.blocks,
        block.toNat ∈ w.allocator.occupied := by
  obtain ⟨h, shape, layout, wraps, headerCell⟩ := shelters.header
  obtain ⟨allocator, counted, bitmapCell, marks⟩ := shelters.bitmap
  rw [← shape.extent_eq] at headerCell bitmapCell
  rw [← shape.blockCount_eq] at counted
  exact ⟨v.openedOn file h allocator identity,
    openWithPassword_of_cells layout wraps headerCell counted bitmapCell identity,
    legible.transfer shape shelters.entries layout rfl shelters.blocks, marks⟩

/-- The container of a sound vault shelters its stored files. -/
theorem Sound.shelters {v : Vault} {d : Disk} {files : Files} {password : String}
    (sound : Sound v d files) (wraps : WrapsForPassword v.header password v.key) :
    Shelters v files password v.file where
  header := by
    obtain ⟨content, found, rfl, _⟩ := sound.tracks.cells .header trivial trivial
    rw [sound.header] at found
    exact ⟨v.header, SameShape.refl _, sound.tracks.layout, wraps, found⟩
  bitmap := by
    obtain ⟨content, found, rfl⟩ := sound.tracks.cells .bitmap trivial trivial
    rw [sound.bitmap] at found
    exact ⟨v.allocator, sound.counted, found, fun idx stored held block member =>
      sound.occupied_of_mem held member⟩
  entries := fun _ _ => rfl
  blocks := fun _ _ _ _ _ => rfl

end ReVault
