import ReVault.Runs.Reach

/-!
# The vault as a finite map

A reachable vault shows the catalog of its trace: reading and listing return what the
catalog maps, and on an admin's handle a file operation succeeds exactly when the catalog,
the free slots and the free blocks allow it.
-/

namespace ReVault

open Foundation Primitives

/-- The regions fit under a header of the same shape. -/
theorem SameShape.fits {h h' : Header} (same : SameShape h h') (fits : h.Fits) : h'.Fits := by
  intro block below
  rw [same.blockCount_eq] at below
  rw [same.valid_iff]
  exact fits block below

section

variable [Primitives]

namespace Vault

/-- A handle shows a catalog: each name reads back its content, and the listing has
every present name once, with the size of its content. -/
structure Displays (v : Vault) (catalog : Catalog) : Prop where
  reads : ∀ name, v.readFile name = match catalog name with
    | some data => .ok data
    | none => .error (.error (.fileNotFound name))
  lists : ∃ infos, v.listFiles = .ok infos ∧ (infos.map fun info => info.name).Nodup ∧
    ∀ name size, (∃ info ∈ infos, info.name = name ∧ info.size.toNat = size) ↔
      ∃ data, catalog name = some data ∧ data.length = size

/-- When the file operations on a handle succeed. -/
structure Serves (v : Vault) (catalog : Catalog) : Prop where
  adds : ∀ name data draws, (∃ v', addFile name data draws v = .ok () v') ↔
    (1 ≤ (utf8 name).length ∧ (utf8 name).length ≤ 128) ∧ catalog name = none ∧
    (∃ idx entry, idx < v.header.maxFiles.toNat ∧ v.readSlot idx = .ok entry ∧
      entry.isOccupied = false) ∧
    v.header.blocksFor data.length ≤ v.allocator.freeCount
  updates : ∀ name data draws, (∃ v', updateFile name data draws v = .ok () v') ↔
    ∃ old, catalog name = some old ∧ v.header.blocksFor data.length ≤
      v.allocator.freeCount + v.header.blocksFor old.length
  deletes : ∀ name draws, (∃ v', deleteFile name draws v = .ok () v') ↔
    ∃ old, catalog name = some old

end Vault

variable {v : Vault} {d : Disk} {files : Files} {catalog : Catalog}

omit [Primitives] in
/-- A name is free in the catalog exactly when no file has it. -/
theorem Files.Shows.none_iff (shows : files.Shows catalog) (name : String) :
    catalog name = none ↔ files.Absent name := by
  constructor
  · intro absent idx file found named
    have present := (shows name file.data).mpr ⟨idx, file, ⟨found, named⟩, rfl⟩
    rw [absent] at present
    cases present
  · intro absent
    cases held : catalog name with
    | none => rfl
    | some data =>
        obtain ⟨idx, file, present, _⟩ := (shows name data).mp held
        exact absurd present.2 (absent idx file present.1)

/-- A sound vault shows the catalog of its stored files. -/
theorem Sound.displays [Lawful] (sound : Sound v d files) (shows : files.Shows catalog) :
    v.Displays catalog where
  reads := by
    intro name
    cases held : catalog name with
    | none => exact sound.readFile_of_absent ((shows.none_iff name).mp held)
    | some data =>
        obtain ⟨idx, file, present, rfl⟩ := (shows name data).mp held
        exact sound.readFile_of_present present
  lists := by
    refine ⟨_, sound.listFiles_eq, sound.nodup_names, fun name size => ?_⟩
    constructor
    · rintro ⟨info, member, rfl, rfl⟩
      obtain ⟨idx, file, found, rfl⟩ := (sound.mem_infos info).mp member
      exact ⟨file.data, (shows _ _).mpr ⟨idx, file, ⟨found, rfl⟩, rfl⟩,
        ((sound.stored idx file found).size).symm⟩
    · rintro ⟨data, held, rfl⟩
      obtain ⟨idx, file, present, rfl⟩ := (shows name data).mp held
      exact ⟨file.info, (sound.mem_infos _).mpr ⟨idx, file, present.1, rfl⟩, present.2,
        (sound.stored idx file present.1).size⟩

/-- On the admin's handle of a container that fits, an operation succeeds exactly when the
catalog, the slots and the blocks allow it. -/
theorem Sound.serves [Lawful] (sound : Sound v d files) (shows : files.Shows catalog)
    (fits : v.header.Fits) {admin : Identity} (authorized : v.adminIdentity = some admin) :
    v.Serves catalog where
  adds := by
    intro name data draws
    have vacancy : (∃ idx, idx < v.header.maxFiles.toNat ∧ files idx = none) ↔
        ∃ idx entry, idx < v.header.maxFiles.toNat ∧ v.readSlot idx = .ok entry ∧
          entry.isOccupied = false := by
      constructor
      · rintro ⟨idx, inTable, vacant⟩
        exact ⟨idx, d.entries idx, inTable, Vault.readSlot_eq sound.tracks inTable,
          sound.vacant idx inTable vacant⟩
      · rintro ⟨idx, entry, inTable, read, free⟩
        rw [Vault.readSlot_eq sound.tracks inTable] at read
        cases read
        refine ⟨idx, inTable, ?_⟩
        cases found : files idx with
        | none => rfl
        | some file =>
            rw [(sound.isOccupied_iff inTable).mpr ⟨file, found⟩] at free
            cases free
    rw [shows.none_iff, ← vacancy]
    have outcome := Vault.addFile_yields sound authorized name data draws
    have spelled : v.CanAdd files name data.length ↔
        (1 ≤ (utf8 name).length ∧ (utf8 name).length ≤ 128) ∧ files.Absent name ∧
        (∃ idx, idx < v.header.maxFiles.toNat ∧ files idx = none) ∧
        v.header.blocksFor data.length ≤ v.allocator.freeCount :=
      ⟨fun can => ⟨can.named, can.absent, can.slot, can.space⟩,
        fun ⟨named, absent, slot, space⟩ => ⟨named, absent, slot, space⟩⟩
    rw [← spelled]
    refine outcome.exists_ok_iff (fun _ _ post => post.1) ?_
    rintro fault v' (⟨_, cannot⟩ | ⟨_, misfit⟩)
    · exact cannot
    · exact absurd fits misfit
  updates := by
    intro name data draws
    have outcome := Vault.updateFile_yields sound authorized name data draws
    have spelled : v.CanUpdate files name data.length ↔
        ∃ old, catalog name = some old ∧ v.header.blocksFor data.length ≤
          v.allocator.freeCount + v.header.blocksFor old.length := by
      constructor
      · rintro ⟨idx, file, present, enough⟩
        refine ⟨file.data, (shows _ _).mpr ⟨idx, file, present, rfl⟩, ?_⟩
        rw [← (sound.stored idx file present.1).length_blocks]
        exact enough
      · rintro ⟨old, held, enough⟩
        obtain ⟨idx, file, present, rfl⟩ := (shows name old).mp held
        refine ⟨idx, file, present, ?_⟩
        rw [(sound.stored idx file present.1).length_blocks]
        exact enough
    rw [← spelled]
    refine outcome.exists_ok_iff (fun _ _ post => post.1) ?_
    rintro fault v' (⟨_, cannot⟩ | ⟨_, misfit⟩)
    · exact cannot
    · exact absurd fits misfit
  deletes := by
    intro name draws
    have outcome := Vault.deleteFile_yields sound authorized name draws
    refine outcome.exists_ok_iff ?_ ?_
    · rintro _ v' ⟨idx, old, d', present, _⟩
      exact ⟨old.data, (shows _ _).mpr ⟨idx, old, present, rfl⟩⟩
    · rintro fault v' ⟨_, absent⟩ ⟨old, held⟩
      rw [(shows.none_iff name).mpr absent] at held
      cases held

namespace Run

variable [Lawful] {password : String} {origin : Vault} {trace : List Step}
  {name description : String} {capacityBytes : UInt64} {admin : Identity} {draws : Draws}

/-- On an admin's handle the file operations succeed exactly when they can. -/
theorem serves
    (created : Vault.create name description capacityBytes password admin draws = .ok origin)
    (sized : origin.header.Sized) (run : Run password origin trace v) (isAdmin : v.isAdmin = true) :
    v.Serves (catalogAfter trace) := by
  obtain ⟨d, files, healthy⟩ := run.healthy created
  have spec := Vault.create_spec created
  obtain ⟨identity, authorized⟩ := Option.isSome_iff_exists.mp isAdmin
  exact healthy.sound.serves healthy.shown
    (healthy.shape.fits (Vault.fits_of_sized spec.sized sized)) authorized

/-- **Refinement.** Every reachable vault shows the catalog of its trace, and on an
admin's handle the file operations succeed exactly when they can. -/
theorem refines_catalog
    (created : Vault.create name description capacityBytes password admin draws = .ok origin)
    (sized : origin.header.Sized) (run : Run password origin trace v) :
    v.Displays (catalogAfter trace) ∧ (v.isAdmin = true → v.Serves (catalogAfter trace)) := by
  obtain ⟨d, files, healthy⟩ := run.healthy created
  exact ⟨healthy.sound.displays healthy.shown, run.serves created sized⟩

/-- The admin can write a file again with content of the same length. -/
theorem exists_update {file : String} {old data : Bytes}
    (created : Vault.create name description capacityBytes password admin draws = .ok origin)
    (sized : origin.header.Sized) (run : Run password origin trace v) (isAdmin : v.isAdmin = true)
    (present : catalogAfter trace file = some old) (length : data.length = old.length)
    (draws' : Draws) : ∃ v', Vault.updateFile file data draws' v = .ok () v' := by
  apply ((run.serves created sized isAdmin).updates file data draws').mpr
  refine ⟨old, present, ?_⟩
  rw [length]
  exact Nat.le_add_left _ _

/-- The admin can write a file again any number of times. -/
theorem exists_updates {file : String} {data : Bytes}
    (created : Vault.create name description capacityBytes password admin draws = .ok origin)
    (sized : origin.header.Sized) (run : Run password origin trace v) (isAdmin : v.isAdmin = true)
    (present : catalogAfter trace file = some data) (draws' : Draws) (count : Nat) :
    ∃ v', Run password origin
      (trace ++ List.replicate count ⟨.updateFile file data, draws', true⟩) v' ∧
      v'.isAdmin = true ∧ catalogAfter
        (trace ++ List.replicate count ⟨.updateFile file data, draws', true⟩) file = some data := by
  induction count with
  | zero =>
      rw [List.replicate_zero, List.append_nil]
      exact ⟨v, run, isAdmin, present⟩
  | succ count ih =>
      obtain ⟨w, reached, isAdmin, present⟩ := ih
      obtain ⟨v', ran⟩ := reached.exists_update created sized isAdmin present rfl draws'
      have accepted : Run password origin (trace ++
          List.replicate count ⟨.updateFile file data, draws', true⟩ ++
          [⟨.updateFile file data, draws', true⟩]) v' := Run.accept reached ran
      rw [List.replicate_succ', ← List.append_assoc]
      refine ⟨v', accepted, accepted.isAdmin created rfl rfl, ?_⟩
      unfold catalogAfter
      rw [Step.fold_accepted _ _ _ rfl]
      simp only [Step.setsCatalog, Function.update_self]

end Run

end

namespace Transparent

/-- A file can be added to the sample container. -/
theorem exists_added : ∃ origin v,
    Vault.create "v" "" 65536 "p" (identity 1) (draws 1) = .ok origin ∧ origin.header.Sized ∧
    Run "p" origin [⟨.addFile "a" [1, 2, 3], draws 2, true⟩] v := by
  obtain ⟨origin, created, sized⟩ := exists_container
  have spec := Vault.create_spec created
  obtain ⟨slot, header⟩ := spec.header
  have serves := spec.sound.serves (Healthy.created spec).shown
    (Vault.fits_of_sized spec.sized sized) spec.adminIdentity
  have inTable : 0 < origin.header.maxFiles.toNat := by
    rw [header]
    exact lt_of_lt_of_le (by decide) (Vault.newMaxFiles_bounds 65536).1
  have space : origin.header.blocksFor 3 ≤ origin.allocator.freeCount := by
    rw [Header.blocksFor_eq (by rw [header]; rfl), spec.allocator,
      BlockAllocator.freeCount_eq, BlockAllocator.occupied_new, header]
    change blocksOfSize 3 ≤ ((65536 : UInt64) / defaultBlockSize.toUInt64).toNat - 0
    decide
  obtain ⟨v, ran⟩ := (serves.adds "a" [1, 2, 3] (draws 2)).mpr ⟨by decide, rfl,
    ⟨0, FileEntry.empty, inTable, Vault.readSlot_eq spec.sound.tracks inTable, rfl⟩, space⟩
  exact ⟨origin, v, created, sized, Run.accept .nil ran⟩

/-- A vault with a file displays its catalog. -/
theorem refines_catalog_added : ∃ origin v,
    Vault.create "v" "" 65536 "p" (identity 1) (draws 1) = .ok origin ∧
    Run "p" origin [⟨.addFile "a" [1, 2, 3], draws 2, true⟩] v ∧
    v.Displays (catalogAfter [⟨.addFile "a" [1, 2, 3], draws 2, true⟩]) ∧
    (v.isAdmin = true →
      v.Serves (catalogAfter [⟨.addFile "a" [1, 2, 3], draws 2, true⟩])) := by
  obtain ⟨origin, v, created, sized, run⟩ := exists_added
  exact ⟨origin, v, created, run, Run.refines_catalog created sized run⟩

end Transparent

end ReVault
