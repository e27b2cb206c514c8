import ReVault.Runs.Refinement

/-!
# The course of a file operation

An accepted file operation frees the blocks of the file of its name, if there is one. Then
it fills the blocks of the new content, if there is any, marks the bitmap and commits the
slot: it writes the slot, the record and the header.
-/

namespace ReVault

open Foundation Primitives

/-- The name of the file that an operation stores, replaces or removes. -/
def Op.target : Op → Option String
  | addFile name _ | updateFile name _ | deleteFile name => some name
  | readFile _ | listFiles | grantAccess _ | revokeAccess _ _ | takeChangeLog | reopen _ => none

section

variable [Primitives]

/-- The part of a file operation that fills blocks of the new file of a slot, marks the
bitmap and commits the slot. -/
structure CommitPhase (v v' : Vault) (d' : Disk) (files : Files) (idx : Nat)
    (slot : Option StoredFile) (before : List Region) : Prop where
  sound' : Sound v' d' (Function.update files idx slot)
  shape : SameShape v.header v'.header
  key : v'.key = v.key
  adminKeySlot : v'.header.adminKeySlot = v.header.adminKeySlot
  wrote : Wrote v.header v v' (before ++ v.commitRegions idx)
  nodup : (before ++ v.commitRegions idx).Nodup
  filled : ∀ region ∈ before, region = .bitmap ∨
    ∃ file block, slot = some file ∧ block ∈ file.blocks ∧ region = .block block
  covers : ∀ file, slot = some file → ∀ block ∈ file.blocks, .block block ∈ before

/-- The course of an accepted file operation on a name: it commits a file to a free slot, or
frees the blocks of the file of the name and commits its slot. -/
inductive Course (v v' : Vault) (d : Disk) (files : Files) (name : String) : Prop
  | fresh {d' : Disk} {idx : Nat} {file : StoredFile} {before : List Region}
      (absent : files.Absent name) (vacant : files idx = none) (named : file.entry.name = name)
      (phase : CommitPhase v v' d' files idx (some file) before)
  | replaced {d' : Disk} {idx : Nat} {slot : Option StoredFile} {before : List Region}
      {old : StoredFile} {all : List UInt64} {freed : Vault}
      (present : files.Present name idx old) (perm : all.Perm old.blocks)
      (named : ∀ file, slot = some file → file.entry.name = name)
      (releases : v.Releases freed d all)
      (phase : CommitPhase freed v' d' files idx slot before)

variable {v v' freed : Vault} {d d' : Disk} {files : Files} {idx : Nat} {name : String}

/-- Storing a file in a slot is a phase that ends with its commit. -/
theorem CommitPhase.of_store {file : StoredFile}
    (sound' : Sound v' d' (Function.update files idx (some file)))
    (shape : SameShape v.header v'.header) (key : v'.key = v.key)
    (adminKeySlot : v'.header.adminKeySlot = v.header.adminKeySlot)
    (wrote : Wrote v.header v v' (v.storeRegions idx file)) :
    CommitPhase v v' d' files idx (some file) (file.blocks.map Region.block ++ [.bitmap]) where
  sound' := sound'
  shape := shape
  key := key
  adminKeySlot := adminKeySlot
  wrote := wrote
  nodup := by
    have distinct : (file.blocks.map Region.block).Nodup :=
      (sound'.stored idx file (Function.update_self ..)).nodup.map fun _ _ => Region.block.inj
    unfold Vault.commitRegions
    simp [List.nodup_append, distinct]
  filled := by
    intro region member
    rcases List.mem_append.mp member with sealing | marking
    · obtain ⟨block, inFile, rfl⟩ := List.mem_map.mp sealing
      exact Or.inr ⟨file, block, rfl, inFile, rfl⟩
    · exact Or.inl (List.mem_singleton.mp marking)
  covers := by
    rintro stored ⟨⟩ block inFile
    exact List.mem_append_left _ (List.mem_map_of_mem inFile)

/-- Emptying a slot is a phase that ends with its commit. -/
theorem CommitPhase.of_delete (sound' : Sound v' d' (Function.update files idx none))
    (shape : SameShape v.header v'.header) (key : v'.key = v.key)
    (adminKeySlot : v'.header.adminKeySlot = v.header.adminKeySlot)
    (wrote : Wrote v.header v v' (v.commitRegions idx)) :
    CommitPhase v v' d' files idx none [] where
  sound' := sound'
  shape := shape
  key := key
  adminKeySlot := adminKeySlot
  wrote := wrote
  nodup := by
    unfold Vault.commitRegions
    simp
  filled := fun _ member => absurd member List.not_mem_nil
  covers := by
    rintro stored ⟨⟩

/-- **Course of a file operation.** Every accepted file operation takes it. -/
theorem Vault.exec_course [Lawful] (sound : Sound v d files) {op : Op}
    (target : op.target = some name) {current : String} {draws : Draws}
    (ran : op.exec current draws v = .ok () v') : Course v v' d files name := by
  have mutates : op.mutates = true := by cases op <;> first | rfl | cases target
  cases authorized : v.adminIdentity with
  | none =>
      rw [op.exec_unauthorized authorized current draws mutates] at ran
      cases ran
  | some admin =>
      cases op with
      | addFile file data =>
          cases target
          have outcome := addFile_yields sound authorized name data draws
          unfold Yields at outcome
          rw [show addFile name data draws v = _ from ran] at outcome
          obtain ⟨can, idx, d', vacant, stores, wrote⟩ := outcome
          exact .fresh can.absent vacant rfl (.of_store stores.sound stores.commits.sameShape
            stores.keepsKeys.key stores.keepsKeys.adminKeySlot wrote)
      | updateFile file data =>
          cases target
          have outcome := updateFile_yields sound authorized name data draws
          unfold Yields at outcome
          rw [show updateFile name data draws v = _ from ran] at outcome
          obtain ⟨_, idx, old, all, d', present, perm, _, stores, freed, releases, wrote⟩ := outcome
          have header : freed.header = v.header := releases.header_eq
          have key : freed.key = v.key := releases.key_eq
          refine .replaced present perm ?_ releases (.of_store stores.sound
            (by rw [header]; exact stores.commits.sameShape)
            (by rw [key]; exact stores.keepsKeys.key)
            (by rw [header]; exact stores.keepsKeys.adminKeySlot) ?_)
          · rintro file ⟨⟩
            rfl
          · unfold storeRegions commitRegions
            rw [header]
            exact wrote
      | deleteFile file =>
          cases target
          have outcome := deleteFile_yields sound authorized name draws
          unfold Yields at outcome
          rw [show deleteFile name draws v = _ from ran] at outcome
          obtain ⟨idx, old, d', present, deletes, all, freed, perm, releases, wrote⟩ := outcome
          have header : freed.header = v.header := releases.header_eq
          have key : freed.key = v.key := releases.key_eq
          refine .replaced present perm ?_ releases (.of_delete deletes.sound
            (by rw [header]; exact deletes.commits.sameShape)
            (by rw [key]; exact deletes.keepsKeys.key)
            (by rw [header]; exact deletes.keepsKeys.adminKeySlot) ?_)
          · rintro file ⟨⟩
          · unfold commitRegions
            rw [header]
            exact wrote
      | _ => cases target

end

end ReVault
