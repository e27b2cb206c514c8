import ReVault.Runs.Course
import ReVault.Sync.Log

/-!
# The frame of an operation

An operation that is refused changes nothing. A file operation that is accepted writes the
header, the bitmap, the slot of its file, the ring slot of its record and the blocks that
its file owns afterwards, all inside the container. None of these blocks is one of another
file, and the blocks of the other files keep their bytes. A revocation writes neither the bitmap
nor the file table.
-/

namespace ReVault

open Foundation Primitives

section

variable [Primitives]

/-! ## Refusals -/

/-- A handle on which a mutation that is refused changes nothing. A handle without the
admin's identity is refused every mutation, and an update that passes its own space check is
not refused for space once it has freed the old blocks. -/
structure Vault.RefusesCleanly (v : Vault) (current : String) : Prop where
  refused : ∀ (op : Op) (draws : Draws) (fault : Fault) (v' : Vault), op.mutates = true →
    op.exec current draws v = .error fault v' → fault.refusal = true → v' = v
  unauthorized : ∀ (handle : Vault) (op : Op) (draws : Draws), handle.adminIdentity = none →
    op.mutates = true → op.exec current draws handle = .error (.error .notAuthorized) handle
  spaced : ∀ (name : String) (data : Bytes) (idx : Nat) (old : FileEntry)
    (blocks : List UInt64), v.planUpdate name data.length = .ok (idx, old, blocks) →
    ∃ freed, releaseBlocks blocks v = .ok () freed ∧ ∀ requested available final,
      storeNewContent old.id data freed ≠
        .error (.error (.insufficientSpace requested available)) final

namespace Vault

variable {v : Vault} {d : Disk} {files : Files}

/-- Content for which there is room is not stored only when a write fails. -/
theorem storeNewContent_error [Lawful] (placed : Placed v d files) {id : BitVec 128}
    {data : Bytes} (room : v.header.blocksFor data.length ≤ v.allocator.freeCount) {fault : Fault}
    {final : Vault} (failed : storeNewContent id data v = .error fault final) :
    fault = .error .io := by
  have unnamed : (utf8 "").length ≤ maxFilenameLen := Nat.zero_le _
  have outcome : Yields (storeNewContent id data) v _ _ :=
    storeNewContent_yields placed.tracks placed.counted placed.takenValid
      (places_placedFile id "" 0 0 room)
      (describes_placedFile id "" 0 0 placed.tracks.layout.blockSize
        (room_of_layout placed.tracks.layout placed.counted) room unnamed)
  unfold Yields at outcome
  rw [failed] at outcome
  exact outcome.1

/-- Content whose update was planned finds room once the old blocks are freed. -/
theorem storeNewContent_of_planned [Lawful] (sound : Sound v d files) {name : String}
    {data : Bytes} {idx : Nat} {old : FileEntry} {blocks : List UInt64}
    (planned : v.planUpdate name data.length = .ok (idx, old, blocks)) :
    ∃ freed, releaseBlocks blocks v = .ok () freed ∧ ∀ fault final,
      storeNewContent old.id data freed = .error fault final → fault = .error .io := by
  cases authorized : v.adminIdentity with
  | none =>
      unfold planUpdate locate at planned
      rw [except_bind_of_error (except_bind_of_error (requireAdmin_refused authorized))] at planned
      cases planned
  | some admin =>
      rcases files.absent_or_present name with absent | ⟨slot, file, present⟩
      · unfold planUpdate at planned
        rw [except_bind_of_error (locate_of_absent sound authorized absent)] at planned
        cases planned
      · obtain ⟨all, perm, plan⟩ := planUpdate_of_present sound authorized present
        rw [plan] at planned
        split at planned
        · cases planned
        · rename_i enough
          cases planned
          obtain ⟨image, log, ran, placed, _⟩ := release_placed sound present.1 perm
          refine ⟨_, ran, fun fault final => storeNewContent_error placed ?_⟩
          change _ ≤ (v.released blocks).allocator.freeCount
          rw [freeCount_released sound present.1 perm, ← perm.length_eq]
          exact Nat.le_of_not_lt enough

end Vault

/-- **Refusals.** Every handle that a run reaches refuses cleanly. -/
theorem Run.refuses_cleanly [Lawful] {password : String} {origin v : Vault}
    {trace : List Step} {name description : String} {capacityBytes : UInt64} {admin : Identity}
    {draws : Draws}
    (created : Vault.create name description capacityBytes password admin draws = .ok origin)
    (run : Run password origin trace v) : v.RefusesCleanly (passwordAfter password trace) := by
  obtain ⟨d, files, healthy⟩ := run.healthy created
  constructor
  · intro op draws' fault v' mutates ran refusal
    rcases healthy.step_cases (Takes.of_error ran refusal) with ⟨_, same⟩ | ⟨accepted, _⟩
    · exact same
    · cases accepted
  · intro handle op draws' unauthorized mutates
    exact op.exec_unauthorized unauthorized _ draws' mutates
  · intro file data idx old blocks planned
    obtain ⟨freed, ran, stops⟩ := Vault.storeNewContent_of_planned healthy.sound planned
    refine ⟨freed, ran, fun requested available final failed => ?_⟩
    cases stops _ _ failed

/-! ## Frames -/

namespace Vault

/-- The slot of a name in the file table. -/
def SlotOf (v : Vault) (name : String) (idx : Nat) : Prop :=
  ∃ entry, v.findSlotByName name = .ok (some (idx, entry))

/-- A data or index block of the file with a name. -/
def OwnsBlock (v : Vault) (name : String) (block : UInt64) : Prop :=
  ∃ idx entry blocks, v.findSlotByName name = .ok (some (idx, entry)) ∧
    v.collectAllBlocks entry = .ok blocks ∧ block ∈ blocks

/-- The regions that a file operation on the name of a slot may fill: the header, the bitmap,
the slot, the ring slot of the new record and the blocks that the name owns afterwards. -/
def MayFill (v v' : Vault) (name : String) (idx : Nat) : Region → Prop
  | .header | .bitmap => True
  | .entry other => other = idx
  | .recipient _ => False
  | .record other => other = Layout.ringSlot v.header v.header.chainNextSeq
  | .block block => v'.OwnsBlock name block

/-- Every range written is a region of one kind inside the container, and all other regions
keep their bytes. -/
structure Frames (allowed : Region → Prop) (v v' : Vault) : Prop where
  ranges : ∃ piece, Logged v v' piece ∧ ∀ range ∈ piece, ∃ region, allowed region ∧
    Fills v.header region range ∧ (region.extent v.header).stop ≤ v.file.length
  others : ∀ region : Region, region.Valid v.header → ¬ allowed region →
    cell v'.file (region.extent v.header) = cell v.file (region.extent v.header)

section Frames

variable {v v' : Vault} {d d' : Disk} {files : Files} {name : String} {idx : Nat}
  {file : StoredFile}

omit [Primitives] in
/-- A handle that fills regions of one kind only, in a complete container, stays in its
frame. -/
theorem frames_of_wroteOnly {allowed : Region → Prop} (wrote : WroteOnly v.header allowed v v')
    (layout : Layout v.header)
    (complete : v.header.dataOffset.toNat +
      v.header.blockCount.toNat * v.header.blockSize.toNat ≤ v.file.length) :
    Frames allowed v v' := by
  have inside : ∀ region : Region, region.Valid v.header →
      (region.extent v.header).stop ≤ v.file.length := fun region valid =>
    (layout.stop_le_total region valid).trans complete
  obtain ⟨regions, filled, only⟩ := wrote
  constructor
  · obtain ⟨piece, logged, fills⟩ := filled
    refine ⟨piece, logged, fun range member => ?_⟩
    obtain ⟨region, inRegions, fill⟩ := exists_filled fills member
    exact ⟨region, only region inRegions, fill, inside region fill.valid⟩
  · intro region valid outside
    have found := readAt_of_le (inside region valid)
    have kept := filled.cell_eq layout valid (fun member => outside (only region member)) found
    rw [kept]
    exact found.symm

/-- The blocks of a stored file are those its name owns. -/
theorem ownsBlock_of_present [Lawful] (sound : Sound v d files)
    (present : files.Present name idx file) {block : UInt64} (member : block ∈ file.blocks) :
    v.OwnsBlock name block := by
  obtain ⟨all, collected, perm⟩ :=
    (sound.stored idx file present.1).collectAllBlocks_eq sound.tracks
  exact ⟨idx, file.entry, all, sound.findSlotByName_of_present present, collected,
    perm.mem_iff.mpr member⟩

/-- A name has the slot of its stored file and no other. -/
theorem slotOf_iff (sound : Sound v d files) (other : Nat) :
    v.SlotOf name other ↔ ∃ file, files.Present name other file := by
  constructor
  · rintro ⟨entry, found⟩
    rcases files.absent_or_present name with absent | ⟨slot, file, present⟩
    · rw [sound.findSlotByName_of_absent absent] at found
      cases found
    · rw [sound.findSlotByName_of_present present] at found
      cases found
      exact ⟨file, present⟩
  · rintro ⟨file, present⟩
    exact ⟨file.entry, sound.findSlotByName_of_present present⟩

/-- A stored file's name owns its blocks and no other. -/
theorem ownsBlock_iff [Lawful] (sound : Sound v d files) (block : UInt64) :
    v.OwnsBlock name block ↔ ∃ idx file, files.Present name idx file ∧ block ∈ file.blocks := by
  constructor
  · rintro ⟨slot, entry, blocks, found, collected, member⟩
    obtain ⟨file, present⟩ := (slotOf_iff sound slot).mp ⟨entry, found⟩
    rw [sound.findSlotByName_of_present present] at found
    cases found
    obtain ⟨all, collected', perm⟩ :=
      (sound.stored slot file present.1).collectAllBlocks_eq sound.tracks
    cases collected.symm.trans collected'
    exact ⟨slot, file, present, perm.mem_iff.mp member⟩
  · rintro ⟨slot, file, present, member⟩
    exact ownsBlock_of_present sound present member

/-- The regions of a commit are the slot, the ring slot of the new record and the header. -/
theorem mayFill_of_mem_commitRegions {region : Region} (member : region ∈ v.commitRegions idx) :
    MayFill v v' name idx region := by
  rcases List.mem_cons.mp member with rfl | later
  · rfl
  · rcases List.mem_pair.mp later with rfl | rfl
    · rfl
    · trivial

/-- A phase that commits a file of a name fills what it may. -/
theorem mayFill_of_mem_phase [Lawful] {slot : Option StoredFile} {before : List Region}
    (phase : CommitPhase v v' d' files idx slot before)
    (named : ∀ file, slot = some file → file.entry.name = name) {region : Region}
    (member : region ∈ before ++ v.commitRegions idx) : MayFill v v' name idx region := by
  rcases List.mem_append.mp member with filled | committed
  · rcases phase.filled region filled with rfl | ⟨file, block, rfl, inFile, rfl⟩
    · trivial
    · exact ownsBlock_of_present phase.sound' ⟨Function.update_self .., named file rfl⟩ inFile
  · exact mayFill_of_mem_commitRegions committed

end Frames

/-- A block of a file keeps its owner and its bytes. -/
structure KeepsBlock (v v' : Vault) (name : String) (block : UInt64) : Prop where
  owned : v'.OwnsBlock name block
  bytes : cell v'.file ((Region.block block).extent v.header) =
    cell v.file ((Region.block block).extent v.header)

/-- An accepted file operation: it stays in its frame, the slot it writes is the only one that
its name has before or after, and the blocks of the other files are not written. -/
structure StaysInFrame (v v' : Vault) (name : String) (idx : Nat) : Prop where
  slot : v.SlotOf name idx ∨ v'.SlotOf name idx
  only : ∀ other, v.SlotOf name other ∨ v'.SlotOf name other → other = idx
  frames : Frames (MayFill v v' name idx) v v'
  spares : ∀ other, other ≠ name → ∀ block, v.OwnsBlock other block →
    ¬ v'.OwnsBlock name block ∧ v.KeepsBlock v' other block

section StaysInFrame

variable {v v' : Vault} {d d' : Disk} {files : Files} {name : String} {idx : Nat}
  {slot : Option StoredFile} (sound : Sound v d files)
  (sound' : Sound v' d' (Function.update files idx slot))
  (named : ∀ file, files idx = some file → file.entry.name = name)
  (unique : ∀ other file, files.Present name other file → other = idx)
  (complete : v.header.dataOffset.toNat +
    v.header.blockCount.toNat * v.header.blockSize.toNat ≤ v.file.length)

include sound sound' named

/-- The blocks of another file stay with it. -/
theorem ownsBlock_other [Lawful] {other : String} (different : other ≠ name) {block : UInt64}
    (owns : v.OwnsBlock other block) :
    v'.OwnsBlock other block ∧ ¬ v'.OwnsBlock name block := by
  obtain ⟨place, file, ⟨found, called⟩, member⟩ := (ownsBlock_iff sound block).mp owns
  have apart : place ≠ idx := by
    rintro rfl
    exact different (called.symm.trans (named file found))
  have still : Function.update files idx slot place = some file := by
    rw [Function.update_of_ne apart]
    exact found
  refine ⟨ownsBlock_of_present sound' ⟨still, called⟩ member, fun taken => ?_⟩
  obtain ⟨place', file', ⟨found', called'⟩, member'⟩ := (ownsBlock_iff sound' block).mp taken
  have elsewhere : place ≠ place' := by
    rintro rfl
    cases still.symm.trans found'
    exact different (called.symm.trans called')
  exact sound'.notMem_of_ne still found' elsewhere member member'

include unique complete

/-- A handle that only fills what it may while one slot changes stays in its frame. -/
theorem staysInFrame_of_wrote [Lawful] (held : v.SlotOf name idx ∨ v'.SlotOf name idx)
    {regions : List Region} (wrote : Wrote v.header v v' regions)
    (may : ∀ region ∈ regions, MayFill v v' name idx region) :
    v.StaysInFrame v' name idx where
  slot := held
  only := by
    rintro other (before | after)
    · obtain ⟨file, present⟩ := (slotOf_iff sound other).mp before
      exact unique other file present
    · obtain ⟨file, found, named⟩ := (slotOf_iff sound' other).mp after
      by_contra different
      rw [Function.update_of_ne different] at found
      exact different (unique other file ⟨found, named⟩)
  frames := frames_of_wroteOnly ⟨regions, wrote, may⟩ sound.tracks.layout complete
  spares := by
    intro other different block owns
    obtain ⟨kept, free⟩ := ownsBlock_other sound sound' named different owns
    obtain ⟨place, file, present, member⟩ := (ownsBlock_iff sound block).mp owns
    have valid := (sound.stored place file present.1).valid_of_mem sound.tracks member
    have frames := frames_of_wroteOnly ⟨regions, wrote, may⟩ sound.tracks.layout complete
    exact ⟨free, kept, frames.others (.block block) valid free⟩

end StaysInFrame

/-- **Frame of a file operation.** When it is accepted on a complete container, it stays in
its frame. -/
theorem exec_staysInFrame [Lawful] {v v' : Vault} {d : Disk} {files : Files}
    (sound : Sound v d files) {op : Op} {name : String} (target : op.target = some name)
    {current : String} {draws : Draws} (ran : op.exec current draws v = .ok () v')
    (complete : v.header.dataOffset.toNat +
      v.header.blockCount.toNat * v.header.blockSize.toNat ≤ v.file.length) :
    ∃ idx, v.StaysInFrame v' name idx := by
  cases exec_course sound target ran with
  | @fresh _ idx file _ absent vacant named phase =>
      have stored : v'.SlotOf name idx :=
        (slotOf_iff phase.sound' idx).mpr ⟨file, Function.update_self .., named⟩
      have noneBefore : ∀ old, files idx = some old → old.entry.name = name := by
        intro old found
        rw [vacant] at found
        cases found
      refine ⟨idx, staysInFrame_of_wrote sound phase.sound' noneBefore
        (fun other old held => absurd held.2 (absent other old held.1)) complete
        (Or.inr stored) phase.wrote fun region member => mayFill_of_mem_phase phase ?_ member⟩
      rintro file' ⟨⟩
      exact named
  | @replaced _ idx _ _ old _ freed present _ named releases phase =>
      have header : freed.header = v.header := releases.header_eq
      have wrote := phase.wrote
      rw [header] at wrote
      have namedBefore : ∀ file, files idx = some file → file.entry.name = name := by
        intro file found
        cases present.1.symm.trans found
        exact present.2
      refine ⟨idx, staysInFrame_of_wrote sound phase.sound' namedBefore (fun other file held =>
          sound.named other idx file old held.1 present.1 (held.2.trans present.2.symm))
        complete (Or.inl ((slotOf_iff sound idx).mpr ⟨old, present⟩))
        (releases.wrote.trans wrote) fun region member => ?_⟩
      rcases List.mem_append.mp member with released | committed
      · rw [List.mem_singleton.mp released]
        trivial
      · have may := mayFill_of_mem_phase phase named committed
        unfold MayFill at may ⊢
        rwa [header] at may

/-- **Frame of a revocation.** However it ends, it writes neither the bitmap nor the file
table. -/
theorem revokeAccess_writesOnly [Lawful] {v : Vault} {d : Disk} {files : Files}
    (sound : Sound v d files) (signingPubkey : ByteArr 32) (other : String) (draws : Draws) :
    WroteOnly v.header Region.Rotates v
      (finalState (revokeAccess signingPubkey other draws v)) := by
  cases authorized : v.adminIdentity with
  | none =>
      have refused : (Op.revokeAccess signingPubkey other).exec other draws v = _ :=
        Op.exec_unauthorized authorized other draws rfl
      rw [show revokeAccess signingPubkey other draws v = _ from refused]
      exact WroteOnly.nothing rfl rfl
  | some admin =>
      have outcome := revokeAccess_yields sound authorized signingPubkey other draws
      unfold Yields at outcome
      split at outcome
      · rename_i final ran
        obtain ⟨_, _, _, _, _, only⟩ := outcome
        rw [ran]
        exact only
      · rename_i fault final ran
        rw [ran]
        rcases outcome with ⟨_, rfl, _⟩ | ⟨_, _, _, only⟩
        · exact WroteOnly.nothing rfl rfl
        · exact only

end Vault

/-- A handle whose file operations stay in their frames and whose revocations, however they
end, write neither the bitmap nor the file table. -/
structure Vault.KeepsFrames (v : Vault) (current : String) : Prop where
  edits : ∀ (op : Op) (name : String) (draws : Draws) (v' : Vault), op.target = some name →
    op.exec current draws v = .ok () v' → ∃ idx, v.StaysInFrame v' name idx
  revokes : ∀ (signingPubkey : ByteArr 32) (other : String) (draws : Draws),
    Frames Region.Rotates v (finalState (revokeAccess signingPubkey other draws v))

/-- **Frame.** On a container whose size fits in 64 bits every handle that a run reaches
keeps its frames. -/
theorem Run.keeps_frames [Lawful] {password : String} {origin v : Vault} {trace : List Step}
    {name description : String} {capacityBytes : UInt64} {admin : Identity} {draws : Draws}
    (created : Vault.create name description capacityBytes password admin draws = .ok origin)
    (sized : origin.header.Sized) (run : Run password origin trace v) :
    v.KeepsFrames (passwordAfter password trace) := by
  obtain ⟨d, files, healthy⟩ := run.healthy created
  have complete : v.header.dataOffset.toNat +
      v.header.blockCount.toNat * v.header.blockSize.toNat ≤ v.file.length := by
    have total := Vault.length_of_create created
    have shape := healthy.shape
    unfold SameShape at shape
    rw [Vault.toNat_totalContainerSize sized] at total
    rw [shape]
    exact total.trans (run.length_le created)
  constructor
  · intro op file draws' v' target ran
    exact Vault.exec_staysInFrame healthy.sound target ran complete
  · intro signingPubkey other draws'
    exact Vault.frames_of_wroteOnly (Vault.revokeAccess_writesOnly healthy.sound ..)
      healthy.sound.tracks.layout complete

end

namespace Transparent

/-- A vault with a file refuses cleanly. -/
theorem refuses_cleanly_added : ∃ origin v,
    Vault.create "v" "" 65536 "p" (identity 1) (draws 1) = .ok origin ∧
    Run "p" origin [⟨.addFile "a" [1, 2, 3], draws 2, true⟩] v ∧ v.RefusesCleanly "p" := by
  obtain ⟨origin, v, created, _, run⟩ := exists_added
  exact ⟨origin, v, created, run, Run.refuses_cleanly created run⟩

/-- It keeps its frames. -/
theorem keeps_frames_added : ∃ origin v,
    Vault.create "v" "" 65536 "p" (identity 1) (draws 1) = .ok origin ∧
    Run "p" origin [⟨.addFile "a" [1, 2, 3], draws 2, true⟩] v ∧ v.KeepsFrames "p" := by
  obtain ⟨origin, v, created, sized, run⟩ := exists_added
  exact ⟨origin, v, created, run, Run.keeps_frames created sized run⟩

end Transparent

end ReVault
