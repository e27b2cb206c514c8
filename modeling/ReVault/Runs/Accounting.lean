import Mathlib.Algebra.GroupWithZero.Nat
import ReVault.Runs.Refinement

/-!
# Block ownership and space

In a reachable vault the occupied blocks are the disjoint union of the blocks that the
walks over the occupied entries return, and the space in use is what the sizes of the
listed files call for. No block leaks and none is handed out twice.
-/

namespace ReVault

open Foundation Primitives

section

variable [Primitives]

namespace Vault

/-- The walk over the occupied entry of a slot returns these blocks. -/
def HoldsBlocks (v : Vault) (idx : Nat) (blocks : List UInt64) : Prop :=
  ∃ entry, idx < v.header.maxFiles.toNat ∧ v.readSlot idx = .ok entry ∧
    entry.isOccupied = true ∧ v.collectAllBlocks entry = .ok blocks

/-- Every block in use belongs to one file, once, and the space in use is exact. -/
structure Accounts (v : Vault) : Prop where
  walks : ∀ idx entry, idx < v.header.maxFiles.toNat → v.readSlot idx = .ok entry →
    entry.isOccupied = true → ∃ blocks, v.collectAllBlocks entry = .ok blocks
  union : ∀ number, number ∈ v.allocator.occupied ↔
    ∃ idx blocks, v.HoldsBlocks idx blocks ∧ number ∈ blocks.map UInt64.toNat
  apart : ∀ idx idx' blocks blocks', v.HoldsBlocks idx blocks → v.HoldsBlocks idx' blocks' →
    idx ≠ idx' → List.Disjoint blocks blocks'
  once : ∀ idx blocks, v.HoldsBlocks idx blocks → blocks.Nodup
  inside : ∀ idx blocks, v.HoldsBlocks idx blocks → ∀ block ∈ blocks,
    block < v.header.blockCount
  bitmap : readAllocator v.file v.header = .ok v.allocator
  used : ∃ infos, v.listFiles = .ok infos ∧ v.usedBytes.toNat =
    v.header.blockSize.toNat * (infos.map fun info => blocksOfSize info.size.toNat).sum

end Vault

/-! ## Counting -/

omit [Primitives] in
/-- Summing over the slots is summing over the listing. -/
private theorem sum_slots_eq {files : Files} (count : Nat) (sized : ∀ idx file,
    files idx = some file → (ownedBy files idx).card = blocksOfSize file.entry.size.toNat) :
    ∑ idx ∈ Finset.range count, (ownedBy files idx).card =
      (((List.range count).filterMap fun idx => (files idx).map StoredFile.info).map
        fun info => blocksOfSize info.size.toNat).sum := by
  induction count with
  | zero => rfl
  | succ count ih =>
      rw [Finset.sum_range_succ, ih, List.range_succ, List.filterMap_append, List.map_append,
        List.sum_append]
      congr 1
      cases found : files count with
      | none => simp only [ownedBy_of_none found, Finset.card_empty, List.filterMap_cons, found,
          Option.map_none, List.filterMap_nil, List.map_nil, List.sum_nil]
      | some file => simp only [sized count file found, List.filterMap_cons, found,
          Option.map_some, List.filterMap_nil, List.map_cons, List.map_nil, List.sum_singleton,
          StoredFile.info]

section Sound

variable {v : Vault} {d : Disk} {files : Files} (sound : Sound v d files)

include sound

/-- The walk over a slot returns the blocks of its stored file. -/
theorem Sound.holdsBlocks_iff [Lawful] {idx : Nat} {blocks : List UInt64} :
    v.HoldsBlocks idx blocks ↔ ∃ file, files idx = some file ∧
      v.collectAllBlocks file.entry = .ok blocks ∧ blocks.Perm file.blocks := by
  constructor
  · rintro ⟨entry, inTable, read, occupied, collected⟩
    obtain ⟨file, found, rfl⟩ := sound.exists_stored inTable read occupied
    obtain ⟨all, walked, perm⟩ :=
      (sound.stored idx file found).collectAllBlocks_eq sound.tracks
    rw [walked] at collected
    cases collected
    exact ⟨file, found, walked, perm⟩
  · rintro ⟨file, found, collected, _⟩
    obtain ⟨inTable, shown⟩ := sound.shown idx file found
    refine ⟨file.entry, inTable, ?_, (sound.stored idx file found).occupied, collected⟩
    rw [Vault.readSlot_eq sound.tracks inTable, shown]

/-- The occupied blocks are as many as the listed files call for. -/
theorem Sound.card_occupied_eq (size : v.header.blockSize = defaultBlockSize) :
    v.allocator.occupied.card =
      ((v.slotIndices.filterMap fun idx => (files idx).map StoredFile.info).map
        fun info => blocksOfSize info.size.toNat).sum := by
  rw [sound.owned.card_eq (Finset.range v.header.maxFiles.toNat)]
  · refine sum_slots_eq _ fun idx file found => ?_
    have stored := sound.stored idx file found
    rw [ownedBy_of_some found, List.toFinset_card_of_nodup
      (stored.nodup.map BlockAllocator.toNat_injective), List.length_map,
      stored.length_blocks, stored.size, Header.blocksFor_eq size]
  · intro idx outside
    refine ownedBy_of_none ?_
    cases found : files idx with
    | none => rfl
    | some file => exact absurd (Finset.mem_range.mpr (sound.shown idx file found).1) outside

/-- The space in use is that of the occupied blocks, and no more than there is. -/
theorem Sound.toNat_usedBytes :
    v.usedBytes.toNat = v.header.blockSize.toNat * v.allocator.occupied.card ∧
      v.allocator.occupied.card ≤ v.header.blockCount.toNat := by
  have bounded := v.allocator.card_occupied_le
  have total := sound.tracks.layout.structured.dataLen
  rw [sound.counted] at bounded
  have product := Nat.mul_le_mul_right v.header.blockSize.toNat bounded
  refine ⟨?_, bounded⟩
  unfold Vault.usedBytes
  rw [BlockAllocator.occupiedCount_eq, UInt64.toNat_mul, UInt64.toNat_ofNat',
    UInt32.toNat_toUInt64, Nat.mod_mul_mod, Nat.mod_eq_of_lt (by omega), Nat.mul_comm]

/-- The space in use is that of the listed files. -/
private theorem Sound.used_eq (size : v.header.blockSize = defaultBlockSize) :
    v.usedBytes.toNat = v.header.blockSize.toNat *
      ((v.slotIndices.filterMap fun idx => (files idx).map StoredFile.info).map
        fun info => blocksOfSize info.size.toNat).sum := by
  rw [sound.toNat_usedBytes.1, sound.card_occupied_eq size]

/-- A sound vault accounts for its blocks. -/
theorem Sound.accounts [Lawful] (size : v.header.blockSize = defaultBlockSize) : v.Accounts where
  walks := by
    intro idx entry inTable read occupied
    obtain ⟨file, found, rfl⟩ := sound.exists_stored inTable read occupied
    obtain ⟨all, walked, _⟩ := (sound.stored idx file found).collectAllBlocks_eq sound.tracks
    exact ⟨all, walked⟩
  union := by
    intro number
    rw [sound.owned.covers]
    constructor
    · rintro ⟨idx, member⟩
      cases found : files idx with
      | none =>
          rw [ownedBy_of_none found] at member
          exact absurd member (Finset.notMem_empty number)
      | some file =>
          obtain ⟨all, walked, perm⟩ :=
            (sound.stored idx file found).collectAllBlocks_eq sound.tracks
          refine ⟨idx, all, sound.holdsBlocks_iff.mpr ⟨file, found, walked, perm⟩, ?_⟩
          rw [ownedBy_of_some found, List.mem_toFinset] at member
          exact (perm.map UInt64.toNat).mem_iff.mpr member
    · rintro ⟨idx, blocks, holds, member⟩
      obtain ⟨file, found, _, perm⟩ := sound.holdsBlocks_iff.mp holds
      refine ⟨idx, ?_⟩
      rw [ownedBy_of_some found, List.mem_toFinset]
      exact (perm.map UInt64.toNat).mem_iff.mp member
  apart := by
    intro idx idx' blocks blocks' holds holds' different block member member'
    obtain ⟨file, found, _, perm⟩ := sound.holdsBlocks_iff.mp holds
    obtain ⟨file', found', _, perm'⟩ := sound.holdsBlocks_iff.mp holds'
    exact sound.notMem_of_ne found found' different (perm.mem_iff.mp member)
      (perm'.mem_iff.mp member')
  once := by
    intro idx blocks holds
    obtain ⟨file, found, _, perm⟩ := sound.holdsBlocks_iff.mp holds
    exact perm.nodup_iff.mpr (sound.stored idx file found).nodup
  inside := by
    intro idx blocks holds block member
    obtain ⟨file, found, _, perm⟩ := sound.holdsBlocks_iff.mp holds
    have taken := sound.occupied_of_mem found (perm.mem_iff.mp member)
    exact (sound.takenValid block taken).1
  bitmap := sound.readAllocator_eq
  used := ⟨_, sound.listFiles_eq, sound.used_eq size⟩

end Sound

/-- **Space accounting.** Every reachable vault accounts for its blocks. -/
theorem Run.accounts_for_blocks [Lawful] {password : String} {origin v : Vault} {trace : List Step}
    {name description : String} {capacityBytes : UInt64} {admin : Identity} {draws : Draws}
    (created : Vault.create name description capacityBytes password admin draws = .ok origin)
    (run : Run password origin trace v) : v.Accounts := by
  obtain ⟨d, files, healthy⟩ := run.healthy created
  refine healthy.sound.accounts ?_
  obtain ⟨slot, header⟩ := (Vault.create_spec created).header
  have shape := healthy.shape
  unfold SameShape at shape
  rw [shape, header]
  rfl

end

namespace Transparent

/-- The blocks of a vault with a file are accounted for. -/
theorem accounts_added : ∃ origin v,
    Vault.create "v" "" 65536 "p" (identity 1) (draws 1) = .ok origin ∧
    Run "p" origin [⟨.addFile "a" [1, 2, 3], draws 2, true⟩] v ∧ v.Accounts := by
  obtain ⟨origin, v, created, _, run⟩ := exists_added
  exact ⟨origin, v, created, run, Run.accounts_for_blocks created run⟩

end Transparent

end ReVault
