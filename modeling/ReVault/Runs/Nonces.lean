import ReVault.Runs.Refinement

/-!
# Block nonces along a run

A block is encrypted under a nonce made of the file's identifier and the block's number.
Adding a file draws a new identifier and revoking a peer a new key, so neither can repeat
a nonce. An update keeps both: it repeats a nonce for another plaintext as soon as first
fit hands it a block that held a different piece of an earlier version.
-/

namespace ReVault

open Foundation Primitives

/-! ## Seals under distinct nonces -/

/-- No two seals under one key, file identifier and block differ in their plaintext. -/
def NoncesUnique (seals : List BlockSeal) : Prop :=
  ∀ first ∈ seals, ∀ second ∈ seals, first.key = second.key → first.fileId = second.fileId →
    first.block = second.block → first.plaintext = second.plaintext

/-- Fewer blocks have unique nonces if more have. -/
theorem NoncesUnique.of_prefix {seals later : List BlockSeal} (unique : NoncesUnique later)
    (isPrefix : seals <+: later) : NoncesUnique seals :=
  fun first member second member' =>
    unique first (isPrefix.mem member) second (isPrefix.mem member')

/-- Sealing some blocks once each, apart from the seals made before. -/
theorem NoncesUnique.append {seals : List BlockSeal} (unique : NoncesUnique seals)
    {key : MasterKey} {uses : List Vault.BlockInUse}
    (nodup : (uses.map fun use => use.block).Nodup)
    (apart : ∀ made ∈ seals, ∀ use ∈ uses, made.key = key → made.fileId = use.fileId →
      made.block = use.block → made.plaintext = use.plaintext) :
    NoncesUnique (seals ++ uses.map fun use => use.sealedUnder key) := by
  intro first inFirst second inSecond sameKey sameFile sameBlock
  rcases List.mem_append.mp inFirst with old | new
  · rcases List.mem_append.mp inSecond with old' | new'
    · exact unique first old second old' sameKey sameFile sameBlock
    · obtain ⟨use, member, rfl⟩ := List.mem_map.mp new'
      exact apart first old use member sameKey sameFile sameBlock
  · obtain ⟨use, member, rfl⟩ := List.mem_map.mp new
    rcases List.mem_append.mp inSecond with old' | new'
    · exact (apart second old' use member sameKey.symm sameFile.symm sameBlock.symm).symm
    · obtain ⟨use', member', rfl⟩ := List.mem_map.mp new'
      rw [List.inj_on_of_nodup_map nodup member member' sameBlock]

/-! ## What a trace draws -/

/-- Adding a file draws an identifier. -/
def Step.drawsId (step : Step) (ids : List (BitVec 128)) : List (BitVec 128) :=
  match step.op with
  | .addFile _ _ => step.draws.fileId :: ids
  | _ => ids

/-- A revocation draws a content key. -/
def Step.drawsKey (step : Step) (keys : List MasterKey) : List MasterKey :=
  match step.op with
  | .revokeAccess _ _ => step.draws.dek :: keys
  | _ => keys

/-- The file identifiers that a trace has drawn. -/
def idsDrawn (trace : List Step) : List (BitVec 128) := Step.fold Step.drawsId [] trace

/-- The content keys of a trace: the first one and those drawn since. -/
def keysDrawn (key : MasterKey) (trace : List Step) : List MasterKey :=
  Step.fold Step.drawsKey [key] trace

section

variable [Primitives]

/-- The blocks that storing a content under a file identifier seals. -/
def Vault.contentUses (v : Vault) (id : BitVec 128) (data : Bytes) : List Vault.BlockInUse :=
  (v.placedFile id "" 0 0 data).uses v.header

/-- An update that seals a block for the same file again, under the key in use, seals the
same plaintext. -/
def Vault.KeepsNonces (v : Vault) : Op → Prop
  | .updateFile name data => ∀ slot entry blocks,
      v.planUpdate name data.length = .ok (slot, entry, blocks) →
      ∀ use ∈ (v.released blocks).contentUses entry.id data, ∀ made ∈ v.seals,
        made.key = v.key → made.fileId = entry.id → made.block = use.block →
        made.plaintext = use.plaintext
  | _ => True

/-- The runs all of whose updates keep the nonces. -/
abbrev NonceRun (password : String) (origin : Vault) : List Step → Vault → Prop :=
  Runs (fun trace v step v' => Takes password trace v step v' ∧
    (step.accepted = true → v.KeepsNonces step.op)) origin

/-- The seals of a run use the keys and the identifiers that its trace has drawn, and
differ in their nonces as long as these draws differ. -/
structure Sealed (key : MasterKey) (trace : List Step) (v : Vault) (files : Files) : Prop where
  current : v.key ∈ keysDrawn key trace
  keys : ∀ made ∈ v.seals, made.key ∈ keysDrawn key trace
  ids : ∀ made ∈ v.seals, made.fileId ∈ idsDrawn trace
  stored : ∀ idx file, files idx = some file → file.entry.id ∈ idsDrawn trace
  unique : (idsDrawn trace).Nodup → (keysDrawn key trace).Nodup → NoncesUnique v.seals

namespace Took

variable {draws : Draws} {op : Op} {v v' : Vault} {d d' : Disk} {files files' : Files}

/-- No operation forgets a seal. -/
theorem seals_prefix (took : Took draws v d files op v' d' files') : v.seals <+: v'.seals := by
  cases took with
  | added _ _ _ stores =>
      rw [stores.seals]
      exact List.prefix_append _ _
  | updated _ _ _ _ stores =>
      rw [stores.seals]
      exact List.prefix_append _ _
  | deleted _ _ deletes => rw [deletes.seals]
  | granted _ _ _ _ grants => rw [grants.seals]
  | revoked _ _ _ revokes =>
      obtain ⟨uses, _, seals⟩ := revokes.seals
      rw [seals]
      exact List.prefix_append _ _
  | _ => exact List.prefix_refl _

/-- An operation after which the nonces are unique kept them. -/
theorem keepsNonces (took : Took draws v d files op v' d' files')
    (unique : NoncesUnique v'.seals) : v.KeepsNonces op := by
  have isPrefix := took.seals_prefix
  cases took with
  | @updated name data admin idx old all _ _ authorized present perm planned stores =>
      intro slot entry blocks planned' use member made inSeals sameKey sameFile sameBlock
      rw [planned] at planned'
      cases planned'
      have stored : use ∈ ((v.released all).placedFile old.entry.id name old.entry.createdAt
        draws.slotTime data).uses v.header := member
      have inUses : use.sealedUnder v.key ∈ v'.seals := by
        rw [stores.seals]
        exact List.mem_append_right _ (List.mem_map.mpr ⟨use, stored, rfl⟩)
      have sameId := StoredFile.fileId_of_mem_uses stored
      exact unique made (isPrefix.mem inSeals) _ inUses sameKey (sameFile.trans sameId.symm)
        sameBlock
  | _ => trivial

end Took

/-- The blocks that a stored file seals are distinct. -/
theorem Vault.StoresFile.nodup {v v' : Vault} {d d' : Disk} {files : Files} {idx : Nat}
    {file : StoredFile} {record : ChainRecord}
    (stores : Vault.StoresFile v v' d d' files idx file record) :
    ((file.uses v.header).map fun use => use.block).Nodup := by
  have described := (stores.sound.stored idx file (Function.update_self ..)).toDescribes
  rw [← stores.commits.sameShape.uses_eq, described.map_block_uses]
  exact described.nodup

namespace Sealed

variable {key : MasterKey} {trace : List Step} {v v' : Vault} {d d' : Disk} {files files' : Files}
  {step : Step} {idx : Nat} {file : StoredFile}

omit [Primitives] in
/-- A refused step draws nothing that counts. -/
theorem refused (holds : Sealed key trace v files) (refused : step.accepted = false) :
    Sealed key (trace ++ [step]) v files := by
  have ids : idsDrawn (trace ++ [step]) = idsDrawn trace := Step.fold_refused _ _ _ refused
  have keys : keysDrawn key (trace ++ [step]) = keysDrawn key trace :=
    Step.fold_refused _ _ _ refused
  exact ⟨by rw [keys]; exact holds.current, by rw [keys]; exact holds.keys,
    by rw [ids]; exact holds.ids, by rw [ids]; exact holds.stored,
    by rw [ids, keys]; exact holds.unique⟩

omit [Primitives] in
/-- A step that seals nothing, draws nothing and stores no new file. -/
theorem keep (holds : Sealed key trace v files)
    (keys : keysDrawn key (trace ++ [step]) = keysDrawn key trace)
    (ids : idsDrawn (trace ++ [step]) = idsDrawn trace) (current : v'.key = v.key)
    (seals : v'.seals = v.seals)
    (stored : ∀ idx file, files' idx = some file → files idx = some file) :
    Sealed key (trace ++ [step]) v' files' := by
  refine ⟨?_, ?_, ?_, ?_, ?_⟩
  · rw [keys, current]
    exact holds.current
  · rw [keys, seals]
    exact holds.keys
  · rw [ids, seals]
    exact holds.ids
  · rw [ids]
    exact fun idx file found => holds.stored idx file (stored idx file found)
  · rw [ids, keys, seals]
    exact holds.unique

/-- A step that stores a file under the key in use. -/
theorem store (holds : Sealed key trace v files) {record : ChainRecord}
    (stores : Vault.StoresFile v v' d d' files idx file record)
    (keys : keysDrawn key (trace ++ [step]) = keysDrawn key trace)
    (ids : idsDrawn trace ⊆ idsDrawn (trace ++ [step]))
    (drawn : file.entry.id ∈ idsDrawn (trace ++ [step]))
    (nodup : (idsDrawn (trace ++ [step])).Nodup → (idsDrawn trace).Nodup)
    (apart : (idsDrawn (trace ++ [step])).Nodup → ∀ made ∈ v.seals, ∀ use ∈ file.uses v.header,
      made.key = v.key → made.fileId = file.entry.id → made.block = use.block →
      made.plaintext = use.plaintext) :
    Sealed key (trace ++ [step]) v' (Function.update files idx (some file)) := by
  refine ⟨?_, ?_, ?_, ?_, ?_⟩
  · rw [keys, stores.keepsKeys.key]
    exact holds.current
  · intro made member
    rw [keys]
    rw [stores.seals] at member
    rcases List.mem_append.mp member with old | new
    · exact holds.keys made old
    · obtain ⟨use, _, rfl⟩ := List.mem_map.mp new
      exact holds.current
  · intro made member
    rw [stores.seals] at member
    rcases List.mem_append.mp member with old | new
    · exact ids (holds.ids made old)
    · obtain ⟨use, inUses, rfl⟩ := List.mem_map.mp new
      change use.fileId ∈ _
      rw [StoredFile.fileId_of_mem_uses inUses]
      exact drawn
  · intro other held found
    by_cases same : other = idx
    · rw [same, Function.update_self] at found
      cases found
      exact drawn
    · rw [Function.update_of_ne same] at found
      exact ids (holds.stored other held found)
  · intro idsNodup keysNodup
    rw [keys] at keysNodup
    rw [stores.seals]
    refine (holds.unique (nodup idsNodup) keysNodup).append stores.nodup ?_
    intro made old use inUses sameKey sameFile sameBlock
    rw [StoredFile.fileId_of_mem_uses inUses] at sameFile
    exact apart idsNodup made old use inUses sameKey sameFile sameBlock

/-- A revocation seals the blocks in use under a key of its own. -/
theorem rotate (holds : Sealed key trace v files) {slotIdx : Nat} {newKey : MasterKey}
    {password : String} {record : ChainRecord}
    (revokes : Vault.Revokes v v' d d' files slotIdx newKey password record)
    (keys : keysDrawn key (trace ++ [step]) = newKey :: keysDrawn key trace)
    (ids : idsDrawn (trace ++ [step]) = idsDrawn trace) :
    Sealed key (trace ++ [step]) v' files := by
  obtain ⟨uses, inUse, seals⟩ := revokes.seals
  refine ⟨?_, ?_, ?_, ?_, ?_⟩
  · rw [keys, revokes.key]
    exact List.mem_cons_self
  · intro made member
    rw [keys]
    rw [seals] at member
    rcases List.mem_append.mp member with old | new
    · exact List.mem_cons_of_mem _ (holds.keys made old)
    · obtain ⟨use, _, rfl⟩ := List.mem_map.mp new
      exact List.mem_cons_self
  · intro made member
    rw [ids]
    rw [seals] at member
    rcases List.mem_append.mp member with old | new
    · exact holds.ids made old
    · obtain ⟨use, inUses, rfl⟩ := List.mem_map.mp new
      obtain ⟨idx, file, found, ofFile⟩ := inUse.ofFile use inUses
      change use.fileId ∈ _
      rw [StoredFile.fileId_of_mem_uses ofFile]
      exact holds.stored idx file found
  · rw [ids]
    exact holds.stored
  · intro idsNodup keysNodup
    rw [ids] at idsNodup
    rw [keys, List.nodup_cons] at keysNodup
    rw [seals]
    refine (holds.unique idsNodup keysNodup.2).append inUse.nodup ?_
    intro made old use _ sameKey
    exact absurd (sameKey ▸ holds.keys made old) keysNodup.1

/-- An accepted step that keeps the nonces. -/
theorem accepted (holds : Sealed key trace v files) (accepted : step.accepted = true)
    (kept : v.KeepsNonces step.op) (took : Took step.draws v d files step.op v' d' files') :
    Sealed key (trace ++ [step]) v' files' := by
  have ids : idsDrawn (trace ++ [step]) = step.drawsId (idsDrawn trace) :=
    Step.fold_accepted _ _ _ accepted
  have keys : keysDrawn key (trace ++ [step]) = step.drawsKey (keysDrawn key trace) :=
    Step.fold_accepted _ _ _ accepted
  unfold Step.drawsId at ids
  unfold Step.drawsKey at keys
  generalize step.op = op at took kept ids keys
  cases took with
  | added _ _ _ stores =>
      have drawn : step.draws.fileId ∈ idsDrawn (trace ++ [step]) := by
        rw [ids]
        exact List.mem_cons_self
      refine holds.store stores keys ?_ drawn ?_ ?_
      · rw [ids]
        exact List.subset_cons_self _ _
      · rw [ids]
        exact fun nodup => (List.nodup_cons.mp nodup).2
      · intro nodup made old use _ _ sameFile
        rw [ids, List.nodup_cons] at nodup
        have drawnBefore := holds.ids made old
        rw [sameFile] at drawnBefore
        exact absurd drawnBefore nodup.1
  | updated _ present _ planned stores =>
      refine holds.store stores keys ?_ ?_ ?_ ?_
      · rw [ids]
        exact List.Subset.refl _
      · have drawn := holds.stored _ _ present.1
        rw [ids]
        exact drawn
      · rw [ids]
        exact id
      · intro _ made old use inUses sameKey sameFile sameBlock
        exact kept _ _ _ planned use inUses made old sameKey sameFile sameBlock
  | @deleted _ _ idx _ _ _ _ _ deletes =>
      refine holds.keep keys ids deletes.keepsKeys.key deletes.seals fun other held found => ?_
      by_cases same : other = idx
      · rw [same, Function.update_self] at found
        cases found
      · rwa [Function.update_of_ne same] at found
  | granted _ _ _ _ grants => exact holds.keep keys ids grants.key grants.seals fun _ _ => id
  | revoked _ _ _ revokes => exact holds.rotate revokes keys ids
  | readFile name => exact holds.keep keys ids rfl rfl fun _ _ => id
  | listFiles => exact holds.keep keys ids rfl rfl fun _ _ => id
  | takeChangeLog => exact holds.keep keys ids rfl rfl fun _ _ => id
  | reopened identity => exact holds.keep keys ids rfl rfl fun _ _ => id

end Sealed

namespace Run

variable [Lawful] {password : String} {origin v : Vault} {trace : List Step}
  {name description : String} {capacityBytes : UInt64} {admin : Identity} {draws : Draws}

/-- In a run all of whose updates keep the nonces, the nonces are unique. -/
theorem nonces_unique
    (created : Vault.create name description capacityBytes password admin draws = .ok origin)
    (run : NonceRun password origin trace v) (ids : (idsDrawn trace).Nodup)
    (keys : (keysDrawn origin.key trace).Nodup) : NoncesUnique v.seals := by
  have spec := Vault.create_spec created
  have unsealed : ∀ made, made ∉ origin.seals := by
    intro made member
    rw [spec.seals] at member
    exact absurd member List.not_mem_nil
  have start : Sealed origin.key [] origin fun _ => none :=
    ⟨List.mem_singleton.mpr rfl, fun made member => absurd member (unsealed made),
      fun made member => absurd member (unsealed made), fun idx file found => (by cases found),
      fun _ _ made member => absurd member (unsealed made)⟩
  obtain ⟨d, files, _, holds⟩ := invariant_where created run
    (fun trace v _ files => Sealed origin.key trace v files) start
    (fun _ _ _ _ _ refused holds => holds.refused refused)
    (fun _ _ _ _ _ _ _ _ accepted kept _ took holds => holds.accepted accepted kept took)
  exact holds.unique ids keys

/-- **Nonce uniqueness.** When file identifiers and content keys are drawn only once, the
nonces of a run are unique exactly when each of its updates keeps them. -/
theorem nonces_unique_iff
    (created : Vault.create name description capacityBytes password admin draws = .ok origin)
    (run : Run password origin trace v) (ids : (idsDrawn trace).Nodup)
    (keys : (keysDrawn origin.key trace).Nodup) :
    NoncesUnique v.seals ↔ NonceRun password origin trace v := by
  refine ⟨fun unique => ?_, fun kept => nonces_unique created kept ids keys⟩
  clear ids keys
  induction run with
  | nil => exact .nil
  | snoc earlier taken ih =>
      obtain ⟨d, files, healthy⟩ := Run.healthy created earlier
      rcases healthy.step_cases taken with ⟨refused, rfl⟩ | ⟨_, d', files', took⟩
      · refine (ih unique).snoc ⟨taken, fun accepted => ?_⟩
        rw [refused] at accepted
        cases accepted
      · exact (ih (unique.of_prefix took.seals_prefix)).snoc
          ⟨taken, fun _ => took.keepsNonces unique⟩

end Run

end

/-! ## A repeated nonce -/

/-- First fit hands out block zero when it is free. -/
theorem BlockAllocator.allocate_one {a : BlockAllocator} (some : 0 < a.blockCount)
    (free : 0 ∉ a.occupied) : (a.allocate 1).2 = [0] := by
  have member : 0 ∈ a.freeList := (a.mem_freeList 0).mpr ⟨some, free⟩
  have sorted := a.freeList_sorted
  rw [a.allocate_eq]
  cases listIs : a.freeList with
  | nil =>
      rw [listIs] at member
      exact absurd member List.not_mem_nil
  | cons head rest =>
      rw [listIs] at member sorted
      rcases List.mem_cons.mp member with same | later
      · rw [← same]
        rfl
      · exact absurd ((List.pairwise_cons.mp sorted).1 0 later) (Nat.not_lt_zero _)

section

variable [Primitives]

/-- A short content is sealed as one piece, in block zero when it is free. -/
theorem Vault.contentUses_short {v : Vault}
    (size : v.header.blockSize = defaultBlockSize) (some : 0 < v.allocator.blockCount)
    (free : 0 ∉ v.allocator.occupied) (id : BitVec 128) {data : Bytes}
    (short : 0 < data.length ∧ data.length ≤ 4076) :
    v.contentUses id data = [⟨0, id, data⟩] := by
  have chunk : v.header.plainChunkLen.toNat = 4076 := by
    rw [Header.toNat_plainChunkLen (by rw [size]; decide), size]
    rfl
  have one : pieceCount 4076 data.length = 1 := by
    have upper := (pieceCount_le_iff (by decide : 0 < 4076) data.length 1).mpr (by omega)
    have lower := (pieceCount_le_iff (by decide : 0 < 4076) data.length 0).not.mpr (by omega)
    omega
  have pieces : pieces 4076 data = [data] := by
    obtain ⟨piece, piecesIs⟩ := List.length_eq_one_iff.mp ((length_pieces 4076 data).trans one)
    have joined := flatten_pieces (by decide : 0 < 4076) data
    rw [piecesIs, List.flatten_singleton] at joined
    rw [piecesIs, joined]
  have dataCount : v.header.dataBlocksFor data.length = 1 := by
    unfold Header.dataBlocksFor
    rw [chunk, one]
  have allCount : v.header.blocksFor data.length = 1 := by
    unfold Header.blocksFor Header.indexBlocksFor
    rw [dataCount]
    change 1 + pieceCount _ 0 = 1
    rw [pieceCount_zero]
  have allocated : v.allocation data.length = [0] := by
    unfold Vault.allocation
    rw [allCount]
    exact BlockAllocator.allocate_one some free
  unfold Vault.contentUses StoredFile.uses StoredFile.dataUses StoredFile.indexUses
  simp only [Vault.placedFile, allocated, dataCount, chunk, pieces]
  rfl

end

namespace Transparent

/-- A file is added and then written with another content. -/
def rewriteTrace : List Step :=
  [⟨.addFile "a" [1, 2, 3], draws 2, true⟩] ++ [⟨.updateFile "a" [4], draws 3, true⟩]

/-- The nonces of a vault with a file are unique. -/
theorem nonces_unique_iff_added : ∃ origin v,
    Vault.create "v" "" 65536 "p" (identity 1) (draws 1) = .ok origin ∧
    Run "p" origin [⟨.addFile "a" [1, 2, 3], draws 2, true⟩] v ∧
    (NoncesUnique v.seals ↔
      NonceRun "p" origin [⟨.addFile "a" [1, 2, 3], draws 2, true⟩] v) := by
  obtain ⟨origin, v, created, _, run⟩ := exists_added
  exact ⟨origin, v, created, run, Run.nonces_unique_iff created run (List.nodup_singleton _)
    (List.nodup_singleton _)⟩

/-- The content of the file that is added to the sample container lies in block zero. -/
theorem exists_added_sealed : ∃ origin v d files,
    Vault.create "v" "" 65536 "p" (identity 1) (draws 1) = .ok origin ∧ origin.header.Sized ∧
    Run "p" origin [⟨.addFile "a" [1, 2, 3], draws 2, true⟩] v ∧
    Healthy "p" origin [⟨.addFile "a" [1, 2, 3], draws 2, true⟩] v d files ∧
    v.header.blockSize = defaultBlockSize ∧ 0 < v.header.blockCount ∧
    v.seals = [⟨v.key, 2, 0, [1, 2, 3]⟩] ∧
    ∀ idx file, files idx = some file → file.entry.id = 2 ∧ file.blocks = [0] := by
  obtain ⟨origin, v, created, sized, run⟩ := exists_added
  have spec := Vault.create_spec created
  have start := Healthy.created spec
  obtain ⟨_, header⟩ := spec.header
  have size : origin.header.blockSize = defaultBlockSize := by
    rw [header]
    rfl
  have blocks : 0 < origin.header.blockCount := by
    rw [header]
    exact (by decide : (0 : UInt64) < 65536 / defaultBlockSize.toUInt64)
  have empty : (0 : UInt64).toNat ∉ origin.allocator.occupied := by
    rw [spec.allocator, BlockAllocator.occupied_new]
    exact Finset.notMem_empty _
  have uses : origin.contentUses 2 [1, 2, 3] = [⟨0, 2, [1, 2, 3]⟩] :=
    Vault.contentUses_short size (spec.sound.counted ▸ blocks) empty 2
      (by decide)
  rcases start.step_cases run.single with ⟨refused, _⟩ | ⟨accepted, d, files, took⟩
  · cases refused
  have healthy := start.accepted accepted took
  cases took with
  | @added _ _ _ idx _ _ _ _ _ stores =>
      have shape := stores.commits.sameShape
      refine ⟨origin, v, d, _, created, sized, run, healthy, ?_, ?_, ?_, ?_⟩
      · rw [shape]
        exact size
      · rw [shape.blockCount_eq]
        exact blocks
      · rw [stores.seals, spec.seals, stores.keepsKeys.key]
        exact congrArg (List.map fun use => use.sealedUnder origin.key) uses
      · intro other file found
        have described := (healthy.sound.stored other file found).toDescribes
        by_cases same : other = idx
        · rw [same, Function.update_self] at found
          cases found
          refine ⟨rfl, ?_⟩
          rw [← described.map_block_uses, shape.uses_eq]
          exact congrArg (List.map fun use => use.block) uses
        · rw [Function.update_of_ne same] at found
          cases found

/-- An update seals the file's first block again under the same nonce. -/
theorem rewrite_repeats_nonce : ∃ origin v,
    Vault.create "v" "" 65536 "p" (identity 1) (draws 1) = .ok origin ∧
    Run "p" origin rewriteTrace v ∧ (idsDrawn rewriteTrace).Nodup ∧
    (keysDrawn origin.key rewriteTrace).Nodup ∧ ¬ NoncesUnique v.seals := by
  obtain ⟨origin, v, d, files, created, sized, run, healthy, size, blocks, seals, stored⟩ :=
    exists_added_sealed
  have enough : v.header.blocksFor 1 ≤ v.allocator.freeCount + v.header.blocksFor 3 := by
    rw [Header.blocksFor_eq size, Header.blocksFor_eq size]
    exact le_add_left (by decide : blocksOfSize 1 ≤ blocksOfSize 3)
  have isAdmin : v.isAdmin = true :=
    Run.isAdmin created (show Run "p" origin ([] ++ [_]) v from run) rfl rfl
  obtain ⟨v', ran⟩ := ((run.serves created sized isAdmin).updates "a" [4] (draws 3)).mpr
    ⟨[1, 2, 3], rfl, enough⟩
  refine ⟨origin, v', created, run.accept ran, List.nodup_singleton _, List.nodup_singleton _,
    fun unique => ?_⟩
  have outcome := Op.exec_yields healthy.sound healthy.keyring.password
    (.updateFile "a" [4]) (draws 3)
  unfold Yields at outcome
  rw [show Op.exec _ (draws 3) (.updateFile "a" [4]) v = .ok () v' from ran] at outcome
  obtain ⟨d', files', took⟩ := outcome
  cases took with
  | @updated _ _ _ idx old all _ _ _ present perm _ stores =>
      obtain ⟨sameId, blocksIs⟩ := stored idx old present.1
      -- the update has released block zero, and first fit returns it
      have released : (0 : UInt64).toNat ∉ (v.released all).allocator.occupied := by
        have freed : (v.released all).allocator.occupied = _ :=
          Vault.occupied_free_perm (v := v) perm
        rw [freed, blocksIs]
        exact fun member => (Finset.mem_sdiff.mp member).2 (by decide)
      have counted : 0 < (v.released all).allocator.blockCount := by
        have kept : (v.released all).allocator.blockCount = v.allocator.blockCount :=
          v.allocator.blockCount_free all
        rw [kept, healthy.sound.counted]
        exact blocks
      have uses : (v.released all).contentUses 2 [4] = [⟨0, 2, [4]⟩] :=
        Vault.contentUses_short (v := v.released all) size counted released 2 (by decide)
      have both : v'.seals = [⟨v.key, 2, 0, [1, 2, 3]⟩, ⟨v.key, 2, 0, [4]⟩] := by
        rw [stores.seals, seals, sameId]
        exact congrArg (fun uses => [⟨v.key, 2, 0, [1, 2, 3]⟩] ++
          uses.map fun use => use.sealedUnder v.key) uses
      have same : ([1, 2, 3] : Bytes) = [4] :=
        unique ⟨v.key, 2, 0, [1, 2, 3]⟩ (by rw [both]; simp)
          ⟨v.key, 2, 0, [4]⟩ (by rw [both]; simp) rfl rfl rfl
      exact absurd same (by decide)

end Transparent

end ReVault
