import ReVault.Integrity.Chain

/-!
# Forged containers

Verification skips the empty slots of the ring and never compares a file entry with the
chain. Whoever can write the bytes of a container can therefore empty the window that the
header names and store a file of its own, without a signature.
-/

namespace ReVault

open Foundation Primitives

section

variable [Primitives]

/-! ## Erasing records -/

omit [Primitives] in
/-- Overwrites a slot of the ring with zeros. -/
def Vault.eraseRecord (v : Vault) (idx : Nat) : Vault :=
  { v with
    file := Foundation.writeAt v.file ((Region.record idx).extent v.header).start
      (List.replicate chainRecordSizeConst.toNat 0) }

variable {v : Vault} {d : Disk} {files : Files}

/-- Erasing a record empties its slot and nothing else. -/
theorem Tracks.eraseRecord (tracks : Tracks v.header v.file d) {idx : Nat}
    (inRing : idx < v.header.maxChainRecords.toNat) :
    Tracks v.header (v.eraseRecord idx).file (d.setRecord idx none) := by
  refine tracks.fill (show (Region.record idx).Valid v.header from inRing)
    List.length_replicate ?_ ?_ tracks.inRange
  · change ChainRecord.decode _ = .ok (Function.update d.records idx none idx)
    rw [Function.update_self]
    exact ChainRecord.decode_zero
  · intro other different
    cases other with
    | record i =>
        have apart : i ≠ idx := fun same => different (by rw [same])
        refine ⟨id, fun content held => ?_⟩
        simpa only [Disk.Holds, Disk.setRecord, Function.update_of_ne apart] using held
    | _ => exact ⟨id, fun _ => id⟩

/-- A record is erased from the ring. -/
theorem Sound.eraseRecord (sound : Sound v d files) {idx : Nat}
    (inRing : idx < v.header.maxChainRecords.toNat) :
    Sound (v.eraseRecord idx) (d.setRecord idx none) files :=
  sound.frame (sound.tracks.eraseRecord inRing) (SameShape.refl _) sound.header rfl rfl rfl rfl rfl

/-- A sound vault whose window is empty passes. -/
theorem Sound.passes_of_empty [Lawful] (sound : Sound v d files)
    (empty : ∀ seq ∈ v.windowSeqs, v.readChainSlotAtSeq (UInt64.ofNat seq) = .ok none) :
    v.Passes := by
  have none : v.survivors v.windowSeqs = [] := by
    unfold Vault.survivors
    rw [List.filterMap_eq_nil_iff]
    exact fun seq member => Vault.recordAt_of_read (empty seq member)
  refine ⟨fun seq member => ⟨_, empty seq member⟩, ?_, ?_, ?_, sound.reads_listed⟩
  · intro seq member record found
    rw [Vault.recordAt_of_read (empty seq member)] at found
    cases found
  · rw [none]
    exact List.isChain_nil
  · intro last isLast
    rw [none] at isLast
    cases isLast

/-! ## Storing a file without a record -/

omit [Primitives] in
/-- Nothing is allocated for an empty content. -/
theorem BlockAllocator.allocate_zero (a : BlockAllocator) : a.allocate 0 = (a, []) := by
  unfold allocate
  cases a.indices with
  | nil => rfl
  | cons i rest => rfl

/-- The file of one slot can be given up. -/
theorem Sound.exists_vacated (sound : Sound v d files) (idx : Nat) : ∃ freed : Vault,
    Placed freed { d with bitmap := freed.allocator.bits } (Function.update files idx none) ∧
    freed.header = v.header ∧ freed.key = v.key := by
  cases found : files idx with
  | none =>
      refine ⟨v, ?_, rfl, rfl⟩
      rw [← sound.bitmap, ← found, Function.update_eq_self]
      exact sound.toPlaced
  | some old =>
      obtain ⟨file, log, _, placed, _⟩ := Vault.release_placed sound found (List.Perm.refl _)
      exact ⟨_, placed, rfl, rfl⟩

/-- **Forging.** In a container with room for a file and none without a name, an empty
file without a name can be stored and the window emptied. -/
theorem Sound.exists_forged (sound : Sound v d files) (table : 0 < v.header.maxFiles.toNat)
    (unused : files.Absent "") : ∃ forged : Vault, ∃ d' files' file, Sound forged d' files' ∧
      forged.header = { v.header with chainNextSeq := 0 } ∧ forged.key = v.key ∧
      files'.Present "" 0 file ∧ file.data = [] ∧
      d'.records = Function.update d.records 0 none := by
  obtain ⟨freed, placed, header, key⟩ := sound.exists_vacated 0
  have absent : Files.Absent (Function.update files 0 none) "" := by
    intro idx file found named
    by_cases first : idx = 0
    · rw [first, Function.update_self] at found
      cases found
    · rw [Function.update_of_ne first] at found
      exact unused idx file found named
  have layout := placed.tracks.layout
  have enough : freed.header.blocksFor ([] : Bytes).length ≤ freed.allocator.freeCount := by
    rw [List.length_nil, Header.blocksFor_zero]
    exact Nat.zero_le _
  have places := Vault.places_placedFile 0 "" 0 0 enough
  have described := Vault.describes_placedFile 0 "" 0 0 layout.blockSize
    (Vault.room_of_layout layout placed.counted) enough (by decide)
  generalize fileIs : freed.placedFile 0 "" 0 0 [] = file at places described
  have dataIs : file.data = [] := by rw [← fileIs]; rfl
  have nameIs : file.entry.name = "" := by rw [← fileIs]; rfl
  have uses : file.uses freed.header = [] := by
    rw [← List.map_eq_nil_iff, described.map_block_uses]
    exact (described.blocks_eq_nil_iff layout.blockSize).mpr dataIs
  have inTable : 0 < freed.header.maxFiles.toNat := by
    rw [header]
    exact table
  have inRing : 0 < freed.header.maxChainRecords.toNat := Nat.pos_of_ne_zero fun zero =>
    layout.chainRecords (UInt32.toNat_inj.mp zero)
  obtain ⟨file₁, log₁, _, tracks₁, _⟩ := Vault.writeSlot_eq placed.tracks inTable described.named
  have tracks₂ := Tracks.eraseRecord (v := { freed with file := file₁ }) tracks₁ inRing
  have shape : SameShape freed.header { freed.header with chainNextSeq := 0 } := rfl
  obtain ⟨file₃, log₃, _, tracks₃, _⟩ := Vault.writeHeader_eq
    (v := { freed with
      file := (Vault.eraseRecord { freed with file := file₁ } 0).file
      header := { freed.header with chainNextSeq := 0 } })
    (tracks₂.of_sameShape shape layout.encodable.adminKeySlot)
  have same : freed.allocatorAfter file.data.length = freed.allocator := by
    unfold Vault.allocatorAfter
    rw [dataIs, List.length_nil, Header.blocksFor_zero, BlockAllocator.allocate_zero]
  obtain ⟨forged, forgedIs⟩ : ∃ forged : Vault, forged = { freed with
      file := file₃
      header := { freed.header with chainNextSeq := 0 } } := ⟨_, rfl⟩
  have placed' : Placed forged _ _ := placed.place (Function.update_self ..) inTable places
    described (by rw [nameIs]; exact absent) (by rw [forgedIs]; exact tracks₃)
    (by rw [forgedIs]; exact shape) (by rw [forgedIs]) (by rw [forgedIs, same]) rfl
    (by rw [uses]; rfl)
  refine ⟨forged, _, _, file, ⟨placed', ?_, ?_, ?_⟩, ?_, ?_, ⟨Function.update_self .., nameIs⟩,
    dataIs, rfl⟩
  · rw [forgedIs]
  · rw [forgedIs]
    rfl
  · intro other inTable' vacant
    have different : other ≠ 0 := by
      rintro rfl
      rw [Function.update_self] at vacant
      cases vacant
    rw [Function.update_of_ne different, Function.update_of_ne different] at vacant
    change (Function.update d.entries 0 file.entry other).isOccupied = false
    rw [Function.update_of_ne different]
    rw [forgedIs] at inTable'
    exact sound.vacant other (by rw [← header]; exact inTable') vacant
  · rw [forgedIs, header]
  · rw [forgedIs]
    exact key

/-! ## What tamper evidence would be -/

/-- Bytes that open with the password and the admin's key, hold no record that the vault
does not hold, and pass verification show one of the given catalogs. -/
def Vault.TamperEvident (v : Vault) (password : String) (catalogs : Catalog → Prop) : Prop :=
  ∀ bytes identity w, Vault.openWithPassword bytes password identity = .ok w →
    w.header.adminSigningPubkey = v.header.adminSigningPubkey →
    (∀ seq record, w.readChainSlotAtSeq seq = .ok (some record) →
      ∃ seq', v.readChainSlotAtSeq seq' = .ok (some record)) →
    w.verifyIntegrity = .ok () → ∃ catalog, catalogs catalog ∧ w.Displays catalog

namespace Run

variable [Lawful] {password : String} {origin : Vault} {trace : List Step}
  {name description : String} {capacityBytes : UInt64} {admin : Identity} {draws : Draws}

/-- No catalog of a run has an empty name. -/
theorem catalog_empty_name
    (created : Vault.create name description capacityBytes password admin draws = .ok origin)
    (run : Run password origin trace v) : catalogAfter trace "" = none := by
  obtain ⟨d, files, healthy⟩ := run.healthy created
  cases held : catalogAfter trace "" with
  | none => rfl
  | some data =>
      have positive := healthy.named "" data held
      exact absurd positive (by decide)

/-- The container of every reachable vault can be forged: its bytes can be replaced by
some that open, hold no new record, pass verification and show a file without a name. -/
theorem exists_forged
    (created : Vault.create name description capacityBytes password admin draws = .ok origin)
    (run : Run password origin trace v) (identity : Identity) : ∃ bytes w,
      Vault.openWithPassword bytes (passwordAfter password trace) identity = .ok w ∧
      w.header.adminSigningPubkey = v.header.adminSigningPubkey ∧
      (∀ seq record, w.readChainSlotAtSeq seq = .ok (some record) →
        ∃ seq', v.readChainSlotAtSeq seq' = .ok (some record)) ∧
      w.verifyIntegrity = .ok () ∧ w.readFile "" = .ok [] := by
  obtain ⟨d, files, healthy⟩ := run.healthy created
  have spec := Vault.create_spec created
  have table : 0 < v.header.maxFiles.toNat := by
    obtain ⟨slot, header⟩ := spec.header
    rw [healthy.shape.maxFiles_eq, header]
    exact lt_of_lt_of_le (by decide) (Vault.newMaxFiles_bounds capacityBytes).1
  have unused : files.Absent "" :=
    (healthy.shown.none_iff "").mp (catalog_empty_name created run)
  obtain ⟨forged, d', files', file, sound, header, key, present, empty, records⟩ :=
    healthy.sound.exists_forged table unused
  have wraps : WrapsForPassword forged.header (passwordAfter password trace) forged.key := by
    have shape : SameShape v.header { v.header with chainNextSeq := 0 } := rfl
    rw [key, header]
    exact healthy.keyring.password.of_sameShape shape rfl
  obtain ⟨handle, opened, handleSound, same⟩ := sound.exists_opened wraps identity
  have handleHeader : handle.header = { v.header with chainNextSeq := 0 } := same.trans header
  have slots : ∀ seq, Layout.ringSlot handle.header seq = Layout.ringSlot v.header seq := by
    intro seq
    rw [handleHeader]
    rfl
  have window : ∀ seq ∈ handle.windowSeqs, seq = 0 := by
    intro seq member
    have newest := ((Vault.mem_windowSeqs seq).mp member).2
    unfold Vault.newestSeq at newest
    rw [handleHeader] at newest
    exact Nat.le_zero.mp newest
  refine ⟨forged.file, handle, opened, by rw [handleHeader], ?_, ?_, ?_⟩
  · intro seq record read
    rw [Vault.readChainSlotAtSeq_eq handleSound.tracks, slots, records] at read
    refine ⟨seq, ?_⟩
    rw [Vault.readChainSlotAtSeq_eq healthy.sound.tracks]
    by_cases first : Layout.ringSlot v.header seq = 0
    · rw [first, Function.update_self] at read
      cases read
    · rw [Function.update_of_ne first] at read
      exact read
  · refine Vault.verifyIntegrity_eq_ok_iff.mpr (handleSound.passes_of_empty fun seq member => ?_)
    have slot : Layout.ringSlot v.header (UInt64.ofNat 0) = 0 := Nat.zero_mod _
    rw [window seq member, Vault.readChainSlotAtSeq_eq handleSound.tracks, slots, slot, records,
      Function.update_self]
  · rw [← empty]
    exact handleSound.readFile_of_present present

/-- A vault that shows a file without a name shows the catalog of no prefix of a run. -/
theorem not_displays
    (created : Vault.create name description capacityBytes password admin draws = .ok origin)
    (run : Run password origin trace v) {w : Vault} {data : Bytes}
    (read : w.readFile "" = .ok data) {earlier : List Step} (isPrefix : earlier <+: trace) :
    ¬ w.Displays (catalogAfter earlier) := by
  intro displays
  obtain ⟨before, earlierRun⟩ := run.exists_prefix isPrefix
  have shown := displays.reads ""
  rw [read, catalog_empty_name created earlierRun] at shown
  cases shown

/-- **No tamper evidence.** The container of no reachable vault is tamper evident. -/
theorem not_tamperEvident
    (created : Vault.create name description capacityBytes password admin draws = .ok origin)
    (run : Run password origin trace v) :
    ¬ v.TamperEvident (passwordAfter password trace) fun catalog =>
      ∃ earlier, earlier <+: trace ∧ catalog = catalogAfter earlier := by
  intro evident
  obtain ⟨bytes, w, opened, samePubkey, noNew, accepted, read⟩ :=
    run.exists_forged created admin
  obtain ⟨_, ⟨earlier, isPrefix, rfl⟩, displays⟩ :=
    evident bytes admin w opened samePubkey noNew accepted
  exact not_displays created run read isPrefix displays

end Run

end

namespace Transparent

/-- A container whose only record was erased passes verification. -/
theorem erased_genesis_passes : ∃ origin w,
    Vault.create "v" "" 65536 "p" (identity 1) (draws 1) = .ok origin ∧
    Vault.openWithPassword (origin.eraseRecord 0).file "p" (identity 1) = .ok w ∧
    w.verifyIntegrity = .ok () ∧ ¬ w.WindowHolds := by
  obtain ⟨origin, created, _⟩ := exists_container
  have spec := Vault.create_spec created
  obtain ⟨_, header⟩ := spec.header
  have inRing : 0 < origin.header.maxChainRecords.toNat := Nat.pos_of_ne_zero fun zero =>
    spec.sound.tracks.layout.chainRecords (UInt32.toNat_inj.mp zero)
  obtain ⟨w, opened, sound, same⟩ :=
    (spec.sound.eraseRecord inRing).exists_opened spec.keyring.password (identity 1)
  have next : w.header.chainNextSeq = 1 := by
    rw [same]
    change origin.header.chainNextSeq = 1
    rw [header]
    rfl
  have newest : w.newestSeq = 0 := by
    unfold Vault.newestSeq
    rw [next]
    rfl
  have empty : ∀ seq ∈ w.windowSeqs, w.readChainSlotAtSeq (UInt64.ofNat seq) = .ok none := by
    intro seq member
    have first : seq = 0 := Nat.le_zero.mp (newest ▸ ((Vault.mem_windowSeqs seq).mp member).2)
    have slot : Layout.ringSlot w.header (UInt64.ofNat 0) = 0 := Nat.zero_mod _
    rw [first, Vault.readChainSlotAtSeq_eq sound.tracks, slot]
    simp only [Disk.setRecord, Function.update_self]
  refine ⟨origin, w, created, opened, ?_, fun holds => ?_⟩
  · exact Vault.verifyIntegrity_eq_ok_iff.mpr (sound.passes_of_empty empty)
  · have member : 0 ∈ w.windowSeqs :=
      (Vault.mem_windowSeqs 0).mpr ⟨(Nat.sub_le _ _).trans newest.le, Nat.zero_le _⟩
    obtain ⟨record, read, _⟩ := holds.records 0 member
    rw [empty 0 member] at read
    cases read

/-- The container of a run can be replaced by one that shows no catalog of the run. -/
theorem forged_container_passes : ∃ origin v bytes w,
    Vault.create "v" "" 65536 "p" (identity 1) (draws 1) = .ok origin ∧
    Run "p" origin [⟨.addFile "a" [1, 2, 3], draws 2, true⟩] v ∧
    Vault.openWithPassword bytes "p" (identity 1) = .ok w ∧
    w.header.adminSigningPubkey = v.header.adminSigningPubkey ∧
    (∀ seq record, w.readChainSlotAtSeq seq = .ok (some record) →
      ∃ seq', v.readChainSlotAtSeq seq' = .ok (some record)) ∧
    w.verifyIntegrity = .ok () ∧
    ∀ earlier, earlier <+: [⟨.addFile "a" [1, 2, 3], draws 2, true⟩] →
      ¬ w.Displays (catalogAfter earlier) := by
  obtain ⟨origin, v, created, _, run⟩ := exists_added
  obtain ⟨bytes, w, opened, samePubkey, noNew, accepted, read⟩ :=
    run.exists_forged created (identity 1)
  exact ⟨origin, v, bytes, w, created, run, opened, samePubkey, noNew, accepted,
    fun earlier isPrefix => Run.not_displays created run read isPrefix⟩

/-- A vault with a file is forged. -/
theorem not_tamperEvident_added : ∃ origin v,
    Vault.create "v" "" 65536 "p" (identity 1) (draws 1) = .ok origin ∧
    Run "p" origin [⟨.addFile "a" [1, 2, 3], draws 2, true⟩] v ∧
    ¬ v.TamperEvident (passwordAfter "p" [⟨.addFile "a" [1, 2, 3], draws 2, true⟩])
      fun catalog => ∃ earlier, earlier <+: [⟨.addFile "a" [1, 2, 3], draws 2, true⟩] ∧
        catalog = catalogAfter earlier := by
  obtain ⟨origin, v, created, _, run⟩ := exists_added
  exact ⟨origin, v, created, run, Run.not_tamperEvident created run⟩

end Transparent

end ReVault
