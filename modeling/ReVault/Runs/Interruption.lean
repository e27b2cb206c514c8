import ReVault.Access.Recovery
import ReVault.Sharing.Lockout
import ReVault.Sync.Log

/-!
# Interrupted revocations

A revocation seals every block in use again under a new content key, and wraps this key for
the password only at the end. As long as every file is empty there is nothing to seal, and a
revocation may stop anywhere. Otherwise there is a point at which the password still opens
the old key, under which no file with content reads back.
-/

namespace ReVault

open Foundation Primitives

section

variable [Primitives]

/-- A container that opens with the password to a vault that reads every file which a handle
read. -/
def Vault.Reopens (v : Vault) (password : String) (image : Bytes) : Prop :=
  ∀ identity, ∃ w, openWithPassword image password identity = .ok w ∧
    ∀ name data, v.readFile name = .ok data → w.readFile name = .ok data

omit [Primitives] in
/-- A container that a program leaves when it does not run to completion: it stops with an
error, or the last of its writes do not arrive. -/
def Interrupts (program : VaultM Unit) (v : Vault) (image : Bytes) : Prop :=
  ∃ v' piece count, Logged v v' piece ∧ image = replay (Piece.patch (piece.take count)) v.file ∧
    ((∃ fault, program v = .error fault v') ∨
      (program v = .ok () v' ∧ count < piece.length))

/-- A handle on a container that a password opens to a table of readable files. Nothing is
said of the keyring. -/
structure Intact (v : Vault) (entries : Nat → FileEntry) (files : Files) (password : String) :
    Prop extends Legible v entries files where
  apart : files.Apart
  wraps : WrapsForPassword v.header password v.key
  header : cell v.file (Region.header.extent v.header) = some v.header.image
  counted : v.allocator.blockCount = v.header.blockCount
  bitmap : cell v.file (Region.bitmap.extent v.header) = some v.allocator.bits

/-! ## Sealed blocks -/

section Sealing

variable {v : Vault} {h : Header} {key : MasterKey} {uses : List Vault.BlockInUse}
  {piece : Piece}

/-- A range that fills the block of a use with its seal. -/
structure SealsUse (h : Header) (key : MasterKey) (use : Vault.BlockInUse)
    (range : UInt64 × Bytes) : Prop where
  fills : Fills h (.block use.block) range
  frames : (use.sealedUnder key).Frames h.blockSize.toNat range.2

/-- Sealing a list of uses fills the block of each. -/
theorem sealUses_records [Lawful] (layout : Layout v.header)
    (fits : ∀ use ∈ uses, use.plaintext.length + 20 ≤ v.header.blockSize.toNat)
    (valid : ∀ use ∈ uses, (Region.block use.block).Valid v.header) :
    ∃ v' piece, (uses.forM fun use =>
        Vault.writePhysicalBlock use.block use.fileId use.plaintext) v = .ok () v' ∧
      v'.header = v.header ∧ Logged v v' piece ∧
      List.Forall₂ (SealsUse v.header v.key) uses piece := by
  induction uses generalizing v with
  | nil => exact ⟨v, [], rfl, rfl, Logged.nothing rfl rfl, List.Forall₂.nil⟩
  | cons use rest ih =>
      have here := valid use List.mem_cons_self
      have fitsHere := fits use List.mem_cons_self
      obtain ⟨ciphertext, encrypted, framedSize, framed⟩ :=
        Vault.writePhysicalBlock_framed (v := v) use.block use.fileId fitsHere
      have start := layout.toNat_blockOffset here
      have size := length_padTo framedSize
      have inside : (v.header.blockOffset use.block).toNat +
          (padTo v.header.blockSize.toNat (toLE 4 use.plaintext.length ++ ciphertext)).length ≤
            ioLimit := by
        rw [start, size]
        exact layout.stop_le_ioLimit (.block use.block) here
      have wrote := framed.trans (Vault.writeAt_eq inside)
      obtain ⟨v', piece, ran, header, logged, seals⟩ := ih (v := Vault.written
        { v with seals := v.seals ++ [⟨v.key, use.fileId, use.block, use.plaintext⟩] } _ _) layout
        (fun later member => fits later (List.mem_cons_of_mem use member))
        fun later member => valid later (List.mem_cons_of_mem use member)
      have noted : Logged v
          { v with seals := v.seals ++ [⟨v.key, use.fileId, use.block, use.plaintext⟩] } [] :=
        Logged.nothing rfl rfl
      exact ⟨v', _, (bind_of_ok wrote).trans ran, header,
        (noted.trans (Logged.written _ inside)).trans logged,
        List.Forall₂.cons ⟨⟨here, start, size⟩, fitsHere, ciphertext, encrypted, rfl⟩ seals⟩

/-- Sealed blocks fill their regions. -/
theorem fills_of_seals (seals : List.Forall₂ (SealsUse h key) uses piece) :
    List.Forall₂ (Fills h) (uses.map fun use => .block use.block) piece :=
  List.forall₂_map_left_iff.mpr (seals.imp fun _ _ here => here.fills)

/-- Once all are sealed, the block of each use holds its seal. -/
theorem exists_frames_of_seals (layout : Layout h)
    (seals : List.Forall₂ (SealsUse h key) uses piece)
    (nodup : (uses.map fun use => use.block).Nodup) (file : Bytes) :
    ∀ use ∈ uses, ∃ content,
      cell (replay piece.patch file) ((Region.block use.block).extent h) = some content ∧
        (use.sealedUnder key).Frames h.blockSize.toNat content := by
  induction seals generalizing file with
  | nil => exact fun _ member => absurd member List.not_mem_nil
  | @cons head range rest piece here later ih =>
      obtain ⟨notLater, restNodup⟩ := List.nodup_cons.mp nodup
      intro use member
      rcases List.mem_cons.mp member with rfl | inRest
      · refine ⟨range.2, cell_replay_of_notMem layout (fills_of_seals later) here.fills.valid
          (fun again => notLater ?_) here.fills.cell_self, here.frames⟩
        obtain ⟨other, inRest, same⟩ := List.mem_map.mp again
        exact List.mem_map.mpr ⟨other, inRest, Region.block.inj same⟩
      · exact ih restNodup _ use inRest

/-- A container in which the blocks in use are sealed under another key, and nothing else has
changed, opens to a vault that does not read a file with content. -/
theorem Intact.not_reopens [Lawful] {entries : Nat → FileEntry} {files : Files}
    {password : String} (intact : Intact v entries files password) (inUse : InUse v files uses)
    (seals : List.Forall₂ (SealsUse v.header key) uses piece) (rejects : Rejects key v.key)
    {name : String} {idx : Nat} {file : StoredFile} (present : files.Present name idx file)
    (content : file.data ≠ []) : ¬ v.Reopens password (replay piece.patch v.file) := by
  intro reopens
  have layout := intact.layout
  have fills := fills_of_seals seals
  have kept : ∀ (region : Region) {content : Bytes}, region.Valid v.header → region.zone < 5 →
      cell v.file (region.extent v.header) = some content →
      cell (replay piece.patch v.file) (region.extent v.header) = some content := by
    intro region content valid inner found
    refine cell_replay_of_notMem layout fills valid (fun member => ?_) found
    obtain ⟨use, _, rfl⟩ := List.mem_map.mp member
    exact Nat.lt_irrefl 5 inner
  obtain ⟨identity⟩ : Nonempty Identity := ⟨⟨.replicate 32 0, .replicate 32 0⟩⟩
  obtain ⟨w, opened, reads⟩ := reopens identity
  rw [openWithPassword_of_cells layout intact.wraps
    (kept .header trivial (by decide) intact.header) intact.counted
    (kept .bitmap trivial (by decide) intact.bitmap) identity] at opened
  cases opened
  have listed : Listed (v.openedOn (replay piece.patch v.file) v.header v.allocator identity)
      entries files := by
    refine Listed.transfer (v := v) (SameShape.refl _) (fun other inTable => ?_) intact.toListed
      layout
    obtain ⟨content, found⟩ := intact.toListed.exists_cell layout inTable
    rw [found]
    exact kept (.entry other) inTable (show 2 < 5 by decide) found
  have read := reads name file.data (intact.toLegible.readFile_of_present present)
  unfold Vault.readFile at read
  rw [except_bind_of_ok (listed.findSlotByName_of_present present)] at read
  have described := intact.described idx file present.1
  obtain ⟨block, inFile, plaintext, found⟩ := described.exists_read_of_readEntry
    (v := v.openedOn (replay piece.patch v.file) v.header v.allocator identity)
      layout.blockSize content read
  obtain ⟨use, inUses, rfl⟩ := described.exists_use inFile
  obtain ⟨stored, held, frames⟩ := exists_frames_of_seals layout seals inUse.nodup v.file use
    (inUse.covers idx file present.1 use inUses)
  have valid : (Region.block (use.sealedUnder key).block).Valid v.header :=
    intact.valid idx file present.1 _ inFile
  obtain ⟨fault, rejected⟩ := Vault.exists_rejected_of_frames
    (v := v.openedOn (replay piece.patch v.file) v.header v.allocator identity)
    (layout.toNat_blockOffset valid) rfl valid.2 held frames rejects
  rw [← StoredFile.fileId_of_mem_uses inUses] at found
  exact absurd (found.symm.trans rejected) (by simp)

end Sealing

/-! ## Innocuous ranges -/

/-- A header of the shape of another that wraps some content key for a password. -/
structure Serviceable (h : Header) (password : String) (h' : Header) : Prop where
  shape : SameShape h h'
  layout : Layout h'
  wraps : ∃ key, WrapsForPassword h' password key

/-- A range that fills a slot of the keyring or of the chain, or that replaces the header by
a serviceable one. -/
inductive Innocuous (h : Header) (password : String) (range : UInt64 × Bytes) : Prop
  | header {h' : Header} (serviceable : Serviceable h password h')
      (fills : Fills h .header range) (image : range.2 = h'.image)
  | slot {region : Region} (outer : region.zone = 3 ∨ region.zone = 4)
      (fills : Fills h region range)

/-- From a serviceable header, a handle records innocuous ranges only and keeps a serviceable
header. -/
def Spares (h : Header) (password : String) (v v' : Vault) : Prop :=
  Serviceable h password v.header → Serviceable h password v'.header ∧
    ∃ piece, Logged v v' piece ∧ ∀ range ∈ piece, Innocuous h password range

/-- A program that spares what a password opens, however it ends. -/
abbrev Sparing {α : Type} (h : Header) (password : String) (program : VaultM α) : Prop :=
  Moves (Spares h password) program

section Programs

variable {h : Header} {password : String} {v v' : Vault}

namespace Spares

/-- Nothing changed. -/
theorem refl (v : Vault) : Spares h password v v := fun serviceable =>
  ⟨serviceable, [], Logged.nothing rfl rfl, fun _ member => absurd member List.not_mem_nil⟩

/-- One change after another. -/
theorem trans (v v' v'' : Vault) (head : Spares h password v v')
    (tail : Spares h password v' v'') : Spares h password v v'' := by
  intro serviceable
  obtain ⟨middle, first, logged, innocuous⟩ := head serviceable
  obtain ⟨final, second, logged', innocuous'⟩ := tail middle
  exact ⟨final, first ++ second, logged.trans logged', fun range member =>
    (List.mem_append.mp member).elim (innocuous range) (innocuous' range)⟩

/-- Replacing the header in memory by a serviceable one writes nothing. -/
theorem of_header (serviceable : Serviceable h password v'.header) (file : v'.file = v.file)
    (changeLog : v'.changeLog = v.changeLog) : Spares h password v v' := fun _ =>
  ⟨serviceable, [], Logged.nothing file changeLog, fun _ member => absurd member List.not_mem_nil⟩

/-- Writing an innocuous range. -/
theorem of_written {offset : UInt64} {data : Bytes}
    (innocuous : Innocuous h password (offset, data))
    (inside : offset.toNat + data.length ≤ ioLimit) :
    Spares h password v (v.written offset data) := fun serviceable =>
  ⟨serviceable, _, Logged.written v inside, fun range member => by
    rw [List.mem_singleton.mp member]
    exact innocuous⟩

end Spares

namespace Vault

/-- Writing the header spares the vault. -/
theorem writeHeader_spares : Sparing h password writeHeader := by
  intro v serviceable
  have encodable := serviceable.layout.encodable
  have read : observe (fun v : Vault => v.header.encode) v = .ok v.header.image v :=
    observe_of_ok (v.header.encode_eq encodable)
  have size := v.header.length_image encodable
  have inside : (0 : UInt64).toNat + v.header.image.length ≤ ioLimit := by
    rw [size]
    decide
  unfold writeHeader
  rw [bind_of_ok read, writeAt_eq inside]
  exact Spares.of_written (.header serviceable ⟨trivial, rfl, size⟩ rfl) inside serviceable

/-- Writing a slot for a recipient spares it. -/
theorem writeRecipientSlot_spares {idx : Nat} (inTable : idx < h.maxRecipients.toNat)
    (slot : RecipientSlot) : Sparing h password (writeRecipientSlot idx slot) := by
  intro v serviceable
  cases encoded : slot.encode with
  | error fault =>
      have failed : observe (fun _ : Vault => slot.encode) v = .error fault v :=
        observe_of_error encoded
      unfold writeRecipientSlot
      rw [bind_of_error failed]
      exact Spares.refl v serviceable
  | ok bytes =>
      have read : observe (fun _ : Vault => slot.encode) v = .ok bytes v := observe_of_ok encoded
      have size : bytes.length = recipientSlotSizeConst.toNat := length_of_assertFits encoded
      have valid : (Region.recipient idx).Valid v.header :=
        (serviceable.shape.valid_iff (.recipient idx)).mpr inTable
      have start := serviceable.layout.toNat_recipientSlotOffset valid
      have inside : (v.header.recipientSlotOffset idx).toNat + bytes.length ≤ ioLimit := by
        rw [start, size]
        exact serviceable.layout.stop_le_ioLimit (.recipient idx) valid
      rw [serviceable.shape.extent_eq] at start
      unfold writeRecipientSlot
      rw [bind_of_ok read, bind_of_ok (get_apply v), writeAt_eq inside]
      have fills : Fills h (.recipient idx) (v.header.recipientSlotOffset idx, bytes) :=
        ⟨inTable, start, size⟩
      exact Spares.of_written (.slot (Or.inl rfl) fills) inside serviceable

/-- Wrapping a slot again spares it. -/
theorem rewrapSlot_spares (draws : Draws) {idx : Nat} (inTable : idx < h.maxRecipients.toNat) :
    Sparing h password (rewrapSlot draws idx) := by
  unfold rewrapSlot
  refine Moves.bind Spares.trans (Moves.observe Spares.refl _) fun slot => ?_
  split
  · exact Moves.bind Spares.trans (Moves.observe Spares.refl _) fun _ =>
      writeRecipientSlot_spares inTable _
  · exact Moves.pure Spares.refl _

/-- Wrapping for the password again spares it. -/
theorem rewrapForPassword_spares (draws : Draws) [Lawful] :
    Sparing h password (rewrapForPassword password draws) := by
  intro v serviceable
  unfold rewrapForPassword
  cases derived : MasterKey.derive (utf8 password) v.header.salt v.header.argon2Params with
  | error fault =>
      have failed : observe (fun v : Vault =>
          MasterKey.derive (utf8 password) v.header.salt v.header.argon2Params) v =
          .error fault v := observe_of_error derived
      rw [bind_of_error failed]
      exact Spares.refl v serviceable
  | ok kek =>
      obtain ⟨slot, encrypted, sized, _⟩ :=
        encryptRandomNonce_spec kek draws.slotNonce v.key adminKeySlotAad
      have deriving' : observe (fun v : Vault =>
          MasterKey.derive (utf8 password) v.header.salt v.header.argon2Params) v =
          .ok kek v := observe_of_ok derived
      have encrypting : observe (fun v : Vault =>
          kek.encryptRandomNonce draws.slotNonce v.key.toList adminKeySlotAad) v = .ok slot v :=
        observe_of_ok encrypted
      have shape : SameShape v.header { v.header with adminKeySlot := slot } := rfl
      have switched : Serviceable h password { v.header with adminKeySlot := slot } := by
        refine ⟨serviceable.shape.trans shape, shape.layout serviceable.layout ?_,
          v.key, kek, draws.slotNonce, derived, encrypted⟩
        change slot.length ≤ 64
        rw [sized]
        decide
      rw [bind_of_ok deriving', bind_of_ok encrypting, bind_of_ok (modify_apply _ _)]
      refine Spares.trans v { v with header := { v.header with adminKeySlot := slot } } _
        (Spares.of_header switched rfl rfl) ?_ serviceable
      exact writeHeader_spares _

/-- Writing a record spares it. -/
theorem appendSignedChainRecord_spares (op : ChainOp) (targetId : BitVec 128)
    (dataHash : ByteArr 32) (timestamp : Int64) :
    Sparing h password (appendSignedChainRecord op targetId dataHash timestamp) := by
  intro v serviceable
  unfold appendSignedChainRecord
  cases made : v.nextRecord op targetId dataHash timestamp with
  | error fault =>
      have failed : observe (fun v : Vault => v.nextRecord op targetId dataHash timestamp) v =
          .error fault v := observe_of_error made
      rw [bind_of_error failed]
      exact Spares.refl v serviceable
  | ok record =>
      obtain ⟨offset, computed, start⟩ := serviceable.layout.chainSlotOffset_eq record.seq
      have making : observe (fun v : Vault => v.nextRecord op targetId dataHash timestamp) v =
          .ok record v := observe_of_ok made
      have located : observe (fun v : Vault => v.header.chainSlotOffset record.seq) v =
          .ok offset v := observe_of_ok computed
      have valid := serviceable.layout.ringSlot_valid record.seq
      have size := record.length_encode
      have inside : offset.toNat + record.encode.length ≤ ioLimit := by
        rw [start, size]
        exact serviceable.layout.stop_le_ioLimit (.record _) valid
      rw [serviceable.shape.extent_eq] at start
      have innocuous : Innocuous h password (offset, record.encode) :=
        .slot (Or.inr rfl) ⟨(serviceable.shape.valid_iff _).mp valid, start, size⟩
      have shape : SameShape v.header (anchored v.header record) := rfl
      obtain ⟨key, wraps⟩ := serviceable.wraps
      have moved : Serviceable h password (anchored v.header record) :=
        ⟨serviceable.shape.trans shape,
          shape.layout serviceable.layout serviceable.layout.encodable.adminKeySlot,
          key, wraps.of_sameShape shape rfl⟩
      rw [bind_of_ok making, bind_of_ok located, bind_of_ok (writeAt_eq inside),
        bind_of_ok (modify_apply _ _)]
      refine Spares.trans v (v.written offset record.encode) _
        (Spares.of_written innocuous inside) ?_ serviceable
      exact Spares.trans _ { v.written offset record.encode with
        header := anchored v.header record } _ (Spares.of_header moved rfl rfl)
        (writeHeader_spares _)

/-- What a revocation does once the blocks in use are sealed again. -/
def finishRevocation (slotIdx : Nat) (peerSigningPubkey : ByteArr 32) (password : String)
    (draws : Draws) : VaultM Unit :=
  (writeRecipientSlot slotIdx RecipientSlot.empty >>= fun _ =>
    observe (fun v => .ok v.recipientIndices) >>= fun indices =>
    indices.forM (rewrapSlot draws)) >>= fun _ =>
  rewrapForPassword password draws >>= fun _ =>
  appendSignedChainRecord .keyRotated (peerTargetId peerSigningPubkey)
    (sha256 peerSigningPubkey.toList) draws.recordTime

/-- What is left of a revocation once the blocks are sealed spares it. -/
theorem finishRevocation_spares [Lawful] {slotIdx : Nat}
    (inTable : slotIdx < h.maxRecipients.toNat) (peerSigningPubkey : ByteArr 32)
    (draws : Draws) :
    Sparing h password (finishRevocation slotIdx peerSigningPubkey password draws) := by
  refine Moves.bind Spares.trans (Moves.bind Spares.trans
    (writeRecipientSlot_spares inTable _) fun _ => ?_) fun _ =>
      Moves.bind Spares.trans (rewrapForPassword_spares draws) fun _ =>
        appendSignedChainRecord_spares _ _ _ _
  intro v serviceable
  have indices : observe (fun v : Vault => .ok v.recipientIndices) v =
      (.ok v.recipientIndices v : EStateM.Result Fault Vault _) := rfl
  rw [bind_of_ok indices]
  refine Moves.forM Spares.refl Spares.trans _ (fun idx member => ?_) v serviceable
  refine rewrapSlot_spares draws ?_
  rw [← serviceable.shape.maxRecipients_eq]
  exact List.mem_range.mp member

/-- It records what it writes. -/
theorem finishRevocation_records (slotIdx : Nat) (peerSigningPubkey : ByteArr 32)
    (password : String) (draws : Draws) :
    Recording (finishRevocation slotIdx peerSigningPubkey password draws) :=
  Recording.bind (Recording.bind (writeRecipientSlot_records _ _) fun _ =>
    Recording.bind (Recording.observe _) fun indices =>
      Recording.forM indices fun idx => rewrapSlot_records draws idx) fun _ =>
  Recording.bind (rewrapForPassword_records _ _) fun _ =>
    appendSignedChainRecord_records _ _ _ _

/-- It ends with the header. -/
theorem finishRevocation_closes (slotIdx : Nat) (peerSigningPubkey : ByteArr 32)
    (password : String) (draws : Draws) :
    Closing (finishRevocation slotIdx peerSigningPubkey password draws) :=
  Recording.closes (Recording.bind (writeRecipientSlot_records _ _) fun _ =>
    Recording.bind (Recording.observe _) fun indices =>
      Recording.forM indices fun idx => rewrapSlot_records draws idx) fun _ =>
  Recording.closes (rewrapForPassword_records _ _) fun _ =>
    appendSignedChainRecord_closes _ _ _ _

/-- A revocation plans, seals the blocks in use under the new key, and finishes. -/
theorem revokeAccess_eq_finish {slotIdx : Nat} {peerSigningPubkey : ByteArr 32}
    {uses : List BlockInUse} {sealed : Vault} {draws : Draws}
    (planned : v.planRevocation peerSigningPubkey = .ok (slotIdx, uses))
    (ran : (uses.forM fun use => writePhysicalBlock use.block use.fileId use.plaintext)
      { v with key := draws.dek } = .ok () sealed) :
    revokeAccess peerSigningPubkey password draws v =
      finishRevocation slotIdx peerSigningPubkey password draws sealed := by
  have observed : observe (fun v : Vault => v.planRevocation peerSigningPubkey) v =
      .ok (slotIdx, uses) v := observe_of_ok planned
  unfold revokeAccess finishRevocation
  refine bind_congr_run ?_
  unfold rotateKey
  refine (bind_of_ok observed).trans ((bind_of_ok (modify_apply _ _)).trans ?_)
  exact bind_of_ok ran

end Vault

end Programs

/-! ## When a revocation may stop -/

section Intact

variable {v : Vault} {entries : Nat → FileEntry} {files : Files} {password : String}

/-- Files without blocks read the same under any key. -/
theorem Legible.withKey (legible : Legible v entries files)
    (idle : ∀ idx stored, files idx = some stored → stored.blocks = []) (key : MasterKey) :
    Legible { v with key := key } entries files where
  slots := legible.slots
  shown := legible.shown
  vacant := legible.vacant
  described := legible.described
  named := legible.named
  layout := legible.layout
  valid := legible.valid
  readable := by
    intro idx file found use member
    have inFile := (legible.described idx file found).block_mem member
    rw [idle idx file found] at inFile
    cases inFile

/-- An innocuous range leaves a container that shelters files without blocks under some key. -/
theorem Innocuous.shelters (legible : Legible v entries files)
    (idle : ∀ idx stored, files idx = some stored → stored.blocks = [])
    {range : UInt64 × Bytes} (innocuous : Innocuous v.header password range) {file : Bytes}
    {key : MasterKey} (shelters : Shelters { v with key := key } files password file) :
    ∃ key', Shelters { v with key := key' } files password
      (writeAt file range.1.toNat range.2) := by
  have layout := legible.layout
  have entries : ∀ {filled : Region}, Fills v.header filled range → filled.zone ≠ 2 →
      ∀ idx, idx < v.header.maxFiles.toNat →
        cell (writeAt file range.1.toNat range.2) ((Region.entry idx).extent v.header) =
          cell v.file ((Region.entry idx).extent v.header) := by
    intro filled fill other idx inTable
    obtain ⟨content, found⟩ := legible.toListed.exists_cell layout inTable
    rw [found]
    refine fill.cell_of_ne layout (.entry idx) inTable (fun same => other ?_)
      ((shelters.entries idx inTable).trans found)
    rw [← same]
    rfl
  have blocks : ∀ idx stored, files idx = some stored → ∀ block ∈ stored.blocks,
      cell (writeAt file range.1.toNat range.2) ((Region.block block).extent v.header) =
        cell v.file ((Region.block block).extent v.header) := by
    intro idx stored found block member
    rw [idle idx stored found] at member
    cases member
  obtain ⟨allocator, counted, bitmap, marks⟩ := shelters.bitmap
  cases innocuous with
  | @header h' serviceable fills image =>
      obtain ⟨key', wraps⟩ := serviceable.wraps
      refine ⟨key', ⟨h', serviceable.shape, serviceable.layout, wraps, ?_⟩,
        ⟨allocator, counted, ?_, marks⟩, entries fills (show 0 ≠ 2 by decide), blocks⟩
      · rw [← image]
        exact fills.cell_self
      · exact fills.cell_of_ne layout .bitmap trivial (fun same => by cases same) bitmap
  | @slot filled outer fills =>
      obtain ⟨h', shape, layout', wraps, header⟩ := shelters.header
      refine ⟨key, ⟨h', shape, layout', wraps, ?_⟩, ⟨allocator, counted, ?_, marks⟩,
        entries fills (by omega), blocks⟩
      · refine fills.cell_of_ne layout .header trivial (fun same => ?_) header
        rw [← same] at outer
        exact absurd outer (by decide)
      · refine fills.cell_of_ne layout .bitmap trivial (fun same => ?_) bitmap
        rw [← same] at outer
        exact absurd outer (by decide)

/-- Any number of innocuous ranges does. -/
theorem exists_shelters_replay (legible : Legible v entries files)
    (idle : ∀ idx stored, files idx = some stored → stored.blocks = []) {piece : Piece}
    (innocuous : ∀ range ∈ piece, Innocuous v.header password range) {file : Bytes}
    {key : MasterKey} (shelters : Shelters { v with key := key } files password file) :
    ∃ key', Shelters { v with key := key' } files password (replay piece.patch file) := by
  induction piece generalizing file key with
  | nil => exact ⟨key, shelters⟩
  | cons range rest ih =>
      obtain ⟨key', shelters'⟩ :=
        (innocuous range List.mem_cons_self).shelters legible idle shelters
      exact ih (fun later member => innocuous later (List.mem_cons_of_mem range member)) shelters'

namespace Intact

variable (intact : Intact v entries files password)

include intact

/-- The container of an intact handle whose files have no blocks shelters them. -/
theorem shelters (idle : ∀ idx stored, files idx = some stored → stored.blocks = []) :
    Shelters { v with key := v.key } files password v.file where
  header := ⟨v.header, SameShape.refl _, intact.layout, intact.wraps, intact.header⟩
  bitmap := ⟨v.allocator, intact.counted, intact.bitmap, by
    intro idx stored found block member
    rw [idle idx stored found] at member
    cases member⟩
  entries := fun _ _ => rfl
  blocks := fun _ _ _ _ _ => rfl

/-- What is left of innocuous ranges reopens when no file has blocks. -/
theorem reopens [Lawful]
    (idle : ∀ idx stored, files idx = some stored → stored.blocks = []) {piece : Piece}
    (innocuous : ∀ range ∈ piece, Innocuous v.header password range) (count : Nat) :
    v.Reopens password (replay (Piece.patch (piece.take count)) v.file) := by
  intro identity
  obtain ⟨key, shelters⟩ := exists_shelters_replay intact.toLegible idle
    (fun range member => innocuous range (List.mem_of_mem_take member)) (intact.shelters idle)
  obtain ⟨w, opened, reads, _⟩ :=
    shelters.opens (intact.toLegible.withKey idle key) identity
  refine ⟨w, opened, fun name data read => ?_⟩
  rw [Legible.readFile_eq (fun _ _ => Iff.rfl) intact.toLegible reads]
  exact read

/-- The plan of a revocation of a peer that the keyring shows. -/
theorem planRevocation_eq {admin : Identity} (authorized : v.adminIdentity = some admin)
    {peer : ByteArr 32} {slotIdx : Nat} {slot : RecipientSlot}
    (granted : v.findRecipientSlotBySigningKey peer = .ok (some (slotIdx, slot))) :
    ∃ uses, v.planRevocation peer = .ok (slotIdx, uses) ∧ InUse v files uses := by
  obtain ⟨listed, uses, occupied, read, inUse⟩ := intact.toLegible.readEntries_eq intact.apart
  refine ⟨uses, ?_, inUse⟩
  unfold Vault.planRevocation
  rw [except_bind_of_ok (Vault.requireAdmin_eq authorized), except_bind_of_ok granted]
  change (v.allOccupiedEntries >>= _) = _
  rw [except_bind_of_ok occupied, except_bind_of_ok read]

/-- **Interruption.** A revocation of a granted peer may stop anywhere exactly when every
file is empty. -/
theorem interruption_iff [Lawful] {admin : Identity} (authorized : v.adminIdentity = some admin)
    {peer : ByteArr 32} {slotIdx : Nat} {slot : RecipientSlot}
    (granted : v.findRecipientSlotBySigningKey peer = .ok (some (slotIdx, slot)))
    {draws : Draws} (rejects : Rejects draws.dek v.key) :
    (∀ image, Interrupts (Vault.revokeAccess peer password draws) v image →
      v.Reopens password image) ↔ ∀ idx file, files idx = some file → file.data = [] := by
  obtain ⟨uses, planned, inUse⟩ := intact.planRevocation_eq authorized granted
  obtain ⟨sealed, piece, ran, header, logged, seals⟩ := sealUses_records
    (v := { v with key := draws.dek }) intact.layout
    (fun use member => by
      obtain ⟨idx, file, _, fromFile⟩ := inUse.ofFile use member
      exact StoredFile.fits_of_mem_uses intact.layout.blockSize fromFile)
    (fun use member => by
      obtain ⟨idx, file, found, fromFile⟩ := inUse.ofFile use member
      exact intact.valid idx file found _ ((intact.described idx file found).block_mem fromFile))
  have program : Vault.revokeAccess peer password draws v =
      Vault.finishRevocation slotIdx peer password draws sealed :=
    Vault.revokeAccess_eq_finish planned ran
  have switched : Logged v { v with key := draws.dek } [] := Logged.nothing rfl rfl
  have sealing : Logged v sealed piece := switched.trans logged
  constructor
  · intro safe idx file found
    by_contra content
    have lost := intact.not_reopens inUse seals rejects ⟨found, rfl⟩ content
    have whole : ∀ rest : Piece, (piece ++ rest).take piece.length = piece := fun rest =>
      List.take_left
    cases outcome : Vault.revokeAccess peer password draws v with
    | error fault v' =>
        obtain ⟨rest, later⟩ := Vault.finishRevocation_records slotIdx peer password draws sealed
        rw [← program, outcome] at later
        exact lost (safe _ ⟨v', piece ++ rest, piece.length, sealing.trans later,
          by rw [whole], Or.inl ⟨fault, outcome⟩⟩)
    | ok value v' =>
        have closes := Vault.finishRevocation_closes slotIdx peer password draws sealed
        unfold Yields at closes
        rw [← program, outcome] at closes
        obtain ⟨rest, later, before, encoded, restIs, _⟩ := closes
        have longer : piece.length < (piece ++ rest).length := by
          rw [restIs, List.length_append, List.length_append, List.length_singleton]
          omega
        exact lost (safe _ ⟨v', piece ++ rest, piece.length, sealing.trans later,
          by rw [whole], Or.inr ⟨outcome, longer⟩⟩)
  · rintro empty image ⟨v', written, count, logged', rfl, ended⟩
    have idle : ∀ idx stored, files idx = some stored → stored.blocks = [] :=
      fun idx stored found => ((intact.described idx stored found).blocks_eq_nil_iff
        intact.layout.blockSize).mpr (empty idx stored found)
    have unused : uses = [] := by
      refine List.eq_nil_iff_forall_not_mem.mpr fun use member => ?_
      obtain ⟨idx, file, found, fromFile⟩ := inUse.ofFile use member
      have inFile := (intact.described idx file found).block_mem fromFile
      rw [idle idx file found] at inFile
      cases inFile
    subst unused
    cases seals
    have inTable : slotIdx < v.header.maxRecipients.toNat :=
      List.mem_range.mp (mem_of_findSlot granted)
    have serviceable : Serviceable v.header password sealed.header := by
      rw [header]
      exact ⟨SameShape.refl _, intact.layout, v.key, intact.wraps⟩
    obtain ⟨_, rest, later, innocuous⟩ :=
      Vault.finishRevocation_spares inTable peer draws sealed serviceable
    rw [← program] at later
    have final : v' = finalState (Vault.revokeAccess peer password draws v) := by
      rcases ended with ⟨fault, stopped⟩ | ⟨finished, _⟩
      · rw [stopped]
        rfl
      · rw [finished]
        rfl
    have same : written = rest := by
      rw [final] at logged'
      exact List.append_cancel_left (logged'.recorded.symm.trans (sealing.trans later).recorded)
    rw [same]
    exact intact.reopens idle innocuous count

end Intact

end Intact

/-! ## Reachable vaults with any keyring -/

omit [Primitives] in
/-- A handle that differs from another at most in the bytes of the container's keyring, or
outside of all regions. -/
structure Vault.DiffersInKeyring (v v' : Vault) : Prop where
  handle : v' = { v with file := v'.file }
  others : ∀ region : Region, region.Valid v.header → region.zone ≠ 3 →
    cell v'.file (region.extent v.header) = cell v.file (region.extent v.header)

omit [Primitives] in
/-- A vault differs in no key from itself. -/
theorem Vault.DiffersInKeyring.refl (v : Vault) : v.DiffersInKeyring v :=
  ⟨rfl, fun _ _ _ => rfl⟩

/-- Whatever its keyring holds, the container of a sound vault is intact. -/
theorem Sound.intact [Lawful] {v v' : Vault} {d : Disk} {files : Files} {password : String}
    (sound : Sound v d files) (wraps : WrapsForPassword v.header password v.key)
    (differs : v.DiffersInKeyring v') : Intact v' d.entries files password := by
  have handle := differs.handle
  generalize v'.file = file at handle differs
  subst handle
  have layout := sound.tracks.layout
  have same := differs.others
  obtain ⟨content, header, rfl, _⟩ := sound.tracks.cells .header trivial trivial
  obtain ⟨content', bitmap, rfl⟩ := sound.tracks.cells .bitmap trivial trivial
  rw [sound.header] at header
  rw [sound.bitmap] at bitmap
  exact {
    toLegible := Legible.transfer (v := v) (SameShape.refl _)
      (fun idx inTable => same (.entry idx) inTable (show 2 ≠ 3 by decide)) sound.legible layout rfl
      fun idx file found block member =>
        same (.block block) (sound.legible.valid idx file found block member)
          (show 5 ≠ 3 by decide)
    apart := sound.apart
    wraps := wraps
    header := (same .header trivial (by decide)).trans header
    counted := sound.counted
    bitmap := (same .bitmap trivial (by decide)).trans bitmap }

/-- **Interrupted revocations.** Whatever the keyring of a reachable vault holds, a revocation
of a granted peer may stop anywhere exactly when every file is empty. -/
theorem Run.interruptible_iff [Lawful] {password : String} {origin v v' : Vault}
    {trace : List Step} {name description : String} {capacityBytes : UInt64} {admin : Identity}
    {draws draws' : Draws} {peer : ByteArr 32} {slot : Nat × RecipientSlot}
    (created : Vault.create name description capacityBytes password admin draws = .ok origin)
    (run : Run password origin trace v) (isAdmin : v.isAdmin = true)
    (differs : v.DiffersInKeyring v')
    (granted : v'.findRecipientSlotBySigningKey peer = .ok (some slot))
    (rejects : Rejects draws'.dek v.key) :
    (∀ image, Interrupts (Vault.revokeAccess peer (passwordAfter password trace) draws') v' image →
      v'.Reopens (passwordAfter password trace) image) ↔
      ∀ file data, catalogAfter trace file = some data → data = [] := by
  obtain ⟨d, files, healthy⟩ := run.healthy created
  obtain ⟨identity, authorized⟩ := Option.isSome_iff_exists.mp isAdmin
  have intact := healthy.sound.intact healthy.keyring.password differs
  have handle := differs.handle
  have authorized' : v'.adminIdentity = some identity := by
    rw [handle]
    exact authorized
  have rejects' : Rejects draws'.dek v'.key := by
    rw [handle]
    exact rejects
  rw [intact.interruption_iff authorized' granted rejects']
  constructor
  · intro empty file data held
    obtain ⟨idx, stored, present, rfl⟩ := (healthy.shown file data).mp held
    exact empty idx stored present.1
  · intro empty idx stored found
    exact empty stored.entry.name stored.data
      ((healthy.shown _ _).mpr ⟨idx, stored, ⟨found, rfl⟩, rfl⟩)

end

namespace Transparent

/-- A container with a file and a granted peer. -/
theorem exists_revocable : ∃ origin v slot,
    Vault.create "v" "" 65536 "p" (identity 1) (draws 1) = .ok origin ∧
    Run "p" origin [⟨.addFile "a" [1, 2, 3], draws 2, true⟩,
      ⟨.grantAccess (identity 2).peerId, draws 3, true⟩] v ∧ v.isAdmin = true ∧
    v.findRecipientSlotBySigningKey (identity 2).peerId.signingPublic = .ok (some slot) ∧
    Rejects (draws 4).dek v.key := by
  obtain ⟨origin, v, created, run⟩ := exists_granted
  obtain ⟨d, files, healthy⟩ := run.healthy created
  have isAdmin := Run.isAdmin created (show Run _ _ ([_] ++ [_]) _ from run) rfl rfl
  have present := (healthy.keyring.hasSigner_iff _).mpr ⟨_, List.mem_singleton.mpr rfl, rfl⟩
  obtain ⟨idx, found, _⟩ := Vault.findRecipientSlot_of_present healthy.sound.tracks present
  have initial : origin.key = digest keyLen [1] := (Vault.create_spec created).key
  have inForce : v.key = origin.key := healthy.key
  refine ⟨origin, v, _, created, run, isAdmin, found, ?_⟩
  rw [inForce, initial]
  exact rejects_of_tag_ne (by decide)

/-- A revocation may be interrupted exactly when its condition holds. -/
theorem interruptible_iff_revoked : ∃ origin v,
    Vault.create "v" "" 65536 "p" (identity 1) (draws 1) = .ok origin ∧
    Run "p" origin [⟨.addFile "a" [1, 2, 3], draws 2, true⟩,
      ⟨.grantAccess (identity 2).peerId, draws 3, true⟩] v ∧
    ((∀ image, Interrupts (Vault.revokeAccess (identity 2).peerId.signingPublic "p" (draws 4)) v
        image → v.Reopens "p" image) ↔
      ∀ file data, catalogAfter [⟨.addFile "a" [1, 2, 3], draws 2, true⟩,
        ⟨.grantAccess (identity 2).peerId, draws 3, true⟩] file = some data → data = []) := by
  obtain ⟨origin, v, slot, created, run, isAdmin, found, rejects⟩ := exists_revocable
  have interruptible := Run.interruptible_iff created run isAdmin (.refl v) found rejects
  exact ⟨origin, v, created, run, interruptible⟩

/-- A revocation that stops once the block of the file is sealed again loses the file. -/
theorem interrupted_revocation_loses : ∃ origin v image,
    Vault.create "v" "" 65536 "p" (identity 1) (draws 1) = .ok origin ∧
    Run "p" origin [⟨.addFile "a" [1, 2, 3], draws 2, true⟩,
      ⟨.grantAccess (identity 2).peerId, draws 3, true⟩] v ∧
    Interrupts (Vault.revokeAccess (identity 2).peerId.signingPublic "p" (draws 4)) v image ∧
    ¬ v.Reopens "p" image := by
  obtain ⟨origin, v, slot, created, run, isAdmin, found, rejects⟩ := exists_revocable
  obtain ⟨d, files, healthy⟩ := run.healthy created
  obtain ⟨idx, file, present, content⟩ := (healthy.shown "a" [1, 2, 3]).mp rfl
  obtain ⟨admin, authorized⟩ := Option.isSome_iff_exists.mp isAdmin
  have wraps : WrapsForPassword v.header "p" v.key := healthy.keyring.password
  have intact := healthy.sound.intact wraps (.refl v)
  by_contra none
  have safe := (intact.interruption_iff authorized found rejects).mp fun image interrupts =>
    Classical.byContradiction fun lost =>
      none ⟨origin, v, image, created, run, interrupts, lost⟩
  have empty := safe idx file present.1
  rw [content] at empty
  exact List.cons_ne_nil _ _ empty

end Transparent

end ReVault
