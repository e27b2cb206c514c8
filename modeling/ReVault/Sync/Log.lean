import ReVault.Runs.Reach

/-!
# The change log

Every program of a handle records what it writes, whether it succeeds or not, and an
accepted mutation records the whole header last.
-/

namespace ReVault

open Foundation Primitives

/-- A program that records all it writes. -/
abbrev Recording {α : Type} (program : VaultM α) : Prop := Moves Logs program

/-- A program that, when it succeeds, has recorded all it wrote and a whole header last. -/
def Closing {α : Type} (program : VaultM α) : Prop :=
  ∀ v, Yields program v (fun _ v' => ∃ piece, Logged v v' piece ∧ piece.EndsWithHeader)
    fun _ _ => True

namespace Recording

variable {α β ι : Type}

/-- Reading records nothing. -/
theorem observe (read : Vault → Except Fault α) : Recording (observe read) :=
  Moves.observe Logs.refl read

/-- One program after another. -/
theorem bind {first : VaultM α} {next : α → VaultM β} (head : Recording first)
    (tail : ∀ value, Recording (next value)) : Recording (first >>= next) :=
  Moves.bind Logs.trans head tail

/-- A program that looks at the vault first. -/
theorem get_bind {next : Vault → VaultM β} (tail : ∀ v, Recording (next v)) :
    Recording (get >>= next) := by
  intro v
  rw [bind_of_ok (get_apply v)]
  exact tail v v

/-- A change that leaves the file and the log alone. -/
theorem modify {update : Vault → Vault}
    (kept : ∀ v, (update v).file = v.file ∧ (update v).changeLog = v.changeLog) :
    Recording (modify update) :=
  fun v => ⟨[], Logged.nothing (kept v).1 (kept v).2⟩

/-- A loop. -/
theorem forM {body : ι → VaultM PUnit} (items : List ι) (step : ∀ item, Recording (body item)) :
    Recording (items.forM body) :=
  Moves.forM Logs.refl Logs.trans items fun item _ => step item

/-- A program that records before one that closes. -/
theorem closes {first : VaultM α} {next : α → VaultM β} (head : Recording first)
    (tail : ∀ value, Closing (next value)) : Closing (first >>= next) := by
  intro v
  have moved := head v
  unfold Yields
  cases outcome : first v with
  | ok value middle =>
      rw [outcome] at moved
      obtain ⟨earlier, logged⟩ := moved
      rw [bind_of_ok outcome]
      refine (tail value middle).mono ?_ fun _ _ => id
      rintro result v' ⟨piece, later, ends⟩
      exact ⟨earlier ++ piece, logged.trans later, ends.append earlier⟩
  | error fault middle =>
      rw [bind_of_error outcome]
      trivial

end Recording

variable [Primitives]

namespace Vault

omit [Primitives] in
/-- A write is recorded. -/
theorem writeAt_records (offset : UInt64) (data : Bytes) : Recording (writeAt offset data) := by
  intro v
  by_cases inside : offset.toNat + data.length ≤ ioLimit
  · rw [writeAt_eq inside]
    exact ⟨_, Logged.written v inside⟩
  · rw [writeAt_refused inside]
    exact Logs.refl v

/-- Writing the header is recorded. -/
theorem writeHeader_records : Recording writeHeader :=
  Recording.bind (Recording.observe _) fun encoded => writeAt_records 0 encoded

omit [Primitives] in
/-- Writing the bitmap is recorded. -/
theorem writeBitmap_records : Recording writeBitmap :=
  Recording.get_bind fun v => writeAt_records v.header.bitmapOffset v.allocator.asBytes

/-- Writing a slot of the file table is recorded. -/
theorem writeSlot_records (idx : Nat) (entry : FileEntry) : Recording (writeSlot idx entry) :=
  Recording.bind (Recording.observe _) fun encoded =>
    Recording.get_bind fun v => writeAt_records (v.header.slotOffset idx) encoded

/-- Writing a slot for a recipient is recorded. -/
theorem writeRecipientSlot_records (idx : Nat) (slot : RecipientSlot) :
    Recording (writeRecipientSlot idx slot) :=
  Recording.bind (Recording.observe _) fun encoded =>
    Recording.get_bind fun v => writeAt_records (v.header.recipientSlotOffset idx) encoded

/-- Writing a block is recorded. -/
theorem writePhysicalBlock_records (physicalIdx : UInt64) (fileId : BitVec 128)
    (plaintext : Bytes) : Recording (writePhysicalBlock physicalIdx fileId plaintext) := by
  unfold writePhysicalBlock
  refine Recording.bind (Recording.observe _) fun ciphertext => ?_
  refine Recording.bind (Recording.modify fun _ => ⟨rfl, rfl⟩) fun _ => ?_
  refine Recording.get_bind fun v => ?_
  split
  · exact Moves.throw Logs.refl _
  · exact writeAt_records _ _

/-- Writing a content is recorded. -/
theorem writeContent_records (header : Header) (fileId : BitVec 128) (data : Bytes)
    (dataBlocks indexBlocks : List UInt64) :
    Recording (writeContent header fileId data dataBlocks indexBlocks) := by
  refine Recording.bind (Recording.forM _ fun _ => writePhysicalBlock_records _ _ _) fun _ => ?_
  refine Recording.forM _ fun node => ?_
  split
  · exact writePhysicalBlock_records _ _ _
  · exact Moves.throw Logs.refl _

/-- Storing a content is recorded. -/
theorem storeNewContent_records (fileId : BitVec 128) (data : Bytes) :
    Recording (storeNewContent fileId data) := by
  unfold storeNewContent
  refine Recording.bind (Recording.observe _) fun counts => ?_
  refine Recording.get_bind fun v => ?_
  refine Recording.bind (Recording.modify fun _ => ⟨rfl, rfl⟩) fun _ => ?_
  refine Recording.bind (writeContent_records _ _ _ _ _) fun _ => ?_
  exact Recording.bind writeBitmap_records fun _ => Moves.pure Logs.refl _

omit [Primitives] in
/-- Releasing blocks is recorded. -/
theorem releaseBlocks_records (blocks : List UInt64) : Recording (releaseBlocks blocks) :=
  Recording.bind (Recording.modify fun _ => ⟨rfl, rfl⟩) fun _ => writeBitmap_records

/-- Wrapping a slot again is recorded. -/
theorem rewrapSlot_records (draws : Draws) (idx : Nat) : Recording (rewrapSlot draws idx) := by
  unfold rewrapSlot
  refine Recording.bind (Recording.observe _) fun slot => ?_
  split
  · exact Recording.bind (Recording.observe _) fun _ => writeRecipientSlot_records idx _
  · exact Moves.pure Logs.refl _

/-- Replacing the key is recorded. -/
theorem rotateKey_records (signingPubkey : ByteArr 32) (draws : Draws) :
    Recording (rotateKey signingPubkey draws) := by
  unfold rotateKey
  refine Recording.bind (Recording.observe _) fun plan => ?_
  refine Recording.bind (Recording.modify fun _ => ⟨rfl, rfl⟩) fun _ => ?_
  refine Recording.bind (Recording.forM _ fun _ => writePhysicalBlock_records _ _ _) fun _ => ?_
  refine Recording.bind (writeRecipientSlot_records _ _) fun _ => ?_
  refine Recording.bind (Recording.observe _) fun indices => ?_
  exact Recording.forM indices fun idx => rewrapSlot_records draws idx

/-- Wrapping for a password again is recorded. -/
theorem rewrapForPassword_records (password : String) (draws : Draws) :
    Recording (rewrapForPassword password draws) := by
  unfold rewrapForPassword
  refine Recording.bind (Recording.observe _) fun kek => ?_
  refine Recording.bind (Recording.observe _) fun adminKeySlot => ?_
  exact Recording.bind (Recording.modify fun _ => ⟨rfl, rfl⟩) fun _ => writeHeader_records

/-- Writing a record is recorded. -/
theorem appendSignedChainRecord_records (op : ChainOp) (targetId : BitVec 128)
    (dataHash : ByteArr 32) (timestamp : Int64) :
    Recording (appendSignedChainRecord op targetId dataHash timestamp) := by
  unfold appendSignedChainRecord
  refine Recording.bind (Recording.observe _) fun record => ?_
  refine Recording.bind (Recording.observe _) fun offset => ?_
  refine Recording.bind (writeAt_records _ _) fun _ => ?_
  exact Recording.bind (Recording.modify fun _ => ⟨rfl, rfl⟩) fun _ => writeHeader_records

/-! ## Mutations record the header last -/

/-- The header is written last. -/
theorem writeHeader_closes : Closing writeHeader := by
  intro v
  cases outcome : v.header.encode with
  | error fault => exact Yields.of_error (observe_bind_of_error outcome) trivial
  | ok encoded =>
      have size : encoded.length = headerSize := length_of_assertFits outcome
      have read : observe (fun v : Vault => v.header.encode) v = .ok encoded v :=
        observe_of_ok outcome
      by_cases inside : (0 : UInt64).toNat + encoded.length ≤ ioLimit
      · exact Yields.of_ok ((bind_of_ok read).trans (writeAt_eq inside))
          ⟨_, Logged.written v inside, [], encoded, rfl, size⟩
      · exact Yields.of_error ((bind_of_ok read).trans (writeAt_refused inside)) trivial

/-- A record ends with the header. -/
theorem appendSignedChainRecord_closes (op : ChainOp) (targetId : BitVec 128)
    (dataHash : ByteArr 32) (timestamp : Int64) :
    Closing (appendSignedChainRecord op targetId dataHash timestamp) := by
  unfold appendSignedChainRecord
  refine Recording.closes (Recording.observe _) fun record => ?_
  refine Recording.closes (Recording.observe _) fun offset => ?_
  refine Recording.closes (writeAt_records _ _) fun _ => ?_
  exact Recording.closes (Recording.modify fun _ => ⟨rfl, rfl⟩) fun _ => writeHeader_closes

end Vault

/-- Every mutation records all it writes and, when it succeeds, the whole header last. -/
theorem Op.exec_closes (password : String) (draws : Draws) {op : Op}
    (mutates : op.mutates = true) : Closing (op.exec password draws) := by
  cases op with
  | addFile name data =>
      refine Recording.closes (Recording.observe _) fun slot => ?_
      refine Recording.closes (Vault.storeNewContent_records _ _) fun stored => ?_
      refine Recording.closes (Vault.writeSlot_records _ _) fun _ => ?_
      exact Vault.appendSignedChainRecord_closes _ _ _ _
  | updateFile name data =>
      refine Recording.closes (Recording.observe _) fun plan => ?_
      refine Recording.closes (Vault.releaseBlocks_records _) fun _ => ?_
      refine Recording.closes (Vault.storeNewContent_records _ _) fun stored => ?_
      refine Recording.closes (Vault.writeSlot_records _ _) fun _ => ?_
      exact Vault.appendSignedChainRecord_closes _ _ _ _
  | deleteFile name =>
      refine Recording.closes (Recording.observe _) fun plan => ?_
      refine Recording.closes (Vault.releaseBlocks_records _) fun _ => ?_
      refine Recording.closes (Vault.writeSlot_records _ _) fun _ => ?_
      exact Vault.appendSignedChainRecord_closes _ _ _ _
  | grantAccess peer =>
      refine Recording.closes (Recording.observe _) fun idx => ?_
      refine Recording.closes (Recording.observe _) fun wrapped => ?_
      refine Recording.closes (Vault.writeRecipientSlot_records _ _) fun _ => ?_
      exact Vault.appendSignedChainRecord_closes _ _ _ _
  | revokeAccess signingPubkey password =>
      refine Recording.closes (Vault.rotateKey_records _ _) fun _ => ?_
      refine Recording.closes (Vault.rewrapForPassword_records _ _) fun _ => ?_
      exact Vault.appendSignedChainRecord_closes _ _ _ _
  | readFile name => cases mutates
  | listFiles => cases mutates
  | takeChangeLog => cases mutates
  | reopen identity => cases mutates

/-- **One step.** A mutation that a healthy handle takes or refuses records all it writes;
its ranges are none or end with a whole header. -/
theorem Healthy.logs [Lawful] {password : String} {origin v v' : Vault} {trace : List Step}
    {d : Disk} {files : Files} {step : Step} (healthy : Healthy password origin trace v d files)
    (taken : Takes password trace v step v') (mutates : step.op.mutates = true) :
    ∃ piece, Logged v v' piece ∧ (piece = [] ∨ piece.EndsWithHeader) := by
  rcases healthy.step_cases taken with ⟨_, rfl⟩ | ⟨accepted, _⟩
  · exact ⟨[], Logged.nothing rfl rfl, Or.inl rfl⟩
  · have closes := Op.exec_closes (passwordAfter password trace) step.draws mutates v
    unfold Takes at taken
    unfold Yields at closes
    split at taken
    · rename_i reached ran
      rw [ran] at closes
      obtain ⟨_, rfl⟩ := taken
      obtain ⟨piece, logged, ends⟩ := closes
      exact ⟨piece, logged, Or.inr ends⟩
    · rw [accepted] at taken
      exact absurd taken.1 (by decide)

/-- A container never becomes shorter. -/
theorem Run.length_le [Lawful] {password : String} {origin v : Vault} {trace : List Step}
    {name description : String} {capacityBytes : UInt64} {admin : Identity} {draws : Draws}
    (created : Vault.create name description capacityBytes password admin draws = .ok origin)
    (run : Run password origin trace v) : origin.file.length ≤ v.file.length := by
  induction run with
  | nil => exact Nat.le_refl _
  | @snoc trace w w' step earlier taken ih =>
      obtain ⟨d, files, healthy⟩ := Run.healthy created earlier
      cases mutates : step.op.mutates with
      | true =>
          obtain ⟨piece, logged, _⟩ := healthy.logs taken mutates
          rw [logged.replayed]
          exact ih.trans (length_replay_le piece.patch w.file)
      | false =>
          rcases healthy.step_cases taken with ⟨_, rfl⟩ | ⟨_, _, _, took⟩
          · exact ih
          · rw [(took.container mutates).1]
            exact ih

end ReVault
