import ReVault.Ledger.Ledger
import ReVault.Runs.Accounting

/-!
# The ledger that a vault keeps

A sound vault keeps one ledger: its slots are those of the file table and of the keyring,
and the blocks left are the free ones. What the scans of the container find is what the
ledger finds.
-/

namespace ReVault

open Foundation Primitives

/-- The ledger's record of a stored file. -/
def StoredFile.record (file : StoredFile) : FileRecord where
  name := file.entry.name
  data := file.data
  createdAt := file.entry.createdAt
  modifiedAt := file.entry.modifiedAt

/-- The peer that holds a slot. -/
def RecipientSlot.holder (slot : RecipientSlot) : Option PeerId :=
  if slot.isOccupied then some slot.peer else none

/-- A slot that is not occupied holds nobody. -/
@[simp] theorem RecipientSlot.holder_eq_none {slot : RecipientSlot} :
    slot.holder = none ↔ slot.isOccupied = false := by simp [holder]

/-- A slot that was never used holds nobody. -/
@[simp] theorem RecipientSlot.holder_empty : RecipientSlot.empty.holder = none :=
  holder_eq_none.mpr (by decide)

/-- Who holds a slot. -/
theorem RecipientSlot.holder_eq_some {slot : RecipientSlot} {peer : PeerId} :
    slot.holder = some peer ↔ slot.isOccupied = true ∧ slot.peer = peer := by simp [holder]

/-- The slots of the ledger are those of the container. -/
structure Ledger.Of (ledger : Ledger) (h : Header) (d : Disk) (files : Files) : Prop where
  stock : ledger.blockCount = h.blockCount.toNat
  files : ledger.files =
    Slots.tabulate h.maxFiles.toNat fun idx => (files idx).map StoredFile.record
  peers : ledger.peers = Slots.tabulate h.maxRecipients.toNat fun idx => (d.recipients idx).holder

namespace Ledger.Of

variable {ledger : Ledger} {h h' : Header} {d d' : Disk} {files : Files}

/-- The same ledger under a header of the same shape. -/
theorem of_sameShape (of : ledger.Of h d files) (same : SameShape h h')
    (recipients : d'.recipients = d.recipients) : ledger.Of h' d' files where
  stock := by rw [same.blockCount_eq, of.stock]
  files := by rw [same.maxFiles_eq, of.files]
  peers := by rw [same.maxRecipients_eq, recipients, of.peers]

/-- Changing the file of a slot. -/
theorem setFile (of : ledger.Of h d files) (idx : Nat) (file : Option StoredFile) :
    { ledger with files := ledger.files.set idx (file.map StoredFile.record) }.Of h d
      (Function.update files idx file) where
  stock := of.stock
  files := by
    simp only [of.files, Slots.set_tabulate]
    congr 1
    funext other
    by_cases same : other = idx
    · simp [same]
    · simp [Function.update_of_ne same]
  peers := of.peers

/-- Changing the holder of a recipient slot. -/
theorem setPeer (of : ledger.Of h d files) (idx : Nat) {peer : Option PeerId}
    (here : (d'.recipients idx).holder = peer)
    (others : ∀ other, other < h.maxRecipients.toNat → other ≠ idx →
      (d'.recipients other).holder = (d.recipients other).holder) :
    { ledger with peers := ledger.peers.set idx peer }.Of h d' files where
  stock := of.stock
  files := of.files
  peers := by
    simp only [of.peers, Slots.set_tabulate]
    apply List.map_congr_left
    intro other member
    by_cases same : other = idx
    · simp [same, here]
    · simp [Function.update_of_ne same, others other (List.mem_range.mp member) same]

/-- A name that no file has is not found. -/
theorem findFile_of_absent (of : ledger.Of h d files) {name : String} (absent : files.Absent name) :
    ledger.findFile name = none := by
  rw [findFile, of.files]
  apply Slots.find_of_absent
  intro idx record _ held
  obtain ⟨file, found, rfl⟩ := Option.map_eq_some_iff.mp held
  simpa [StoredFile.record] using absent idx file found

end Ledger.Of

variable [Primitives]

/-- A slot that is wrapped again has the same holder. -/
theorem Rewrapped.holder_eq {key : MasterKey} {slot slot' : RecipientSlot}
    (rewrapped : Rewrapped key slot slot') : slot'.holder = slot.holder := by
  rw [Rewrapped] at rewrapped
  split at rewrapped
  · rename_i occupied
    simp only [RecipientSlot.holder, occupied, rewrapped.2.1, rewrapped.1]
  · rw [rewrapped]

section

variable {v : Vault} {d : Disk} {files : Files} {ledger : Ledger} (sound : Sound v d files)
  (of : ledger.Of v.header d files)

include sound of

/-- The file of a name is found in its slot. -/
theorem Sound.findFile_of_present {name : String} {idx : Nat} {file : StoredFile}
    (present : files.Present name idx file) : ledger.findFile name = some (idx, file.record) := by
  obtain ⟨found, named⟩ := present
  rw [Ledger.findFile, of.files]
  apply Slots.find_of_unique (sound.shown idx file found).1
  · simp [found]
  · simp [StoredFile.record, named]
  · intro other record _ held isNamed
    obtain ⟨file', found', rfl⟩ := Option.map_eq_some_iff.mp held
    have named' : file'.entry.name = name := by simpa [StoredFile.record] using isNamed
    exact sound.named other idx file' file found' found (named'.trans named.symm)

/-- What the ledger uses are the occupied blocks. -/
theorem Sound.used_eq_card (size : v.header.blockSize = defaultBlockSize) :
    ledger.used = v.allocator.occupied.card := by
  rw [sound.card_occupied_eq size, Ledger.used, of.files, Slots.values_tabulate, List.map_filterMap,
    List.map_filterMap]
  congr 1
  apply List.filterMap_congr
  intro idx _
  cases found : files idx with
  | none => rfl
  | some file => simp [StoredFile.record, StoredFile.info, (sound.stored idx file found).size]

/-- The blocks left are the free ones. -/
theorem Sound.free_eq_freeCount (size : v.header.blockSize = defaultBlockSize) :
    ledger.free = v.allocator.freeCount := by
  rw [Ledger.free, sound.used_eq_card of size, BlockAllocator.freeCount_eq, of.stock,
    sound.counted]

/-- The search for a free file slot stops at the first empty slot. -/
theorem Sound.findFreeSlot_first :
    v.findFreeSlot = .ok (ledger.files.firstFree.map fun idx => (idx, d.entries idx)) := by
  have searched : v.findFreeSlot = .ok (((List.range v.header.maxFiles.toNat).find? fun idx =>
      !(d.entries idx).isOccupied).map fun idx => (idx, d.entries idx)) :=
    findSlot_eq sound.listed.readSlots _
  rw [searched, of.files, Slots.firstFree_tabulate]
  intro idx inTable
  cases found : files idx with
  | none => simp [sound.vacant idx inTable found]
  | some file => simp [(sound.isOccupied_iff inTable).mpr ⟨file, found⟩]

/-- The search for a free recipient slot stops at the first empty slot. -/
theorem Sound.findFreeRecipientSlot_first :
    v.findFreeRecipientSlot =
      .ok (ledger.peers.firstFree.map fun idx => (idx, d.recipients idx)) := by
  have searched : v.findFreeRecipientSlot =
      .ok (((List.range v.header.maxRecipients.toNat).find? fun idx =>
        !(d.recipients idx).isOccupied).map fun idx => (idx, d.recipients idx)) :=
    findSlot_eq (Vault.readRecipients sound.tracks) _
  rw [searched, of.peers, Slots.firstFree_tabulate]
  intro idx _
  cases occupied : (d.recipients idx).isOccupied <;> simp [RecipientSlot.holder, occupied]

end

section Keyring

variable {v : Vault} {d : Disk} {files : Files} {ledger : Ledger}
  (of : ledger.Of v.header d files) {signingPubkey : ByteArr 32}

include of

omit [Primitives] in
/-- A signing key that no slot has is not found. -/
theorem Ledger.Of.findPeer_of_absent (absent : ¬ d.HasSigner v.header signingPubkey) :
    ledger.findPeer signingPubkey = none := by
  rw [Ledger.findPeer, of.peers]
  apply Slots.find_of_absent
  intro idx peer inTable held
  obtain ⟨occupied, rfl⟩ := RecipientSlot.holder_eq_some.mp held
  by_contra isSigner
  have signer : (d.recipients idx).signingPubkey = signingPubkey := by
    simpa [RecipientSlot.peer] using isSigner
  exact absent ⟨idx, ⟨inTable, occupied⟩, signer⟩

/-- The holder of a signing key is found in its slot. -/
theorem Keyring.findPeer_of_occupies {password : String} {granted : List PeerId}
    (keyring : Keyring v d password granted) {idx : Nat} (occupies : d.Occupies v.header idx)
    (signer : (d.recipients idx).signingPubkey = signingPubkey) :
    ledger.findPeer signingPubkey = some (idx, (d.recipients idx).peer) := by
  rw [Ledger.findPeer, of.peers]
  apply Slots.find_of_unique occupies.1
  · exact RecipientSlot.holder_eq_some.mpr ⟨occupies.2, rfl⟩
  · simp [RecipientSlot.peer, signer]
  · intro other peer inTable held isSigner
    obtain ⟨occupied, rfl⟩ := RecipientSlot.holder_eq_some.mp held
    have signer' : (d.recipients other).signingPubkey = signingPubkey := by
      simpa [RecipientSlot.peer] using isSigner
    exact keyring.distinct other idx ⟨inTable, occupied⟩ occupies (signer'.trans signer.symm)

end Keyring

end ReVault
