import ReVault.Files.Exact

/-!
# Arithmetic on containers from elsewhere

What a container must be for the arithmetic of opening, listing, reading and verifying to be
exact: the region ends that the decoder adds up do not wrap; the tables have room for every slot
that a scan comes to, and the ring for every record of the window; the blocks of a file that
is read are longer than their frame; and every pointer that is followed is the index of a block
of the data region. The decoder of headers checks none of this.
-/

namespace ReVault

open Foundation Primitives

section

variable [Primitives]

/-! ## Calls without arithmetic -/

omit [Primitives] in
/-- The first bytes of what is long enough are an array. -/
theorem toArr?_take {count : Nat} {bytes : Bytes} (long : count ≤ bytes.length) :
    ∃ arr : ByteArr count, toArr? count (bytes.take count) = some arr :=
  ⟨⟨bytes.take count, List.length_take_of_le long⟩, dif_pos (List.length_take_of_le long)⟩

/-- Unsealing a blob never panics: its length is checked first. -/
theorem MasterKey.decryptRandomNonce_returns (key : MasterKey) (blob aad : Bytes) :
    Returns (key.decryptRandomNonce blob aad) := by
  unfold decryptRandomNonce
  split
  · exact Returns.error _
  · rename_i long
    obtain ⟨nonce, found⟩ : ∃ nonce, toArr? nonceLen (blob.take nonceLen) = some nonce :=
      toArr?_take (by omega)
    rw [found]
    dsimp only
    split
    · exact Returns.ok _
    · exact Returns.error _

namespace Vault

/-- Unwrapping with a password returns. -/
theorem unwrapWithPassword_returns (header : Header) (password : String) :
    Returns (unwrapWithPassword header password) := by
  have derives : Returns (MasterKey.derive (utf8 password) header.salt header.argon2Params) := by
    unfold MasterKey.derive
    split
    · exact Returns.ok _
    · exact Returns.error _
  refine returns_bind_iff.mpr ⟨derives, fun kek _ => returns_bind_iff.mpr
    ⟨kek.decryptRandomNonce_returns _ _, fun dekBytes _ => ?_⟩⟩
  split
  · exact Returns.ok _
  · exact Returns.error _

/-- Unwrapping as a recipient returns. -/
theorem unwrapAsRecipient_returns (slot : RecipientSlot) (localIdentity : Identity) :
    Returns (unwrapAsRecipient slot localIdentity) := by
  unfold unwrapAsRecipient
  split
  · exact Returns.error _
  · rename_i sized
    have length : slot.wrappedDek.length = 32 + nonceLen + keyLen + tagLen := not_not.mp sized
    obtain ⟨ephemeral, first⟩ : ∃ ephemeral, toArr? 32 (slot.wrappedDek.take 32) = some ephemeral :=
      toArr?_take (by omega)
    obtain ⟨nonce, second⟩ : ∃ nonce,
        toArr? nonceLen ((slot.wrappedDek.drop 32).take nonceLen) = some nonce :=
      toArr?_take (by rw [List.length_drop]; omega)
    unfold unwrapDekForRecipient
    rw [first, second]
    dsimp only
    split
    · exact Returns.error _
    · split
      · exact Returns.ok _
      · exact Returns.error _

/-- Checking a record returns. -/
theorem checkRecord_returns (v : Vault) (seq : Nat) (prev : Option ChainRecord)
    (record : ChainRecord) : Returns (v.checkRecord seq prev record) := by
  unfold checkRecord
  split
  · exact Returns.error _
  · split
    · exact Returns.error _
    · refine returns_bind_iff.mpr ⟨Returns.checked _, fun _ _ => ?_⟩
      split
      · split
        · exact Returns.error _
        · exact Returns.ok _
      · exact Returns.ok _

omit [Primitives] in
/-- Checking the anchor returns. -/
theorem checkAnchor_returns (v : Vault) (prev : Option ChainRecord) :
    Returns (v.checkAnchor prev) := by
  unfold checkAnchor
  split
  · split
    · exact Returns.error _
    · exact Returns.ok _
  · exact Returns.ok _

end Vault

omit [Primitives] in
/-- A bitmap that is longer than a buffer can be panics. -/
theorem readAllocator_ne_iff {file : Bytes} {header : Header} :
    readAllocator file header ≠ .error .panic ↔ header.bitmapLen.toNat ≤ ioLimit := by
  unfold readAllocator
  split
  · rename_i long
    exact iff_of_false (fun goes => goes rfl) (Nat.not_le.mpr long)
  · rename_i short
    exact iff_of_true (returns_bind_iff.mpr ⟨readExact_returns .., fun _ _ => Returns.ok _⟩).1
      (Nat.le_of_not_lt short)

/-! ## Opening -/

/-- Reading a header returns. -/
theorem readHeader_returns (file : Bytes) : Returns (readHeader file) :=
  returns_bind_iff.mpr ⟨readExact_returns .., fun _ _ => Returns.checked _⟩

/-- A program that reads a header first panics at its ends or later. -/
theorem exactReadHeader_bind_ne_iff {α : Type} {file : Bytes} {next : Header → Except Fault α} :
    (exactReadHeader file >>= next) ≠ .error .panic ↔ ∀ h, readHeader file = .ok h →
      h.EndsFit ∧ next h ≠ .error .panic := by
  rw [(exactReadHeader_guards file).bind_ne_iff, exactReadHeader,
    (Guards.refl _).bind_ne_iff, and_iff_right (readHeader_returns file).1, ← forall_and]
  refine forall_congr' fun h => ?_
  rw [← imp_and]
  refine imp_congr_right fun _ => and_congr_left fun _ => ?_
  rw [(h.exactEnds_guards).bind_ne_iff, Header.exactEnds_ne_iff]
  exact and_iff_left fun _ _ => Exact.ok_ne_panic h

namespace Vault

/-- What a container must be to be opened with a password. -/
def OpensWithin (file : Bytes) (password : String) : Prop :=
  ∀ h, readHeader file = .ok h → h.EndsFit ∧
    ∀ key, unwrapWithPassword h password = .ok key → h.bitmapLen.toNat ≤ ioLimit

/-- When opening with a password panics. -/
theorem exactOpenWithPassword_ne_iff {file : Bytes} {password : String}
    {localIdentity : Identity} :
    exactOpenWithPassword file password localIdentity ≠ .error .panic ↔
      OpensWithin file password := by
  refine exactReadHeader_bind_ne_iff.trans (forall_congr' fun h => imp_congr_right fun _ =>
    and_congr_right fun _ => ?_)
  rw [(Guards.refl _).bind_ne_iff, and_iff_right (unwrapWithPassword_returns h password).1]
  refine forall_congr' fun key => imp_congr_right fun _ => ?_
  rw [(Guards.refl _).bind_ne_iff, readAllocator_ne_iff]
  exact and_iff_left fun _ _ => Exact.ok_ne_panic _

/-- The slot of a recipient that opens a container. -/
def isSlotOf (localIdentity : Identity) (slot : RecipientSlot) : Bool :=
  slot.isOccupied && slot.encryptionPubkey == localIdentity.peerId.encryptionPublic

/-- What a container must be to be opened as a recipient: the keyring has room for every slot
that the search comes to. -/
def OpensAsRecipientWithin (file : Bytes) (localIdentity : Identity) : Prop :=
  ∀ h, readHeader file = .ok h → h.EndsFit ∧
    (∀ idx < h.maxRecipients.toNat,
      (∀ earlier < idx, ∃ slot, readRecipientSlotAt file h earlier = .ok slot ∧
        isSlotOf localIdentity slot = false) → h.HoldsRecipient idx) ∧
    ∀ idx slot key, findSlot (readRecipientSlotAt file h) (isSlotOf localIdentity)
        (List.range h.maxRecipients.toNat) = .ok (some (idx, slot)) →
      unwrapAsRecipient slot localIdentity = .ok key → h.bitmapLen.toNat ≤ ioLimit

/-- Reading a slot for a recipient panics exactly when the slot has no room. -/
theorem exactReadRecipientSlotAt_ne_iff {file : Bytes} {h : Header} {idx : Nat}
    (below : idx < h.maxRecipients.toNat) :
    exactReadRecipientSlotAt file h idx ≠ .error .panic ↔ h.HoldsRecipient idx := by
  unfold exactReadRecipientSlotAt
  rw [(h.exactRecipientSlotOffset_guards idx).bind_ne_iff,
    Header.exactRecipientSlotOffset_ne_iff below]
  exact and_iff_left fun _ _ => (returns_bind_iff.mpr ⟨readExact_returns ..,
    fun _ _ => Returns.checked _⟩).1

/-- When opening as a recipient panics. -/
theorem exactOpenAsRecipient_ne_iff {file : Bytes} {localIdentity : Identity} :
    exactOpenAsRecipient file localIdentity ≠ .error .panic ↔
      OpensAsRecipientWithin file localIdentity := by
  refine exactReadHeader_bind_ne_iff.trans (forall_congr' fun h => imp_congr_right fun _ =>
    and_congr_right fun _ => ?_)
  have guards := exactReadRecipientSlotAt_guards file h
  have scan := findSlot_ne_iff guards (isSlotOf localIdentity)
    (List.range h.maxRecipients.toNat)
  rw [atEach_range] at scan
  rw [(findSlot_guards guards _ _).bind_ne_iff]
  refine and_congr (scan.trans (forall₂_congr fun idx below => ?_)) ?_
  · simp only [List.mem_range, exactReadRecipientSlotAt_ne_iff below]
  · constructor
    · intro opens idx slot key found unwrapped
      have goes := opens _ found
      rw [(Guards.refl _).bind_ne_iff] at goes
      have allocates := goes.2 key unwrapped
      rw [(Guards.refl _).bind_ne_iff, readAllocator_ne_iff] at allocates
      exact allocates.1
    · intro short found searched
      cases found with
      | none => exact fun same => by cases same
      | some place =>
          refine (Guards.refl _).bind_ne_iff.mpr ⟨(unwrapAsRecipient_returns ..).1,
            fun key unwrapped => (Guards.refl _).bind_ne_iff.mpr
              ⟨?_, fun _ _ => Exact.ok_ne_panic _⟩⟩
          exact readAllocator_ne_iff.mpr (short place.1 place.2 key searched unwrapped)

/-! ## Listing -/

/-- What a container must be for its files to be listed: the file table has room for every slot
before which all slots can be read. -/
def ListsWithin (v : Vault) : Prop :=
  ∀ idx < v.header.maxFiles.toNat, (∀ earlier < idx, ∃ entry, v.readSlot earlier = .ok entry) →
    v.header.HoldsEntry idx

/-- Reading a slot panics exactly when the slot has no room. -/
theorem exactReadSlot_ne_iff {v : Vault} {idx : Nat} (below : idx < v.header.maxFiles.toNat) :
    v.exactReadSlot idx ≠ .error .panic ↔ v.header.HoldsEntry idx := by
  unfold exactReadSlot
  rw [(v.header.exactSlotOffset_guards idx).bind_ne_iff, Header.exactSlotOffset_ne_iff below]
  exact and_iff_left fun _ _ => (returns_bind_iff.mpr ⟨readExact_returns ..,
    fun _ _ => Returns.checked _⟩).1

/-- When listing the files panics. -/
theorem exactListFiles_ne_iff {v : Vault} :
    v.exactListFiles ≠ .error .panic ↔ v.ListsWithin := by
  have scan := keepSlots_ne_iff v.exactReadSlot_guards (fun entry => entry.isOccupied)
    v.slotIndices
  rw [slotIndices, atEach_range] at scan
  unfold exactListFiles
  rw [(keepSlots_guards v.exactReadSlot_guards _ _).bind_ne_iff,
    and_iff_left fun _ _ => Exact.ok_ne_panic _]
  refine scan.trans (forall₂_congr fun idx below => ?_)
  simp only [List.mem_range, exactReadSlot_ne_iff below]

/-! ## Reading -/

/-- What a container must be for an entry that is not empty to be read: its blocks are longer
than their frame, every block number that is followed is one of the data region, and the
content fits a buffer. -/
structure Addresses (v : Vault) (entry : FileEntry) : Prop where
  chunk : blockFramingOverhead.toNat < v.header.blockSize.toNat
  nodes : ∀ count node, v.chainPointer entry count = some node → node ≠ 0 →
    v.header.HoldsBlock node
  content : ∀ blocks, v.collectDataBlocks entry = .ok blocks → entry.size.toNat ≤ ioLimit
  blocks : ∀ blocks, v.collectDataBlocks entry = .ok blocks → AtEach (fun earlier block =>
    (∀ other ∈ earlier, ∃ chunk, v.readPhysicalBlock other entry.id = .ok chunk) →
      v.header.HoldsBlock block) blocks

/-- What a container must be for a file to be read: the file table has room for every slot
that the search comes to, and the file that is found is empty or addresses blocks. -/
def ReadsWithin (v : Vault) (name : String) : Prop :=
  (∀ idx < v.header.maxFiles.toNat,
    (∀ earlier < idx, ∃ entry, v.readSlot earlier = .ok entry ∧
      (entry.isOccupied && entry.name == name) = false) → v.header.HoldsEntry idx) ∧
  ∀ idx entry, v.findSlotByName name = .ok (some (idx, entry)) → entry.size ≠ 0 →
    v.Addresses entry

section

variable {v : Vault} {fileId : BitVec 128} (long : 20 < v.header.blockSize.toNat)

include long

/-- Reading a block panics exactly when the block has no room. -/
theorem exactReadPhysicalBlock_ne_iff {block : UInt64} :
    v.exactReadPhysicalBlock block fileId ≠ .error .panic ↔ v.header.HoldsBlock block := by
  unfold exactReadPhysicalBlock
  rw [(v.header.exactBlockOffset_guards block).bind_ne_iff,
    Header.exactBlockOffset_ne_iff (Nat.zero_lt_of_lt long)]
  refine and_iff_left fun offset _ => (returns_bind_iff.mpr ⟨readExact_returns ..,
    fun buf read => ?_⟩).1
  rw [exactOpenBlock_eq, openBlock_returns_iff, length_of_readExact read]
  omega

/-- So does reading an index block. -/
theorem exactReadIndexBlock_ne_iff {block : UInt64} :
    v.exactReadIndexBlock block fileId ≠ .error .panic ↔ v.header.HoldsBlock block := by
  unfold exactReadIndexBlock
  rw [(v.exactReadPhysicalBlock_guards block fileId).bind_ne_iff,
    exactReadPhysicalBlock_ne_iff long]
  exact and_iff_left fun payload _ => (parseIndexPayload_returns payload).1

/-- The walk panics exactly when it comes to a block that has no room. -/
theorem exactOverflowNodes_ne_iff {next : UInt64} :
    v.exactOverflowNodes fileId next ≠ .error .panic ↔ ∀ count node,
      pointer (fun block => v.readIndexBlock block fileId) 0 next count = some node →
        node ≠ 0 → v.header.HoldsBlock node := by
  unfold exactOverflowNodes
  rw [chase_ne_iff_of_numbered (fun block => v.exactReadIndexBlock_guards block fileId)
    (fun same => by cases same) blockNumber_injective]
  simp only [exactReadIndexBlock_ne_iff long]

/-- Reading a content panics exactly at the first block that has no room. -/
theorem exactReadContent_ne_iff {blocks : List UInt64} :
    v.exactReadContent fileId blocks ≠ .error .panic ↔ AtEach (fun earlier block =>
      (∀ other ∈ earlier, ∃ chunk, v.readPhysicalBlock other fileId = .ok chunk) →
        v.header.HoldsBlock block) blocks := by
  induction blocks with
  | nil => exact iff_of_true (Exact.ok_ne_panic _) (atEach_nil _)
  | cons block rest ih =>
      rw [exactReadContent, (v.exactReadPhysicalBlock_guards block fileId).bind_ne_iff,
        exactReadPhysicalBlock_ne_iff long, atEach_cons]
      simp only [List.not_mem_nil, false_implies, implies_true, true_implies,
        List.forall_mem_cons, and_imp]
      refine and_congr_right fun _ => ?_
      have onward : ∀ chunk : Bytes, (v.exactReadContent fileId rest >>= fun later =>
          .ok (chunk ++ later)) ≠ .error .panic ↔
            v.exactReadContent fileId rest ≠ .error .panic := by
        intro chunk
        rw [(v.exactReadContent_guards fileId rest).bind_ne_iff]
        exact and_iff_left fun _ _ => Exact.ok_ne_panic _
      simp only [onward, ih]
      cases v.readPhysicalBlock block fileId with
      | error error =>
          simp only [reduceCtorEq, false_implies, implies_true, exists_false, true_iff]
          exact fun _ _ _ _ => trivial
      | ok chunk => simp only [Except.ok.injEq, forall_eq', exists_eq', true_implies]

end

/-- Collecting blocks panics exactly when a chunk has no length or the walk panics. -/
theorem exactCollectDataBlocks_ne_iff {v : Vault} {entry : FileEntry}
    (filled : entry.size ≠ 0) :
    v.exactCollectDataBlocks entry ≠ .error .panic ↔
      20 < v.header.blockSize.toNat ∧ ∀ count node, v.chainPointer entry count = some node →
        node ≠ 0 → v.header.HoldsBlock node := by
  have sized : entry.size.toNat ≠ 0 := fun zero => filled (UInt64.toNat_inj.mp zero)
  have counts := v.header.exactDataBlockCount_guards entry.size.toNat
  have goes : v.header.exactDataBlockCount entry.size.toNat ≠ .error .panic ↔ _ :=
    Header.exactDataBlockCount_ne_iff
  unfold exactCollectDataBlocks
  rw [counts.bind_ne_iff, goes, or_iff_right sized]
  refine and_congr_right fun long => ?_
  obtain ⟨count, counted⟩ : ∃ count, v.header.dataBlockCount entry.size.toNat = .ok count := by
    rcases dataBlockCount_cases v.header entry.size.toNat with ⟨_, counted⟩ | ⟨_, panics⟩
    · exact counted
    · exact absurd panics (counts.passes_iff.mpr (goes.mpr (Or.inr long))).2
  simp only [counted, Except.ok.injEq, forall_eq']
  rw [(v.exactOverflowNodes_guards _ _).bind_ne_iff, exactOverflowNodes_ne_iff long]
  refine and_iff_left fun nodes _ => ?_
  split
  · exact (Returns.error _).1
  · exact Exact.ok_ne_panic _

/-- When reading an entry panics. -/
theorem exactReadEntry_ne_iff {v : Vault} {entry : FileEntry} :
    v.exactReadEntry entry ≠ .error .panic ↔ (entry.size ≠ 0 → v.Addresses entry) := by
  unfold exactReadEntry
  by_cases empty : entry.size = 0
  · rw [if_pos empty]
    refine iff_of_true ?_ fun filled => absurd empty filled
    split
    · exact (Returns.error _).1
    · exact Exact.ok_ne_panic _
  · rw [if_neg empty, (v.exactCollectDataBlocks_guards entry).bind_ne_iff,
      exactCollectDataBlocks_ne_iff empty]
    have finishes : 20 < v.header.blockSize.toNat → ∀ blocks : List UInt64,
        (assure .panic (entry.size.toNat ≤ ioLimit) >>= fun _ =>
          v.exactReadContent entry.id blocks >>= fun content =>
            if sha256 (content.take entry.size.toNat) ≠ entry.fileHash then
              .error (.error (.integrityViolation
                "file contents do not match stored hash (corruption or tampering)"))
            else .ok (content.take entry.size.toNat)) ≠ .error .panic ↔
          entry.size.toNat ≤ ioLimit ∧ AtEach (fun earlier block =>
            (∀ other ∈ earlier, ∃ chunk, v.readPhysicalBlock other entry.id = .ok chunk) →
              v.header.HoldsBlock block) blocks := by
      intro long blocks
      rw [assure_bind_ne_iff, (v.exactReadContent_guards entry.id blocks).bind_ne_iff,
        exactReadContent_ne_iff long]
      refine and_congr_right fun _ => and_iff_left fun content _ => ?_
      split
      · exact (Returns.error _).1
      · exact Exact.ok_ne_panic _
    constructor
    · rintro ⟨⟨long, nodes⟩, rest⟩ _
      exact {
        chunk := long
        nodes := nodes
        content := fun blocks found => ((finishes long blocks).mp (rest blocks found)).1
        blocks := fun blocks found => ((finishes long blocks).mp (rest blocks found)).2 }
    · intro all
      have addresses := all empty
      exact ⟨⟨addresses.chunk, addresses.nodes⟩, fun blocks found =>
        (finishes addresses.chunk blocks).mpr
          ⟨addresses.content blocks found, addresses.blocks blocks found⟩⟩

/-- When reading a file panics. -/
theorem exactReadFile_ne_iff {v : Vault} {name : String} :
    v.exactReadFile name ≠ .error .panic ↔ v.ReadsWithin name := by
  have scan := findSlot_ne_iff v.exactReadSlot_guards
    (fun entry => entry.isOccupied && entry.name == name) v.slotIndices
  rw [slotIndices, atEach_range] at scan
  unfold exactReadFile
  rw [(findSlot_guards v.exactReadSlot_guards _ _).bind_ne_iff]
  refine and_congr (scan.trans (forall₂_congr fun idx below => ?_)) ?_
  · simp only [List.mem_range, exactReadSlot_ne_iff below]
  · constructor
    · exact fun reads idx entry found => exactReadEntry_ne_iff.mp (reads _ found)
    · intro addresses found searched
      cases found with
      | none => exact (Returns.error _).1
      | some place => exact exactReadEntry_ne_iff.mpr (addresses place.1 place.2 searched)

/-! ## Verifying -/

/-- What a container must be to be verified: the ring has room for every record of the window
before which all records pass; and once the chain has passed, the files can be listed, and each
read before which all can be read. -/
structure VerifiesWithin (v : Vault) : Prop where
  records : AtEach (fun earlier seq => (∃ prev, v.verifyChain earlier none = .ok prev) →
    v.header.HoldsRecord seq) v.windowSeqs
  entries : ∀ prev, v.verifyChain v.windowSeqs none = .ok prev → v.checkAnchor prev = .ok () →
    v.ListsWithin
  files : ∀ prev, v.verifyChain v.windowSeqs none = .ok prev → v.checkAnchor prev = .ok () →
    ∀ files, v.listFiles = .ok files → AtEach (fun earlier name =>
      v.verifyFiles earlier = .ok () → v.ReadsWithin name) (files.map fun info => info.name)

omit [Primitives] in
/-- Reading a record panics exactly when there are no slots or the record has no room. -/
theorem exactReadChainSlotAtSeq_ne_iff {v : Vault} {seq : UInt64} :
    v.exactReadChainSlotAtSeq seq ≠ .error .panic ↔ v.header.HoldsRecord seq.toNat := by
  unfold exactReadChainSlotAtSeq
  rw [(v.header.exactChainSlotOffset_guards seq).bind_ne_iff,
    Header.exactChainSlotOffset_ne_iff]
  exact and_iff_left fun _ _ => (returns_bind_iff.mpr ⟨readExact_returns ..,
    fun _ _ => Returns.checked _⟩).1

/-- The walk along the chain panics exactly at the first record that has no room. -/
theorem exactVerifyChain_ne_iff {v : Vault} {seqs : List Nat} {prev : Option ChainRecord} :
    v.exactVerifyChain seqs prev ≠ .error .panic ↔ AtEach (fun earlier seq =>
      (∃ last, v.verifyChain earlier prev = .ok last) →
        v.header.HoldsRecord (UInt64.ofNat seq).toNat) seqs := by
  induction seqs generalizing prev with
  | nil => exact iff_of_true (Exact.ok_ne_panic _) (atEach_nil _)
  | cons seq rest ih =>
      rw [exactVerifyChain, (v.exactReadChainSlotAtSeq_guards _).bind_ne_iff,
        exactReadChainSlotAtSeq_ne_iff, atEach_cons]
      refine and_congr ⟨fun holds _ => holds, fun holds => holds ⟨prev, rfl⟩⟩ ?_
      simp only [verifyChain]
      cases v.readChainSlotAtSeq (UInt64.ofNat seq) with
      | error error =>
          refine iff_of_true (fun _ impossible => by cases impossible) ?_
          rintro _ _ _ _ ⟨_, impossible⟩
          cases impossible
      | ok found =>
          simp only [Except.ok.injEq, forall_eq']
          cases found with
          | none => exact ih
          | some record =>
              dsimp only
              rw [(Guards.refl _).bind_ne_iff, and_iff_right (v.checkRecord_returns ..).1]
              change _ ↔ AtEach (fun earlier later =>
                (∃ last, (v.checkRecord seq prev record >>= fun _ =>
                  v.verifyChain earlier (some record)) = .ok last) →
                v.header.HoldsRecord (UInt64.ofNat later).toNat) rest
              cases v.checkRecord seq prev record with
              | error error =>
                  refine iff_of_true (fun _ impossible => by cases impossible) ?_
                  rintro _ _ _ _ ⟨_, impossible⟩
                  cases impossible
              | ok =>
                  simp only [forall_const]
                  exact ih

/-- Verifying files panics exactly at the first file whose reading does. -/
theorem exactVerifyFiles_ne_iff {v : Vault} {names : List String} :
    v.exactVerifyFiles names ≠ .error .panic ↔ AtEach (fun earlier name =>
      v.verifyFiles earlier = .ok () → v.ReadsWithin name) names := by
  induction names with
  | nil => exact iff_of_true (Exact.ok_ne_panic _) (atEach_nil _)
  | cons name rest ih =>
      rw [exactVerifyFiles, (v.exactReadFile_guards name).bind_ne_iff, exactReadFile_ne_iff,
        atEach_cons]
      refine and_congr ⟨fun reads _ => reads, fun reads => reads rfl⟩ ?_
      simp only [verifyFiles]
      cases v.readFile name with
      | error error =>
          refine iff_of_true (fun _ impossible => by cases impossible) ?_
          rintro _ _ _ _ impossible
          cases impossible
      | ok content =>
          simp only [Except.ok.injEq, forall_eq']
          exact ih

omit [Primitives] in
/-- A number in the window is not cut off. -/
theorem toNat_ofNat_of_window {v : Vault} {seq : Nat} (member : seq ∈ v.windowSeqs) :
    (UInt64.ofNat seq).toNat = seq := by
  obtain ⟨index, inRange, rfl⟩ := List.mem_map.mp member
  have below := List.mem_range.mp inRange
  have newest : v.newestSeq < 2 ^ 64 := Nat.lt_of_le_of_lt (Nat.sub_le _ _) (UInt64.toNat_lt _)
  exact UInt64.toNat_ofNat_of_lt' (by change _ < 2 ^ 64; omega)

/-- When verifying panics. -/
theorem exactVerifyIntegrity_ne_iff {v : Vault} :
    v.exactVerifyIntegrity ≠ .error .panic ↔ v.VerifiesWithin := by
  have window : v.exactVerifyChain v.windowSeqs none ≠ .error .panic ↔
      AtEach (fun earlier seq => (∃ prev, v.verifyChain earlier none = .ok prev) →
        v.header.HoldsRecord seq) v.windowSeqs := by
    refine exactVerifyChain_ne_iff.trans (atEach_congr fun earlier seq member => ?_)
    rw [toNat_ofNat_of_window member]
  unfold exactVerifyIntegrity
  rw [(v.exactVerifyChain_guards _ _).bind_ne_iff, window]
  simp only [(Guards.refl (v.checkAnchor _)).bind_ne_iff, (v.checkAnchor_returns _).1,
    v.exactListFiles_guards.bind_ne_iff, exactListFiles_ne_iff, exactVerifyFiles_ne_iff,
    ne_eq, not_false_eq_true, true_and]
  constructor
  · rintro ⟨records, rest⟩
    exact ⟨records, fun prev chained anchored => (rest prev chained () anchored).1,
      fun prev chained anchored => (rest prev chained () anchored).2⟩
  · intro verifies
    exact ⟨verifies.records, fun prev chained _ anchored =>
      ⟨verifies.entries prev chained anchored, verifies.files prev chained anchored⟩⟩

end Vault

/-- **Arithmetic.** Opening, listing, reading and verifying pass the checks of their arithmetic
exactly when the region ends, the tables, the ring, the blocks and the pointers allow it; and the
capacity of an index block does when there is room for its header. -/
theorem arithmetic_exact_iff :
    (∀ (file : Bytes) (password : String) (localIdentity : Identity),
      Passes .panic (Vault.exactOpenWithPassword file password localIdentity)
        (Vault.openWithPassword file password localIdentity) ↔
          Vault.OpensWithin file password) ∧
    (∀ (file : Bytes) (localIdentity : Identity),
      Passes .panic (Vault.exactOpenAsRecipient file localIdentity)
        (Vault.openAsRecipient file localIdentity) ↔
          Vault.OpensAsRecipientWithin file localIdentity) ∧
    (∀ v : Vault, Passes .panic v.exactListFiles v.listFiles ↔ v.ListsWithin) ∧
    (∀ (v : Vault) (name : String),
      Passes .panic (v.exactReadFile name) (v.readFile name) ↔ v.ReadsWithin name) ∧
    (∀ v : Vault, Passes .panic v.exactVerifyIntegrity v.verifyIntegrity ↔
      v.VerifiesWithin) ∧
    ∀ h : Header, Passes .panic h.exactIndexBlockCapacity (.ok h.indexBlockCapacity) ↔
      32 ≤ h.blockSize.toNat := by
  refine ⟨fun file password localIdentity => ?_, fun file localIdentity => ?_, fun v => ?_,
    fun v name => ?_, fun v => ?_, fun h => ?_⟩
  · exact (Vault.exactOpenWithPassword_guards ..).passes_iff.trans
      Vault.exactOpenWithPassword_ne_iff
  · exact (Vault.exactOpenAsRecipient_guards ..).passes_iff.trans
      Vault.exactOpenAsRecipient_ne_iff
  · exact v.exactListFiles_guards.passes_iff.trans Vault.exactListFiles_ne_iff
  · exact (v.exactReadFile_guards name).passes_iff.trans Vault.exactReadFile_ne_iff
  · exact v.exactVerifyIntegrity_guards.passes_iff.trans Vault.exactVerifyIntegrity_ne_iff
  · exact h.exactIndexBlockCapacity_guards.passes_iff.trans Header.exactIndexBlockCapacity_ne_iff

end

namespace Transparent

/-- A header whose key slot opens with the empty password, and whose ring has no slots. -/
def ringlessHeader : Header :=
  { bareHeader (zeroArr 32) with adminKeySlot := List.replicate 60 0 }

/-- The header without records can be encoded. -/
theorem ringlessHeader_encodable : ringlessHeader.Encodable where
  name := Nat.zero_le _
  description := Nat.zero_le _
  adminKeySlot := by
    unfold ringlessHeader
    rw [List.length_replicate]
    decide

/-- Its regions are in order. -/
theorem ringlessHeader_structured : ringlessHeader.Structured := by
  constructor <;> simp only [ringlessHeader, bareHeader] <;> decide

/-- The container opens. -/
theorem exists_ringless (localIdentity : Identity) : ∃ v,
    Vault.openWithPassword ringlessHeader.image "" localIdentity = .ok v ∧
      v.header = ringlessHeader := by
  have length := ringlessHeader.length_image ringlessHeader_encodable
  have decoded : readHeader ringlessHeader.image = .ok ringlessHeader := by
    have whole : readExact ringlessHeader.image 0 headerSize = .ok ringlessHeader.image := by
      unfold readExact
      rw [if_neg (by decide), ← length, show (0 : UInt64).toNat = 0 from rfl,
        readAt_self]
    have back := ringlessHeader.decode_image ringlessHeader_encodable
      ringlessHeader_structured []
    rw [List.append_nil] at back
    unfold readHeader
    rw [except_bind_of_ok whole, back]
    rfl
  have unwrapped : ∃ key, Vault.unwrapWithPassword ringlessHeader "" = .ok key := ⟨_, rfl⟩
  have allocates : readAllocator ringlessHeader.image ringlessHeader =
      .ok (BlockAllocator.fromBytes [] 1) := by
    have none : readExact ringlessHeader.image ringlessHeader.bitmapOffset 0 = .ok [] := by
      unfold readExact readAt
      rw [if_neg (by decide), List.take_zero]
      rfl
    unfold readAllocator
    rw [if_neg (by decide)]
    exact except_bind_of_ok none
  obtain ⟨key, unwrapped⟩ := unwrapped
  refine ⟨{ file := ringlessHeader.image, header := ringlessHeader,
            allocator := BlockAllocator.fromBytes [] 1, key,
            adminIdentity := if localIdentity.peerId.signingPublic =
              ringlessHeader.adminSigningPubkey then some localIdentity else none,
            changeLog := [], seals := [] }, ?_, rfl⟩
  unfold Vault.openWithPassword
  rw [except_bind_of_ok decoded, except_bind_of_ok unwrapped, except_bind_of_ok allocates]

/-- A container whose ring has no slots opens, and verifying it divides by zero. -/
theorem ringless_container_faults : ¬ ∀ (file : Bytes) (password : String)
    (localIdentity : Identity) (v : Vault),
      Vault.openWithPassword file password localIdentity = .ok v →
        Passes .panic v.exactListFiles v.listFiles ∧
        (∀ name, Passes .panic (v.exactReadFile name) (v.readFile name)) ∧
        Passes .panic v.exactVerifyIntegrity v.verifyIntegrity := by
  intro claim
  obtain ⟨v, opened, header⟩ := exists_ringless ⟨zeroArr 32, zeroArr 32⟩
  have verifies := (claim _ _ _ v opened).2.2.2
  have window : v.windowSeqs = [0] := by
    unfold Vault.windowSeqs Vault.oldestSeq Vault.newestSeq
    rw [header]
    rfl
  have divides : v.readChainSlotAtSeq (UInt64.ofNat 0) = .error .panic := by
    unfold Vault.readChainSlotAtSeq
    rw [header]
    rfl
  refine verifies ?_
  unfold Vault.verifyIntegrity
  rw [window, Vault.verifyChain, divides]
  rfl

end Transparent

end ReVault
