import ReVault.Integrity.Chain
import ReVault.Sharing.Readers
import ReVault.Sync.Replay

/-!
# What a peer accepts

A patch is accepted when its ranges can be written and a header and a bitmap can then be
read: no signature is looked at.
-/

namespace ReVault

open Foundation Primitives

section

variable [Primitives]

/-! ## Signed changes -/

/-- Where a header puts the regions of its container, and how large their slots are. -/
def Header.regions (h : Header) : List Nat :=
  [h.blockSize.toNat, h.blockCount.toNat, h.capacityBytes.toNat, h.bitmapOffset.toNat,
    h.bitmapLen.toNat, h.fileTableOffset.toNat, h.fileTableLen.toNat, h.maxFiles.toNat,
    h.entrySize.toNat, h.recipientOffset.toNat, h.recipientLen.toNat, h.maxRecipients.toNat,
    h.recipientSlotSize.toNat, h.chainOffset.toNat, h.chainLen.toNat, h.maxChainRecords.toNat,
    h.chainRecordSize.toNat, h.dataOffset.toNat]

/-- A number from the tip of an older header on that the ring of a container retains. -/
def Vault.RetainsSince (v : Vault) (h : Header) (seq : Nat) : Prop :=
  h.chainNextSeq.toNat ≤ seq ∧ seq < v.header.chainNextSeq.toNat ∧
    v.header.chainNextSeq.toNat ≤ seq + v.header.maxChainRecords.toNat

/-- The container of a handle continues the chain of an older header with records that the
same admin signed. -/
structure SignedExtension (h : Header) (v : Vault) : Prop where
  signer : v.header.adminSigningPubkey = h.adminSigningPubkey
  layout : v.header.regions = h.regions
  grows : h.chainNextSeq ≤ v.header.chainNextSeq
  signed : ∀ seq, v.RetainsSince h seq → ∃ record, v.recordAt seq = some record ∧
    v.Genuine seq record
  first : ∀ record, v.RetainsSince h h.chainNextSeq.toNat →
    v.recordAt h.chainNextSeq.toNat = some record → record.prevHash = h.chainLastHash
  linked : ∀ seq record next, v.RetainsSince h seq → v.RetainsSince h (seq + 1) →
    v.recordAt seq = some record → v.recordAt (seq + 1) = some next → record.Follows next
  last : ∀ record, h.chainNextSeq < v.header.chainNextSeq →
    v.recordAt (v.header.chainNextSeq.toNat - 1) = some record →
      record.recordHash = v.header.chainLastHash
  same : h.chainNextSeq = v.header.chainNextSeq → v.header.chainLastHash = h.chainLastHash

omit [Primitives] in
/-- There is another key. -/
theorem exists_pubkey_ne (pubkey : ByteArr 32) : ∃ other, other ≠ pubkey := by
  by_cases zero : pubkey = zeroArr 32
  · refine ⟨List.Vector.replicate 32 1, ?_⟩
    rw [zero]
    decide
  · exact ⟨zeroArr 32, fun same => zero same.symm⟩

/-- A patch may consist of a whole header of anyone's making. -/
theorem exists_reheaded {forged : Header} (encodable : forged.Encodable)
    (structured : forged.Structured) {replica : Vault} {allocator : BlockAllocator}
    (readsBitmap : readAllocator (Foundation.writeAt replica.file 0 forged.image) forged =
      .ok allocator) :
    ∃ replica', Vault.applyRemotePatch [(0, forged.image)] replica = .ok () replica' ∧
      replica'.header = forged ∧
      replica'.file = Foundation.writeAt replica.file 0 forged.image := by
  have length := forged.length_image encodable
  have bounded : Piece.Bounded [((0 : UInt64), forged.image)] := by
    intro range member
    rw [List.mem_singleton.mp member]
    change (0 : UInt64).toNat + forged.image.length ≤ ioLimit
    rw [length]
    decide
  have patched : patchedFile [((0 : UInt64), forged.image)] replica.file =
      Foundation.writeAt replica.file 0 forged.image := by
    unfold patchedFile
    rw [writtenRanges_of_bounded bounded]
    rfl
  have readsHeader : readHeader (Foundation.writeAt replica.file 0 forged.image) =
      .ok forged := by
    have read : readExact (Foundation.writeAt replica.file 0 forged.image) 0 headerSize =
        .ok forged.image := by
      have found := readAt_writeAt_self replica.file 0 forged.image
      rw [length] at found
      simp only [readExact, show (0 : UInt64).toNat = 0 from rfl, found, gt_iff_lt,
        Nat.not_lt_zero, if_false]
    have decoded := forged.decode_image encodable structured []
    rw [List.append_nil] at decoded
    unfold readHeader
    rw [except_bind_of_ok read, decoded]
    rfl
  cases Vault.applyRemotePatch_cases [((0 : UInt64), forged.image)] replica with
  | unwritten unbounded _ => exact absurd bounded unbounded
  | unreadable _ read _ =>
      rw [patched, readsHeader] at read
      cases read
  | unmapped _ read read' _ =>
      rw [patched, readsHeader] at read
      cases read
      rw [patched, readsBitmap] at read'
      cases read'
  | accepted _ read _ outcome =>
      rw [patched, readsHeader] at read
      cases read
      exact ⟨_, outcome, rfl, patched⟩

/-- **Unsigned changes.** A patch is accepted exactly when it can be written and its container
loaded, and every handle accepts one that does not continue its chain. -/
theorem applyRemotePatch_accepts_unsigned (replica : Vault) :
    (∀ ranges, (∃ replica', Vault.applyRemotePatch ranges replica = .ok () replica') ↔
      Piece.Bounded ranges ∧ Loads (patchedFile ranges replica.file)) ∧
    ¬ ∀ ranges replica', Vault.applyRemotePatch ranges replica = .ok () replica' →
      SignedExtension replica.header replica' := by
  refine ⟨fun _ => Vault.applyRemotePatch_accepts_iff, fun onlySigned => ?_⟩
  obtain ⟨pubkey, other⟩ := exists_pubkey_ne replica.header.adminSigningPubkey
  have length := (bareHeader pubkey).length_image (bareHeader_encodable pubkey)
  have readsBitmap : readAllocator
      (Foundation.writeAt replica.file 0 (bareHeader pubkey).image) (bareHeader pubkey) =
      .ok (BlockAllocator.fromBytes [] 1) := by
    have inside : headerSize + 0 ≤
        (Foundation.writeAt replica.file 0 (bareHeader pubkey).image).length := by
      rw [writeAt_zero, List.length_append, length]
      omega
    have found := readAt_of_le inside
    rw [List.take_zero] at found
    have read : readExact (Foundation.writeAt replica.file 0 (bareHeader pubkey).image)
        (UInt64.ofNat headerSize) 0 = .ok [] := by
      simp only [readExact, show (UInt64.ofNat headerSize).toNat = headerSize from rfl, found]
      rfl
    exact except_bind_of_ok read
  obtain ⟨replica', applied, header, _⟩ :=
    exists_reheaded (bareHeader_encodable pubkey) (bareHeader_structured pubkey) readsBitmap
  have signer := (onlySigned _ replica' applied).signer
  rw [header] at signer
  exact other signer

/-- A handle on a sound container accepts its header under another admin key. -/
theorem Sound.exists_resigned {v : Vault} {d : Disk} {files : Files} (sound : Sound v d files)
    (pubkey : ByteArr 32) {replica : Vault} (same : replica.file = v.file) :
    ∃ replica', Vault.applyRemotePatch
        [(0, ({ v.header with adminSigningPubkey := pubkey } : Header).image)] replica =
          .ok () replica' ∧
      replica'.header = { v.header with adminSigningPubkey := pubkey } := by
  have layout := sound.tracks.layout
  have encodable : ({ v.header with adminSigningPubkey := pubkey } : Header).Encodable :=
    { layout.encodable with }
  have structured : ({ v.header with adminSigningPubkey := pubkey } : Header).Structured :=
    { layout.structured with }
  obtain ⟨allocator, readsBitmap⟩ := exists_readAllocator_of_longer sound.readAllocator_eq
    (length_writeAt_le v.file 0
      ({ v.header with adminSigningPubkey := pubkey } : Header).image)
  rw [← same] at readsBitmap
  obtain ⟨replica', applied, header, _⟩ := exists_reheaded encodable structured
    (show readAllocator _ { v.header with adminSigningPubkey := pubkey } = .ok allocator from
      readsBitmap)
  exact ⟨replica', applied, header⟩

end

namespace Transparent

/-- A granted peer opens the sample container. -/
theorem exists_recipient : ∃ origin v d files,
    Vault.create "v" "" 65536 "p" (identity 1) (draws 1) = .ok origin ∧
    Run "p" origin [⟨.addFile "a" [1, 2, 3], draws 2, true⟩,
      ⟨.grantAccess (identity 2).peerId, draws 3, true⟩] v ∧ Sound v d files ∧
    Vault.openAsRecipient v.file (identity 2) = .ok (v.reopened none) := by
  obtain ⟨origin, v, created, run⟩ := exists_granted
  obtain ⟨d, files, healthy⟩ := run.healthy created
  have present := (healthy.keyring.hasReader_iff (identity 2).peerId.encryptionPublic).mpr
    ⟨(identity 2).peerId, List.mem_singleton.mpr rfl, rfl⟩
  exact ⟨origin, v, d, files, created, run, healthy.sound,
    healthy.sound.openAsRecipient_eq healthy.keyring.wraps present⟩

/-- A peer accepts a header that names another admin. -/
theorem accepts_other_admin : ∃ origin v replica ranges replica',
    Vault.create "v" "" 65536 "p" (identity 1) (draws 1) = .ok origin ∧
    Run "p" origin [⟨.addFile "a" [1, 2, 3], draws 2, true⟩,
      ⟨.grantAccess (identity 2).peerId, draws 3, true⟩] v ∧
    Vault.openAsRecipient v.file (identity 2) = .ok replica ∧
    Vault.applyRemotePatch ranges replica = .ok () replica' ∧
    replica'.header.adminSigningPubkey = (identity 3).peerId.signingPublic ∧
    ¬ SignedExtension replica.header replica' := by
  obtain ⟨origin, v, d, files, created, run, sound, opened⟩ := exists_recipient
  obtain ⟨replica', applied, header⟩ := sound.exists_resigned (identity 3).peerId.signingPublic
    (show (v.reopened none).file = v.file from rfl)
  refine ⟨origin, v, _, _, replica', created, run, opened, applied, by rw [header], ?_⟩
  intro extension
  have signer := extension.signer
  obtain ⟨slot, newHeader⟩ := (Vault.create_spec created).header
  obtain ⟨d, files, healthy⟩ := run.healthy created
  have admin : v.header.adminSigningPubkey = (identity 1).peerId.signingPublic := by
    rw [healthy.shape.ring_eq.1, newHeader]
    rfl
  rw [header] at signer
  change (identity 3).peerId.signingPublic = v.header.adminSigningPubkey at signer
  rw [admin] at signer
  exact absurd signer (by decide)

end Transparent

end ReVault
