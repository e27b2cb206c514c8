import ReVault.Net.Acceptance
import ReVault.Serving.Delivery

/-!
# What a refusal leaves behind

A patch is validated after its ranges have been written, and the container that a peer is sent
when it joins is opened after it has been stored. So whatever the peer held before, some refusal
changes it.
-/

namespace ReVault

open Foundation Primitives

section

variable [Primitives]

omit [Primitives] in
/-- Two states of a handle with the same container, header, bitmap and content key. -/
def Vault.SameReplica (v v' : Vault) : Prop :=
  v'.file = v.file ∧ v'.header = v.header ∧ v'.allocator = v.allocator ∧ v'.key = v.key

/-! ## Patches -/

/-- A container that does not start with the magic bytes is not read. -/
theorem exists_readHeader_error {file : Bytes} (other : file.take 8 ≠ magic) :
    ∃ fault, readHeader file = .error fault := by
  cases read : readExact file 0 headerSize with
  | error fault => exact ⟨fault, except_bind_of_error read⟩
  | ok window =>
      have inImage : readAt file 0 headerSize = some window := by
        simp only [readExact, show (0 : UInt64).toNat = 0 from rfl, gt_iff_lt, Nat.not_lt_zero,
          if_false] at read
        split at read
        · cases read
          assumption
        · cases read
      obtain ⟨sized, same⟩ := readAt_eq_some_iff.mp inImage
      have starts : window.take 8 = file.take 8 := by
        refine List.ext_getElem? fun index => ?_
        by_cases early : index < 8
        · rw [List.getElem?_take_of_lt early, List.getElem?_take_of_lt early,
            ← same index (early.trans (by decide)), Nat.zero_add]
        · rw [List.getElem?_eq_none (by rw [List.length_take]; omega),
            List.getElem?_eq_none (by rw [List.length_take]; omega)]
      rw [← starts] at other
      refine ⟨.error .notARvltFile, ?_⟩
      unfold readHeader
      rw [except_bind_of_ok read, Header.decode_of_other_magic sized.ge other]
      rfl

/-- A patch of one byte is refused when the container then no longer starts with the magic bytes,
and the byte stays. -/
theorem Vault.refuses_first_byte {replica : Vault} {byte : UInt8}
    (foreign : magic[0]? ≠ some byte) (other : replica.file[0]? ≠ some byte) :
    ∃ fault replica', applyRemotePatch [(0, [byte])] replica = .error fault replica' ∧
      replica'.file ≠ replica.file := by
  have bounded : Piece.Bounded [((0 : UInt64), [byte])] := by
    intro range member
    rw [List.mem_singleton.mp member]
    change 0 + 1 ≤ ioLimit
    decide
  have patched : replay (Piece.patch [((0 : UInt64), [byte])]) replica.file =
      Foundation.writeAt replica.file 0 [byte] := rfl
  have first : (Foundation.writeAt replica.file 0 [byte])[0]? = some byte := by
    rw [getElem?_writeAt, if_pos ⟨Nat.le_refl 0, Nat.zero_lt_one⟩]
    rfl
  have unloadable : ¬ Loads (replay (Piece.patch [((0 : UInt64), [byte])]) replica.file) := by
    have starts : (Foundation.writeAt replica.file 0 [byte]).take 8 ≠ magic := by
      intro isMagic
      rw [← isMagic, List.getElem?_take_of_lt (by decide)] at foreign
      exact foreign first
    obtain ⟨fault, unread⟩ := exists_readHeader_error starts
    rw [patched]
    rintro ⟨header, _, read, _⟩
    rw [unread] at read
    cases read
  obtain ⟨fault, replica', refused, written⟩ := exists_refused bounded unloadable
  refine ⟨fault, replica', refused, fun same => other ?_⟩
  rw [← same, written, patched]
  exact first

/-- Every handle refuses a patch that changes its container. -/
theorem Vault.exists_changing_refusal (replica : Vault) : ∃ byte fault replica',
    applyRemotePatch [(0, [byte])] replica = .error fault replica' ∧
      replica'.file ≠ replica.file := by
  by_cases zero : replica.file[0]? = some 0
  · exact ⟨1, replica.refuses_first_byte (by decide) (by rw [zero]; decide)⟩
  · exact ⟨0, replica.refuses_first_byte (by decide) zero⟩

/-- The container of a handle that has been loaded starts with the magic bytes. -/
theorem Vault.Loaded.starts {replica : Vault} (loaded : replica.Loaded) :
    replica.file.take 8 = magic := by
  by_contra other
  obtain ⟨fault, unread⟩ := exists_readHeader_error other
  rw [loaded.header] at unread
  cases unread

/-! ## Received messages -/

/-- A frame brings a handle any message that fits, whatever was received on the channel
before. -/
theorem exists_received [Lawful] (channel : SecureChannel) {plaintext : Bytes}
    (fits : plaintext.length + tagLen ≤ maxFrameLen) : ∃ incoming channel',
      SecureChannel.recv { channel with stream := { channel.stream with incoming := incoming } } =
        .ok plaintext channel' := by
  obtain ⟨ciphertext, _, length, decrypted⟩ := Lawful.encrypts channel.key
    (SecureChannel.nonceOf channel.recvNumber) [] plaintext
    ((Nat.le_of_add_right_le fits).trans (by decide))
  rw [← length] at fits
  exact ⟨Stream.frame ciphertext ++ [], _, SecureChannel.recv_of_frame rfl fits decrypted⟩

/-- On every channel, some message is refused and changes the container. -/
theorem exists_changing_message [Lawful] (channel : SecureChannel) (replica : Vault) :
    ∃ incoming fault following',
      applyIncoming ⟨{ channel with stream := { channel.stream with incoming := incoming } },
        replica⟩ = .error fault following' ∧
      following'.vault.file ≠ replica.file := by
  obtain ⟨byte, fault, replica', refused, changed⟩ := replica.exists_changing_refusal
  let message := SyncMessage.patch 0 [((0 : UInt64), [byte])]
  have fits : message.encode.length + tagLen ≤ maxFrameLen := by
    rw [SyncMessage.length_encode_patch]
    change 13 + (12 + 1) + tagLen ≤ maxFrameLen
    decide
  have decoded : SyncMessage.decode message.encode = .ok message := by
    have within : message.Fits := by
      refine ⟨by change 1 < 2 ^ 32; decide, fun range member => ?_⟩
      rw [List.mem_singleton.mp member]
      change 1 < 2 ^ 32
      decide
    have read := SyncMessage.decode_encode_append within []
    rwa [List.append_nil] at read
  obtain ⟨incoming, channel', received⟩ := exists_received channel fits
  have read : observe (fun _ : Vault => checked (SyncMessage.decode message.encode)) replica =
      .ok message replica := observe_of_ok (by rw [decoded]; rfl)
  have applied : applyMessage message.encode replica = .error fault replica' :=
    (bind_of_ok read).trans refused
  let received' := { channel with stream := { channel.stream with incoming := incoming } }
  have first : within Following.channel
      (fun channel following => { following with channel := channel }) id SecureChannel.recv
        ⟨received', replica⟩ = .ok message.encode ⟨channel', replica⟩ := within_of_ok received
  have second : within Following.vault
      (fun vault following => { following with vault := vault }) id
        (applyMessage message.encode) ⟨channel', replica⟩ =
          .error fault ⟨channel', replica'⟩ := within_of_error applied
  exact ⟨incoming, fault, ⟨channel', replica'⟩, (bind_of_ok first).trans second, changed⟩

/-! ## Joining -/

/-- No container is as short as a byte. -/
theorem exists_unopened (localFile : Option Bytes) (myIdentity : Identity) :
    ∃ bytes fault, bytes.length < 2 ∧ localFile ≠ some bytes ∧
      Vault.openAsRecipient bytes myIdentity = .error fault := by
  have unopened : ∀ bytes : Bytes, bytes.take 8 ≠ magic → ∃ fault,
      Vault.openAsRecipient bytes myIdentity = .error fault := by
    intro bytes other
    obtain ⟨fault, unread⟩ := exists_readHeader_error other
    exact ⟨fault, except_bind_of_error unread⟩
  by_cases empty : localFile = some []
  · obtain ⟨fault, failed⟩ := unopened [0] (by decide)
    exact ⟨[0], fault, by decide, by rw [empty]; decide, failed⟩
  · obtain ⟨fault, failed⟩ := unopened [] (by decide)
    exact ⟨[], fault, by decide, empty, failed⟩

/-- Whatever the local file held, an admin can send a container that replaces it and that does
not open. -/
theorem exists_changing_join [Lawful] (ephemeral : ByteArr 32) (myIdentity host : Identity)
    (localFile : Option Bytes) : ∃ incoming fault joining',
      join ephemeral myIdentity host.peerId ⟨⟨incoming, []⟩, localFile⟩ =
        .error fault joining' ∧
      joining'.localFile ≠ localFile := by
  obtain ⟨bytes, fault, short, other, unopened⟩ := exists_unopened localFile myIdentity
  have hostHello := SecureChannel.readHello_build host (x25519Public (zeroArr 32))
  obtain ⟨_, _, _, asked⟩ := exists_asked ephemeral myIdentity hostHello rfl
  have small : bytes.length < 2 ^ 64 := short.trans (by decide)
  have fits : (SyncMessage.fullSync bytes).encode.length + tagLen ≤ maxFrameLen := by
    rw [SyncMessage.length_encode_fullSync]
    unfold tagLen maxFrameLen
    omega
  obtain ⟨ciphertext, _, length, decrypted⟩ := Lawful.encrypts
    (deriveSessionKey (x25519 ephemeral (x25519Public (zeroArr 32))))
    (SecureChannel.nonceOf (answering ⟨[], []⟩
      (deriveSessionKey (x25519 ephemeral (x25519Public (zeroArr 32))))).sendNumber) []
    (SyncMessage.fullSync bytes).encode ((Nat.le_of_add_right_le fits).trans (by decide))
  rw [← length] at fits
  have read : observe (fun _ => checked (SyncMessage.decode (SyncMessage.fullSync bytes).encode))
      localFile = .ok (.fullSync bytes) localFile :=
    observe_of_ok (by rw [SyncMessage.decode_fullSync small]; rfl)
  have stored : storeReplica myIdentity (SyncMessage.fullSync bytes).encode localFile =
      .error fault (some bytes) :=
    (bind_of_ok read).trans ((bind_of_ok rfl).trans (observe_of_error unopened))
  exact ⟨_, fault, _, (join_of_response (requestReplica_of_answer asked fits decrypted)
    localFile).trans (within_of_error stored), other.symm⟩

/-- **Refusals.** For no handle is it true that a refused patch leaves it as it was, nor that a
refused message does, on no channel; and for no local file is it true that joining leaves it as
it was whenever it fails, whoever joins whom. -/
theorem refusals_never_keep_replica [Lawful] :
    (∀ replica, ¬ ∀ ranges fault replica',
      Vault.applyRemotePatch ranges replica = .error fault replica' →
        replica.SameReplica replica') ∧
    (∀ (channel : SecureChannel) replica, ¬ ∀ incoming fault following',
      applyIncoming ⟨{ channel with stream := { channel.stream with incoming := incoming } },
        replica⟩ = .error fault following' →
        replica.SameReplica following'.vault) ∧
    ∀ ephemeral myIdentity (host : Identity) localFile, ¬ ∀ incoming fault joining',
      join ephemeral myIdentity host.peerId ⟨⟨incoming, []⟩, localFile⟩ =
        .error fault joining' →
        joining'.localFile = localFile := by
  refine ⟨fun replica keeps => ?_, fun channel replica keeps => ?_,
    fun ephemeral myIdentity host localFile keeps => ?_⟩
  · obtain ⟨byte, fault, replica', refused, changed⟩ := replica.exists_changing_refusal
    exact changed (keeps _ fault replica' refused).1
  · obtain ⟨incoming, fault, following', refused, changed⟩ :=
      exists_changing_message channel replica
    exact changed (keeps incoming fault following' refused).1
  · obtain ⟨incoming, fault, joining', refused, changed⟩ :=
      exists_changing_join ephemeral myIdentity host localFile
    exact changed (keeps incoming fault joining' refused)

end

namespace Transparent

/-- A refused patch leaves its byte in the container of a peer. -/
theorem refused_patch_written : ∃ origin v replica fault replica',
    Vault.create "v" "" 65536 "p" (identity 1) (draws 1) = .ok origin ∧
    Run "p" origin [⟨.addFile "a" [1, 2, 3], draws 2, true⟩,
      ⟨.grantAccess (identity 2).peerId, draws 3, true⟩] v ∧
    Vault.openAsRecipient v.file (identity 2) = .ok replica ∧
    Vault.applyRemotePatch [(0, [0])] replica = .error fault replica' ∧
    replica'.file ≠ replica.file := by
  obtain ⟨origin, v, d, files, created, run, sound, opened⟩ := exists_recipient
  have loaded : (v.reopened none).Loaded :=
    ⟨sound.readHeader_eq, sound.readAllocator_eq⟩
  have other : (v.reopened none).file[0]? ≠ some 0 := by
    rw [← List.getElem?_take_of_lt (show 0 < 8 by decide), loaded.starts]
    decide
  obtain ⟨fault, replica', refused, changed⟩ := Vault.refuses_first_byte (by decide) other
  exact ⟨origin, v, _, fault, replica', created, run, opened, refused, changed⟩

/-- A peer that has no local file is left with one when joining fails. -/
theorem failed_join_written : ¬ ∀ incoming fault joining',
    join (zeroArr 32) (identity 2) (identity 1).peerId ⟨⟨incoming, []⟩, none⟩ =
      .error fault joining' →
      joining'.localFile = none :=
  refusals_never_keep_replica.2.2 (zeroArr 32) (identity 2) (identity 1) none

end Transparent

end ReVault
