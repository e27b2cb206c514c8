import ReVault.Net.Sync
import ReVault.Serving.Session

/-!
# Delivering the answer

The answer to a peer travels in one frame with its tag. The ranges of a patch and the
container itself may be of any size, so whether a granted peer is served is decided by the
frame limit, and whether it can join by the size of the container.
-/

namespace ReVault

open Foundation Primitives

section

variable [Primitives]

omit [Primitives] in
/-- What a peer at a position is sent is short enough: the ranges that the journal has for
it, each with its offset and length, or else the whole container. -/
def FitsInFrame (v : Vault) (journal : Option PatchJournal) (nextSeq : UInt64) : Prop :=
  match journal.bind fun journal => journal.rangesSince nextSeq with
  | some ranges => 13 + (ranges.map fun range => 12 + range.2.length).sum + tagLen ≤ maxFrameLen
  | none => v.file.length + 9 + tagLen ≤ maxFrameLen

omit [Primitives] in
/-- An answer fits when its encoding and the tag do. -/
theorem fitsInFrame_iff (v : Vault) (journal : Option PatchJournal) (nextSeq : UInt64) :
    FitsInFrame v journal nextSeq ↔
      (catchUp v journal nextSeq).encode.length + tagLen ≤ maxFrameLen := by
  unfold FitsInFrame catchUp
  generalize journal.bind (fun journal => journal.rangesSince nextSeq) = covered
  cases covered with
  | some ranges => rw [SyncMessage.length_encode_patch]
  | none =>
      rw [SyncMessage.length_encode_fullSync]
      rfl

/-! ## Serving over a stream -/

omit [Primitives] in
/-- A program over a channel writes what it writes to the stream. -/
theorem overChannel_grows {α : Type} (channel : SecureChannel) {program : ChannelM α}
    (moves : Moves SecureChannel.Grows program) :
    Moves Stream.Grows (overChannel channel program) := Moves.within moves fun _ _ grows => grows

omit [Primitives] in
/-- Programs that do the same on two channels do the same over their streams. -/
theorem overChannel_congr {α : Type} {channel channel' : SecureChannel}
    {program program' : ChannelM α} (same : program channel = program' channel') :
    overChannel channel program channel.stream =
      overChannel channel' program' channel'.stream := by
  have restored : program { channel with stream := channel.stream } =
      program' { channel' with stream := channel'.stream } := same
  unfold overChannel within
  rw [restored]

omit [Primitives] in
/-- It succeeds as it does over the channel. -/
theorem overChannel_of_ok {α : Type} {channel final : SecureChannel} {program : ChannelM α}
    {value : α} (succeeded : program channel = .ok value final) :
    overChannel channel program channel.stream = .ok value final.stream := by
  have restored : program { channel with stream := channel.stream } = .ok value final := succeeded
  unfold overChannel within
  rw [restored]

omit [Primitives] in
/-- It fails as it does over the channel. -/
theorem overChannel_of_error {α : Type} {channel final : SecureChannel} {program : ChannelM α}
    {error : Fault} (failed : program channel = .error error final) :
    overChannel channel program channel.stream = .error error final.stream := by
  have restored : program { channel with stream := channel.stream } = .error error final := failed
  unfold overChannel within
  rw [restored]
  rfl

/-- Serving a peer only writes. -/
theorem servePeer_grows (v : Vault) (journal : Option PatchJournal) (peer : PeerId) :
    Moves SecureChannel.Grows (servePeer v journal peer) := by
  have refuse : ∀ (message : Bytes) (fault : Fault), Moves SecureChannel.Grows
      (attempt (SecureChannel.send message) >>= fun _ => (throw fault : ChannelM PeerId)) :=
    fun message fault => Moves.bind SecureChannel.Grows.trans (SecureChannel.send_grows message)
      fun _ => Moves.throw SecureChannel.Grows.refl fault
  refine Moves.bind SecureChannel.Grows.trans (Moves.observe SecureChannel.Grows.refl _)
    fun granted => ?_
  split
  · refine Moves.bind SecureChannel.Grows.trans SecureChannel.recv_grows fun bytes => ?_
    refine Moves.bind SecureChannel.Grows.trans (Moves.observe SecureChannel.Grows.refl _)
      fun message => ?_
    split
    · exact Moves.bind SecureChannel.Grows.trans (SecureChannel.send_grows _) fun _ =>
        Moves.pure SecureChannel.Grows.refl _
    · exact refuse _ _
  · exact refuse _ _

/-- A session in which a peer completes the handshake and reports its position, up to where
the admin has read the report. -/
def Reports (ephemeral : ByteArr 32) (myIdentity : Identity) (stream : Stream) (peer : PeerId)
    (nextSeq : UInt64) (channel : SecureChannel) : Prop :=
  ∃ accepted reached bytes lastHash,
    SecureChannel.responder ephemeral myIdentity stream = .ok (accepted, peer) reached ∧
      SecureChannel.recv accepted = .ok bytes channel ∧
      SyncMessage.decode bytes = .ok (.chainState nextSeq lastHash)

namespace Reports

variable {ephemeral : ByteArr 32} {myIdentity : Identity} {v : Vault} {stream : Stream}
  {peer : PeerId} {nextSeq : UInt64} {channel : SecureChannel}
  (reports : Reports ephemeral myIdentity stream peer nextSeq channel)
  (granted : isGranted v peer = .ok true)

include reports granted

/-- All that is left to do is to send the answer. -/
theorem serveStream_eq (journal : Option PatchJournal) :
    serveStream ephemeral myIdentity v journal stream = overChannel channel
      (SecureChannel.send (catchUp v journal nextSeq).encode >>= fun _ => pure peer)
      channel.stream := by
  obtain ⟨accepted, reached, bytes, lastHash, shaken, received, decoded⟩ := reports
  have read : observe (fun _ => checked (SyncMessage.decode bytes)) channel =
      .ok (.chainState nextSeq lastHash) channel := observe_of_ok (by rw [decoded]; rfl)
  have admitted : observe (fun _ => isGranted v peer) accepted = .ok true accepted :=
    observe_of_ok granted
  have served : servePeer v journal peer accepted =
      (SecureChannel.send (catchUp v journal nextSeq).encode >>= fun _ => pure peer) channel :=
    (bind_of_ok admitted).trans ((bind_of_ok received).trans (bind_of_ok read))
  refine (bind_of_ok shaken).trans ?_
  rw [← SecureChannel.stream_of_responder shaken]
  exact overChannel_congr served

/-- An answer that fits reaches the stream, and the peer can decrypt it. -/
theorem exists_answered [Lawful] {journal : Option PatchJournal}
    (fits : FitsInFrame v journal nextSeq) : ∃ ciphertext, ciphertext.length ≤ maxFrameLen ∧
      aesGcmDecrypt channel.key (SecureChannel.nonceOf channel.sendNumber) [] ciphertext =
        some (catchUp v journal nextSeq).encode ∧
      serveStream ephemeral myIdentity v journal stream = .ok peer
        ⟨channel.stream.incoming, channel.stream.outgoing ++ Stream.frame ciphertext⟩ := by
  obtain ⟨ciphertext, short, _, decrypted, sent⟩ :=
    channel.exists_sent ((fitsInFrame_iff v journal nextSeq).mp fits)
  have finished : (SecureChannel.send (catchUp v journal nextSeq).encode >>= fun _ => pure peer)
      channel = .ok peer { channel with
        sendCounter := channel.sendCounter + 1
        stream := { channel.stream with
          outgoing := channel.stream.outgoing ++ Stream.frame ciphertext } } := bind_of_ok sent
  exact ⟨ciphertext, short, decrypted,
    (reports.serveStream_eq granted journal).trans (overChannel_of_ok finished)⟩

/-- An answer that does not fit is not sent. -/
theorem exists_unanswered (expanding : SecureChannel.Expanding) {journal : Option PatchJournal}
    (long : ¬ FitsInFrame v journal nextSeq) : ∃ error,
      serveStream ephemeral myIdentity v journal stream = .error error channel.stream := by
  rw [fitsInFrame_iff, Nat.not_le] at long
  obtain ⟨error, failed⟩ := channel.exists_not_sent expanding long
  have stopped : (SecureChannel.send (catchUp v journal nextSeq).encode >>= fun _ => pure peer)
      channel = .error error { channel with sendCounter := channel.sendCounter + 1 } :=
    bind_of_error failed
  refine ⟨error, ?_⟩
  rw [reports.serveStream_eq granted journal, overChannel_of_error stopped]

/-- A peer is served exactly when its answer fits. -/
theorem exists_served_iff [Lawful] (expanding : SecureChannel.Expanding)
    (journal : Option PatchJournal) :
    (∃ final, serveStream ephemeral myIdentity v journal stream = .ok peer final) ↔
      FitsInFrame v journal nextSeq := by
  constructor
  · rintro ⟨final, served⟩
    by_contra long
    obtain ⟨error, failed⟩ := reports.exists_unanswered granted expanding long
    rw [failed] at served
    cases served
  · intro fits
    obtain ⟨_, _, _, served⟩ := reports.exists_answered granted fits
    exact ⟨_, served⟩

end Reports

/-! ## Joining over a stream -/

/-- Asking for everything only writes. -/
theorem requestAll_grows : Moves SecureChannel.Grows requestAll :=
  Moves.bind SecureChannel.Grows.trans (SecureChannel.send_grows _) fun _ =>
    SecureChannel.recv_grows

/-- Storing and opening the replica leaves the stream alone. -/
theorem stream_of_join (ephemeral : ByteArr 32) (myIdentity : Identity)
    (expectedAdmin : PeerId) (joining : Joining) :
    (finalState (join ephemeral myIdentity expectedAdmin joining)).stream =
      finalState (requestReplica ephemeral myIdentity expectedAdmin joining.stream) := by
  cases outcome : requestReplica ephemeral myIdentity expectedAdmin joining.stream with
  | error error reached =>
      have failed : join ephemeral myIdentity expectedAdmin joining =
          .error error { joining with stream := reached } := bind_of_error (within_of_error outcome)
      rw [failed]
      rfl
  | ok bytes reached =>
      have answered : join ephemeral myIdentity expectedAdmin joining =
          within Joining.localFile
            (fun localFile joining => { joining with localFile := localFile }) id
            (storeReplica myIdentity bytes) { joining with stream := reached } :=
        bind_of_ok (within_of_ok outcome)
      rw [answered, finalState_within]
      rfl

/-- A peer that joins writes its hello, whatever it reads. -/
theorem requestReplica_writes (ephemeral : ByteArr 32) (myIdentity : Identity)
    (expectedAdmin : PeerId) (stream : Stream) :
    stream.outgoing ++ Stream.frame (Hello.build myIdentity (x25519Public ephemeral)).encode <+:
      (finalState (requestReplica ephemeral myIdentity expectedAdmin stream)).outgoing := by
  have goesOn : Stream.Grows (finalState (SecureChannel.initiator ephemeral myIdentity
      expectedAdmin stream)) (finalState (requestReplica ephemeral myIdentity expectedAdmin
        stream)) := by
    refine Moves.from_first Stream.Grows.refl ?_ stream
    rintro ⟨channel, peer⟩
    exact overChannel_grows channel requestAll_grows
  exact (SecureChannel.initiator_writes ephemeral myIdentity expectedAdmin stream).trans goesOn

/-- The channel of a peer that has asked for everything. -/
def asking (stream : Stream) (key : MasterKey) : SecureChannel :=
  { SecureChannel.opened stream key 0 with sendCounter := 1 }

/-- The channel of an admin that has read what a peer asks for. -/
def answering (stream : Stream) (key : MasterKey) : SecureChannel :=
  { SecureChannel.opened stream key 1 with recvCounter := 1 }

omit [Primitives] in
/-- The request and the answer are the first messages of the two directions. -/
theorem numbers_of_request (stream stream' : Stream) (key : MasterKey) :
    (SecureChannel.opened stream key 1).recvNumber = 0 ∧
      (asking stream' key).recvNumber = (answering stream key).sendNumber := by
  constructor
  · change (0 : UInt64) * 2 + (1 - 1 : UInt8).toUInt64 = 0
    decide
  · change (0 : UInt64) * 2 + (1 - 0 : UInt8).toUInt64 = 0 * 2 + (1 : UInt8).toUInt64
    decide

/-- What a peer writes once it has read the hello of the admin, and what is left to do. -/
theorem exists_asked [Lawful] (ephemeral : ByteArr 32) (myIdentity : Identity) {hello : Hello}
    (read : SecureChannel.readHello hello.encode = .ok hello) {key : MasterKey}
    (agreed : deriveSessionKey (x25519 ephemeral hello.ephemeralPub) = key) :
    ∃ ciphertext, ciphertext.length ≤ maxFrameLen ∧
      aesGcmDecrypt key (SecureChannel.nonceOf 0) [] ciphertext =
        some (SyncMessage.chainState 0 (zeroArr 32)).encode ∧
      ∀ rest, requestReplica ephemeral myIdentity hello.peerId
        ⟨Stream.frame hello.encode ++ rest, []⟩ =
          overChannel (asking ⟨rest,
              Stream.frame (Hello.build myIdentity (x25519Public ephemeral)).encode ++
                Stream.frame ciphertext⟩ key) SecureChannel.recv
            ⟨rest, Stream.frame (Hello.build myIdentity (x25519Public ephemeral)).encode ++
              Stream.frame ciphertext⟩ := by
  obtain ⟨ciphertext, encrypted, length, decrypted⟩ := Lawful.encrypts key
    (SecureChannel.nonceOf 0) [] (SyncMessage.chainState 0 (zeroArr 32)).encode (by decide)
  have short : ciphertext.length ≤ maxFrameLen := by
    rw [length]
    decide
  refine ⟨ciphertext, short, decrypted, fun rest => ?_⟩
  have shaken : SecureChannel.initiator ephemeral myIdentity hello.peerId
      ⟨Stream.frame hello.encode ++ rest, []⟩ =
        .ok (SecureChannel.opened ⟨rest,
            Stream.frame (Hello.build myIdentity (x25519Public ephemeral)).encode⟩
            (deriveSessionKey (x25519 ephemeral hello.ephemeralPub)) 0, hello.peerId)
          ⟨rest, Stream.frame (Hello.build myIdentity (x25519Public ephemeral)).encode⟩ :=
    SecureChannel.initiator_of_hello read rfl
  rw [agreed] at shaken
  have sent : requestAll (SecureChannel.opened ⟨rest,
      Stream.frame (Hello.build myIdentity (x25519Public ephemeral)).encode⟩ key 0) =
        SecureChannel.recv (asking ⟨rest,
          Stream.frame (Hello.build myIdentity (x25519Public ephemeral)).encode ++
            Stream.frame ciphertext⟩ key) :=
    bind_of_ok (SecureChannel.send_of_fits encrypted short)
  exact (bind_of_ok shaken).trans (overChannel_congr sent)

/-- The peer's request, read by the admin. -/
theorem reports_request [Lawful] {adminEphemeral peerEphemeral : ByteArr 32}
    {host me : Identity} {key : MasterKey} {ciphertext : Bytes}
    (agreed : deriveSessionKey (x25519 adminEphemeral (x25519Public peerEphemeral)) = key)
    (short : ciphertext.length ≤ maxFrameLen)
    (decrypted : aesGcmDecrypt key (SecureChannel.nonceOf 0) [] ciphertext =
      some (SyncMessage.chainState 0 (zeroArr 32)).encode) (rest : Bytes) :
    Reports adminEphemeral host
      ⟨Stream.frame (Hello.build me (x25519Public peerEphemeral)).encode ++
        (Stream.frame ciphertext ++ rest), []⟩ me.peerId 0
      (answering ⟨rest, Stream.frame (Hello.build host (x25519Public adminEphemeral)).encode⟩
        key) := by
  have shaken : SecureChannel.responder adminEphemeral host
      ⟨Stream.frame (Hello.build me (x25519Public peerEphemeral)).encode ++
        (Stream.frame ciphertext ++ rest), []⟩ =
        .ok (SecureChannel.opened ⟨Stream.frame ciphertext ++ rest,
            Stream.frame (Hello.build host (x25519Public adminEphemeral)).encode⟩
            (deriveSessionKey (x25519 adminEphemeral (x25519Public peerEphemeral))) 1, me.peerId)
          ⟨Stream.frame ciphertext ++ rest,
            Stream.frame (Hello.build host (x25519Public adminEphemeral)).encode⟩ :=
    SecureChannel.responder_of_hello (SecureChannel.readHello_build me _) rfl
  rw [agreed] at shaken
  have received : SecureChannel.recv (SecureChannel.opened ⟨Stream.frame ciphertext ++ rest,
      Stream.frame (Hello.build host (x25519Public adminEphemeral)).encode⟩ key 1) =
        .ok (SyncMessage.chainState 0 (zeroArr 32)).encode (answering ⟨rest,
          Stream.frame (Hello.build host (x25519Public adminEphemeral)).encode⟩ key) := by
    refine SecureChannel.recv_of_frame rfl short ?_
    rw [(numbers_of_request _ ⟨rest, []⟩ key).1]
    exact decrypted
  exact ⟨_, _, _, _, shaken, received, SyncMessage.decode_chainState 0 (zeroArr 32)⟩

/-- A container that is sent whole is stored and opened. -/
theorem storeReplica_of_fullSync {myIdentity : Identity} {bytes : Bytes} {replica : Vault}
    (small : bytes.length < 2 ^ 64) (opened : Vault.openAsRecipient bytes myIdentity = .ok replica)
    (localFile : Option Bytes) :
    storeReplica myIdentity (SyncMessage.fullSync bytes).encode localFile =
      .ok replica (some bytes) := by
  have read : observe (fun _ => checked (SyncMessage.decode (SyncMessage.fullSync bytes).encode))
      localFile = .ok (.fullSync bytes) localFile :=
    observe_of_ok (by rw [SyncMessage.decode_fullSync small]; rfl)
  have loaded : observe (fun _ => Vault.openAsRecipient bytes myIdentity) (some bytes) =
      .ok replica (some bytes) := observe_of_ok opened
  exact (bind_of_ok read).trans ((bind_of_ok rfl).trans loaded)

/-! ## The exchange -/

/-- What an admin and a peer write to each other over a transport that loses nothing: each
reads exactly what the other writes. -/
structure Exchange (serving : StreamM PeerId) (joining : EStateM Fault Joining Vault)
    (localFile : Option Bytes) (toAdmin toPeer : Bytes) : Prop where
  fromPeer : (finalState (joining ⟨⟨toPeer, []⟩, localFile⟩)).stream.outgoing = toAdmin
  fromAdmin : (finalState (serving ⟨toAdmin, []⟩)).outgoing = toPeer

/-- Both ends finish, the peer with a copy of the container and a handle that reads it as the
admin's does. -/
structure Delivered (v : Vault) (peer : PeerId) (serving : StreamM PeerId)
    (joining : EStateM Fault Joining Vault) (localFile : Option Bytes)
    (toAdmin toPeer : Bytes) : Prop where
  served : ∃ final, serving ⟨toAdmin, []⟩ = .ok peer final
  joined : ∃ replica final, joining ⟨⟨toPeer, []⟩, localFile⟩ = .ok replica final ∧
    final.localFile = some v.file ∧ v.SameFiles replica

omit [Primitives] in
/-- A peer that has nothing is sent everything. -/
theorem catchUp_zero (v : Vault) (journal : Option PatchJournal) :
    catchUp v journal 0 = .fullSync v.file := by
  cases journal <;> rfl

omit [Primitives] in
/-- A full copy that fits is shorter than 2^64. -/
theorem FitsInFrame.length_lt {v : Vault} {journal : Option PatchJournal}
    (fits : FitsInFrame v journal 0) : v.file.length < 2 ^ 64 := by
  rw [fitsInFrame_iff, catchUp_zero, SyncMessage.length_encode_fullSync] at fits
  unfold maxFrameLen at fits
  omega

/-- An admin that has read the hello of a peer writes its own. -/
theorem serveStream_writes [Lawful] (ephemeral : ByteArr 32) (myIdentity : Identity)
    (v : Vault) (journal : Option PatchJournal) {hello : Hello}
    (read : SecureChannel.readHello hello.encode = .ok hello) (rest : Bytes) :
    Stream.frame (Hello.build myIdentity (x25519Public ephemeral)).encode <+:
      (finalState (serveStream ephemeral myIdentity v journal
        ⟨Stream.frame hello.encode ++ rest, []⟩)).outgoing := by
  have shaken : SecureChannel.responder ephemeral myIdentity
      ⟨Stream.frame hello.encode ++ rest, []⟩ = .ok _ ⟨rest,
        Stream.frame (Hello.build myIdentity (x25519Public ephemeral)).encode⟩ :=
    SecureChannel.responder_of_hello read rfl
  have goesOn : Stream.Grows
      ⟨rest, Stream.frame (Hello.build myIdentity (x25519Public ephemeral)).encode⟩
      (finalState (overChannel (SecureChannel.opened
        ⟨rest, Stream.frame (Hello.build myIdentity (x25519Public ephemeral)).encode⟩
        (deriveSessionKey (x25519 ephemeral hello.ephemeralPub)) 1)
          (servePeer v journal hello.peerId)
        ⟨rest, Stream.frame (Hello.build myIdentity (x25519Public ephemeral)).encode⟩)) :=
    overChannel_grows _ (servePeer_grows v journal hello.peerId) _
  unfold serveStream
  rw [bind_of_ok shaken]
  exact goesOn

section

variable [Lawful] {adminEphemeral peerEphemeral : ByteArr 32} {host me : Identity}
  {v replica : Vault}
  {journal : Option PatchJournal} {localFile : Option Bytes}

omit [Lawful] in
/-- A peer that has asked for everything receives what the answer decrypts to. -/
theorem requestReplica_of_answer {key : MasterKey} {hello : Hello}
    {written answer response : Bytes}
    (asked : ∀ rest, requestReplica peerEphemeral me hello.peerId
      ⟨Stream.frame hello.encode ++ rest, []⟩ =
        overChannel (asking ⟨rest, written⟩ key) SecureChannel.recv ⟨rest, written⟩)
    (short : answer.length ≤ maxFrameLen)
    (decrypted : aesGcmDecrypt key
      (SecureChannel.nonceOf (answering ⟨[], []⟩ key).sendNumber) [] answer = some response) :
    requestReplica peerEphemeral me hello.peerId
      ⟨Stream.frame hello.encode ++ Stream.frame answer, []⟩ = .ok response ⟨[], written⟩ := by
  have received : SecureChannel.recv (asking ⟨Stream.frame answer, written⟩ key) =
      .ok response { asking ⟨[], written⟩ key with recvCounter := 1 } := by
    refine SecureChannel.recv_of_frame (List.append_nil _).symm short ?_
    rw [(numbers_of_request _ _ key).2]
    exact decrypted
  exact (asked (Stream.frame answer)).trans (overChannel_of_ok received)

omit [Lawful] in
/-- Joining stores the response. -/
theorem join_of_response {ephemeral : ByteArr 32} {myIdentity : Identity} {expectedAdmin : PeerId}
    {stream stream' : Stream} {response : Bytes}
    (replied : requestReplica ephemeral myIdentity expectedAdmin stream = .ok response stream')
    (localFile : Option Bytes) :
    join ephemeral myIdentity expectedAdmin ⟨stream, localFile⟩ =
      within Joining.localFile (fun localFile joining => { joining with localFile := localFile })
        id (storeReplica myIdentity response) ⟨stream', localFile⟩ := by
  have first : within Joining.stream (fun stream joining => { joining with stream := stream }) id
      (requestReplica ephemeral myIdentity expectedAdmin) ⟨stream, localFile⟩ =
        .ok response ⟨stream', localFile⟩ := within_of_ok replied
  exact bind_of_ok first

omit [Lawful] in
/-- A peer that is sent the container in a frame stores it and opens it. -/
theorem join_of_answer {key : MasterKey} {hello : Hello} {written answer : Bytes}
    (asked : ∀ rest, requestReplica peerEphemeral me hello.peerId
      ⟨Stream.frame hello.encode ++ rest, []⟩ =
        overChannel (asking ⟨rest, written⟩ key) SecureChannel.recv ⟨rest, written⟩)
    (opened : Vault.openAsRecipient v.file me = .ok replica)
    (short : answer.length ≤ maxFrameLen)
    (decrypted : aesGcmDecrypt key
      (SecureChannel.nonceOf (answering ⟨[], []⟩ key).sendNumber) [] answer =
        some (SyncMessage.fullSync v.file).encode)
    (small : v.file.length < 2 ^ 64) (localFile : Option Bytes) :
    join peerEphemeral me hello.peerId
      ⟨⟨Stream.frame hello.encode ++ Stream.frame answer, []⟩, localFile⟩ =
        .ok replica ⟨⟨[], written⟩, some v.file⟩ :=
  (join_of_response (requestReplica_of_answer asked short decrypted) localFile).trans
    (within_of_ok (storeReplica_of_fullSync small opened localFile))

/-- An admin and a peer that join over a transport that loses nothing come to an end. The
peer reports that it has nothing, and the container is delivered when it fits in a frame. -/
theorem exchange_spec (granted : isGranted v me.peerId = .ok true)
    (opened : Vault.openAsRecipient v.file me = .ok replica) (reads : v.SameFiles replica) :
    (∃ toAdmin toPeer, Exchange (serveStream adminEphemeral host v journal)
      (join peerEphemeral me host.peerId) localFile toAdmin toPeer) ∧
    ∀ toAdmin toPeer, Exchange (serveStream adminEphemeral host v journal)
      (join peerEphemeral me host.peerId) localFile toAdmin toPeer →
      (∃ channel, Reports adminEphemeral host ⟨toAdmin, []⟩ me.peerId 0 channel) ∧
      (FitsInFrame v journal 0 → Delivered v me.peerId (serveStream adminEphemeral host v journal)
        (join peerEphemeral me host.peerId) localFile toAdmin toPeer) := by
  have hostHello := SecureChannel.readHello_build host (x25519Public adminEphemeral)
  have myHello := SecureChannel.readHello_build me (x25519Public peerEphemeral)
  have agreed := congrArg deriveSessionKey (Lawful.agrees adminEphemeral peerEphemeral)
  obtain ⟨request, short, decrypted, asked⟩ := exists_asked peerEphemeral me hostHello rfl
  have wrote : ∀ rest, (finalState (requestReplica peerEphemeral me host.peerId ⟨Stream.frame
      (Hello.build host (x25519Public adminEphemeral)).encode ++ rest, []⟩)).outgoing =
        Stream.frame (Hello.build me (x25519Public peerEphemeral)).encode ++
          Stream.frame request := by
    intro rest
    have outcome := asked rest
    change requestReplica peerEphemeral me host.peerId _ = _ at outcome
    rw [outcome]
    unfold overChannel
    rw [finalState_within]
    exact SecureChannel.recv_quiet _
  constructor
  · refine ⟨Stream.frame (Hello.build me (x25519Public peerEphemeral)).encode ++
      Stream.frame request, _, ?_, rfl⟩
    obtain ⟨tail, answered⟩ := serveStream_writes adminEphemeral host v journal myHello
      (Stream.frame request)
    rw [stream_of_join, ← answered]
    exact wrote tail
  · rintro toAdmin toPeer ⟨fromPeer, fromAdmin⟩
    rw [stream_of_join] at fromPeer
    obtain ⟨rest, rfl⟩ : Stream.frame (Hello.build me (x25519Public peerEphemeral)).encode <+:
        toAdmin := by
      rw [← fromPeer]
      exact requestReplica_writes peerEphemeral me host.peerId ⟨toPeer, []⟩
    obtain ⟨tail, rfl⟩ : Stream.frame (Hello.build host (x25519Public adminEphemeral)).encode <+:
        toPeer := by
      rw [← fromAdmin]
      exact serveStream_writes adminEphemeral host v journal myHello rest
    -- both ends have read the other's hello, so all that the peer writes is its request
    have requested := List.append_cancel_left (fromPeer.symm.trans (wrote tail))
    subst requested
    have reports : Reports adminEphemeral host _ me.peerId 0 _ :=
      reports_request agreed short decrypted []
    rw [List.append_nil] at reports
    constructor
    · exact ⟨_, reports⟩
    · intro fits
      obtain ⟨answer, short', decrypted', served⟩ := reports.exists_answered granted fits
      rw [served] at fromAdmin
      have answered := List.append_cancel_left fromAdmin
      subst answered
      rw [catchUp_zero] at decrypted'
      exact ⟨⟨_, served⟩, replica, _,
        join_of_answer asked opened short' decrypted' fits.length_lt localFile, rfl, reads⟩

end

namespace Run

variable [Lawful] {password : String} {origin v : Vault} {trace : List Step}
  {name description : String} {capacityBytes : UInt64} {admin : Identity} {draws : Draws}

/-- A container whose blocks alone fill a frame is never sent. -/
theorem not_fitsInFrame
    (created : Vault.create name description capacityBytes password admin draws = .ok origin)
    (run : Run password origin trace v) (sized : origin.header.Sized)
    (large : maxFrameLen ≤ origin.header.blockCount.toNat * origin.header.blockSize.toNat)
    (journal : Option PatchJournal) : ¬ FitsInFrame v journal 0 := by
  intro fits
  rw [fitsInFrame_iff, catchUp_zero, SyncMessage.length_encode_fullSync] at fits
  have total := Vault.length_of_create created
  rw [Vault.toNat_totalContainerSize sized] at total
  have longer := run.length_le created
  omega

/-- Joining a vault of a run over a transport that loses nothing. -/
theorem exchange_spec {adminEphemeral peerEphemeral : ByteArr 32} {host me : Identity}
    (created : Vault.create name description capacityBytes password admin draws = .ok origin)
    (run : Run password origin trace v) (granted : me.peerId ∈ grantedAfter trace)
    (journal : Option PatchJournal) (localFile : Option Bytes) :
    (∃ toAdmin toPeer, Exchange (serveStream adminEphemeral host v journal)
      (join peerEphemeral me host.peerId) localFile toAdmin toPeer) ∧
    ∀ toAdmin toPeer, Exchange (serveStream adminEphemeral host v journal)
      (join peerEphemeral me host.peerId) localFile toAdmin toPeer →
      (∃ channel, Reports adminEphemeral host ⟨toAdmin, []⟩ me.peerId 0 channel) ∧
      (FitsInFrame v journal 0 → Delivered v me.peerId (serveStream adminEphemeral host v journal)
        (join peerEphemeral me host.peerId) localFile toAdmin toPeer) := by
  obtain ⟨d, files, healthy⟩ := run.healthy created
  obtain ⟨replica, opened, reads⟩ := (healthy.sound.sharedWith healthy.keyring).reads me granted
  exact ReVault.exchange_spec ((run.isGranted_iff created me.peerId).mpr granted) opened reads

end Run

/-- **Delivery.** A granted peer that completes the handshake and reports its position is
served, exactly when what it is sent fits in a frame; and one that joins gets a copy of the
container and a handle that reads it as the admin's does, exactly when the container fits. -/
theorem serves_peers_iff [Lawful] {password : String} {origin v : Vault} {trace : List Step}
    {name description : String} {capacityBytes : UInt64} {admin : Identity} {draws : Draws}
    (expanding : SecureChannel.Expanding)
    (created : Vault.create name description capacityBytes password admin draws = .ok origin)
    (run : Run password origin trace v) (journal : Option PatchJournal) :
    (∀ ephemeral myIdentity stream peer nextSeq channel, peer ∈ grantedAfter trace →
      Reports ephemeral myIdentity stream peer nextSeq channel →
      ((∃ final, serveStream ephemeral myIdentity v journal stream = .ok peer final) ↔
        FitsInFrame v journal nextSeq)) ∧
    ∀ adminEphemeral peerEphemeral (host me : Identity) localFile,
      me.peerId ∈ grantedAfter trace →
      (∃ toAdmin toPeer, Exchange (serveStream adminEphemeral host v journal)
        (join peerEphemeral me host.peerId) localFile toAdmin toPeer) ∧
      ∀ toAdmin toPeer, Exchange (serveStream adminEphemeral host v journal)
        (join peerEphemeral me host.peerId) localFile toAdmin toPeer →
        (∃ channel, Reports adminEphemeral host ⟨toAdmin, []⟩ me.peerId 0 channel) ∧
        (Delivered v me.peerId (serveStream adminEphemeral host v journal)
          (join peerEphemeral me host.peerId) localFile toAdmin toPeer ↔
            FitsInFrame v journal 0) := by
  constructor
  · intro ephemeral myIdentity stream peer nextSeq channel granted reports
    exact reports.exists_served_iff ((run.isGranted_iff created peer).mpr granted) expanding
      journal
  · intro adminEphemeral peerEphemeral host me localFile granted
    obtain ⟨ends, each⟩ := run.exchange_spec created granted journal localFile
    refine ⟨ends, fun toAdmin toPeer exchange => ?_⟩
    obtain ⟨⟨channel, reports⟩, delivers⟩ := each toAdmin toPeer exchange
    refine ⟨⟨channel, reports⟩, fun delivered => ?_, delivers⟩
    exact (reports.exists_served_iff ((run.isGranted_iff created me.peerId).mpr granted) expanding
      journal).mp delivered.served

end

namespace Transparent

/-- A grant of access to the sample container. -/
def grantStep : Step := ⟨.grantAccess (identity 2).peerId, draws 3, true⟩

/-- A container of 64 MiB of blocks is longer than a frame, so that no peer can join. -/
theorem large_container_not_served : ∃ origin v,
    Vault.create "v" "" 67108864 "p" (identity 1) (draws 1) = .ok origin ∧
    Run "p" origin [grantStep] v ∧ (identity 2).peerId ∈ grantedAfter [grantStep] ∧
    ∀ adminEphemeral peerEphemeral (host : Identity) localFile journal,
      (∃ toAdmin toPeer, Exchange (serveStream adminEphemeral host v journal)
        (join peerEphemeral (identity 2) host.peerId) localFile toAdmin toPeer) ∧
      ∀ toAdmin toPeer, Exchange (serveStream adminEphemeral host v journal)
        (join peerEphemeral (identity 2) host.peerId) localFile toAdmin toPeer →
        ∃ channel, Reports adminEphemeral host ⟨toAdmin, []⟩ (identity 2).peerId 0 channel ∧
          ∀ final, serveStream adminEphemeral host v journal ⟨toAdmin, []⟩ ≠
            .ok (identity 2).peerId final := by
  obtain ⟨origin, created, sized⟩ : ∃ origin,
      Vault.create "v" "" 67108864 "p" (identity 1) (draws 1) = .ok origin ∧
        origin.header.Sized :=
    Vault.create_total (identity 1) (by decide) (by decide) (by decide) (by decide) rfl
  have isAdmin : origin.isAdmin = true := by
    unfold Vault.isAdmin
    rw [(Vault.create_spec created).adminIdentity]
    rfl
  have large : maxFrameLen ≤
      origin.header.blockCount.toNat * origin.header.blockSize.toNat := by
    obtain ⟨slot, header⟩ := (Vault.create_spec created).header
    rw [header]
    change maxFrameLen ≤
      (67108864 / defaultBlockSize.toUInt64 : UInt64).toNat * defaultBlockSize.toNat
    decide
  obtain ⟨v, run⟩ : ∃ v, Run "p" origin [grantStep] v :=
    Run.exists_grant created (Runs.nil : Run "p" origin [] origin) isAdmin
      (fun other member => absurd member List.not_mem_nil) (by decide) (draws 3)
  have granted : (identity 2).peerId ∈ grantedAfter [grantStep] := List.mem_singleton.mpr rfl
  refine ⟨origin, v, created, run, granted, ?_⟩
  intro adminEphemeral peerEphemeral host localFile journal
  obtain ⟨ends, each⟩ := Run.exchange_spec created run granted journal localFile
  refine ⟨ends, fun toAdmin toPeer exchange => ?_⟩
  obtain ⟨⟨channel, reports⟩, _⟩ := each toAdmin toPeer exchange
  refine ⟨channel, reports, fun final served => ?_⟩
  have fits := (reports.exists_served_iff ((Run.isGranted_iff created run _).mpr granted)
    expanding journal).mp ⟨final, served⟩
  exact Run.not_fitsInFrame created run sized large journal fits

/-- A granted peer is served. -/
theorem serves_peers_iff_granted : ∃ origin v,
    Vault.create "v" "" 65536 "p" (identity 1) (draws 1) = .ok origin ∧
    Run "p" origin [⟨.addFile "a" [1, 2, 3], draws 2, true⟩, grantStep] v ∧
    (∀ ephemeral myIdentity stream peer nextSeq channel, peer ∈ [(identity 2).peerId] →
      Reports ephemeral myIdentity stream peer nextSeq channel →
      ((∃ final, serveStream ephemeral myIdentity v none stream = .ok peer final) ↔
        FitsInFrame v none nextSeq)) ∧
    ∀ adminEphemeral peerEphemeral (host me : Identity) localFile,
      me.peerId ∈ [(identity 2).peerId] →
      (∃ toAdmin toPeer, Exchange (serveStream adminEphemeral host v none)
        (join peerEphemeral me host.peerId) localFile toAdmin toPeer) ∧
      ∀ toAdmin toPeer, Exchange (serveStream adminEphemeral host v none)
        (join peerEphemeral me host.peerId) localFile toAdmin toPeer →
        (∃ channel, Reports adminEphemeral host ⟨toAdmin, []⟩ me.peerId 0 channel) ∧
        (Delivered v me.peerId (serveStream adminEphemeral host v none)
          (join peerEphemeral me host.peerId) localFile toAdmin toPeer ↔
            FitsInFrame v none 0) := by
  obtain ⟨origin, v, created, run⟩ := exists_granted
  exact ⟨origin, v, created, run, serves_peers_iff expanding created run none⟩

end Transparent

end ReVault
