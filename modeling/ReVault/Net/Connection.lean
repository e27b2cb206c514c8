import ReVault.Core.IdentityFile
import ReVault.Net.Exchange
import ReVault.Net.Invite
import ReVault.Serving.Delivery

/-!
# Connections to the interface

While the interface serves a vault, its connections belong to a thread that never touches the
vault: it shakes hands with a peer, reads the position of its replica, hands both over and
waits for the answer. What becomes of a connection is the same as when the vault is served
from a console.
-/

namespace ReVault

open Foundation Primitives

variable [Primitives]

/-- Why a connection fails. -/
inductive ConnectionError where
  | fault (fault : Fault)
  | text (message : String)
  deriving DecidableEq

/-- Programs on a connection to the interface. -/
abbrev ConnectionM := EStateM ConnectionError SecureChannel

/-- A program of a channel whose faults are those of a connection. -/
def overConnection {α : Type} (program : ChannelM α) : ConnectionM α :=
  within id (fun final _ => final) ConnectionError.fault program

/-- `handle_connection` after the handshake, up to its request. -/
def readPosition : ConnectionM UInt64 := do
  let theirStateBytes ← overConnection SecureChannel.recv
  match ← overConnection (observe fun _ => checked (SyncMessage.decode theirStateBytes)) with
  | .chainState nextSeq _ => pure nextSeq
  | _ => throw (.text "peer did not send ChainState first")

/-- `handle_connection` from its answer on, or from where the answer is given up. -/
def deliver (peerId : PeerId) (response : Except String SyncResponse) : ConnectionM PeerId :=
  match response with
  | .error message => throw (.text message)
  | .ok .notGranted => do
      overConnection
        (attempt (SecureChannel.send (SyncMessage.error "not granted access to this vault").encode))
      throw (.text (peerId.fingerprint ++ " is not granted access"))
  | .ok (.message message) => do
      overConnection (SecureChannel.send message.encode)
      pure peerId

/-- `handle_connection`, with the answers that it gets. -/
def handleConnection (ephemeral : ByteArr 32) (myIdentity : Identity)
    (respond : PeerId → UInt64 → Except String SyncResponse) :
    EStateM ConnectionError Stream PeerId := do
  let (channel, peerId) ← within id (fun final _ => final) ConnectionError.fault
    (SecureChannel.responder ephemeral myIdentity)
  within (fun stream => { channel with stream := stream }) (fun final _ => final.stream) id
    (readPosition >>= fun nextSeq => deliver peerId (respond peerId nextSeq))

/-! ## What is sent -/

namespace SecureChannel

/-- The bytes that a message takes on the stream, if any. -/
def written (key : MasterKey) (number : UInt64) (plaintext : Bytes) : Bytes :=
  match aesGcmEncrypt key (nonceOf number) [] plaintext with
  | none => []
  | some ciphertext => if ciphertext.length > maxFrameLen then [] else Stream.frame ciphertext

/-- Sending a message, whether it succeeds or not. -/
theorem outgoing_send (plaintext : Bytes) (channel : SecureChannel) :
    (finalState (send plaintext channel)).stream.outgoing =
      channel.stream.outgoing ++ written channel.key channel.sendNumber plaintext := by
  unfold written
  cases encrypted : aesGcmEncrypt channel.key (nonceOf channel.sendNumber) [] plaintext with
  | none =>
      rw [send_of_unencrypted encrypted]
      simp [finalState]
  | some ciphertext =>
      rw [send_of_encrypted encrypted, onStream, finalState_within]
      by_cases long : maxFrameLen < ciphertext.length
      · simp [Stream.writeFrame_of_lt long, finalState, long]
      · simp [Stream.writeFrame_of_le (Nat.le_of_not_lt long), long]

/-- What is received changes nothing about what is sent. -/
theorem written_of_recv {channel channel' : SecureChannel} {bytes : Bytes}
    (received : recv channel = .ok bytes channel') (plaintext : Bytes) :
    channel'.stream.outgoing ++ written channel'.key channel'.sendNumber plaintext =
      channel.stream.outgoing ++ written channel.key channel.sendNumber plaintext := by
  obtain ⟨ciphertext, rest, read, _, rfl⟩ := recv_eq_ok_iff.mp received
  have quiet := Stream.readFrame_quiet channel.stream
  rw [read] at quiet
  rw [show rest.outgoing = channel.stream.outgoing from quiet]
  rfl

end SecureChannel

/-! ## Served from the interface and from a console -/

section

variable {v : Vault} {journal : PatchJournal} {peerId peer : PeerId}
  {channel final : SecureChannel}

omit [Primitives] in
/-- A program over the connection succeeds as it does over the channel. -/
theorem overConnection_eq_ok_iff {α : Type} {program : ChannelM α} {value : α} :
    overConnection program channel = .ok value final ↔ program channel = .ok value final := by
  rw [overConnection, within_eq_ok_iff]
  simp

/-- The position is that of a chain state, and of nothing else. -/
theorem readPosition_eq_ok_iff {nextSeq : UInt64} :
    readPosition channel = .ok nextSeq final ↔ ∃ bytes lastHash,
      SecureChannel.recv channel = .ok bytes final ∧
        SyncMessage.decode bytes = .ok (.chainState nextSeq lastHash) := by
  simp only [readPosition, bind_eq_ok_iff, overConnection_eq_ok_iff, observe_eq_ok_iff,
    checked_eq_ok_iff]
  constructor
  · rintro ⟨bytes, middle, received, message, _, ⟨decoded, rfl⟩, matched⟩
    cases message with
    | chainState found lastHash =>
        cases matched
        exact ⟨bytes, lastHash, received, decoded⟩
    | _ => cases matched
  · rintro ⟨bytes, lastHash, received, decoded⟩
    exact ⟨bytes, final, received, _, final, ⟨decoded, rfl⟩, rfl⟩

/-- Serving a peer ends well when it is granted access and reports a position. -/
theorem servePeer_eq_ok_iff : servePeer v (some journal) peerId channel = .ok peer final ↔
    isGranted v peerId = .ok true ∧ peer = peerId ∧ ∃ nextSeq reached,
      readPosition channel = .ok nextSeq reached ∧
        SecureChannel.send (catchUp v (some journal) nextSeq).encode reached = .ok () final := by
  simp only [servePeer, bind_eq_ok_iff, observe_eq_ok_iff, readPosition_eq_ok_iff]
  constructor
  · rintro ⟨granted, _, ⟨found, rfl⟩, ran⟩
    cases granted with
    | true =>
        rw [if_pos rfl] at ran
        obtain ⟨bytes, reached, received, answered⟩ := bind_eq_ok_iff.mp ran
        obtain ⟨message, _, read, matched⟩ := bind_eq_ok_iff.mp answered
        obtain ⟨decodes, rfl⟩ := observe_eq_ok_iff.mp read
        have decoded := checked_eq_ok_iff.mp decodes
        cases message with
        | chainState nextSeq lastHash =>
            obtain ⟨_, _, sent, same⟩ := bind_eq_ok_iff.mp matched
            cases same
            exact ⟨found, rfl, nextSeq, _, ⟨bytes, lastHash, received, decoded⟩, sent⟩
        | _ =>
            obtain ⟨_, _, _, thrown⟩ := bind_eq_ok_iff.mp matched
            cases thrown
    | false =>
        obtain ⟨_, _, _, thrown⟩ := bind_eq_ok_iff.mp ran
        cases thrown
  · rintro ⟨found, rfl, nextSeq, reached, ⟨bytes, lastHash, received, decoded⟩, sent⟩
    refine ⟨true, channel, ⟨found, rfl⟩, ?_⟩
    have read : observe (fun _ => checked (SyncMessage.decode bytes)) reached =
        .ok (.chainState nextSeq lastHash) reached := observe_of_ok (by rw [decoded]; rfl)
    exact (bind_of_ok received).trans ((bind_of_ok read).trans (bind_of_ok sent))

/-- A connection that is answered from the vault ends well exactly where one that is served
with the vault does. -/
theorem deliver_eq_ok_iff : (readPosition >>= fun nextSeq =>
      deliver peerId (.ok (pollNetwork v journal peerId nextSeq))) channel = .ok peer final ↔
    servePeer v (some journal) peerId channel = .ok peer final := by
  rw [servePeer_eq_ok_iff, bind_eq_ok_iff]
  constructor
  · rintro ⟨nextSeq, reached, read, ran⟩
    rw [pollNetwork] at ran
    split at ran
    · rename_i granted
      obtain ⟨_, _, sent, same⟩ := bind_eq_ok_iff.mp ran
      cases same
      exact ⟨granted, rfl, nextSeq, reached, read, overConnection_eq_ok_iff.mp sent⟩
    · obtain ⟨_, _, _, thrown⟩ := bind_eq_ok_iff.mp ran
      cases thrown
  · rintro ⟨granted, rfl, nextSeq, reached, read, sent⟩
    refine ⟨nextSeq, reached, read, ?_⟩
    rw [pollNetwork, granted]
    exact bind_of_ok (overConnection_eq_ok_iff.mpr sent)

end

section

variable {ephemeral : ByteArr 32} {myIdentity : Identity} {v : Vault} {journal : PatchJournal}
  {stream final : Stream} {peer : PeerId}

/-- The two ways of serving end well for the same peers, after the same bytes. -/
theorem handleConnection_eq_ok_iff :
    handleConnection ephemeral myIdentity
        (fun peerId nextSeq => .ok (pollNetwork v journal peerId nextSeq)) stream = .ok peer final ↔
      serveStream ephemeral myIdentity v (some journal) stream = .ok peer final := by
  rw [handleConnection, serveStream, bind_eq_ok_iff, bind_eq_ok_iff]
  constructor
  · rintro ⟨⟨channel, peerId⟩, _, shakes, ran⟩
    obtain ⟨reached, shaken, rfl⟩ := within_eq_ok_iff.mp shakes
    obtain ⟨last, delivered, rfl⟩ := within_eq_ok_iff.mp ran
    exact ⟨_, _, shaken, within_eq_ok_iff.mpr ⟨last, deliver_eq_ok_iff.mp delivered, rfl⟩⟩
  · rintro ⟨⟨channel, peerId⟩, reached, shaken, ran⟩
    obtain ⟨last, served, rfl⟩ := within_eq_ok_iff.mp ran
    exact ⟨_, _, within_of_ok shaken,
      within_eq_ok_iff.mpr ⟨last, deliver_eq_ok_iff.mpr served, rfl⟩⟩

/-- Once a peer has reported its position, all that is left is its answer. -/
theorem Reports.finalState_handleConnection {nextSeq : UInt64} {channel : SecureChannel}
    (reports : Reports ephemeral myIdentity stream peer nextSeq channel)
    (respond : PeerId → UInt64 → Except String SyncResponse) :
    finalState (handleConnection ephemeral myIdentity respond stream) =
      (finalState (deliver peer (respond peer nextSeq) channel)).stream := by
  obtain ⟨accepted, reached, bytes, lastHash, shaken, received, decoded⟩ := reports
  obtain rfl := SecureChannel.stream_of_responder shaken
  have read : readPosition accepted = .ok nextSeq channel :=
    readPosition_eq_ok_iff.mpr ⟨bytes, lastHash, received, decoded⟩
  rw [handleConnection, bind_of_ok (within_of_ok shaken)]
  simp only [finalState_within]
  rw [bind_of_ok read]

/-- They send the same bytes to every peer that reports its position, whether it is granted access
or refused. -/
theorem outgoing_handleConnection {nextSeq : UInt64} {channel : SecureChannel} {granted : Bool}
    (reports : Reports ephemeral myIdentity stream peer nextSeq channel)
    (readable : isGranted v peer = .ok granted) :
    (finalState (handleConnection ephemeral myIdentity
        (fun peerId nextSeq => .ok (pollNetwork v journal peerId nextSeq)) stream)).outgoing =
      (finalState (serveStream ephemeral myIdentity v (some journal) stream)).outgoing := by
  rw [reports.finalState_handleConnection]
  obtain ⟨accepted, reached, bytes, lastHash, shaken, received, decoded⟩ := reports
  obtain rfl := SecureChannel.stream_of_responder shaken
  have served : (finalState (serveStream ephemeral myIdentity v (some journal) stream)).outgoing =
      (finalState (servePeer v (some journal) peer accepted)).stream.outgoing := by
    rw [serveStream, bind_of_ok shaken]
    simp only [overChannel, finalState_within]
  have admitted : observe (fun _ => isGranted v peer) accepted = .ok granted accepted :=
    observe_of_ok readable
  rw [served, servePeer, bind_of_ok admitted, pollNetwork, readable]
  cases granted with
  | true =>
      have parsed : observe (fun _ => checked (SyncMessage.decode bytes)) channel =
          .ok (.chainState nextSeq lastHash) channel := observe_of_ok (by rw [decoded]; rfl)
      rw [if_pos rfl, bind_of_ok received, bind_of_ok parsed, deliver, finalState_bind_pure,
        finalState_bind_pure, overConnection, finalState_within]
      rfl
  | false =>
      rw [if_neg Bool.false_ne_true, deliver, finalState_bind_throw, finalState_bind_throw,
        overConnection, finalState_within]
      have same := SecureChannel.written_of_recv received
        (SyncMessage.error "not granted access to this vault").encode
      rw [← SecureChannel.outgoing_send, ← SecureChannel.outgoing_send] at same
      exact same

/-- **Served from the interface as from a console.** The two end well for the same peers after the
same bytes, and send the same bytes to every peer that reports its position. -/
theorem handleConnection_agrees (ephemeral : ByteArr 32) (myIdentity : Identity) (v : Vault)
    (journal : PatchJournal) (stream : Stream) :
    let connected := handleConnection ephemeral myIdentity
      (fun peerId nextSeq => .ok (pollNetwork v journal peerId nextSeq)) stream
    let served := serveStream ephemeral myIdentity v (some journal) stream
    (∀ peer final, connected = .ok peer final ↔ served = .ok peer final) ∧
      ∀ peer nextSeq channel granted,
        Reports ephemeral myIdentity stream peer nextSeq channel →
          isGranted v peer = .ok granted →
            (finalState connected).outgoing = (finalState served).outgoing :=
  ⟨fun _ _ => handleConnection_eq_ok_iff,
    fun _ _ _ _ reports readable => outgoing_handleConnection reports readable⟩

end

end ReVault
