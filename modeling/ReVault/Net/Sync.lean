import ReVault.Core.Vault
import ReVault.Net.Handshake
import ReVault.Net.Journal

/-!
# Serving and joining

The admin answers a granted peer with a patch when the journal reaches back to the peer's
position, and with the whole container otherwise. A peer that joins stores the container
it is sent and opens it; a peer that follows applies the patches it is sent.
-/

namespace ReVault

open Foundation Primitives

variable [Primitives]

/-! ## The admin's side -/

/-- The message that brings a peer up to date. -/
def catchUp (v : Vault) (journal : Option PatchJournal) (nextSeq : UInt64) : SyncMessage :=
  match journal.bind fun journal => journal.rangesSince nextSeq with
  | some ranges => .patch nextSeq ranges
  | none => .fullSync v.exportFull

/-- Some recipient slot shows the peer. -/
def isGranted (v : Vault) (peer : PeerId) : Except Fault Bool := do
  let recipients ← v.listRecipients
  .ok (recipients.any fun recipient => recipient.peerId == peer)

/-- A peer is granted access when it is listed. -/
theorem isGranted_of_lists {v : Vault} {recipients : List RecipientInfo}
    (lists : v.listRecipients = .ok recipients) (peer : PeerId) :
    isGranted v peer = .ok (recipients.any fun recipient => recipient.peerId == peer) := by
  unfold isGranted
  rw [except_bind_of_ok lists]

/-- What a peer that reports its position is sent. -/
def answer (v : Vault) (journal : Option PatchJournal) (peer : PeerId) (nextSeq : UInt64) :
    Except Fault SyncMessage := do
  let granted ← isGranted v peer
  if granted then .ok (catchUp v journal nextSeq) else .error (.error .notAuthorized)

/-- Serving a peer once the handshake has told who it is. -/
def servePeer (v : Vault) (journal : Option PatchJournal) (theirPeerId : PeerId) :
    ChannelM PeerId := do
  let granted ← observe fun _ => isGranted v theirPeerId
  if granted then do
    let theirStateBytes ← SecureChannel.recv
    match ← observe fun _ => checked (SyncMessage.decode theirStateBytes) with
    | .chainState nextSeq _ => do
        SecureChannel.send (catchUp v journal nextSeq).encode
        pure theirPeerId
    | _ => do
        attempt (SecureChannel.send (SyncMessage.error "expected a ChainState message").encode)
        throw (.error (.corruptContainer "peer did not send ChainState first"))
  else do
    attempt (SecureChannel.send (SyncMessage.error "not granted access to this vault").encode)
    throw (.error .notAuthorized)

omit [Primitives] in
/-- Runs a program of a channel over the stream that the channel was opened on. -/
def overChannel {α : Type} (channel : SecureChannel) (program : ChannelM α) : StreamM α :=
  within (fun stream => { channel with stream := stream }) (fun final _ => final.stream) id program

/-- `serve_stream`. -/
def serveStream (ephemeral : ByteArr 32) (myIdentity : Identity) (v : Vault)
    (journal : Option PatchJournal) : StreamM PeerId := do
  let (channel, theirPeerId) ← SecureChannel.responder ephemeral myIdentity
  overChannel channel (servePeer v journal theirPeerId)

/-- What the thread that owns the vault answers to a connection. -/
inductive SyncResponse where
  | notGranted
  | message (message : SyncMessage)
  deriving DecidableEq

/-- The answer of `poll_network` to a request; an unreadable recipient table grants no one. -/
def pollNetwork (v : Vault) (journal : PatchJournal) (peerId : PeerId) (nextSeq : UInt64) :
    SyncResponse :=
  match isGranted v peerId with
  | .ok true => .message (catchUp v (some journal) nextSeq)
  | _ => .notGranted

/-! ## The peer's side -/

/-- Stores the container of a response at the local path and opens it. -/
def storeReplica (myIdentity : Identity) (responseBytes : Bytes) :
    EStateM Fault (Option Bytes) Vault := do
  match ← observe fun _ => checked (SyncMessage.decode responseBytes) with
  | .fullSync bytes => do
      set (some bytes)
      observe fun _ => Vault.openAsRecipient bytes myIdentity
  | .error message => throw (.error (.remote message))
  | _ => throw (.error (.corruptContainer "unexpected response while joining"))

/-- A connection and the local file of a peer that joins, when there is one. -/
structure Joining where
  stream : Stream
  localFile : Option Bytes

/-- Asks for everything. -/
def requestAll : ChannelM Bytes := do
  SecureChannel.send (SyncMessage.chainState 0 (zeroArr 32)).encode
  SecureChannel.recv

/-- The part of `join` up to the response. -/
def requestReplica (ephemeral : ByteArr 32) (myIdentity : Identity) (expectedAdmin : PeerId) :
    StreamM Bytes := do
  let (channel, _) ← SecureChannel.initiator ephemeral myIdentity expectedAdmin
  overChannel channel requestAll

/-- `join`. -/
def join (ephemeral : ByteArr 32) (myIdentity : Identity) (expectedAdmin : PeerId) :
    EStateM Fault Joining Vault := do
  let responseBytes ← within Joining.stream
    (fun stream joining => { joining with stream := stream }) id
    (requestReplica ephemeral myIdentity expectedAdmin)
  within Joining.localFile (fun localFile joining => { joining with localFile := localFile }) id
    (storeReplica myIdentity responseBytes)

/-- Applies the message of a live push. -/
def applyMessage (bytes : Bytes) : VaultM Unit := do
  match ← observe fun _ => checked (SyncMessage.decode bytes) with
  | .patch _ ranges => Vault.applyRemotePatch ranges
  | .upToDate => pure ()
  | .error message => throw (.error (.remote message))
  | _ => throw (.error (.corruptContainer "unexpected message while applying incoming sync"))

/-- A connection and the replica of a peer that follows. -/
structure Following where
  channel : SecureChannel
  vault : Vault

/-- `apply_incoming`. -/
def applyIncoming : EStateM Fault Following Unit := do
  let bytes ← within Following.channel
    (fun channel following => { following with channel := channel }) id SecureChannel.recv
  within Following.vault (fun vault following => { following with vault := vault }) id
    (applyMessage bytes)

end ReVault
