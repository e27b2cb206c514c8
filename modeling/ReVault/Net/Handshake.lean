import ReVault.Core.Storage
import ReVault.Net.Channel

/-!
# The handshake

Each side sends a hello: its `PeerId`, an ephemeral public key and a signature over that
key. The session key is derived from the agreement of the two ephemeral keys.
-/

namespace ReVault

open Foundation Primitives

/-- The keys of the peer, the ephemeral key and the signature. -/
abbrev helloLen : Nat := 64 + 32 + 64

/-- What the two ends of a connection greet each other with. -/
structure Hello where
  peerId : PeerId
  ephemeralPub : ByteArr 32
  signature : ByteArr 64
  deriving DecidableEq

/-- `PeerId::to_bytes`. -/
def PeerId.toBytes (peerId : PeerId) : Bytes :=
  peerId.signingPublic.toList ++ peerId.encryptionPublic.toList

/-- `PeerId::from_bytes`. -/
def PeerId.fromBytes (bytes : Bytes) : Except VaultError PeerId :=
  if bytes.length ≠ 64 then .error (.corruptContainer "malformed PeerId bytes")
  else .ok ⟨(toArr? 32 (bytes.take 32)).getD (zeroArr 32),
    (toArr? 32 (bytes.drop 32)).getD (zeroArr 32)⟩

variable [Primitives]

namespace Hello

/-- The ephemeral key is signed. -/
def build (localIdentity : Identity) (ephemeralPub : ByteArr 32) : Hello where
  peerId := localIdentity.peerId
  ephemeralPub := ephemeralPub
  signature := localIdentity.sign ephemeralPub.toList

omit [Primitives] in
/-- The fields, one after the other. -/
def encode (hello : Hello) : Bytes :=
  hello.peerId.toBytes ++ (hello.ephemeralPub.toList ++ hello.signature.toList)

omit [Primitives] in
/-- A greeting has exactly its length. -/
def decode (buf : Bytes) : Except VaultError Hello :=
  if buf.length ≠ helloLen then .error (.corruptContainer "malformed handshake hello")
  else do
    let peerId ← PeerId.fromBytes (buf.take 64)
    .ok { peerId, ephemeralPub := (toArr? 32 ((buf.drop 64).take 32)).getD (zeroArr 32),
          signature := (toArr? 64 (buf.drop 96)).getD (zeroArr 64) }

/-- Whether the sender holds the signing key of the claimed `PeerId`. -/
def verify (hello : Hello) : Except VaultError Unit :=
  verifySignature hello.peerId.signingPublic hello.ephemeralPub.toList hello.signature

end Hello

/-- The session key of a shared secret. -/
def deriveSessionKey (sharedSecret : ByteArr 32) : MasterKey :=
  sha256Concat [sharedSecret.toList, "revault-session-v1".toUTF8.data.toList]

namespace SecureChannel

omit [Primitives] in
/-- A channel right after the handshake. -/
def opened (stream : Stream) (key : MasterKey) (sendParity : UInt8) : SecureChannel where
  stream := stream
  key := key
  sendCounter := 0
  recvCounter := 0
  sendParity := sendParity

/-- Decodes and verifies a hello that has been read. -/
def readHello (bytes : Bytes) : Except Fault Hello := do
  let hello ← checked (Hello.decode bytes)
  checked hello.verify
  .ok hello

/-- The side that dialled: it sends its hello first and accepts only the expected peer. -/
def initiator (ephemeral : ByteArr 32) (myIdentity : Identity) (expectedPeer : PeerId) :
    StreamM (SecureChannel × PeerId) := do
  Stream.writeFrame (Hello.build myIdentity (x25519Public ephemeral)).encode
  let theirBytes ← Stream.readFrame
  let theirHello ← observe fun _ => readHello theirBytes
  if theirHello.peerId ≠ expectedPeer then throw (.error .accessNotGranted)
  else do
    let stream ← get
    pure (opened stream (deriveSessionKey (x25519 ephemeral theirHello.ephemeralPub)) 0,
      theirHello.peerId)

/-- The side that accepted: it answers any hello that verifies, and reports whose it is. -/
def responder (ephemeral : ByteArr 32) (myIdentity : Identity) :
    StreamM (SecureChannel × PeerId) := do
  let theirBytes ← Stream.readFrame
  let theirHello ← observe fun _ => readHello theirBytes
  Stream.writeFrame (Hello.build myIdentity (x25519Public ephemeral)).encode
  let stream ← get
  pure (opened stream (deriveSessionKey (x25519 ephemeral theirHello.ephemeralPub)) 1,
    theirHello.peerId)

end SecureChannel

/-! ## Hellos that are read back -/

omit [Primitives] in
/-- The keys of a peer take their length. -/
theorem PeerId.length_toBytes (peerId : PeerId) : peerId.toBytes.length = 64 := by
  unfold toBytes
  rw [List.length_append, List.Vector.toList_length, List.Vector.toList_length]

omit [Primitives] in
/-- They are read back. -/
theorem PeerId.fromBytes_toBytes (peerId : PeerId) : fromBytes peerId.toBytes = .ok peerId := by
  have first : peerId.toBytes.take 32 = peerId.signingPublic.toList :=
    List.take_left' peerId.signingPublic.toList_length
  have second : peerId.toBytes.drop 32 = peerId.encryptionPublic.toList :=
    List.drop_left' peerId.signingPublic.toList_length
  unfold fromBytes
  rw [if_neg (not_not.mpr peerId.length_toBytes), first, second]
  simp only [toArr?_toList, Option.getD_some]

namespace Hello

omit [Primitives] in
/-- A greeting has its length. -/
theorem length_encode (hello : Hello) : hello.encode.length = helloLen := by
  unfold encode
  rw [List.length_append, List.length_append, PeerId.length_toBytes, List.Vector.toList_length,
    List.Vector.toList_length]

omit [Primitives] in
/-- A hello fits in a frame. -/
theorem writeFrame_eq (hello : Hello) (stream : Stream) :
    Stream.writeFrame hello.encode stream =
      .ok () { stream with outgoing := stream.outgoing ++ Stream.frame hello.encode } := by
  refine Stream.writeFrame_of_le ?_ stream
  rw [hello.length_encode]
  decide

omit [Primitives] in
/-- A greeting is read from its frame. -/
theorem readFrame_eq {hello : Hello} {stream : Stream} {rest : Bytes}
    (incoming : stream.incoming = Stream.frame hello.encode ++ rest) :
    Stream.readFrame stream = .ok hello.encode { stream with incoming := rest } := by
  refine Stream.readFrame_of_incoming incoming ?_
  rw [hello.length_encode]
  decide

omit [Primitives] in
/-- It is read back. -/
theorem decode_encode (hello : Hello) : decode hello.encode = .ok hello := by
  have peer : hello.encode.take 64 = hello.peerId.toBytes :=
    List.take_left' hello.peerId.length_toBytes
  have body : hello.encode.drop 64 = hello.ephemeralPub.toList ++ hello.signature.toList :=
    List.drop_left' hello.peerId.length_toBytes
  have last : hello.encode.drop 96 = hello.signature.toList := by
    have split : hello.encode = (hello.peerId.toBytes ++ hello.ephemeralPub.toList) ++
        hello.signature.toList := (List.append_assoc _ _ _).symm
    rw [split]
    refine List.drop_left' ?_
    rw [List.length_append, PeerId.length_toBytes, List.Vector.toList_length]
  unfold decode
  rw [if_neg (not_not.mpr hello.length_encode), peer, body, last,
    List.take_left' hello.ephemeralPub.toList_length]
  simp only [toArr?_toList, Option.getD_some]
  exact except_bind_of_ok hello.peerId.fromBytes_toBytes

omit [Primitives] in
/-- A hello is decoded only from what it is written as. -/
theorem decode_eq_ok_iff {buf : Bytes} {hello : Hello} :
    decode buf = .ok hello ↔ buf = hello.encode := by
  constructor
  · intro decoded
    unfold decode at decoded
    split at decoded
    · cases decoded
    rename_i sized
    have length : buf.length = helloLen := not_not.mp sized
    obtain ⟨peerId, named, decoded⟩ := except_bind_eq_ok_iff.mp decoded
    cases decoded
    unfold PeerId.fromBytes at named
    split at named
    · cases named
    cases named
    have lengths : buf.length = 160 := length
    unfold encode PeerId.toBytes
    dsimp only
    rw [toList_toArr? (by simp only [List.length_take]; omega),
      toList_toArr? (by simp only [List.length_take, List.length_drop]; omega),
      toList_toArr? (by simp only [List.length_take, List.length_drop]; omega),
      toList_toArr? (by simp only [List.length_drop]; omega), List.take_append_drop]
    have rest : (buf.drop 64).take 32 ++ buf.drop 96 = buf.drop 64 := by
      have whole := List.take_append_drop 32 (buf.drop 64)
      rwa [List.drop_drop] at whole
    rw [rest, List.take_append_drop]
  · rintro rfl
    exact hello.decode_encode

end Hello

namespace SecureChannel

/-- Which bytes are a greeting that verifies. -/
theorem readHello_eq_ok_iff {bytes : Bytes} {hello : Hello} :
    readHello bytes = .ok hello ↔ bytes = hello.encode ∧ hello.verify = .ok () := by
  unfold readHello
  rw [← Hello.decode_eq_ok_iff]
  cases decoded : Hello.decode bytes with
  | error reason =>
      refine iff_of_false (fun succeeded => ?_) fun both => by cases both.1
      cases succeeded
  | ok found =>
      cases verified : found.verify with
      | error reason =>
          refine iff_of_false (fun succeeded => ?_) fun both => ?_
          · rw [except_bind_of_ok (show checked (.ok found) = .ok found from rfl), verified]
              at succeeded
            cases succeeded
          · cases both.1
            rw [verified] at both
            cases both.2
      | ok =>
          rw [except_bind_of_ok (show checked (.ok found) = .ok found from rfl), verified]
          constructor
          · intro succeeded
            cases succeeded
            exact ⟨rfl, verified⟩
          · rintro ⟨same, _⟩
            cases same
            rfl

/-- The hello that an identity builds is decoded and verifies. -/
theorem readHello_build [Lawful] (identity : Identity) (ephemeralPub : ByteArr 32) :
    readHello (Hello.build identity ephemeralPub).encode =
      .ok (Hello.build identity ephemeralPub) :=
  readHello_eq_ok_iff.mpr ⟨rfl, verifySignature_sign identity ephemeralPub.toList⟩

/-- The dialling side writes its hello, whatever it reads. -/
theorem initiator_writes (ephemeral : ByteArr 32) (myIdentity : Identity)
    (expectedPeer : PeerId) (stream : Stream) :
    stream.outgoing ++ Stream.frame (Hello.build myIdentity (x25519Public ephemeral)).encode <+:
      (finalState (initiator ephemeral myIdentity expectedPeer stream)).outgoing := by
  have start : ∀ program : StreamM (SecureChannel × PeerId), Moves Stream.Grows program → _ :=
    fun program moves => moves ⟨stream.incoming, stream.outgoing ++
      Stream.frame (Hello.build myIdentity (x25519Public ephemeral)).encode⟩
  unfold initiator
  rw [bind_of_ok (Hello.writeFrame_eq _ stream)]
  refine start _ ?_
  refine Moves.bind Stream.Grows.trans (Stream.readFrame_quiet.mono Stream.Quiet.grows)
    fun theirBytes => ?_
  refine Moves.bind Stream.Grows.trans (Moves.observe Stream.Grows.refl _) fun theirHello => ?_
  split
  · exact Moves.throw Stream.Grows.refl _
  · exact Moves.bind Stream.Grows.trans (fun stream => Stream.Grows.refl stream) fun stream =>
      Moves.pure Stream.Grows.refl _

/-- The dialling side reads the hello of the peer that it expects. -/
theorem initiator_of_hello {ephemeral : ByteArr 32} {myIdentity : Identity} {hello : Hello}
    {stream : Stream} {rest : Bytes} (read : readHello hello.encode = .ok hello)
    (incoming : stream.incoming = Stream.frame hello.encode ++ rest) :
    initiator ephemeral myIdentity hello.peerId stream =
      .ok (opened ⟨rest, stream.outgoing ++
            Stream.frame (Hello.build myIdentity (x25519Public ephemeral)).encode⟩
          (deriveSessionKey (x25519 ephemeral hello.ephemeralPub)) 0, hello.peerId)
        ⟨rest, stream.outgoing ++
          Stream.frame (Hello.build myIdentity (x25519Public ephemeral)).encode⟩ := by
  have wrote := (Hello.build myIdentity (x25519Public ephemeral)).writeFrame_eq stream
  have found : Stream.readFrame ⟨stream.incoming, stream.outgoing ++
      Stream.frame (Hello.build myIdentity (x25519Public ephemeral)).encode⟩ =
      .ok hello.encode ⟨rest, _⟩ := Hello.readFrame_eq incoming
  have verified : observe (fun _ => readHello hello.encode) (⟨rest, stream.outgoing ++
      Stream.frame (Hello.build myIdentity (x25519Public ephemeral)).encode⟩ : Stream) =
      .ok hello ⟨rest, _⟩ := observe_of_ok read
  refine (bind_of_ok wrote).trans ((bind_of_ok found).trans ((bind_of_ok verified).trans ?_))
  rw [if_neg (not_not.mpr rfl)]
  rfl

/-- The channel of the accepting side goes on with the stream that the handshake left. -/
theorem stream_of_responder {ephemeral : ByteArr 32} {myIdentity : Identity}
    {stream reached : Stream} {channel : SecureChannel} {peer : PeerId}
    (accepted : responder ephemeral myIdentity stream = .ok (channel, peer) reached) :
    channel.stream = reached := by
  obtain ⟨_, _, _, accepted⟩ := bind_eq_ok_iff.mp accepted
  obtain ⟨_, _, _, accepted⟩ := bind_eq_ok_iff.mp accepted
  obtain ⟨_, _, _, accepted⟩ := bind_eq_ok_iff.mp accepted
  cases accepted
  rfl

/-- The accepting side reads any hello that verifies and answers with its own. -/
theorem responder_of_hello {ephemeral : ByteArr 32} {myIdentity : Identity} {hello : Hello}
    {stream : Stream} {rest : Bytes} (read : readHello hello.encode = .ok hello)
    (incoming : stream.incoming = Stream.frame hello.encode ++ rest) :
    responder ephemeral myIdentity stream =
      .ok (opened ⟨rest, stream.outgoing ++
            Stream.frame (Hello.build myIdentity (x25519Public ephemeral)).encode⟩
          (deriveSessionKey (x25519 ephemeral hello.ephemeralPub)) 1, hello.peerId)
        ⟨rest, stream.outgoing ++
          Stream.frame (Hello.build myIdentity (x25519Public ephemeral)).encode⟩ := by
  have found := Hello.readFrame_eq incoming
  have verified : observe (fun _ => readHello hello.encode) (⟨rest, stream.outgoing⟩ : Stream) =
      .ok hello ⟨rest, stream.outgoing⟩ := observe_of_ok read
  have wrote := (Hello.build myIdentity (x25519Public ephemeral)).writeFrame_eq
    ⟨rest, stream.outgoing⟩
  refine (bind_of_ok found).trans ((bind_of_ok verified).trans ((bind_of_ok wrote).trans ?_))
  rfl

end SecureChannel

end ReVault
