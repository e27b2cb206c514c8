import ReVault.Net.Wire

/-!
# The handshake over any suite

What the two sides of a handshake say, accept and derive depends only on a suite: identities and
the names they go by, signatures, and a key agreement. The code is the handshake over the suite
of its byte strings; an attacker is studied over a suite of symbolic values.
-/

namespace ReVault

open Foundation Primitives

/-- What a handshake is made with. The key is derived from a secret and a public value. -/
structure Suite where
  Identity : Type
  Peer : Type
  Secret : Type
  Public : Type
  Signature : Type
  Key : Type
  peer : Identity → Peer
  ofSecret : Secret → Public
  sign : Identity → Public → Signature
  verifies : Peer → Public → Signature → Prop
  key : Secret → Public → Key

namespace Suite

variable (suite : Suite)

/-- A hello. -/
structure Greeting where
  peer : suite.Peer
  ephemeral : suite.Public
  signature : suite.Signature

/-- The hello of an identity. Only the ephemeral value is signed. -/
def greet (identity : suite.Identity) (secret : suite.Secret) : suite.Greeting where
  peer := suite.peer identity
  ephemeral := suite.ofSecret secret
  signature := suite.sign identity (suite.ofSecret secret)

/-- A hello is accepted when its signature verifies under the key of the peer that it names,
and, on the dialling side, when that is the expected peer. -/
def Accepts (expected : Option suite.Peer) (greeting : suite.Greeting) : Prop :=
  suite.verifies greeting.peer greeting.ephemeral greeting.signature ∧
    ∀ peer, expected = some peer → greeting.peer = peer

/-- A session of an identity: the dialling side expects a peer; once a hello has been accepted
the session holds a key and has returned the peer that the hello names, and it can send. -/
structure Session where
  side : Side
  owner : suite.Identity
  secret : suite.Secret
  expected : Option suite.Peer
  accepted : Option suite.Greeting
  sent : List Bytes

variable {suite}

/-- The key of a session, once it has accepted a hello. -/
def Session.key (session : suite.Session) : Option suite.Key :=
  session.accepted.map fun greeting => suite.key session.secret greeting.ephemeral

/-- The peer that a session returned. -/
def Session.peer (session : suite.Session) : Option suite.Peer :=
  session.accepted.map Greeting.peer

end Suite

section

variable [Primitives]

/-- The suite of the code. -/
abbrev byteSuite : Suite where
  Identity := Identity
  Peer := PeerId
  Secret := ByteArr 32
  Public := ByteArr 32
  Signature := ByteArr 64
  Key := MasterKey
  peer := Identity.peerId
  ofSecret := x25519Public
  sign identity ephemeralPub := identity.sign ephemeralPub.toList
  verifies peer ephemeralPub signature :=
    verifySignature peer.signingPublic ephemeralPub.toList signature = .ok ()
  key secret ephemeralPub := deriveSessionKey (x25519 secret ephemeralPub)

/-- A hello of the code, as one of its suite. -/
def Hello.greeting (hello : Hello) : byteSuite.Greeting :=
  ⟨hello.peerId, hello.ephemeralPub, hello.signature⟩

/-- What is built is the greeting of the suite. -/
theorem Hello.greeting_build (identity : Identity) (ephemeral : ByteArr 32) :
    (Hello.build identity (x25519Public ephemeral)).greeting =
      byteSuite.greet identity ephemeral := rfl

namespace SecureChannel

variable {ephemeral : ByteArr 32} {myIdentity : Identity} {stream reached : Stream}
  {channel : SecureChannel} {peer : PeerId}

/-- **The dialling side.** The code completes a handshake exactly by accepting, over its suite,
a hello that arrives, after it has sent its own. -/
theorem initiator_eq_ok_iff {expectedPeer : PeerId} :
    initiator ephemeral myIdentity expectedPeer stream = .ok (channel, peer) reached ↔
      ∃ hello : Hello, byteSuite.Accepts (some expectedPeer) hello.greeting ∧
        stream.incoming = Stream.frame hello.encode ++ reached.incoming ∧
        reached.outgoing = stream.outgoing ++
          Stream.frame (Hello.build myIdentity (x25519Public ephemeral)).encode ∧
        channel = opened reached (byteSuite.key ephemeral hello.ephemeralPub)
          Side.initiator.parity ∧
        peer = hello.peerId := by
  constructor
  · intro succeeded
    unfold initiator at succeeded
    rw [bind_of_ok (Hello.writeFrame_eq _ stream)] at succeeded
    obtain ⟨theirBytes, read, framed, verifying⟩ := bind_eq_ok_iff.mp succeeded
    obtain ⟨theirHello, middle, observed, finished⟩ := bind_eq_ok_iff.mp verifying
    obtain ⟨verified, rfl⟩ := observe_eq_ok_iff.mp observed
    obtain ⟨rfl, signed⟩ := readHello_eq_ok_iff.mp verified
    obtain ⟨incoming, outgoing⟩ := Stream.incoming_of_readFrame framed
    split at finished
    · cases finished
    · rename_i expected
      cases finished
      refine ⟨theirHello, ⟨signed, fun other same => ?_⟩, incoming, outgoing, rfl, rfl⟩
      cases same
      exact not_not.mp expected
  · obtain ⟨rest, written⟩ := reached
    rintro ⟨hello, ⟨signed, expected⟩, incoming, rfl, rfl, rfl⟩
    obtain rfl : hello.peerId = expectedPeer := expected expectedPeer rfl
    exact initiator_of_hello (readHello_eq_ok_iff.mpr ⟨rfl, signed⟩) incoming

/-- **The accepting side.** It accepts any hello that verifies, before it sends its own. -/
theorem responder_eq_ok_iff :
    responder ephemeral myIdentity stream = .ok (channel, peer) reached ↔
      ∃ hello : Hello, byteSuite.Accepts none hello.greeting ∧
        stream.incoming = Stream.frame hello.encode ++ reached.incoming ∧
        reached.outgoing = stream.outgoing ++
          Stream.frame (Hello.build myIdentity (x25519Public ephemeral)).encode ∧
        channel = opened reached (byteSuite.key ephemeral hello.ephemeralPub)
          Side.responder.parity ∧
        peer = hello.peerId := by
  constructor
  · intro succeeded
    obtain ⟨theirBytes, read, framed, verifying⟩ := bind_eq_ok_iff.mp succeeded
    obtain ⟨theirHello, middle, observed, answering⟩ := bind_eq_ok_iff.mp verifying
    obtain ⟨verified, rfl⟩ := observe_eq_ok_iff.mp observed
    obtain ⟨rfl, signed⟩ := readHello_eq_ok_iff.mp verified
    obtain ⟨incoming, outgoing⟩ := Stream.incoming_of_readFrame framed
    rw [bind_of_ok (Hello.writeFrame_eq _ middle)] at answering
    cases answering
    exact ⟨theirHello, ⟨signed, fun _ same => by cases same⟩, incoming,
      congrArg (· ++ _) outgoing, rfl, rfl⟩
  · obtain ⟨rest, written⟩ := reached
    rintro ⟨hello, ⟨signed, _⟩, incoming, rfl, rfl, rfl⟩
    exact responder_of_hello (readHello_eq_ok_iff.mpr ⟨rfl, signed⟩) incoming

end SecureChannel

end

end ReVault
