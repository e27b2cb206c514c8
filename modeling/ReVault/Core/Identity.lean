import ReVault.Core.Crypto

/-!
# Participant identities

An identity is an Ed25519 signing seed with an X25519 secret; a `PeerId` is its
shareable half.
-/

namespace ReVault

open Foundation Primitives

/-- The shareable, non-secret identifier of a participant. -/
structure PeerId where
  signingPublic : ByteArr 32
  encryptionPublic : ByteArr 32
  deriving DecidableEq

/-- A local participant's full identity. -/
structure Identity where
  signing : ByteArr 32
  encryption : ByteArr 32
  deriving DecidableEq

variable [Primitives]

namespace Identity

/-- The public keys. -/
def peerId (identity : Identity) : PeerId where
  signingPublic := ed25519Public identity.signing
  encryptionPublic := x25519Public identity.encryption

/-- A signature with the signing key. -/
def sign (identity : Identity) (message : Bytes) : ByteArr 64 :=
  ed25519Sign identity.signing message

/-- The key that others wrap keys for. -/
def encryptionSecret (identity : Identity) : ByteArr 32 := identity.encryption

end Identity

/-- Verifies a signature against a public signing key. -/
def verifySignature (signingPublic : ByteArr 32) (message : Bytes) (signature : ByteArr 64) :
    Except VaultError Unit :=
  if ed25519ValidKey signingPublic then
    if ed25519Verify signingPublic message signature then .ok ()
    else .error (.integrityViolation "signature does not match the claimed identity")
  else .error .cryptoFailure

/-- A signature made by an identity verifies under its public key. -/
theorem verifySignature_sign [Lawful] (identity : Identity) (message : Bytes) :
    verifySignature identity.peerId.signingPublic message (identity.sign message) = .ok () := by
  unfold verifySignature Identity.peerId Identity.sign
  rw [if_pos (Lawful.validKey _), if_pos (Lawful.verifies _ _)]

end ReVault
