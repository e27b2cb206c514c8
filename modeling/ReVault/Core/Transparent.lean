import ReVault.Core.Identity

/-!
# Transparent primitives

An instance of the primitives that hides nothing and satisfies everything the source
relies on. A ciphertext is the message followed by the first bytes of its key, so that
decryption under a key that starts differently fails; a signature is the signer's seed
followed by the digest of the message.
-/

namespace ReVault

open Foundation Primitives

namespace Transparent

/-- The first bytes of a byte string, zero-padded to a fixed width. -/
def digest (width : Nat) (message : Bytes) : ByteArr width :=
  ⟨padTo width (message.take width), length_padTo (List.length_take_le width message)⟩

/-- The tag that ends every ciphertext made under a key. -/
def tag (key : MasterKey) : Bytes := key.toList.take tagLen

/-- A tag has the length of a tag. -/
theorem length_tag (key : MasterKey) : (tag key).length = tagLen := by
  unfold tag
  rw [List.length_take, List.Vector.toList_length]
  rfl

/-- The message itself, with the tag of the key behind it. -/
def encrypt (key : MasterKey) (message : Bytes) : Option Bytes :=
  if message.length ≤ aesGcmMax then some (message ++ tag key) else none

/-- Only the tag of the key is accepted. -/
def decrypt (key : MasterKey) (ciphertext : Bytes) : Option Bytes :=
  if ciphertext.drop (ciphertext.length - tagLen) = tag key then
    some (ciphertext.take (ciphertext.length - tagLen))
  else none

scoped instance primitives : Primitives where
  sha256 message := digest 32 message
  argon2id password _ _ := some (digest keyLen password)
  aesGcmEncrypt key _ _ message := encrypt key message
  aesGcmDecrypt key _ _ ciphertext := decrypt key ciphertext
  x25519Public secret := secret
  x25519 secret other := List.Vector.ofFn fun index => secret.get index + other.get index
  ed25519Public seed := seed
  ed25519Sign seed message := ⟨seed.toList ++ (digest 32 message).toList, by
    rw [List.length_append, List.Vector.toList_length, List.Vector.toList_length]⟩
  ed25519ValidKey _ := true
  ed25519Verify signer message signature :=
    signature.toList = signer.toList ++ (digest 32 message).toList

/-- What a key encrypts, a key with the same tag decrypts and any other rejects. -/
theorem decrypt_encrypt {key key' : MasterKey} {message ciphertext : Bytes}
    (encrypted : encrypt key message = some ciphertext) :
    decrypt key' ciphertext = if tag key = tag key' then some message else none := by
  unfold encrypt at encrypted
  split at encrypted
  · cases encrypted
    have cut : (message ++ tag key).length - tagLen = message.length := by
      rw [List.length_append, length_tag]
      omega
    unfold decrypt
    rw [cut, List.drop_left, List.take_left]
  · cases encrypted

scoped instance lawful : Lawful where
  encrypts := by
    intro key nonce aad message small
    refine ⟨message ++ tag key, if_pos small, ?_, ?_⟩
    · rw [List.length_append, length_tag]
    · exact (decrypt_encrypt (if_pos small)).trans (if_pos rfl)
  agrees := by
    intro first second
    refine congrArg List.Vector.ofFn (funext fun index => ?_)
    exact UInt8.add_comm (first.get index) (second.get index)
  validKey := fun _ => rfl
  verifies := by
    intro seed message
    exact decide_eq_true rfl

end Transparent

end ReVault
