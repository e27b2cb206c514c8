import ReVault.Core.Error
import ReVault.Foundation.Bytes

/-!
# Cryptographic primitives

The third-party primitives are a parameter (`Primitives`); the wrappers over them
(`MasterKey`, key wrapping) follow the source. What the source relies on about the
primitives is collected in `Primitives.Lawful`.
-/

namespace ReVault

open Foundation

/-- The salt of a password, in bytes. -/
abbrev saltLen : Nat := 16
/-- A key of AES-256, in bytes. -/
abbrev keyLen : Nat := 32
/-- A nonce of AES-GCM, in bytes. -/
abbrev nonceLen : Nat := 12
/-- The tag that AES-GCM appends, in bytes. -/
abbrev tagLen : Nat := 16
/-- A wrapped key: the ephemeral public key, the nonce and the sealed key. -/
abbrev wrappedDekLen : Nat := 32 + nonceLen + keyLen + tagLen

/-- Argon2id tuning parameters, stored in the header. -/
structure Argon2Params where
  mCostKib : UInt32
  tCost : UInt32
  pCost : UInt32
  deriving DecidableEq

/-- The parameters that new vaults are made with. -/
def Argon2Params.default : Argon2Params where
  mCostKib := 19 * 1024
  tCost := 2
  pCost := 1

/-- A 256-bit symmetric key. -/
abbrev MasterKey := ByteArr keyLen

/-- The primitives supplied by the cryptography crates. Encryption and key
derivation may fail; decryption returns nothing when authentication fails. -/
class Primitives where
  sha256 : Bytes → ByteArr 32
  argon2id : Bytes → ByteArr saltLen → Argon2Params → Option MasterKey
  aesGcmEncrypt : MasterKey → ByteArr nonceLen → (aad message : Bytes) → Option Bytes
  aesGcmDecrypt : MasterKey → ByteArr nonceLen → (aad ciphertext : Bytes) → Option Bytes
  x25519Public : ByteArr 32 → ByteArr 32
  x25519 : (secret other : ByteArr 32) → ByteArr 32
  ed25519Public : ByteArr 32 → ByteArr 32
  ed25519Sign : ByteArr 32 → Bytes → ByteArr 64
  ed25519ValidKey : ByteArr 32 → Bool
  ed25519Verify : ByteArr 32 → Bytes → ByteArr 64 → Bool

/-- The longest message AES-GCM accepts. -/
def aesGcmMax : Nat := 2 ^ 36

/-- What the source relies on: messages of admissible length encrypt to 16 more
bytes, decryption inverts encryption under the same key, nonce and associated
data, the two sides of a key agreement meet, the default Argon2 parameters are
accepted, and a signature verifies under its own key. -/
class Primitives.Lawful [Primitives] : Prop where
  encrypts : ∀ key nonce aad message, message.length ≤ aesGcmMax →
    ∃ ciphertext, aesGcmEncrypt key nonce aad message = some ciphertext ∧
      ciphertext.length = message.length + tagLen ∧
      aesGcmDecrypt key nonce aad ciphertext = some message
  agrees : ∀ first second, x25519 first (x25519Public second) = x25519 second (x25519Public first)
  validKey : ∀ seed, ed25519ValidKey (ed25519Public seed) = true
  verifies : ∀ seed message,
    ed25519Verify (ed25519Public seed) message (ed25519Sign seed message) = true

open Primitives

variable [Primitives]

/-- SHA-256 over the concatenation of several parts. -/
def sha256Concat (parts : List Bytes) : ByteArr 32 := sha256 parts.flatten

namespace MasterKey

/-- A key from a password. -/
def derive (password : Bytes) (salt : ByteArr saltLen) (params : Argon2Params) :
    Except Fault MasterKey :=
  match argon2id password salt params with
  | some key => .ok key
  | none => .error (.error .cryptoFailure)

/-- `nonce || ciphertext_with_tag` under a random nonce. -/
def encryptRandomNonce (key : MasterKey) (nonce : ByteArr nonceLen) (plaintext aad : Bytes) :
    Except Fault Bytes :=
  match aesGcmEncrypt key nonce aad plaintext with
  | some ciphertext => .ok (nonce.toList ++ ciphertext)
  | none => .error (.error .cryptoFailure)

/-- What `encryptRandomNonce` sealed: the nonce comes first. -/
def decryptRandomNonce (key : MasterKey) (blob aad : Bytes) : Except Fault Bytes :=
  if blob.length < nonceLen + tagLen then
    .error (.error (.corruptContainer "ciphertext blob too short"))
  else
    match toArr? nonceLen (blob.take nonceLen) with
    | none => .error .panic
    | some nonce =>
        match aesGcmDecrypt key nonce aad (blob.drop nonceLen) with
        | some plaintext => .ok plaintext
        | none => .error (.error .incorrectPassword)

/-- The deterministic nonce of a block: a truncated hash of the file id and the
block index. -/
def blockNonce (fileId : BitVec 128) (blockIndex : UInt64) : ByteArr nonceLen :=
  ⟨((sha256Concat ["revault-block-nonce-v1".toUTF8.data.toList, toLE 16 fileId.toNat,
      toLE 8 blockIndex.toNat]).toList).take nonceLen, by
    rw [List.length_take, List.Vector.toList_length]; rfl⟩

/-- A block is sealed under the nonce of its file and index. -/
def encryptBlock (key : MasterKey) (fileId : BitVec 128) (blockIndex : UInt64)
    (plaintext : Bytes) : Except Fault Bytes :=
  match aesGcmEncrypt key (blockNonce fileId blockIndex) [] plaintext with
  | some ciphertext => .ok ciphertext
  | none => .error (.error .cryptoFailure)

/-- A block that was tampered with, or sealed under another key, is refused. -/
def decryptBlock (key : MasterKey) (fileId : BitVec 128) (blockIndex : UInt64)
    (ciphertext : Bytes) : Except Fault Bytes :=
  match aesGcmDecrypt key (blockNonce fileId blockIndex) [] ciphertext with
  | some plaintext => .ok plaintext
  | none => .error (.error
      (.corruptContainer "block failed authentication (tampered or wrong key)"))

end MasterKey

/-- The wrapping key of an X25519 shared secret. -/
def deriveWrapKey (sharedSecret : ByteArr 32) : MasterKey :=
  sha256Concat [sharedSecret.toList, "revault-dek-wrap-v1".toUTF8.data.toList]

/-- Wraps a content key for a recipient: the ephemeral public key, the nonce and
the encrypted key. The ephemeral secret and the nonce are drawn at random. -/
def wrapDekForRecipient (ephemeral : ByteArr 32) (nonce : ByteArr nonceLen)
    (recipientEncryptionPub : ByteArr 32) (dek : MasterKey) : Except Fault Bytes :=
  match aesGcmEncrypt (deriveWrapKey (x25519 ephemeral recipientEncryptionPub)) nonce []
      dek.toList with
  | some ciphertext => .ok ((x25519Public ephemeral).toList ++ (nonce.toList ++ ciphertext))
  | none => .error (.error .cryptoFailure)

/-- The recipient's side of `wrapDekForRecipient`. -/
def unwrapDekForRecipient (recipientSecret : ByteArr 32) (wrapped : Bytes) :
    Except Fault MasterKey :=
  match toArr? 32 (wrapped.take 32), toArr? nonceLen ((wrapped.drop 32).take nonceLen) with
  | some ephemeralPublic, some nonce =>
      match aesGcmDecrypt (deriveWrapKey (x25519 recipientSecret ephemeralPublic)) nonce []
          (wrapped.drop (32 + nonceLen)) with
      | none => .error (.error .accessNotGranted)
      | some plaintext =>
          match toArr? keyLen plaintext with
          | some dek => .ok dek
          | none => .error (.error (.corruptContainer "unwrapped DEK has the wrong length"))
  | _, _ => .error .panic

/-- A key is derived exactly when Argon2id gives one. -/
theorem MasterKey.derive_eq_ok_iff {password : Bytes} {salt : ByteArr saltLen}
    {params : Argon2Params} {kek : MasterKey} :
    derive password salt params = .ok kek ↔ argon2id password salt params = some kek := by
  unfold derive
  cases argon2id password salt params with
  | some key => rw [Except.ok.injEq, Option.some.injEq]
  | none => simp only [reduceCtorEq]

/-! ## Wrong keys -/

/-- What one key encrypts, another rejects. -/
def Rejects (key other : MasterKey) : Prop :=
  ∀ nonce aad message ciphertext, aesGcmEncrypt key nonce aad message = some ciphertext →
    aesGcmDecrypt other nonce aad ciphertext = none

/-- A key that rejects another opens none of its blobs. -/
theorem Rejects.decryptRandomNonce {key other : MasterKey} (rejects : Rejects key other)
    {nonce : ByteArr nonceLen} {plaintext aad blob : Bytes}
    (encrypted : key.encryptRandomNonce nonce plaintext aad = .ok blob) :
    ∃ fault, other.decryptRandomNonce blob aad = .error fault := by
  unfold MasterKey.encryptRandomNonce at encrypted
  split at encrypted
  · rename_i ciphertext made
    cases encrypted
    have nonceSize : nonce.toList.length = nonceLen := List.Vector.toList_length nonce
    unfold MasterKey.decryptRandomNonce
    split
    · exact ⟨_, rfl⟩
    · rw [List.take_left' nonceSize, List.drop_left' nonceSize, toArr?_toList]
      simp only [rejects nonce aad plaintext ciphertext made]
      exact ⟨_, rfl⟩
  · cases encrypted

/-- Nor any of its blocks. -/
theorem Rejects.decryptBlock {key other : MasterKey} (rejects : Rejects key other)
    {fileId : BitVec 128} {blockIndex : UInt64} {plaintext ciphertext : Bytes}
    (encrypted : key.encryptBlock fileId blockIndex plaintext = .ok ciphertext) :
    ∃ fault, other.decryptBlock fileId blockIndex ciphertext = .error fault := by
  unfold MasterKey.encryptBlock at encrypted
  split at encrypted
  · rename_i sealed made
    cases encrypted
    unfold MasterKey.decryptBlock
    rw [rejects _ _ _ _ made]
    exact ⟨_, rfl⟩
  · cases encrypted

/-! ## What the wrappers inherit from lawful primitives -/

section Lawful

variable [Lawful]

/-- A block of admissible size encrypts, and decrypts back in place. -/
theorem encryptBlock_spec (key : MasterKey) (fileId : BitVec 128) (blockIndex : UInt64)
    {plaintext : Bytes} (small : plaintext.length ≤ aesGcmMax) :
    ∃ ciphertext, key.encryptBlock fileId blockIndex plaintext = .ok ciphertext ∧
      ciphertext.length = plaintext.length + tagLen ∧
      key.decryptBlock fileId blockIndex ciphertext = .ok plaintext := by
  obtain ⟨ciphertext, encrypted, sized, decrypted⟩ :=
    Lawful.encrypts key (MasterKey.blockNonce fileId blockIndex) [] plaintext small
  exact ⟨ciphertext, by simp only [MasterKey.encryptBlock, encrypted], sized,
    by simp only [MasterKey.decryptBlock, decrypted]⟩

/-- What a successful block encryption produced decrypts back in place. -/
theorem decryptBlock_of_encryptBlock {key : MasterKey} {fileId : BitVec 128}
    {blockIndex : UInt64} {plaintext ciphertext : Bytes}
    (small : plaintext.length ≤ aesGcmMax)
    (encrypted : key.encryptBlock fileId blockIndex plaintext = .ok ciphertext) :
    ciphertext.length = plaintext.length + tagLen ∧
      key.decryptBlock fileId blockIndex ciphertext = .ok plaintext := by
  obtain ⟨other, encrypted', sized, decrypted⟩ := encryptBlock_spec key fileId blockIndex small
  rw [encrypted] at encrypted'
  cases encrypted'
  exact ⟨sized, decrypted⟩

omit [Primitives] [Lawful] in
/-- A key is short enough to be sealed. -/
theorem key_small (key : MasterKey) : key.toList.length ≤ aesGcmMax := by
  rw [List.Vector.toList_length]
  decide

/-- A key encrypted under a random nonce takes 60 bytes and decrypts back. -/
theorem encryptRandomNonce_spec (key : MasterKey) (nonce : ByteArr nonceLen)
    (dek : MasterKey) (aad : Bytes) :
    ∃ blob, key.encryptRandomNonce nonce dek.toList aad = .ok blob ∧ blob.length = 60 ∧
      key.decryptRandomNonce blob aad = .ok dek.toList := by
  obtain ⟨ciphertext, encrypted, sized, decrypted⟩ :=
    Lawful.encrypts key nonce aad dek.toList (key_small dek)
  rw [List.Vector.toList_length] at sized
  have nonceSize : nonce.toList.length = nonceLen := List.Vector.toList_length nonce
  have total : (nonce.toList ++ ciphertext).length = 60 := by
    rw [List.length_append, nonceSize, sized]
    rfl
  refine ⟨nonce.toList ++ ciphertext, by simp only [MasterKey.encryptRandomNonce, encrypted],
    total, ?_⟩
  unfold MasterKey.decryptRandomNonce
  rw [if_neg (by rw [total]; decide), List.take_left' nonceSize, List.drop_left' nonceSize,
    toArr?_toList]
  simp only [decrypted]

/-- A wrapped key has the fixed wrapped length and unwraps with the matching secret. -/
theorem wrapDekForRecipient_spec (ephemeral : ByteArr 32) (nonce : ByteArr nonceLen)
    (recipientPub : ByteArr 32) (dek : MasterKey) :
    ∃ wrapped, wrapDekForRecipient ephemeral nonce recipientPub dek = .ok wrapped ∧
      wrapped.length = wrappedDekLen ∧
      ∀ secret, x25519Public secret = recipientPub →
        unwrapDekForRecipient secret wrapped = .ok dek := by
  obtain ⟨ciphertext, encrypted, sized, decrypted⟩ :=
    Lawful.encrypts (deriveWrapKey (x25519 ephemeral recipientPub)) nonce [] dek.toList
      (key_small dek)
  rw [List.Vector.toList_length] at sized
  have publicSize : (x25519Public ephemeral).toList.length = 32 :=
    List.Vector.toList_length _
  have nonceSize : nonce.toList.length = nonceLen := List.Vector.toList_length nonce
  refine ⟨(x25519Public ephemeral).toList ++ (nonce.toList ++ ciphertext),
    by simp only [wrapDekForRecipient, encrypted], ?_, ?_⟩
  · rw [List.length_append, List.length_append, publicSize, nonceSize, sized]
    rfl
  · intro secret matching
    have shared : x25519 secret (x25519Public ephemeral) = x25519 ephemeral recipientPub := by
      rw [← matching]
      exact Lawful.agrees secret ephemeral
    unfold unwrapDekForRecipient
    rw [List.take_left' publicSize, List.drop_left' publicSize, List.take_left' nonceSize,
      ← List.drop_drop, List.drop_left' publicSize, List.drop_left' nonceSize,
      toArr?_toList, toArr?_toList]
    simp only [shared, decrypted, toArr?_toList]

end Lawful

end ReVault
