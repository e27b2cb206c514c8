import ReVault.Device.Account

/-!
# Handles on an account

The password in force opens the container of an account, any other is refused as an
incorrect one. What a handle then shows, and what each operation on it comes to, is what
the account says.
-/

namespace ReVault

open Foundation Primitives

section

variable [Primitives]

/-- Passwords that all derive keys, different ones keys that reject each other's key slots. -/
structure PasswordsApart (passwords : List String) : Prop where
  derives : ∀ salt, ∀ password ∈ passwords,
    argon2id (utf8 password) salt Argon2Params.default ≠ none
  rejects : ∀ salt, ∀ password ∈ passwords, ∀ other ∈ passwords, password ≠ other →
    ∀ key key', argon2id (utf8 password) salt Argon2Params.default = some key →
      argon2id (utf8 other) salt Argon2Params.default = some key' → Rejects key key'

/-- What one key encrypts and can decrypt, a key that rejects it takes for the wrong password. -/
theorem Rejects.decryptRandomNonce_eq {key other : MasterKey} (rejects : Rejects key other)
    {nonce : ByteArr nonceLen} {plaintext aad blob : Bytes}
    (encrypted : key.encryptRandomNonce nonce plaintext aad = .ok blob)
    (long : nonceLen + tagLen ≤ blob.length) :
    other.decryptRandomNonce blob aad = .error (.error .incorrectPassword) := by
  unfold MasterKey.encryptRandomNonce at encrypted
  split at encrypted
  · rename_i ciphertext made
    cases encrypted
    have nonceSize : nonce.toList.length = nonceLen := List.Vector.toList_length nonce
    rw [MasterKey.decryptRandomNonce, if_neg (Nat.not_lt.mpr long), List.take_left' nonceSize,
      List.drop_left' nonceSize, toArr?_toList]
    simp only [rejects nonce aad plaintext ciphertext made]
  · cases encrypted

/-- A key slot made for one password is not opened by another. -/
theorem WrapsForPassword.refuses [Lawful] {h : Header} {password other : String}
    {key kek kek' : MasterKey} (wraps : WrapsForPassword h password key)
    (derived : argon2id (utf8 password) h.salt h.argon2Params = some kek)
    (derived' : argon2id (utf8 other) h.salt h.argon2Params = some kek')
    (rejects : Rejects kek kek') :
    Vault.unwrapWithPassword h other = .error (.error .incorrectPassword) := by
  obtain ⟨maker, nonce, derivedMaker, encrypted⟩ := wraps
  have made := MasterKey.derive_eq_ok_iff.mp derivedMaker
  rw [derived, Option.some.injEq] at made
  subst made
  obtain ⟨blob, encrypted', sized, _⟩ := encryptRandomNonce_spec kek nonce key adminKeySlotAad
  rw [encrypted, Except.ok.injEq] at encrypted'
  subst encrypted'
  rw [Vault.unwrapWithPassword, except_bind_of_ok (MasterKey.derive_eq_ok_iff.mpr derived'),
    except_bind_of_error (rejects.decryptRandomNonce_eq encrypted (by rw [sized]; decide))]

/-- Only a handle that is opened again asks for the password in force. -/
theorem Op.exec_of_mutates (op : Op) (mutates : op.mutates = true) (password other : String)
    (draws : Draws) : op.exec password draws = op.exec other draws := by
  cases op with
  | reopen identity => cases mutates
  | _ => rfl

namespace Vault.Holds

variable [Lawful] {v : Vault} {account : Account} (holds : v.Holds account)

include holds

omit [Lawful] in
/-- The summary is the one of the account. -/
theorem summary_eq : v.summary = account.summary := by
  obtain ⟨d, files, of⟩ := holds
  exact of.summary

/-- So is what is used. -/
theorem usedBytes_eq : v.usedBytes.toNat = account.usedBytes := by
  obtain ⟨d, files, of⟩ := holds
  exact (of.sound.shows of.ledger of.blockSize).used

omit [Lawful] in
/-- The metadata can be read without the password. -/
theorem peeks : Vault.peekSummary v.file = .ok account.summary := by
  obtain ⟨d, files, of⟩ := holds
  rw [Vault.peekSummary, except_bind_of_ok of.sound.readHeader_eq]
  exact congrArg Except.ok of.summary

/-- **Opening** with the password in force. -/
theorem opens (identity : Identity) : ∃ w,
    Vault.openWithPassword v.file account.password identity = .ok w ∧ w.file = v.file ∧
      w.Holds account ∧ w.adminIdentity = account.authorize identity ∧ w.changeLog = [] := by
  obtain ⟨d, files, of⟩ := holds
  obtain ⟨granted, keyring⟩ := of.keyring
  refine ⟨_, of.sound.openWithPassword_eq keyring.password identity, rfl, ⟨d, files, ?_⟩, ?_, rfl⟩
  · refine (of.of_container rfl rfl rfl rfl ?_ : account.Of (v.reopened _) d files)
    intro other held
    change (if identity.peerId.signingPublic = v.header.adminSigningPubkey
      then some identity else none) = some other at held
    split at held
    · rename_i same
      cases held
      exact same
    · cases held
  · rw [Account.authorize, ← of.adminSigningPubkey]
    rfl

/-- Any other password is refused. -/
theorem refuses {passwords : List String} (apart : PasswordsApart passwords) {password : String}
    (known : password ∈ passwords) (inForce : account.password ∈ passwords)
    (wrong : password ≠ account.password) (identity : Identity) :
    Vault.openWithPassword v.file password identity = .error (.error .incorrectPassword) := by
  obtain ⟨d, files, of⟩ := holds
  obtain ⟨granted, keyring⟩ := of.keyring
  obtain ⟨kek, derived⟩ :=
    Option.ne_none_iff_exists'.mp (apart.derives v.header.salt _ inForce)
  obtain ⟨kek', derived'⟩ := Option.ne_none_iff_exists'.mp (apart.derives v.header.salt _ known)
  have rejects := apart.rejects v.header.salt _ inForce _ known (Ne.symm wrong) _ _ derived derived'
  rw [← of.argon2Params] at derived derived'
  exact of.sound.openWithPassword_error (keyring.password.refuses derived derived' rejects) identity

/-- What a handle shows is what the account says. -/
theorem shows : v.Shows account.ledger := by
  obtain ⟨d, files, of⟩ := holds
  exact of.sound.shows of.ledger of.blockSize

/-- Verification passes as long as the record numbers have not wrapped. -/
theorem verifies (short : account.records < 2 ^ 64) : v.verifyIntegrity = .ok () := by
  obtain ⟨d, files, of⟩ := holds
  obtain ⟨history, ring, length⟩ := of.ring
  rw [← length] at short
  exact Vault.verifyIntegrity_eq_ok_iff.mpr
    (ring.passes of.sound.tracks short of.sound.reads_listed)

/-- **Performing** an operation on the admin's handle. -/
theorem performs {identity : Identity} (authorized : v.adminIdentity = some identity) (op : Op)
    (draws : Draws) (derives : ∀ signingPubkey password, op = .revokeAccess signingPubkey password →
      argon2id (utf8 password) v.header.salt Argon2Params.default ≠ none) :
    match account.apply op draws with
    | .ok next => ∃ v', op.exec account.password draws v = .ok () v' ∧ v'.Holds next ∧
        (op.mutates = true → v'.adminIdentity = some identity)
    | .error error => op.exec account.password draws v = .error (.error error) v := by
  obtain ⟨d, files, of⟩ := holds
  obtain ⟨granted, keyring⟩ := of.keyring
  have follows : Vault.Follows account.password draws v d files account.ledger op :=
    of.sound.follows of.ledger authorized of.blockSize of.fits keyring op
      (by rw [of.argon2Params]; exact derives)
  rw [Vault.Follows] at follows
  rw [Account.apply]
  cases applied : account.ledger.apply op draws with
  | error error =>
      rw [applied] at follows
      exact follows
  | ok next =>
      rw [applied] at follows
      obtain ⟨v', d', files', ran, took, next'⟩ := follows
      refine ⟨v', ran, ⟨d', files', of.step took next'⟩, fun mutates => ?_⟩
      obtain ⟨_, _, _, _, _, _, commits⟩ := took.commits mutates
      rw [commits.adminIdentity, authorized]

end Vault.Holds

end

end ReVault
