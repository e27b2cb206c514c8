import ReVault.Sharing.Readers

/-!
# Revoking with another password

`revoke_access` wraps the new content key for whatever password it is given. It never
compares it with the one that opens the container, so a wrong one locks the admin out.
-/

namespace ReVault

open Foundation Primitives

section

variable [Primitives]

/-- A revocation after which the container still opens with a password and shows the same
files, and which is refused when it is given a password that does not open it. -/
structure Vault.RevokesSafely (v : Vault) (password : String) (signingPubkey : ByteArr 32)
    (other : String) (draws : Draws) : Prop where
  opens : ∀ identity, ∃ w, Vault.openWithPassword
      (finalState (Vault.revokeAccess signingPubkey other draws v)).file password identity = .ok w ∧
    v.SameFiles w
  refuses : (∀ key, Vault.unwrapWithPassword v.header other ≠ .ok key) →
    ∃ fault, Vault.revokeAccess signingPubkey other draws v = .error fault v

/-- A key slot made for one password does not open with another whose key is rejected. -/
theorem WrapsForPassword.not_unwraps {h : Header} {password other : String}
    {key kek kek' : MasterKey} (wraps : WrapsForPassword h other key)
    (derived : argon2id (utf8 password) h.salt h.argon2Params = some kek)
    (derived' : argon2id (utf8 other) h.salt h.argon2Params = some kek')
    (rejects : Rejects kek' kek) :
    ∃ fault, Vault.unwrapWithPassword h password = .error fault := by
  obtain ⟨maker, nonce, derivedMaker, encrypted⟩ := wraps
  have same : maker = kek' := by
    have made := MasterKey.derive_eq_ok_iff.mp derivedMaker
    rw [derived'] at made
    exact (Option.some.inj made).symm
  rw [same] at encrypted
  obtain ⟨fault, rejected⟩ := rejects.decryptRandomNonce encrypted
  refine ⟨fault, ?_⟩
  unfold Vault.unwrapWithPassword
  rw [except_bind_of_ok (MasterKey.derive_eq_ok_iff.mpr derived), except_bind_of_error rejected]

/-- After a revocation with another password the container does not open with a password
whose key rejects the key slot. -/
theorem Vault.Revokes.locked_out {v v' : Vault} {d d' : Disk} {files : Files} {slotIdx : Nat}
    {newKey kek kek' : MasterKey} {password other : String} {record : ChainRecord}
    (revokes : Vault.Revokes v v' d d' files slotIdx newKey other record)
    (derived : argon2id (utf8 password) v.header.salt v.header.argon2Params = some kek)
    (derived' : argon2id (utf8 other) v.header.salt v.header.argon2Params = some kek')
    (rejects : Rejects kek' kek) (identity : Identity) :
    ∃ fault, Vault.openWithPassword v'.file password identity = .error fault := by
  have shape := revokes.commits.sameShape
  have same : v'.header.salt = v.header.salt ∧
      v'.header.argon2Params = v.header.argon2Params := by
    unfold SameShape at shape
    rw [shape]
    exact ⟨rfl, rfl⟩
  rw [← same.1, ← same.2] at derived derived'
  obtain ⟨fault, locked⟩ := revokes.password.not_unwraps derived derived' rejects
  exact ⟨fault, revokes.sound.openWithPassword_error locked identity⟩

namespace Run

variable [Lawful] {v origin : Vault} {trace : List Step} {password name description : String}
  {capacityBytes : UInt64} {admin : Identity} {draws : Draws}

/-- **Lockout.** Given a password from which some key derives, revoking a granted peer is
safe exactly when the handle is not the admin's or the password is the one in force. -/
theorem revokes_safely_iff
    (created : Vault.create name description capacityBytes password admin draws = .ok origin)
    (run : Run password origin trace v) {signingPubkey : ByteArr 32}
    (granted : ∃ peer ∈ grantedAfter trace, peer.signingPublic = signingPubkey) {other : String}
    {kek' : MasterKey}
    (derived' : argon2id (utf8 other) v.header.salt v.header.argon2Params = some kek')
    (differ : other ≠ passwordAfter password trace →
      argon2id (utf8 (passwordAfter password trace)) v.header.salt v.header.argon2Params ≠
        some kek')
    (rejects : ∀ kek, argon2id (utf8 (passwordAfter password trace)) v.header.salt
        v.header.argon2Params = some kek → kek ≠ kek' → Rejects kek' kek) (draws' : Draws) :
    v.RevokesSafely (passwordAfter password trace) signingPubkey other draws' ↔
      v.isAdmin = false ∨ other = passwordAfter password trace := by
  obtain ⟨d, files, healthy⟩ := run.healthy created
  have keyring := healthy.keyring
  generalize passwordAfter password trace = inForce at *
  have present := (keyring.hasSigner_iff signingPubkey).mpr granted
  cases authorized : v.adminIdentity with
  | none =>
      have notAdmin : v.isAdmin = false := congrArg Option.isSome authorized
      have refused : (Op.revokeAccess signingPubkey other).exec inForce draws' v =
          .error (.error .notAuthorized) v := Op.exec_unauthorized authorized inForce draws' rfl
      change Vault.revokeAccess signingPubkey other draws' v = _ at refused
      refine iff_of_true ⟨fun identity => ?_, fun _ => ⟨_, refused⟩⟩ (Or.inl notAdmin)
      obtain ⟨w, opened, sound, header⟩ := healthy.sound.exists_opened keyring.password identity
      rw [refused]
      exact ⟨w, opened, healthy.sound.sameFiles sound (by rw [header]; exact SameShape.refl _)⟩
  | some identity =>
      have isAdmin : v.isAdmin = true := congrArg Option.isSome authorized
      obtain ⟨v', slotIdx, d', ran, _, _, revokes, _⟩ :=
        Vault.revokeAccess_eq healthy.sound authorized present
          (MasterKey.derive_eq_ok_iff.mpr derived') draws'
      have wraps : WrapsForPassword v'.header other v'.key := by
        rw [revokes.key]
        exact revokes.password
      constructor
      · intro safe
        refine Or.inr (Classical.byContradiction fun wrong => ?_)
        obtain ⟨kek, _, derived, _⟩ := keyring.password
        have derivedKek := MasterKey.derive_eq_ok_iff.mp derived
        have apart : kek ≠ kek' := by
          rintro rfl
          exact differ wrong derivedKek
        obtain ⟨fault, locked⟩ := revokes.locked_out derivedKek derived'
          (rejects kek derivedKek apart) identity
        obtain ⟨w, opened, _⟩ := safe.opens identity
        rw [ran, finalState_ok, locked] at opened
        cases opened
      · rintro (notAdmin | rfl)
        · rw [isAdmin] at notAdmin
          cases notAdmin
        · refine ⟨fun opener => ?_, fun fails => absurd keyring.password.unwraps (fails _)⟩
          obtain ⟨w, opened, sound, header⟩ := revokes.sound.exists_opened wraps opener
          rw [ran]
          exact ⟨w, opened, healthy.sound.sameFiles sound
            (by rw [header]; exact revokes.commits.sameShape)⟩

end Run

end

namespace Transparent

/-- The key of one password rejects what that of another encrypts. -/
theorem rejects_of_tag_ne {key other : MasterKey} (differ : tag key ≠ tag other) :
    Rejects key other := by
  intro nonce aad message ciphertext encrypted
  exact (decrypt_encrypt encrypted).trans (if_neg differ)

/-- Every password has a key. -/
theorem derives (v : Vault) (password : String) :
    argon2id (utf8 password) v.header.salt v.header.argon2Params =
      some (digest keyLen (utf8 password)) := rfl

/-- The two passwords tell apart. -/
theorem rejects_passwords : Rejects (digest keyLen (utf8 "q")) (digest keyLen (utf8 "p")) :=
  rejects_of_tag_ne (by decide)

/-- Revoking a granted peer with the password in force is safe. -/
theorem revokes_safely_iff_granted : ∃ origin v,
    Vault.create "v" "" 65536 "p" (identity 1) (draws 1) = .ok origin ∧
    Run "p" origin [⟨.addFile "a" [1, 2, 3], draws 2, true⟩,
      ⟨.grantAccess (identity 2).peerId, draws 3, true⟩] v ∧
    (v.RevokesSafely "p" (identity 2).peerId.signingPublic "q" (draws 4) ↔
      v.isAdmin = false ∨ "q" = "p") := by
  obtain ⟨origin, v, created, run⟩ := exists_granted
  refine ⟨origin, v, created, run, ?_⟩
  refine Run.revokes_safely_iff created run ⟨_, List.mem_singleton.mpr rfl, rfl⟩ (derives v "q")
    (fun _ same => ?_) (fun kek derived _ => ?_) (draws 4)
  · exact absurd (Option.some.inj ((derives v "p").symm.trans same)) (by decide)
  · rw [← Option.some.inj ((derives v "p").symm.trans derived)]
    exact rejects_passwords

/-- Revoking a peer with a wrong password succeeds and locks the admin out. -/
theorem revoked_with_wrong_password : ∃ origin v v',
    Vault.create "v" "" 65536 "p" (identity 1) (draws 1) = .ok origin ∧
    Run "p" origin [⟨.addFile "a" [1, 2, 3], draws 2, true⟩,
      ⟨.grantAccess (identity 2).peerId, draws 3, true⟩] v ∧
    Vault.revokeAccess (identity 2).peerId.signingPublic "q" (draws 4) v = .ok () v' ∧
    ∀ opener, ∃ fault, Vault.openWithPassword v'.file "p" opener = .error fault := by
  obtain ⟨origin, v, created, run⟩ := exists_granted
  obtain ⟨d, files, healthy⟩ := run.healthy created
  obtain ⟨admin, authorized⟩ := Option.isSome_iff_exists.mp
    (Run.isAdmin created (show Run _ _ ([_] ++ [_]) _ from run) rfl rfl)
  have present := (healthy.keyring.hasSigner_iff _).mpr ⟨_, List.mem_singleton.mpr rfl, rfl⟩
  have derived : MasterKey.derive (utf8 "q") v.header.salt v.header.argon2Params =
      .ok (digest keyLen (utf8 "q")) := rfl
  obtain ⟨v', slotIdx, d', ran, _, _, revokes, _⟩ :=
    Vault.revokeAccess_eq healthy.sound authorized present derived (draws 4)
  exact ⟨origin, v, v', created, run, ran,
    revokes.locked_out (derives v "p") (derives v "q") rejects_passwords⟩

end Transparent

end ReVault
