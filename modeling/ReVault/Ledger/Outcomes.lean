import ReVault.Ledger.Records

/-!
# Operations on a vault and on its ledger

On the admin's handle of a sound vault every operation comes to what it comes to on the
ledger: the same error, with the vault as it was, or a vault that keeps the next ledger.
-/

namespace ReVault

open Foundation Primitives

section

variable [Primitives]

/-- An operation comes to what the ledger says. -/
def Vault.Follows (password : String) (draws : Draws) (v : Vault) (d : Disk) (files : Files)
    (ledger : Ledger) (op : Op) : Prop :=
  match ledger.apply op draws with
  | .ok next => ∃ v' d' files', op.exec password draws v = .ok () v' ∧
      Took draws v d files op v' d' files' ∧ next.Of v'.header d' files'
  | .error error => op.exec password draws v = .error (.error error) v

namespace Vault.Follows

variable {password : String} {draws : Draws} {v v' : Vault} {d d' : Disk}
  {files files' : Files} {ledger next : Ledger} {op : Op}

/-- The ledger accepts, and the vault does. -/
theorem of_ok (applied : ledger.apply op draws = .ok next)
    (ran : op.exec password draws v = .ok () v') (took : Took draws v d files op v' d' files')
    (of : next.Of v'.header d' files') : Vault.Follows password draws v d files ledger op := by
  rw [Vault.Follows, applied]
  exact ⟨v', d', files', ran, took, of⟩

/-- The ledger refuses, and the vault does. -/
theorem of_error {error : VaultError} (applied : ledger.apply op draws = .error error)
    (ran : op.exec password draws v = .error (.error error) v) :
    Vault.Follows password draws v d files ledger op := by
  rw [Vault.Follows, applied]
  exact ran

end Vault.Follows

variable {password : String} {draws : Draws} {v : Vault} {d : Disk} {files : Files}
  {ledger : Ledger} (sound : Sound v d files) (of : ledger.Of v.header d files)
  {admin : Identity} (authorized : v.adminIdentity = some admin)

include sound of authorized

/-- The checks of `add_file` are those of the ledger. -/
theorem Sound.slotForNew_eq (name : String) :
    v.slotForNew name = checked (ledger.slotForNew name) := by
  rw [Vault.slotForNew, Ledger.slotForNew,
    except_bind_of_ok (Vault.requireAdmin_eq authorized)]
  by_cases badName : (utf8 name).length = 0 ∨ (utf8 name).length > maxFilenameLen
  · rw [if_pos badName, if_pos badName]
    rfl
  · rw [if_neg badName, if_neg badName]
    rcases files.absent_or_present name with absent | ⟨idx, file, present⟩
    · rw [except_bind_of_ok (sound.findSlotByName_of_absent absent), of.findFile_of_absent absent]
      simp only [Option.isSome_none, Bool.false_eq_true, ↓reduceIte]
      rw [except_bind_of_ok (sound.findFreeSlot_first of)]
      cases ledger.files.firstFree <;> rfl
    · rw [except_bind_of_ok (sound.findSlotByName_of_present present),
        sound.findFile_of_present of present]
      rfl

/-- The checks of `grant_access` are those of the ledger. -/
theorem Sound.slotForPeer_eq {password : String} {granted : List PeerId}
    (keyring : Keyring v d password granted) (peer : PeerId) :
    v.slotForPeer peer = checked (ledger.slotForPeer peer) := by
  rw [Vault.slotForPeer, Ledger.slotForPeer,
    except_bind_of_ok (Vault.requireAdmin_eq authorized)]
  by_cases present : d.HasSigner v.header peer.signingPublic
  · obtain ⟨idx, found, occupies, signer⟩ :=
      Vault.findRecipientSlot_of_present sound.tracks present
    rw [except_bind_of_ok found, keyring.findPeer_of_occupies of occupies signer]
    rfl
  · rw [except_bind_of_ok (Vault.findRecipientSlot_of_absent sound.tracks present),
      of.findPeer_of_absent present]
    simp only [Option.isSome_none, Bool.false_eq_true, ↓reduceIte]
    rw [except_bind_of_ok (sound.findFreeRecipientSlot_first of)]
    cases ledger.peers.firstFree <;> rfl

omit authorized in
/-- A slot that the ledger finds for a new file is free, and the name is new and fits. -/
theorem Sound.slot_of_slotForNew {name : String} {idx : Nat}
    (found : ledger.slotForNew name = .ok idx) : idx < v.header.maxFiles.toNat ∧
      files idx = none ∧ (utf8 name).length ≤ maxFilenameLen ∧ files.Absent name ∧
      1 ≤ (utf8 name).length := by
  rw [Ledger.slotForNew] at found
  split at found
  · cases found
  · rename_i goodName
    split at found
    · cases found
    · rename_i unknown
      split at found
      · cases found
      · rename_i first free
        cases found
        rw [of.files, Slots.firstFree_tabulate_eq_some] at free
        obtain ⟨inTable, vacant, _⟩ := free
        refine ⟨inTable, by simpa using vacant, by omega, ?_, by omega⟩
        rcases files.absent_or_present name with absent | ⟨other, file, present⟩
        · exact absent
        · simp [sound.findFile_of_present of present] at unknown

omit sound authorized in
/-- A slot that the ledger finds for a peer is free, and no slot has the signing key. -/
theorem Keyring.slot_of_slotForPeer {password : String} {granted : List PeerId}
    (keyring : Keyring v d password granted) {peer : PeerId} {idx : Nat}
    (found : ledger.slotForPeer peer = .ok idx) : idx < v.header.maxRecipients.toNat ∧
      (d.recipients idx).isOccupied = false ∧ ¬ d.HasSigner v.header peer.signingPublic := by
  rw [Ledger.slotForPeer] at found
  split at found
  · cases found
  · rename_i unknown
    split at found
    · cases found
    · rename_i first free
      cases found
      rw [of.peers, Slots.firstFree_tabulate_eq_some] at free
      refine ⟨free.1, by simpa using free.2.1, ?_⟩
      rintro ⟨other, occupies, signer⟩
      simp [keyring.findPeer_of_occupies of occupies signer] at unknown

/-! ## One operation after the other -/

section Files

variable [Lawful] (size : v.header.blockSize = defaultBlockSize) (fits : v.header.Fits)

include size fits

/-- Adding a file. -/
theorem Sound.addFile_follows (name : String) (data : Bytes) :
    Vault.Follows password draws v d files ledger (.addFile name data) := by
  have checks := sound.slotForNew_eq of authorized name
  have applied : ledger.apply (.addFile name data) draws = (ledger.slotForNew name >>= _) := rfl
  cases found : ledger.slotForNew name with
  | error error =>
      rw [found] at checks
      exact Vault.Follows.of_error (applied.trans (except_bind_of_error found))
        (observe_bind_of_error checks)
  | ok idx =>
      rw [found] at checks
      rw [except_bind_of_ok found] at applied
      obtain ⟨inTable, vacant, named, absent, long⟩ :=
        sound.slot_of_slotForNew of found
      by_cases short : ledger.free < blocksOfSize data.length
      · rw [if_pos short] at applied
        apply Vault.Follows.of_error applied
        rw [sound.free_eq_freeCount of size, ← Header.blocksFor_eq size] at short ⊢
        rw [Ledger.shortage, ← size]
        exact Vault.addFile_of_short sound checks short draws
      · rw [if_neg short] at applied
        rw [sound.free_eq_freeCount of size, ← Header.blocksFor_eq size, Nat.not_lt] at short
        obtain ⟨_, v', ran, d', stores, _⟩ := (Vault.addFile_of_slot sound checks authorized
          inTable vacant named absent short draws).exists_ok fun _ _ failed => failed.2 fits
        apply Vault.Follows.of_ok applied ran (Took.added authorized
          ⟨⟨long, named⟩, absent, ⟨idx, inTable, vacant⟩, short⟩ vacant stores)
        exact (of.setFile idx (some (v.placedFile draws.fileId name draws.slotTime draws.slotTime
          data))).of_sameShape stores.commits.sameShape stores.keepsKeys.recipients

/-- Updating a file. -/
theorem Sound.updateFile_follows (name : String) (data : Bytes) :
    Vault.Follows password draws v d files ledger (.updateFile name data) := by
  rcases files.absent_or_present name with absent | ⟨idx, old, present⟩
  · have failed : v.planUpdate name data.length = .error (.error (.fileNotFound name)) :=
      except_bind_of_error (Vault.locate_of_absent sound authorized absent)
    have applied : ledger.apply (.updateFile name data) draws = .error (.fileNotFound name) := by
      simp only [Ledger.apply, Ledger.updateFile, of.findFile_of_absent absent]
    exact Vault.Follows.of_error applied (observe_bind_of_error failed)
  · obtain ⟨all, perm, planned⟩ := Vault.planUpdate_of_present sound authorized present
    have own : all.length = blocksOfSize old.data.length := by
      rw [perm.length_eq, (sound.stored idx old present.1).length_blocks,
        Header.blocksFor_eq size]
    have found := sound.findFile_of_present of present
    by_cases short : ledger.free + blocksOfSize old.data.length < blocksOfSize data.length
    · have applied : ledger.apply (.updateFile name data) draws = .error (Ledger.shortage
          (blocksOfSize data.length) (ledger.free + blocksOfSize old.data.length)) := by
        simp only [Ledger.apply, Ledger.updateFile, found]
        exact if_pos short
      apply Vault.Follows.of_error applied
      have refused := planned data.length
      rw [Header.blocksFor_eq size, own, ← sound.free_eq_freeCount of size, if_pos short,
        Vault.insufficientSpace, size] at refused
      exact observe_bind_of_error refused
    · have can : v.CanUpdate files name data.length := by
        refine ⟨idx, old, present, ?_⟩
        rw [Header.blocksFor_eq size, ← perm.length_eq, own, ← sound.free_eq_freeCount of size]
        exact Nat.not_lt.mp short
      obtain ⟨_, v', ran, _, idx', old', all', d', present', perm', planned', stores, _⟩ :=
        (Vault.updateFile_yields sound authorized name data draws).exists_ok (by
          rintro _ _ (⟨_, cannot⟩ | ⟨_, misfit⟩)
          · exact cannot can
          · exact misfit fits)
      have found' := sound.findFile_of_present of present'
      rw [found, Option.some.injEq, Prod.mk.injEq] at found'
      obtain ⟨rfl, sameRecord⟩ := found'
      have applied : ledger.apply (.updateFile name data) draws = .ok { ledger with
          files := ledger.files.set idx (some { old.record with
            data := data
            modifiedAt := draws.slotTime }) } := by
        simp only [Ledger.apply, Ledger.updateFile, found]
        exact if_neg short
      apply Vault.Follows.of_ok applied ran
        (Took.updated authorized present' perm' planned' stores)
      have next := (of.setFile idx (some ((v.released all').placedFile old'.entry.id name
        old'.entry.createdAt draws.slotTime data))).of_sameShape stores.commits.sameShape
        stores.keepsKeys.recipients
      have record : StoredFile.record ((v.released all').placedFile old'.entry.id name
          old'.entry.createdAt draws.slotTime data) = { old.record with
            data := data
            modifiedAt := draws.slotTime } := by
        rw [sameRecord, ← present'.2]
        rfl
      simpa [record] using next

end Files

/-- Deleting a file. -/
theorem Sound.deleteFile_follows [Lawful] (name : String) :
    Vault.Follows password draws v d files ledger (.deleteFile name) := by
  rcases files.absent_or_present name with absent | ⟨idx, old, present⟩
  · have applied : ledger.apply (.deleteFile name) draws = .error (.fileNotFound name) := by
      simp only [Ledger.apply, Ledger.deleteFile, of.findFile_of_absent absent]
    exact Vault.Follows.of_error applied
      (observe_bind_of_error (Vault.locate_of_absent sound authorized absent))
  · obtain ⟨_, v', ran, idx', old', d', present', deletes, _⟩ :=
      (Vault.deleteFile_yields sound authorized name draws).exists_ok fun _ _ failed =>
        failed.2 idx old present.1 present.2
    have applied : ledger.apply (.deleteFile name) draws =
        .ok { ledger with files := ledger.files.set idx' none } := by
      simp only [Ledger.apply, Ledger.deleteFile, sound.findFile_of_present of present']
    apply Vault.Follows.of_ok applied ran (Took.deleted authorized present' deletes)
    exact (of.setFile idx' none).of_sameShape deletes.commits.sameShape
      deletes.keepsKeys.recipients

section Peers

variable [Lawful] {current : String} {granted : List PeerId} (keyring : Keyring v d current granted)

include keyring

/-- Granting access. -/
theorem Sound.grantAccess_follows (peer : PeerId) :
    Vault.Follows password draws v d files ledger (.grantAccess peer) := by
  have checks := sound.slotForPeer_eq of authorized keyring peer
  have applied : ledger.apply (.grantAccess peer) draws = (ledger.slotForPeer peer >>= _) := rfl
  cases found : ledger.slotForPeer peer with
  | error error =>
      rw [found] at checks
      exact Vault.Follows.of_error (applied.trans (except_bind_of_error found))
        (observe_bind_of_error checks)
  | ok idx =>
      rw [found] at checks
      rw [except_bind_of_ok found] at applied
      obtain ⟨inTable, vacant, fresh⟩ := keyring.slot_of_slotForPeer of found
      obtain ⟨v', d', ran, grants⟩ :=
        Vault.grantAccess_of_slot sound authorized checks inTable draws
      obtain ⟨slot, samePeer, occupied, _, recipients⟩ := grants.recipients
      apply Vault.Follows.of_ok applied ran (Took.granted authorized fresh inTable vacant grants)
      refine Ledger.Of.of_sameShape (d := d') (of.setPeer idx ?_ ?_) grants.commits.sameShape rfl
      · rw [recipients, Function.update_self]
        exact RecipientSlot.holder_eq_some.mpr ⟨occupied, samePeer⟩
      · intro other _ different
        rw [recipients, Function.update_of_ne different]

/-- Revoking access. -/
theorem Sound.revokeAccess_follows (signingPubkey : ByteArr 32) (password' : String)
    (derives : argon2id (utf8 password') v.header.salt v.header.argon2Params ≠ none) :
    Vault.Follows password draws v d files ledger (.revokeAccess signingPubkey password') := by
  have outcome := Vault.revokeAccess_yields sound authorized signingPubkey password' draws
  by_cases present : d.HasSigner v.header signingPubkey
  · obtain ⟨_, v', ran, idx, d', occupies, signer, revokes, _⟩ := outcome.exists_ok (by
      rintro _ _ (⟨_, _, absent⟩ | ⟨_, _, derivesNone, _⟩)
      · exact absent present
      · exact derives derivesNone)
    have applied : ledger.apply (.revokeAccess signingPubkey password') draws =
        .ok { ledger with peers := ledger.peers.set idx none } := by
      simp only [Ledger.apply, Ledger.revokeAccess,
        keyring.findPeer_of_occupies of occupies signer]
    apply Vault.Follows.of_ok applied ran (Took.revoked authorized occupies signer revokes)
    refine Ledger.Of.of_sameShape (d := d') (of.setPeer idx ?_ ?_) revokes.commits.sameShape rfl
    · rw [revokes.dropped]
      rfl
    · intro other inTable different
      exact (revokes.others other inTable different).holder_eq
  · have applied : ledger.apply (.revokeAccess signingPubkey password') draws =
        .error .accessNotGranted := by
      simp only [Ledger.apply, Ledger.revokeAccess, of.findPeer_of_absent present]
    have refused := Vault.planRevocation_refused sound authorized present
    exact Vault.Follows.of_error applied (bind_of_error (observe_bind_of_error refused))

end Peers

/-- **One operation.** Whatever is asked of the admin's handle comes to what the ledger says,
when a key derives from the password that a revocation is given. -/
theorem Sound.follows [Lawful] (size : v.header.blockSize = defaultBlockSize)
    (fits : v.header.Fits) {current : String} {granted : List PeerId}
    (keyring : Keyring v d current granted) (op : Op)
    (derives : ∀ signingPubkey password', op = .revokeAccess signingPubkey password' →
      argon2id (utf8 password') v.header.salt v.header.argon2Params ≠ none) :
    Vault.Follows current draws v d files ledger op := by
  cases op with
  | addFile name data => exact sound.addFile_follows of authorized size fits name data
  | updateFile name data => exact sound.updateFile_follows of authorized size fits name data
  | deleteFile name => exact sound.deleteFile_follows of authorized name
  | grantAccess peer => exact sound.grantAccess_follows of authorized keyring peer
  | revokeAccess signingPubkey password' =>
      exact sound.revokeAccess_follows of authorized keyring signingPubkey password'
        (derives signingPubkey password' rfl)
  | readFile name =>
      have read : ledger.apply (.readFile name) draws =
        (ledger.readFile name).map fun _ => ledger := rfl
      rcases files.absent_or_present name with absent | ⟨idx, file, present⟩
      · rw [Ledger.readFile, of.findFile_of_absent absent] at read
        exact Vault.Follows.of_error read
          (observe_bind_of_error (sound.readFile_of_absent absent))
      · rw [Ledger.readFile, sound.findFile_of_present of present] at read
        exact Vault.Follows.of_ok read
          (bind_of_ok (observe_of_ok (sound.readFile_of_present present))) (Took.readFile name) of
  | listFiles =>
      exact Vault.Follows.of_ok rfl (bind_of_ok (observe_of_ok sound.listFiles_eq))
        Took.listFiles of
  | takeChangeLog => exact Vault.Follows.of_ok rfl rfl Took.takeChangeLog of
  | reopen identity =>
      have opened := sound.openWithPassword_eq keyring.password identity
      have observed : observe (fun v => Vault.openWithPassword v.file current identity) v =
          .ok _ v := observe_of_ok opened
      exact Vault.Follows.of_ok rfl ((bind_of_ok observed).trans (modify_apply _ _))
        (Took.reopened identity) of

end

end ReVault
