import ReVault.Foundation.Runs
import ReVault.Runs.Creation

/-!
# The steps of a run

The operations a handle can be asked for, and what each does to a sound vault when it
is accepted. An operation that is refused changes nothing.
-/

namespace ReVault

open Foundation Primitives

/-- The operations of a run. Reopening drops the handle and opens the container again
with the password in force. -/
inductive Op where
  | addFile (name : String) (data : Bytes)
  | updateFile (name : String) (data : Bytes)
  | deleteFile (name : String)
  | readFile (name : String)
  | listFiles
  | grantAccess (peer : PeerId)
  | revokeAccess (signingPubkey : ByteArr 32) (password : String)
  | takeChangeLog
  | reopen (identity : Identity)
  deriving DecidableEq

/-- The operations that only the admin may carry out. -/
def Op.mutates : Op → Bool
  | addFile _ _ | updateFile _ _ | deleteFile _ | grantAccess _ | revokeAccess _ _ => true
  | readFile _ | listFiles | takeChangeLog | reopen _ => false

/-- The kind of record that an operation appends to the chain. -/
def Op.chainOp : Op → Option ChainOp
  | addFile _ _ => some .fileAdded
  | updateFile _ _ => some .fileUpdated
  | deleteFile _ => some .fileDeleted
  | grantAccess _ => some .accessGranted
  | revokeAccess _ _ => some .keyRotated
  | readFile _ | listFiles | takeChangeLog | reopen _ => none

/-- The operations that draw a new content key. -/
def Op.rotates (op : Op) : Bool := op.chainOp == some .keyRotated

/-- The operations that write a record are the mutations. -/
theorem Op.isSome_chainOp (op : Op) : op.chainOp.isSome = op.mutates := by
  cases op <;> rfl

/-- A step of a run: the operation, what it drew and whether it was accepted. -/
structure Step where
  op : Op
  draws : Draws
  accepted : Bool

variable [Primitives]

namespace Vault

/-- Drops the handle and opens its container again. -/
def reopen (password : String) (identity : Identity) : VaultM Unit := do
  let opened ← observe fun v => openWithPassword v.file password identity
  modify fun v => { opened with seals := v.seals }

end Vault

/-- Carries out an operation, with the password in force. -/
def Op.exec (password : String) (draws : Draws) : Op → VaultM Unit
  | addFile name data => Vault.addFile name data draws
  | updateFile name data => Vault.updateFile name data draws
  | deleteFile name => Vault.deleteFile name draws
  | readFile name => observe (fun v => v.readFile name) >>= fun _ => pure ()
  | listFiles => observe (fun v => v.listFiles) >>= fun _ => pure ()
  | grantAccess peer => Vault.grantAccess peer draws
  | revokeAccess signingPubkey password => Vault.revokeAccess signingPubkey password draws
  | takeChangeLog => modify fun v => v.takeChangeLog.2
  | reopen identity => Vault.reopen password identity

/-- What an accepted operation does to a vault, its disk and its stored files. -/
inductive Took (draws : Draws) (v : Vault) (d : Disk) (files : Files) :
    Op → Vault → Disk → Files → Prop
  | added {name : String} {data : Bytes} {admin : Identity} {idx : Nat} {v' : Vault} {d' : Disk}
      (authorized : v.adminIdentity = some admin) (can : v.CanAdd files name data.length)
      (vacant : files idx = none)
      (stores : Vault.StoresFile v v' d d' files idx
        (v.placedFile draws.fileId name draws.slotTime draws.slotTime data)
        (signedRecord v admin .fileAdded draws.fileId (sha256 data) draws.recordTime)) :
      Took draws v d files (.addFile name data) v' d' (Function.update files idx
        (some (v.placedFile draws.fileId name draws.slotTime draws.slotTime data)))
  | updated {name : String} {data : Bytes} {admin : Identity} {idx : Nat} {old : StoredFile}
      {all : List UInt64} {v' : Vault} {d' : Disk}
      (authorized : v.adminIdentity = some admin) (present : files.Present name idx old)
      (perm : all.Perm old.blocks)
      (planned : v.planUpdate name data.length = .ok (idx, old.entry, all))
      (stores : Vault.StoresFile v v' d d' files idx
        ((v.released all).placedFile old.entry.id name old.entry.createdAt draws.slotTime data)
        (signedRecord v admin .fileUpdated old.entry.id (sha256 data) draws.recordTime)) :
      Took draws v d files (.updateFile name data) v' d' (Function.update files idx
        (some ((v.released all).placedFile old.entry.id name old.entry.createdAt draws.slotTime
          data)))
  | deleted {name : String} {admin : Identity} {idx : Nat} {old : StoredFile} {v' : Vault}
      {d' : Disk} (authorized : v.adminIdentity = some admin)
      (present : files.Present name idx old)
      (deletes : Vault.Deletes v v' d d' files idx
        (signedRecord v admin .fileDeleted old.entry.id (sha256 (utf8 name)) draws.recordTime)) :
      Took draws v d files (.deleteFile name) v' d' (Function.update files idx none)
  | granted {peer : PeerId} {admin : Identity} {idx : Nat} {v' : Vault} {d' : Disk}
      (authorized : v.adminIdentity = some admin)
      (fresh : ¬ d.HasSigner v.header peer.signingPublic)
      (inTable : idx < v.header.maxRecipients.toNat)
      (vacant : (d.recipients idx).isOccupied = false)
      (grants : Vault.Grants v v' d d' files idx peer
        (signedRecord v admin .accessGranted (peerTargetId peer.signingPublic)
          (sha256Concat [peer.signingPublic.toList, peer.encryptionPublic.toList])
          draws.recordTime)) :
      Took draws v d files (.grantAccess peer) v' d' files
  | revoked {signingPubkey : ByteArr 32} {password : String} {admin : Identity} {idx : Nat}
      {v' : Vault} {d' : Disk} (authorized : v.adminIdentity = some admin)
      (occupies : d.Occupies v.header idx)
      (signer : (d.recipients idx).signingPubkey = signingPubkey)
      (revokes : Vault.Revokes v v' d d' files idx draws.dek password
        (signedRecord v admin .keyRotated (peerTargetId signingPubkey)
          (sha256 signingPubkey.toList) draws.recordTime)) :
      Took draws v d files (.revokeAccess signingPubkey password) v' d' files
  | readFile (name : String) : Took draws v d files (.readFile name) v d files
  | listFiles : Took draws v d files .listFiles v d files
  | takeChangeLog : Took draws v d files .takeChangeLog v.takeChangeLog.2 d files
  | reopened (identity : Identity) : Took draws v d files (.reopen identity)
      { v.reopened (if identity.peerId.signingPublic = v.header.adminSigningPubkey
          then some identity else none) with seals := v.seals } d files

section Unauthorized

variable {v : Vault} (unauthorized : v.adminIdentity = none)

include unauthorized

/-- Without the admin's identity every mutation is refused. -/
theorem Op.exec_unauthorized (password : String) (draws : Draws) {op : Op}
    (mutates : op.mutates = true) :
    op.exec password draws v = .error (.error .notAuthorized) v := by
  have refused := Vault.requireAdmin_refused unauthorized
  have located : ∀ name, v.locate name = .error (.error .notAuthorized) := fun name => by
    unfold Vault.locate
    exact except_bind_of_error refused
  have planned : ∀ key, v.planRevocation key = .error (.error .notAuthorized) := fun key => by
    unfold Vault.planRevocation
    exact except_bind_of_error refused
  cases op with
  | addFile name data =>
      have slot : v.slotForNew name = .error (.error .notAuthorized) := by
        unfold Vault.slotForNew
        exact except_bind_of_error refused
      exact observe_bind_of_error slot
  | updateFile name data =>
      have update : v.planUpdate name data.length = .error (.error .notAuthorized) := by
        unfold Vault.planUpdate
        exact except_bind_of_error (located name)
      exact observe_bind_of_error update
  | deleteFile name => exact observe_bind_of_error (located name)
  | grantAccess peer =>
      have slot : v.slotForPeer peer = .error (.error .notAuthorized) := by
        unfold Vault.slotForPeer
        exact except_bind_of_error refused
      exact observe_bind_of_error slot
  | revokeAccess signingPubkey password =>
      exact bind_of_error (observe_bind_of_error (planned signingPubkey))
  | readFile name => cases mutates
  | listFiles => cases mutates
  | takeChangeLog => cases mutates
  | reopen identity => cases mutates

end Unauthorized

section Exec

variable {v : Vault} {d : Disk} {files : Files}

omit [Primitives] in
/-- A read leaves the handle as it is, whether it succeeds or not. -/
private theorem read_yields {α : Type} {read : Vault → Except Fault α}
    {post : Unit → Vault → Prop} (kept : post () v) :
    Yields (observe read >>= fun _ => pure ()) v post
      (fun fault v' => fault.refusal = true → v' = v) := by
  cases outcome : read v with
  | ok value => exact Yields.of_ok (bind_of_ok (observe_of_ok outcome)) kept
  | error fault => exact Yields.of_error (observe_bind_of_error outcome) fun _ => rfl

/-- **One step.** An accepted operation does what it is for; a refused one nothing. -/
theorem Op.exec_yields [Lawful] (sound : Sound v d files) {password : String}
    (wraps : WrapsForPassword v.header password v.key) (op : Op) (draws : Draws) :
    Yields (op.exec password draws) v
      (fun _ v' => ∃ d' files', Took draws v d files op v' d' files')
      (fun fault v' => fault.refusal = true → v' = v) := by
  by_cases mutates : op.mutates = true
  · cases authorized : v.adminIdentity with
    | none =>
        exact Yields.of_error (op.exec_unauthorized authorized password draws mutates)
          fun _ => rfl
    | some admin =>
        cases op with
        | addFile name data =>
            refine (Vault.addFile_yields sound authorized name data draws).mono ?_ ?_
            · rintro _ v' ⟨can, idx, d', vacant, stores, _⟩
              exact ⟨d', _, Took.added authorized can vacant stores⟩
            · rintro fault v' (⟨refused, _⟩ | ⟨rfl, _⟩) refusal
              · exact refused.2
              · cases refusal
        | updateFile name data =>
            refine (Vault.updateFile_yields sound authorized name data draws).mono ?_ ?_
            · rintro _ v' ⟨_, idx, old, all, d', present, perm, planned, stores, _⟩
              exact ⟨d', _, Took.updated authorized present perm planned stores⟩
            · rintro fault v' (⟨refused, _⟩ | ⟨rfl, _⟩) refusal
              · exact refused.2
              · cases refusal
        | deleteFile name =>
            refine (Vault.deleteFile_yields sound authorized name draws).mono ?_ ?_
            · rintro _ v' ⟨idx, old, d', present, deletes, _⟩
              exact ⟨d', _, Took.deleted authorized present deletes⟩
            · exact fun fault v' refused _ => refused.1.2
        | grantAccess peer =>
            refine (Vault.grantAccess_yields sound authorized peer draws).mono ?_ ?_
            · rintro _ v' ⟨fresh, idx, d', inTable, vacant, grants⟩
              exact ⟨d', _, Took.granted authorized fresh inTable vacant grants⟩
            · exact fun fault v' refused _ => refused.1
        | revokeAccess signingPubkey password' =>
            refine (Vault.revokeAccess_yields sound authorized signingPubkey password'
              draws).mono ?_ ?_
            · rintro _ v' ⟨idx, d', occupies, signer, revokes, _⟩
              exact ⟨d', _, Took.revoked authorized occupies signer revokes⟩
            · rintro fault v' (⟨_, kept, _⟩ | ⟨rfl, _⟩) refusal
              · exact kept
              · cases refusal
        | readFile name => cases mutates
        | listFiles => cases mutates
        | takeChangeLog => cases mutates
        | reopen identity => cases mutates
  · cases op with
    | readFile name => exact read_yields ⟨d, files, Took.readFile name⟩
    | listFiles => exact read_yields ⟨d, files, Took.listFiles⟩
    | takeChangeLog => exact Yields.of_ok rfl ⟨d, files, Took.takeChangeLog⟩
    | reopen identity =>
        have opened := sound.openWithPassword_eq wraps identity
        have observed : observe (fun v => Vault.openWithPassword v.file password identity) v =
            .ok _ v := observe_of_ok opened
        exact Yields.of_ok ((bind_of_ok observed).trans (modify_apply _ _))
          ⟨d, files, Took.reopened identity⟩
    | _ => exact absurd rfl mutates

end Exec

/-! ## What every accepted operation keeps -/

namespace Took

variable {draws : Draws} {op : Op} {v v' : Vault} {d d' : Disk} {files files' : Files}

/-- A mutation appends a signed record of its kind. -/
theorem commits_as (took : Took draws v d files op v' d' files') {chainOp : ChainOp}
    (appends : op.chainOp = some chainOp) :
    ∃ admin targetId dataHash timestamp, v.adminIdentity = some admin ∧
      Commits v v' d d' (signedRecord v admin chainOp targetId dataHash timestamp) := by
  cases took with
  | added authorized _ _ stores =>
      cases appends
      exact ⟨_, _, _, _, authorized, stores.commits⟩
  | updated authorized _ _ _ stores =>
      cases appends
      exact ⟨_, _, _, _, authorized, stores.commits⟩
  | deleted authorized _ deletes =>
      cases appends
      exact ⟨_, _, _, _, authorized, deletes.commits⟩
  | granted authorized _ _ _ grants =>
      cases appends
      exact ⟨_, _, _, _, authorized, grants.commits⟩
  | revoked authorized _ _ revokes =>
      cases appends
      exact ⟨_, _, _, _, authorized, revokes.commits⟩
  | readFile name => cases appends
  | listFiles => cases appends
  | takeChangeLog => cases appends
  | reopened identity => cases appends

/-- A mutation appends a signed record. -/
theorem commits (took : Took draws v d files op v' d' files') (mutates : op.mutates = true) :
    ∃ admin chainOp targetId dataHash timestamp, v.adminIdentity = some admin ∧
      Commits v v' d d' (signedRecord v admin chainOp targetId dataHash timestamp) := by
  rw [← op.isSome_chainOp] at mutates
  obtain ⟨chainOp, appends⟩ := Option.isSome_iff_exists.mp mutates
  obtain ⟨admin, targetId, dataHash, timestamp, committed⟩ := took.commits_as appends
  exact ⟨admin, chainOp, targetId, dataHash, timestamp, committed⟩

/-- Any other operation leaves the container alone. -/
theorem container (took : Took draws v d files op v' d' files') (reads : op.mutates = false) :
    v'.file = v.file ∧ v'.header = v.header ∧ d' = d ∧ files' = files := by
  cases took with
  | readFile name => exact ⟨rfl, rfl, rfl, rfl⟩
  | listFiles => exact ⟨rfl, rfl, rfl, rfl⟩
  | takeChangeLog => exact ⟨rfl, rfl, rfl, rfl⟩
  | reopened identity => exact ⟨rfl, rfl, rfl, rfl⟩
  | _ => cases reads

/-- An accepted operation keeps the shape of the header. -/
theorem sameShape (took : Took draws v d files op v' d' files') :
    SameShape v.header v'.header := by
  cases mutates : op.mutates with
  | true =>
      obtain ⟨_, _, _, _, _, _, commits⟩ := took.commits mutates
      exact commits.sameShape
  | false =>
      rw [(took.container mutates).2.1]
      exact SameShape.refl _

/-- It keeps the vault sound. -/
theorem sound (took : Took draws v d files op v' d' files') (sound : Sound v d files) :
    Sound v' d' files' := by
  cases took with
  | added _ _ _ stores => exact stores.sound
  | updated _ _ _ _ stores => exact stores.sound
  | deleted _ _ deletes => exact deletes.sound
  | granted _ _ _ _ grants => exact grants.sound
  | revoked _ _ _ revokes => exact revokes.sound
  | readFile name => exact sound
  | listFiles => exact sound
  | takeChangeLog => exact sound.of_container rfl rfl rfl rfl
  | reopened identity => exact sound.of_container rfl rfl rfl rfl

/-- The identity of a handle signs with the key that the header records. -/
theorem admin (took : Took draws v d files op v' d' files')
    (genuine : ∀ identity, v.adminIdentity = some identity →
      identity.peerId.signingPublic = v.header.adminSigningPubkey) :
    ∀ identity, v'.adminIdentity = some identity →
      identity.peerId.signingPublic = v'.header.adminSigningPubkey := by
  have pubkey : v'.header.adminSigningPubkey = v.header.adminSigningPubkey := by
    have shape := took.sameShape
    unfold SameShape at shape
    rw [shape]
  rw [pubkey]
  cases mutates : op.mutates with
  | true =>
      obtain ⟨_, _, _, _, _, _, commits⟩ := took.commits mutates
      rw [commits.adminIdentity]
      exact genuine
  | false =>
      cases took with
      | readFile name => exact genuine
      | listFiles => exact genuine
      | takeChangeLog => exact genuine
      | reopened identity =>
          intro other held
          change (if identity.peerId.signingPublic = v.header.adminSigningPubkey
            then some identity else none) = some other at held
          split at held
          · rename_i same
            cases held
            exact same
          · cases held
      | _ => cases mutates

end Took

end ReVault
