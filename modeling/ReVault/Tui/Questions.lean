import ReVault.Device.Removal
import ReVault.Tui.Containers

/-!
# Questions that are answered

The interface asks before it deletes a file or revokes a peer. What it asks about is still
there when the question is answered, so the admin's answer always does what the question
says, and that alone; on another's handle nothing happens but the error that is shown.
-/

namespace ReVault.Tui

open Foundation Primitives

variable [Primitives]

namespace UnlockedState

/-- A deletion is confirmed: the file is gone from the list, and no other. -/
def Deletes (state : UnlockedState) (name : String) (state' : UnlockedState) : Prop :=
  state'.deleteConfirm = none ∧
    if state.vault.isAdmin then
      state'.files = state.files.filter (fun file => file.name ≠ name) ∧
        state'.recipients = state.recipients ∧ state'.message = some (.deleted name)
    else
      state'.vault = state.vault ∧ state'.files = state.files ∧
        state'.recipients = state.recipients ∧
        state'.message = some (.failed (.vault (.error .notAuthorized)))

/-- A revocation is confirmed: the peer is gone from the list, and no other. -/
def Revokes (state : UnlockedState) (target : PeerId) (error : Option FormError)
    (state' : UnlockedState) : Prop :=
  if state.vault.isAdmin then
    error = none ∧ state'.files = state.files ∧
      state'.recipients.map (fun info => info.peerId) =
        (state.recipients.map fun info => info.peerId).filter fun peer =>
          peer.signingPublic ≠ target.signingPublic
  else error = some (.vault (.error .notAuthorized)) ∧ state' = state

variable [Lawful] {passwords : List String} {state : UnlockedState}

/-- **A deletion** that is asked about. -/
theorem Current.deletes (current : state.Current passwords) {name : String}
    (asks : state.deleteConfirm = some name) (draws : Draws) :
    state.Deletes name (state.confirmDelete draws name) := by
  obtain ⟨account, password, origin, trace, descends, _⟩ := current.account
  have descends' : ({ state with deleteConfirm := none } : UnlockedState).toUnlockedState.Descends
      account password origin trace := descends
  have outcome := attempt_eq descends' (.delete name draws) (by rintro _ _ _ ⟨⟩)
  rw [Unlocked.perform, Account.perform] at outcome
  rw [Deletes, UnlockedState.confirmDelete, Vault.isAdmin]
  cases authorized : state.vault.adminIdentity with
  | none =>
      rw [authorized] at outcome
      simp [Account.attempt] at outcome
      simp [outcome]
  | some admin =>
      obtain ⟨file, listed, rfl⟩ := current.deleting name asks
      have shown := Except.ok.inj (current.files.symm.trans descends.holds.shows.lists)
      obtain ⟨next, deleted, rest⟩ := descends.holds.distinct.deleteFile (shown ▸ listed)
      have accepted : account.ledger.apply (.deleteFile file.name) draws = .ok next := deleted
      obtain ⟨next', applied, rfl⟩ := Account.attempt_of_ok accepted admin
      rw [authorized, applied] at outcome
      obtain ⟨core, trace', _, attempted, descends', _⟩ := outcome
      have listed' := descends'.holds.shows.lists
      rw [rest, ← shown] at listed'
      rw [attempted]
      simp only [refreshFiles_of_ok
        { state with toUnlockedState := core, deleteConfirm := none } listed']
      simp

/-- **A revocation** that is asked about. -/
theorem Current.revokes (current : state.Current passwords) (apart : PasswordsApart passwords)
    {target : PeerId} (listed : ∃ info ∈ state.recipients, info.peerId = target)
    {password : String} (known : password ∈ passwords) (draws : Draws) :
    state.Revokes target (state.submitRevoke draws target password).1
      (state.submitRevoke draws target password).2 := by
  obtain ⟨account, _, _, _, descends, _⟩ := current.account
  have outcome := attempt_eq descends (.revoke target password draws) (by
    rintro _ _ _ ⟨⟩
    exact apart.derives _ password known)
  rw [Unlocked.perform, Account.perform] at outcome
  rw [Revokes, submitRevoke, UnlockedState.attemptShare, Vault.isAdmin]
  cases authorized : state.vault.adminIdentity with
  | none =>
      rw [authorized] at outcome
      simp only [Account.attempt] at outcome
      simp [outcome]
  | some admin =>
      obtain ⟨infos, shows, peers⟩ := descends.holds.shows.recipients
      obtain rfl := Except.ok.inj (current.recipients.symm.trans shows)
      obtain ⟨info, member, rfl⟩ := listed
      have member' : info.peerId ∈ account.ledger.listRecipients :=
        peers ▸ List.mem_map.mpr ⟨info, member, rfl⟩
      obtain ⟨next, revoked, rest⟩ := descends.holds.distinct.revokeAccess member'
      have accepted : account.ledger.apply
          (.revokeAccess info.peerId.signingPublic password) draws = .ok next := revoked
      obtain ⟨next', applied, rfl⟩ := Account.attempt_of_ok accepted admin
      rw [authorized, applied] at outcome
      obtain ⟨core, trace', _, attempted, descends', _⟩ := outcome
      obtain ⟨infos', shows', peers'⟩ := descends'.holds.shows.recipients
      rw [rest, ← peers] at peers'
      rw [attempted]
      simp only [refreshRecipients_of_ok { state with toUnlockedState := core } shows']
      simp [peers']

end UnlockedState

/-! ## The interface -/

namespace App

variable {SocketAddr : Type} [SocketAddress SocketAddr] {passwords : List String}
  {world : App × FileSystem} {state : UnlockedState}

variable [Lawful] (current : Current passwords world)
  (unlocked : world.1.vaults.mode = .unlocked state) (env : Environment SocketAddr)

include current unlocked

end App

end ReVault.Tui

namespace ReVault.Transparent

open Foundation Primitives Tui

end ReVault.Transparent
