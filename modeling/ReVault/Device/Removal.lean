import ReVault.Device.Descent

/-!
# What is left when something is removed

No two files of an account have one name, and no two peers one signing key. So a file that is
listed can be deleted, a peer that is listed can be revoked, and neither takes another along.
-/

namespace ReVault

open Foundation Primitives

/-- No two files have one name, and no two peers one signing key. -/
structure Ledger.Distinct (ledger : Ledger) : Prop where
  names : ledger.files.Distinct FileRecord.name
  signers : ledger.peers.Distinct PeerId.signingPublic

namespace Ledger.Distinct

variable {ledger : Ledger} (distinct : ledger.Distinct)

include distinct

/-- A file that is listed can be deleted. -/
theorem deleteFile {info : FileInfo} (listed : info ∈ ledger.listFiles) :
    ∃ next, ledger.deleteFile info.name = .ok next ∧
      next.listFiles = ledger.listFiles.filter fun other => other.name ≠ info.name := by
  obtain ⟨record, member, rfl⟩ := List.mem_map.mp listed
  obtain ⟨idx, found, rest⟩ := distinct.names.find_of_mem member
  refine ⟨{ ledger with files := ledger.files.set idx none }, ?_, ?_⟩
  · have held : ledger.findFile record.info.name = some (idx, record) := found
    rw [Ledger.deleteFile, held]
  · rw [listFiles, rest, listFiles, List.filter_map]
    rfl

/-- A peer that is listed can be revoked. -/
theorem revokeAccess {peer : PeerId} (listed : peer ∈ ledger.listRecipients) :
    ∃ next, ledger.revokeAccess peer.signingPublic = .ok next ∧
      next.listRecipients =
        ledger.listRecipients.filter fun other => other.signingPublic ≠ peer.signingPublic := by
  obtain ⟨idx, found, rest⟩ := distinct.signers.find_of_mem listed
  refine ⟨{ ledger with peers := ledger.peers.set idx none }, ?_, rest⟩
  rw [Ledger.revokeAccess, findPeer, found]

end Ledger.Distinct

/-- What the ledger accepts is accepted on the admin's handle. -/
theorem Account.attempt_of_ok {account : Account} {op : Op} {draws : Draws} {next : Ledger}
    (applied : account.ledger.apply op draws = .ok next) (admin : Identity) :
    ∃ next', account.attempt (some admin) op draws = .ok next' ∧ next'.ledger = next := by
  rw [Account.attempt, Account.apply, applied]
  exact ⟨_, rfl, rfl⟩

variable [Primitives]

/-- Nothing is there twice in an account that a vault holds. -/
theorem Vault.Holds.distinct {v : Vault} {account : Account} (holds : v.Holds account) :
    account.ledger.Distinct := by
  obtain ⟨d, files, of⟩ := holds
  obtain ⟨granted, keyring⟩ := of.keyring
  constructor
  · rw [of.ledger.files]
    apply Slots.distinct_tabulate
    intro idx idx' _ _ _ _ held held' same
    obtain ⟨file, found, rfl⟩ := Option.map_eq_some_iff.mp held
    obtain ⟨file', found', rfl⟩ := Option.map_eq_some_iff.mp held'
    exact of.sound.named idx idx' file file' found found' same
  · rw [of.ledger.peers]
    apply Slots.distinct_tabulate
    intro idx idx' _ _ inTable inTable' held held' same
    obtain ⟨occupied, rfl⟩ := RecipientSlot.holder_eq_some.mp held
    obtain ⟨occupied', rfl⟩ := RecipientSlot.holder_eq_some.mp held'
    exact keyring.distinct idx idx' ⟨inTable, occupied⟩ ⟨inTable', occupied'⟩ same

end ReVault
