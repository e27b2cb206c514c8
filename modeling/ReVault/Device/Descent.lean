import ReVault.Device.Handle
import ReVault.Runs.Course
import ReVault.Runs.Ghosts
import ReVault.Serving.Unlocked

/-!
# Where handles come from

A handle that the program gets on one of its containers is reached by operations from the
creation of the container, so whatever holds of runs holds of it. An unlocked vault is such
a handle with a journal, and each act on it comes to what the account says.
-/

namespace ReVault

open Foundation Primitives

/-! ## Acts on an account -/

namespace Account

/-- What an operation comes to, on the admin's handle and on another's. -/
def attempt (identity : Option Identity) (op : Op) (draws : Draws) (account : Account) :
    Except FormError Account :=
  match identity with
  | none => .error (.vault (.error .notAuthorized))
  | some _ =>
      match account.apply op draws with
      | .ok next => .ok next
      | .error error => .error (.vault (.error error))

/-- The password in force after an operation. -/
theorem password_eq_of_apply {op : Op} {draws : Draws} {account next : Account}
    (applied : account.apply op draws = .ok next) :
    next.password = Step.setsPassword ⟨op, draws, true⟩ account.password := by
  rw [apply] at applied
  cases stepped : account.ledger.apply op draws with
  | error error =>
      rw [stepped] at applied
      cases applied
  | ok ledger =>
      rw [stepped] at applied
      cases applied
      rfl

/-- Grants and revocations leave the files alone. -/
theorem files_of_apply {op : Op} {draws : Draws} {account next : Account}
    (notFile : op.target = none) (applied : account.apply op draws = .ok next) :
    next.ledger.files = account.ledger.files := by
  rw [apply] at applied
  cases stepped : account.ledger.apply op draws with
  | error error =>
      rw [stepped] at applied
      cases applied
  | ok ledger =>
      rw [stepped] at applied
      cases applied
      cases op with
      | addFile name data => cases notFile
      | updateFile name data => cases notFile
      | deleteFile name => cases notFile
      | readFile name =>
          rw [Ledger.apply] at stepped
          cases read : account.ledger.readFile name with
          | error error =>
              rw [read] at stepped
              cases stepped
          | ok data =>
              rw [read] at stepped
              cases stepped
              rfl
      | grantAccess peer =>
          rw [Ledger.apply, Ledger.grantAccess] at stepped
          obtain ⟨idx, _, stepped⟩ := except_bind_eq_ok_iff.mp stepped
          cases stepped
          rfl
      | revokeAccess signingPubkey password =>
          rw [Ledger.apply, Ledger.revokeAccess] at stepped
          split at stepped
          · cases stepped
          · cases stepped
            rfl
      | listFiles => cases stepped; rfl
      | takeChangeLog => cases stepped; rfl
      | reopen identity => cases stepped; rfl

/-- An operation is accepted on the admin's handle only. -/
theorem attempt_eq_ok_iff {identity : Option Identity} {op : Op} {draws : Draws}
    {account next : Account} : account.attempt identity op draws = .ok next ↔
      identity ≠ none ∧ account.apply op draws = .ok next := by
  cases identity with
  | none => simp [attempt]
  | some identity =>
      simp only [attempt]
      cases account.apply op draws <;> simp

/-- What an act comes to. -/
def perform (identity : Option Identity) (account : Account) :
    Unlocked.Act → Except FormError Account
  | .add disk sourcePath destName draws =>
      if sourcePath = "" ∨ destName = "" then .error (.form "Both fields are required")
      else
        match disk sourcePath with
        | none => .error .source
        | some data => account.attempt identity (.addFile destName data) draws
  | .update disk sourcePath targetName draws =>
      if sourcePath = "" then .error (.form "A source path is required")
      else
        match disk sourcePath with
        | none => .error .source
        | some data => account.attempt identity (.updateFile targetName data) draws
  | .delete name draws => account.attempt identity (.deleteFile name) draws
  | .grant none _ => .error .invite
  | .grant (some peer) draws => account.attempt identity (.grantAccess peer) draws
  | .revoke target password draws =>
      account.attempt identity (.revokeAccess target.signingPublic password) draws
  | .startServing | .stopServing | .request _ _ => .ok account

/-- The password changes with a revocation only, to the one it is given. -/
theorem password_of_perform {identity : Option Identity} {act : Unlocked.Act}
    {account next : Account} (performed : account.perform identity act = .ok next) :
    next.password = account.password ∨
      ∃ target draws, act = .revoke target next.password draws := by
  have kept : ∀ op draws, op.rotates = false → account.attempt identity op draws = .ok next →
      next.password = account.password := by
    intro op draws keeps attempted
    rcases password_of_apply (attempt_eq_ok_iff.mp attempted).2 with same | ⟨_, rfl⟩
    · exact same
    · cases keeps
  unfold perform at performed
  split at performed
  · split at performed
    · cases performed
    · split at performed
      · cases performed
      · exact Or.inl (kept _ _ rfl performed)
  · split at performed
    · cases performed
    · split at performed
      · cases performed
      · exact Or.inl (kept _ _ rfl performed)
  · exact Or.inl (kept _ _ rfl performed)
  · cases performed
  · exact Or.inl (kept _ _ rfl performed)
  · rename_i target password draws
    have applied := password_eq_of_apply (attempt_eq_ok_iff.mp performed).2
    exact Or.inr ⟨target, draws, by rw [applied]; rfl⟩
  · cases performed
    exact Or.inl rfl
  · cases performed
    exact Or.inl rfl
  · cases performed
    exact Or.inl rfl

/-- Only file operations change the files. -/
theorem files_of_perform {identity : Option Identity} {act : Unlocked.Act}
    {account next : Account} (notFile : ∀ op draws, Unlocked.actOp act ≠ some (op, draws, true))
    (performed : account.perform identity act = .ok next) :
    next.ledger.files = account.ledger.files := by
  unfold perform at performed
  split at performed
  · rename_i disk sourcePath destName draws
    split at performed
    · cases performed
    · rename_i filled
      split at performed
      · cases performed
      · rename_i data found
        exact absurd (by simp [Unlocked.actOp, filled, found])
          (notFile (.addFile destName data) draws)
  · rename_i disk sourcePath targetName draws
    split at performed
    · cases performed
    · rename_i filled
      split at performed
      · cases performed
      · rename_i data found
        exact absurd (by simp [Unlocked.actOp, filled, found])
          (notFile (.updateFile targetName data) draws)
  · exact absurd rfl (notFile _ _)
  · cases performed
  · exact files_of_apply rfl (attempt_eq_ok_iff.mp performed).2
  · exact files_of_apply rfl (attempt_eq_ok_iff.mp performed).2
  · cases performed
    rfl
  · cases performed
    rfl
  · cases performed
    rfl

end Account

section

variable [Primitives]

/-! ## Handles -/

/-- File operations leave the recipients alone. -/
theorem Vault.Holds.listRecipients_eq [Lawful] {v v' : Vault} {account : Account}
    (holds : v.Holds account) {op : Op} {name : String} (isFile : op.target = some name)
    {draws : Draws} (ran : op.exec account.password draws v = .ok () v') :
    v'.listRecipients = v.listRecipients := by
  obtain ⟨d, files, of⟩ := holds
  obtain ⟨granted, keyring⟩ := of.keyring
  have outcome := Op.exec_yields of.sound keyring.password op draws
  rw [Yields, ran] at outcome
  obtain ⟨d', files', took⟩ := outcome
  have recipients : d'.recipients = d.recipients := by
    cases took with
    | added _ _ _ stores => exact stores.keepsKeys.recipients
    | updated _ _ _ _ stores => exact stores.keepsKeys.recipients
    | deleted _ _ deletes => exact deletes.keepsKeys.recipients
    | _ => cases isFile
  have tracks := (took.sound of.sound).tracks
  have indices : v'.recipientIndices = v.recipientIndices := by
    rw [recipientIndices, recipientIndices, took.sameShape.maxRecipients_eq]
  rw [listRecipients, listRecipients, except_bind_of_ok (keepSlots_eq (readRecipients tracks) _),
    except_bind_of_ok (keepSlots_eq (readRecipients of.sound.tracks) _), recipients, indices]

/-- The operations that lead to a handle from its creation, and the account it holds. -/
structure Vault.Descends (v : Vault) (account : Account) (password : String) (origin : Vault)
    (trace : List Step) : Prop where
  created : ∃ name description capacityBytes admin draws,
    Vault.create name description capacityBytes password admin draws = .ok origin
  run : ∃ seals, Run password origin trace (v.sealing seals)
  inForce : passwordAfter password trace = account.password
  holds : v.Holds account

namespace Vault.Descends

variable [Lawful] {v : Vault} {account : Account} {password : String} {origin : Vault}
  {trace : List Step}

/-- A new container. -/
theorem of_create {name description : String} {capacityBytes : UInt64} {admin : Identity}
    {draws : Draws}
    (created : Vault.create name description capacityBytes password admin draws = .ok origin)
    (small : capacityBytes.toNat < Vault.capacityLimit) :
    origin.Descends (Account.new name description capacityBytes password admin draws) password
      origin [] where
  created := ⟨name, description, capacityBytes, admin, draws, created⟩
  run := ⟨origin.seals, Runs.nil⟩
  inForce := rfl
  holds := (Vault.create_spec created).holds small

variable (descends : v.Descends account password origin trace)

include descends

/-- Opening the container once more. -/
theorem opens (identity : Identity) (draws : Draws) : ∃ w,
    Vault.openWithPassword v.file account.password identity = .ok w ∧ w.file = v.file ∧
      w.Descends account password origin (trace ++ [⟨.reopen identity, draws, true⟩]) ∧
      w.adminIdentity = account.authorize identity ∧ w.changeLog = [] := by
  obtain ⟨w, opened, same, holds, admin, drained⟩ := descends.holds.opens identity
  obtain ⟨seals, run⟩ := descends.run
  refine ⟨w, opened, same, ⟨descends.created, ⟨seals, run.snoc (Takes.of_ok ?_)⟩, ?_, holds⟩,
    admin, drained⟩
  · rw [descends.inForce]
    have found : observe (fun v : Vault => Vault.openWithPassword v.file account.password identity)
        (v.sealing seals) = .ok w (v.sealing seals) := observe_of_ok opened
    exact bind_of_ok found
  · exact (Step.fold_accepted _ _ _ rfl).trans descends.inForce

/-- An operation of the admin. -/
theorem performs {identity : Identity} (authorized : v.adminIdentity = some identity) {op : Op}
    (mutates : op.mutates = true) (draws : Draws)
    (derives : ∀ signingPubkey password, op = .revokeAccess signingPubkey password →
      argon2id (utf8 password) v.header.salt Argon2Params.default ≠ none) :
    match account.apply op draws with
    | .ok next => ∃ v', (∀ password, op.exec password draws v = .ok () v') ∧
        v'.Descends next password origin (trace ++ [⟨op, draws, true⟩]) ∧
        v'.adminIdentity = some identity
    | .error error => ∀ password, op.exec password draws v = .error (.error error) v := by
  have outcome := descends.holds.performs authorized op draws derives
  cases applied : account.apply op draws with
  | error error =>
      rw [applied] at outcome
      intro password
      rw [op.exec_of_mutates mutates password account.password]
      exact outcome
  | ok next =>
      rw [applied] at outcome
      obtain ⟨v', ran, holds, admin⟩ := outcome
      have always : ∀ password, op.exec password draws v = .ok () v' := fun password => by
        rw [op.exec_of_mutates mutates password account.password]
        exact ran
      obtain ⟨seals, run⟩ := descends.run
      obtain ⟨seals', ran'⟩ := (Vault.unrecorded_exec op mutates _ draws).of_ok seals
        (always (passwordAfter password trace))
      refine ⟨v', always, ⟨descends.created, ⟨seals', run.snoc (Takes.of_ok ran')⟩, ?_, holds⟩,
        admin mutates⟩
      rw [Account.password_eq_of_apply applied, ← descends.inForce]
      exact Step.fold_accepted _ _ _ rfl

omit [Lawful] in
/-- Draining the change log. -/
theorem drains (draws : Draws) : v.takeChangeLog.2.Descends account password origin
    (trace ++ [⟨.takeChangeLog, draws, true⟩]) where
  created := descends.created
  run := by
    obtain ⟨seals, run⟩ := descends.run
    exact ⟨seals, run.snoc (Takes.of_ok rfl)⟩
  inForce := (Step.fold_accepted _ _ _ rfl).trans descends.inForce
  holds := by
    obtain ⟨d, files, of⟩ := descends.holds
    exact ⟨d, files, of.of_container rfl rfl rfl rfl of.admin⟩

end Vault.Descends

/-! ## Unlocked vaults -/

/-- A handle with a journal that is good for all past containers, as long as the record numbers
do not wrap. -/
structure UnlockedState.Descends (core : UnlockedState) (account : Account) (password : String)
    (origin : Vault) (trace : List Step) : Prop
    extends core.vault.Descends account password origin trace where
  serving : recordsAfter trace < 2 ^ 64 → ∃ seals,
    Serving password origin trace (core.vault.sealing seals) (Unlocked.journalOf core.network)

/-- What a program on an unlocked vault comes to: another account after at most one more record,
or an error that leaves everything as it is. -/
def UnlockedState.Follows (core : UnlockedState) (program : UnlockedM Unit)
    (spec : Except FormError Account) (password : String) (origin : Vault) (trace : List Step) :
    Prop :=
  match spec with
  | .ok next => ∃ core' trace', GrowsBy 1 trace trace' ∧ program core = .ok () core' ∧
      core'.Descends next password origin trace' ∧
      core'.vault.adminIdentity = core.vault.adminIdentity
  | .error error => program core = .error error core

/-- Programs that do the same come to the same. -/
theorem UnlockedState.Follows.congr {core : UnlockedState} {program program' : UnlockedM Unit}
    {spec : Except FormError Account} {password : String} {origin : Vault} {trace : List Step}
    (follows : core.Follows program spec password origin trace)
    (same : program' core = program core) : core.Follows program' spec password origin trace := by
  unfold UnlockedState.Follows at follows ⊢
  rw [same]
  exact follows

namespace UnlockedState.Descends

open Unlocked

variable [Lawful] {core : UnlockedState} {account : Account} {password : String} {origin : Vault}
  {trace : List Step}

/-- A container that has just been opened. -/
theorem of_opened {v : Vault} (descends : v.Descends account password origin trace)
    (drained : v.changeLog = []) :
    UnlockedState.Descends ⟨v, none⟩ account password origin trace where
  toDescends := descends
  serving := by
    intro _
    obtain ⟨seals, run⟩ := descends.run
    obtain ⟨_, _, _, _, _, created⟩ := descends.created
    exact ⟨seals, Serving.start created run drained journalCapacity⟩

variable (descends : core.Descends account password origin trace)

include descends

omit [Lawful] in
/-- A network session begins or ends. -/
theorem restarts {network : Option PatchJournal}
    (empty : journalOf network = PatchJournal.empty journalCapacity) :
    UnlockedState.Descends ⟨core.vault, network⟩ account password origin trace where
  toDescends := descends.toDescends
  serving := by
    intro short
    obtain ⟨seals, serving⟩ := descends.serving short
    refine ⟨seals, ?_⟩
    rw [empty]
    exact serving.restart journalCapacity

/-- The steps of a turn. -/
theorem turns {steps : List Step} {core' : UnlockedState} {next : Account}
    (vault : core'.vault.Descends next password origin (trace ++ steps))
    (turn : ∀ seals, ∃ seals', Turn password trace (core.vault.sealing seals)
      (journalOf core.network) steps (core'.vault.sealing seals') (journalOf core'.network)) :
    core'.Descends next password origin (trace ++ steps) where
  toDescends := vault
  serving := by
    intro short
    have earlier := (recordsAfter_isPrefix (List.prefix_append trace steps)).trans_lt short
    obtain ⟨seals, serving⟩ := descends.serving earlier
    obtain ⟨seals', turned⟩ := turn seals
    obtain ⟨_, _, _, _, _, created⟩ := descends.created
    exact ⟨seals', serving.turn created earlier turned⟩

section Operation

variable {op : Op} (mutates : op.mutates = true) (draws : Draws)
  (derives : ∀ signingPubkey password, op = .revokeAccess signingPubkey password →
    argon2id (utf8 password) core.vault.header.salt Argon2Params.default ≠ none)

include mutates derives

/-- An operation on an unlocked vault, up to what is made of the handle it leads to. -/
theorem attempts :
    match account.attempt core.vault.adminIdentity op draws with
    | .ok next => ∃ v', (∀ password, op.exec password draws core.vault = .ok () v') ∧
        v'.Descends next password origin (trace ++ [⟨op, draws, true⟩]) ∧
        v'.adminIdentity = core.vault.adminIdentity
    | .error error => ∃ fault, error = .vault fault ∧
        ∀ password, op.exec password draws core.vault = .error fault core.vault := by
  cases authorized : core.vault.adminIdentity with
  | none =>
      change ∃ fault, _ = FormError.vault fault ∧ _
      exact ⟨_, rfl, fun password => Op.exec_unauthorized authorized password draws mutates⟩
  | some identity =>
      simp only [Account.attempt]
      have outcome := descends.toDescends.performs authorized mutates draws derives
      cases applied : account.apply op draws with
      | error error =>
          rw [applied] at outcome
          exact ⟨_, rfl, outcome⟩
      | ok next =>
          rw [applied] at outcome
          exact outcome

/-- A grant or a revocation. -/
theorem onVault (current : String) : core.Follows (Unlocked.onVault (op.exec current draws))
    (account.attempt core.vault.adminIdentity op draws) password origin trace := by
  have outcome := descends.attempts mutates draws derives
  cases attempted : account.attempt core.vault.adminIdentity op draws with
  | error error =>
      rw [attempted] at outcome
      obtain ⟨fault, rfl, ran⟩ := outcome
      exact onVault_of_error (ran current)
  | ok next =>
      rw [attempted] at outcome
      obtain ⟨v', ran, vault, admin⟩ := outcome
      refine ⟨_, _, .concat _ _, onVault_of_ok (ran current), descends.turns vault ?_, admin⟩
      intro seals
      obtain ⟨seals', ran'⟩ := (Vault.unrecorded_exec op mutates _ draws).of_ok seals
        (ran (passwordAfter password trace))
      exact ⟨seals', Turn.advance (Takes.of_ok ran') (Or.inl mutates)⟩

/-- A file operation is recorded when a session runs. -/
theorem fileOperation (keeps : op.rotates = false) (current : String) :
    core.Follows (Unlocked.fileOperation (op.exec current draws))
      (account.attempt core.vault.adminIdentity op draws) password origin trace := by
  have outcome := descends.attempts mutates draws derives
  cases attempted : account.attempt core.vault.adminIdentity op draws with
  | error error =>
      rw [attempted] at outcome
      obtain ⟨fault, rfl, ran⟩ := outcome
      exact fileOperation_of_error (ran current)
  | ok next =>
      rw [attempted] at outcome
      obtain ⟨v', ran, vault, admin⟩ := outcome
      have taken : ∀ seals, ∃ seals', Takes password trace (core.vault.sealing seals)
          ⟨op, draws, true⟩ (v'.sealing seals') := fun seals => by
        obtain ⟨seals', ran'⟩ := (Vault.unrecorded_exec op mutates _ draws).of_ok seals
          (ran (passwordAfter password trace))
        exact ⟨seals', Takes.of_ok ran'⟩
      cases session : core.network with
      | none =>
          have same : recordPatchIfServing core.vault.chainState.1 { core with vault := v' } =
              { core with vault := v' } := by simp [recordPatchIfServing, session]
          refine ⟨{ core with vault := v' }, _, .concat _ _, ?_, descends.turns vault ?_, admin⟩
          · rw [fileOperation_of_ok (ran current), same]
          · intro seals
            obtain ⟨seals', taken⟩ := taken seals
            exact ⟨seals', Turn.advance taken (Or.inl mutates)⟩
      | some journal =>
          have recorded : recordPatchIfServing core.vault.chainState.1 { core with vault := v' } =
              ⟨v'.takeChangeLog.2,
                some (journal.record core.vault.chainState.1 v'.takeChangeLog.1)⟩ := by
            simp [recordPatchIfServing, session]
          refine ⟨⟨v'.takeChangeLog.2,
              some (journal.record core.vault.chainState.1 v'.takeChangeLog.1)⟩,
            trace ++ [⟨op, draws, true⟩, ⟨.takeChangeLog, draws, true⟩], ?_, ?_,
            descends.turns ?_ ?_, admin⟩
          · have grows := (GrowsBy.concat trace ⟨op, draws, true⟩).trans
              (GrowsBy.idle rfl : GrowsBy 0 _ (_ ++ [⟨.takeChangeLog, draws, true⟩]))
            rwa [List.append_assoc] at grows
          · rw [fileOperation_of_ok (ran current), recorded]
          · have drained := vault.drains draws
            rw [List.append_assoc] at drained
            exact drained
          · intro seals
            obtain ⟨seals', taken⟩ := taken seals
            rw [session]
            exact ⟨seals', Turn.publish taken ⟨rfl, mutates⟩ keeps draws⟩

end Operation

/-- A file operation on a file that is imported first. -/
theorem imports (disk : String → Option Bytes) (path : String) {op : Bytes → Op}
    (mutates : ∀ data, (op data).mutates = true) (keeps : ∀ data, (op data).rotates = false)
    (draws : Draws) :
    core.Follows
      (readSource disk path >>= fun data => Unlocked.fileOperation ((op data).exec "" draws))
      (match disk path with
        | none => .error .source
        | some data => account.attempt core.vault.adminIdentity (op data) draws)
      password origin trace := by
  cases found : disk path with
  | none =>
      have missing : readSource disk path core = .error .source core :=
        observe_of_error (by simp only [found])
      exact bind_of_error missing
  | some data =>
      have read : readSource disk path core = .ok data core :=
        observe_of_ok (by simp only [found])
      have follows := descends.fileOperation (mutates data) draws (fun _ _ rotates => by
        have kept := keeps data
        rw [rotates] at kept
        cases kept) (keeps data) ""
      exact follows.congr (bind_of_ok read)

/-- **An act** comes to what the account says. -/
theorem performs (act : Act) (derives : ∀ target password draws,
      act = .revoke target password draws →
        argon2id (utf8 password) core.vault.header.salt Argon2Params.default ≠ none) :
    core.Follows (perform act) (account.perform core.vault.adminIdentity act) password origin
      trace := by
  cases act with
  | add disk sourcePath destName draws =>
      by_cases empty : sourcePath = "" ∨ destName = ""
      · simp only [Account.perform, perform, submitAdd, if_pos empty]
        rfl
      · simp only [Account.perform, perform, submitAdd, if_neg empty]
        exact descends.imports disk sourcePath (fun _ => rfl) (fun _ => rfl) draws
  | update disk sourcePath targetName draws =>
      by_cases empty : sourcePath = ""
      · simp only [Account.perform, perform, submitUpdate, if_pos empty]
        rfl
      · simp only [Account.perform, perform, submitUpdate, if_neg empty]
        exact descends.imports disk sourcePath (fun _ => rfl) (fun _ => rfl) draws
  | delete name draws =>
      exact descends.fileOperation rfl draws (by rintro _ _ ⟨⟩) rfl ""
  | grant invite draws =>
      cases invite with
      | none => rfl
      | some peer => exact descends.onVault rfl draws (by rintro _ _ ⟨⟩) ""
  | revoke target password draws =>
      apply descends.onVault rfl draws _ ""
      rintro _ _ ⟨⟩
      exact derives _ _ _ rfl
  | startServing => exact ⟨_, _, .refl 1 _, rfl, descends.restarts rfl, rfl⟩
  | stopServing => exact ⟨_, _, .refl 1 _, rfl, descends.restarts rfl, rfl⟩
  | request peer nextSeq => exact ⟨_, _, .refl 1 _, rfl, descends, rfl⟩

/-- Wherever an act ends, the trace has gone on with at most one record. -/
theorem ends (act : Act) (derives : ∀ target password draws,
      act = .revoke target password draws →
        argon2id (utf8 password) core.vault.header.salt Argon2Params.default ≠ none) :
    ∃ next trace', GrowsBy 1 trace trace' ∧
      (finalState (perform act core)).Descends next password origin trace' ∧
      (next.password = account.password ∨
        ∃ target draws, act = .revoke target next.password draws) := by
  have follows := descends.performs act derives
  unfold UnlockedState.Follows at follows
  cases performed : account.perform core.vault.adminIdentity act with
  | error error =>
      rw [performed] at follows
      refine ⟨account, trace, .refl 1 trace, ?_, Or.inl rfl⟩
      rw [follows]
      exact descends
  | ok next =>
      rw [performed] at follows
      obtain ⟨core', trace', grows, ran, descends', _⟩ := follows
      refine ⟨next, trace', grows, ?_, Account.password_of_perform performed⟩
      rw [ran]
      exact descends'

/-- Only grants and revocations change the recipients. -/
theorem listRecipients_of_perform {act : Act} {core' : UnlockedState}
    (notAccess : ∀ op draws, actOp act ≠ some (op, draws, false))
    (ran : perform act core = .ok () core') :
    core'.vault.listRecipients = core.vault.listRecipients := by
  cases perform_cases core act with
  | idle _ vault _ =>
      rw [ran] at vault
      exact congrArg Vault.listRecipients vault
  | access opIs _ _ => exact absurd opIs (notAccess _ _)
  | @file op draws opIs mutates _ program =>
      have isFile : ∃ name, op.target = some name := by
        cases act with
        | add disk sourcePath destName draws =>
            simp only [actOp] at opIs
            split at opIs
            · cases opIs
            · obtain ⟨data, _, same⟩ := Option.map_eq_some_iff.mp opIs
              cases same
              exact ⟨_, rfl⟩
        | update disk sourcePath targetName draws =>
            simp only [actOp] at opIs
            split at opIs
            · cases opIs
            · obtain ⟨data, _, same⟩ := Option.map_eq_some_iff.mp opIs
              cases same
              exact ⟨_, rfl⟩
        | delete name draws =>
            cases opIs
            exact ⟨_, rfl⟩
        | grant invite draws =>
            obtain ⟨peer, _, same⟩ := Option.map_eq_some_iff.mp opIs
            cases same
        | _ => cases opIs
      obtain ⟨name, isFile⟩ := isFile
      rw [program account.password] at ran
      cases executed : op.exec account.password draws core.vault with
      | error fault v' =>
          rw [fileOperation_of_error executed] at ran
          cases ran
      | ok value v' =>
          rw [fileOperation_of_ok executed] at ran
          cases ran
          rw [← descends.holds.listRecipients_eq isFile executed, recordPatchIfServing]
          split <;> rfl

end UnlockedState.Descends

end

end ReVault
