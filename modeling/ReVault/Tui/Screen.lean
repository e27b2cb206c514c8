import ReVault.Device.Descent
import ReVault.Tui.Focus

/-!
# What the screen shows

The lists that are shown of an unlocked vault are kept beside it, and read again only after
some of its changes. They are never stale: in every state of the interface they are what the
vault would answer, and the container on the disk is the vault's.
-/

namespace ReVault.Tui

open Foundation Primitives

variable [Primitives]

/-! ## Containers -/

/-- A container that operations lead to from its creation, with a known password in force, or a
file that no known password opens. -/
inductive Kept (passwords : List String) : Bytes → Prop
  | container {v : Vault} {account : Account} {password : String} {origin : Vault}
      {trace : List Step} (descends : v.Descends account password origin trace)
      (known : account.password ∈ passwords) : Kept passwords v.file
  | foreign {file : Bytes} (closed : ∀ password ∈ passwords, ∀ identity v,
      Vault.openWithPassword file password identity ≠ .ok v) : Kept passwords file

/-- A known password opens a container as the next operation on it. -/
theorem Kept.opens [Lawful] {passwords : List String} {file : Bytes} (kept : Kept passwords file)
    (apart : PasswordsApart passwords) {password : String} (known : password ∈ passwords)
    {identity : Identity} {w : Vault}
    (opened : Vault.openWithPassword file password identity = .ok w) (draws : Draws) :
    w.file = file ∧ w.changeLog = [] ∧ ∃ account created origin trace,
      w.Descends account created origin trace ∧ account.password ∈ passwords := by
  cases kept with
  | foreign closed => exact absurd opened (closed password known identity w)
  | @container v account _ _ _ descends inForce =>
      by_cases right : password = account.password
      · subst right
        obtain ⟨w', opened', same, descends', _, drained⟩ := descends.opens identity draws
        rw [opened, Except.ok.injEq] at opened'
        subst opened'
        exact ⟨same, drained, _, _, _, _, descends', inForce⟩
      · rw [descends.holds.refuses apart known inForce right identity] at opened
        cases opened

/-! ## An unlocked vault -/

namespace UnlockedState

/-- What is shown is what the vault answers. -/
structure Current (passwords : List String) (state : UnlockedState) : Prop where
  account : ∃ account password origin trace,
    state.toUnlockedState.Descends account password origin trace ∧ account.password ∈ passwords
  files : state.vault.listFiles = .ok state.files
  recipients : state.vault.listRecipients = .ok state.recipients
  selected : state.selected ≤ state.files.length - 1
  updating : state.updateForm.isSome = true → state.files ≠ []
  deleting : ∀ name, state.deleteConfirm = some name → ∃ file ∈ state.files, file.name = name

variable {passwords : List String} {state : UnlockedState}

/-- The files are shown once they are listed. -/
theorem refreshFiles_of_ok (state : UnlockedState) {files : List FileInfo}
    (listed : state.vault.listFiles = .ok files) : state.refreshFiles = { state with
      files := files
      selected := if state.selected ≥ files.length then files.length - 1 else state.selected } := by
  rw [refreshFiles, listed]

/-- The recipients are shown once they are listed. -/
theorem refreshRecipients_of_ok (state : UnlockedState) {recipients : List RecipientInfo}
    (listed : state.vault.listRecipients = .ok recipients) :
    state.refreshRecipients = { state with recipients := recipients } := by
  rw [refreshRecipients, listed]

/-- What an act on the unlocked vault comes to: it changes the vault, or nothing at all. -/
inductive Attempts (passwords : List String) (state : UnlockedState) (act : Unlocked.Act) :
    Option FormError × UnlockedState → Prop
  | refused (error : FormError) : Attempts passwords state act (some error, state)
  | accepted {core : ReVault.UnlockedState}
      (account : ∃ account password origin trace,
        core.Descends account password origin trace ∧ account.password ∈ passwords)
      (files : (∀ op draws, Unlocked.actOp act ≠ some (op, draws, true)) →
        core.vault.listFiles = state.vault.listFiles)
      (recipients : (∀ op draws, Unlocked.actOp act ≠ some (op, draws, false)) →
        core.vault.listRecipients = state.vault.listRecipients) :
      Attempts passwords state act (none, { state with toUnlockedState := core })

section

variable [Lawful]

/-- **An act** in the interface comes to what the account says. -/
theorem attempt_eq {account : Account} {password : String} {origin : Vault} {trace : List Step}
    (descends : state.toUnlockedState.Descends account password origin trace)
    (act : Unlocked.Act) (derives : ∀ target password draws,
      act = .revoke target password draws →
        argon2id (utf8 password) state.vault.header.salt Argon2Params.default ≠ none) :
    match account.perform state.vault.adminIdentity act with
    | .ok next => ∃ core trace', Unlocked.perform act state.toUnlockedState = .ok () core ∧
        state.attempt (Unlocked.perform act) = (none, { state with toUnlockedState := core }) ∧
        core.Descends next password origin trace' ∧
        core.vault.adminIdentity = state.vault.adminIdentity
    | .error error => state.attempt (Unlocked.perform act) = (some error, state) := by
  have follows := descends.performs act derives
  unfold ReVault.UnlockedState.Follows at follows
  unfold attempt
  cases performed : account.perform state.vault.adminIdentity act with
  | error error =>
      rw [performed] at follows
      rw [follows]
  | ok next =>
      rw [performed] at follows
      obtain ⟨core, trace', _, ran, descends', admin⟩ := follows
      exact ⟨core, trace', ran, by rw [ran], descends', admin⟩

/-- An act changes the vault that is shown, or nothing at all. -/
theorem Current.attempts (current : state.Current passwords) (apart : PasswordsApart passwords)
    (act : Unlocked.Act)
    (known : ∀ target password draws, act = .revoke target password draws → password ∈ passwords) :
    Attempts passwords state act (state.attempt (Unlocked.perform act)) := by
  obtain ⟨account, password, origin, trace, descends, inForce⟩ := current.account
  have outcome := attempt_eq descends act fun target password draws revokes =>
    apart.derives _ password (known target password draws revokes)
  cases performed : account.perform state.vault.adminIdentity act with
  | error error =>
      rw [performed] at outcome
      rw [outcome]
      exact .refused error
  | ok next =>
      rw [performed] at outcome
      obtain ⟨core, trace', ran, attempted, descends', _⟩ := outcome
      rw [attempted]
      refine .accepted ⟨next, _, _, _, descends', ?_⟩ ?_ ?_
      · rcases Account.password_of_perform performed with same | ⟨target, draws, revokes⟩
        · rw [same]
          exact inForce
        · exact known target _ draws revokes
      · intro notFile
        have listed := descends.holds.shows.lists
        have listed' := descends'.holds.shows.lists
        rw [Ledger.listFiles, Account.files_of_perform notFile performed] at listed'
        exact listed'.trans listed.symm
      · exact fun notAccess => descends.listRecipients_of_perform notAccess ran

omit [Primitives] [Lawful] in
/-- The selection stays inside the list. -/
theorem clamped_le (selected length : Nat) :
    (if selected ≥ length then length - 1 else selected) ≤ length - 1 := by
  split <;> omega

/-- The files of such a vault can be listed. -/
theorem listFiles_of_descends {core : ReVault.UnlockedState}
    (account : ∃ account password origin trace,
      core.Descends account password origin trace ∧ account.password ∈ passwords) :
    ∃ files, core.vault.listFiles = .ok files := by
  obtain ⟨_, _, _, _, descends, _⟩ := account
  exact ⟨_, descends.holds.shows.lists⟩

omit [Primitives] [Lawful] in
/-- An import is a file operation. -/
theorem imports_ne_access {empty : Prop} [Decidable empty] {source : Option Bytes}
    {op : Bytes → Op} {op' : Op} {draws draws' : Draws} :
    (if empty then none else source.map fun data => (op data, draws, true)) ≠
      some (op', draws', false) := by
  split <;> simp

omit [Primitives] [Lawful] in
/-- Granting is no file operation. -/
theorem grants_ne_file {invite : Option PeerId} {op : Op} {draws draws' : Draws} :
    Unlocked.actOp (.grant invite draws) ≠ some (op, draws', true) := by
  cases invite <;> simp [Unlocked.actOp]

/-- A vault that has just been opened. -/
theorem Current.ofVault {v : Vault} {account : Account} {password : String} {origin : Vault}
    {trace : List Step} (descends : v.Descends account password origin trace)
    (drained : v.changeLog = []) (known : account.password ∈ passwords) (path : Path)
    (name : String) (identity : Identity) (now : Nat) :
    (ofVault v path name identity now).Current passwords := by
  obtain ⟨infos, listed, _⟩ := descends.holds.shows.recipients
  have files := descends.holds.shows.lists
  simp only [UnlockedState.ofVault, UnlockedState.refreshFiles, files,
    UnlockedState.refreshRecipients, listed]
  exact ⟨⟨account, password, origin, trace, .of_opened descends drained, known⟩, files, listed,
    clamped_le _ _, by simp, by simp⟩

omit [Lawful] in
/-- The selection moves. -/
theorem Current.moveSelection (current : state.Current passwords) (delta : Int) :
    (state.moveSelection delta).Current passwords := by
  have bound := current.selected
  unfold UnlockedState.moveSelection
  split
  · exact current
  · simp only
    split
    · exact { current with selected := Nat.zero_le _ }
    · split
      · exact { current with selected := Nat.le_refl _ }
      · refine { current with selected := ?_ }
        simp only
        omega

section Keys

variable (current : state.Current passwords) (apart : PasswordsApart passwords)
  (disk : FileSystem) (draws : Draws)

include current apart

/-- The form for importing is submitted. -/
theorem Current.submitAdd (updating : state.updateForm = none)
    (deleting : state.deleteConfirm = none) (form : AddFileForm) :
    (state.submitAdd disk draws form).Current passwords := by
  have attempts := current.attempts apart
    (.add disk (trim form.sourcePath) (trim form.destName) draws) (by rintro _ _ _ ⟨⟩)
  rw [Unlocked.perform] at attempts
  rw [UnlockedState.submitAdd]
  generalize state.attempt _ = reached at attempts
  cases attempts with
  | refused error => exact { current with }
  | @accepted core account _ recipients =>
      have same := recipients fun _ _ => imports_ne_access
      obtain ⟨files, listed⟩ := listFiles_of_descends account
      simp only [refreshFiles_of_ok { state with toUnlockedState := core } listed]
      exact ⟨account, listed, same.trans current.recipients, clamped_le _ _, by simp [updating],
        by simp [deleting]⟩

/-- The form for a new content is submitted. -/
theorem Current.submitUpdate (deleting : state.deleteConfirm = none) (form : UpdateFileForm) :
    (state.submitUpdate disk draws form).Current passwords := by
  rw [UnlockedState.submitUpdate]
  split
  · exact { current with updating := by simp }
  · rename_i file found
    have listed : state.files ≠ [] := by
      rintro empty
      rw [empty] at found
      cases found
    have attempts := current.attempts apart
      (.update disk (trim form.sourcePath) file.name draws) (by rintro _ _ _ ⟨⟩)
    rw [Unlocked.perform] at attempts
    generalize state.attempt _ = reached at attempts
    cases attempts with
    | refused error => exact { current with updating := fun _ => listed }
    | @accepted core account _ recipients =>
        have same := recipients fun _ _ => imports_ne_access
        obtain ⟨files, listed⟩ := listFiles_of_descends account
        simp only [refreshFiles_of_ok { state with toUnlockedState := core } listed]
        exact ⟨account, listed, same.trans current.recipients, clamped_le _ _, by simp,
          by simp [deleting]⟩

/-- The question is answered with yes. -/
theorem Current.confirmDelete (updating : state.updateForm = none) (name : String) :
    (state.confirmDelete draws name).Current passwords := by
  have asked : ({ state with deleteConfirm := none } : UnlockedState).Current passwords :=
    { current with deleting := by simp }
  have attempts := asked.attempts apart (.delete name draws) (by rintro _ _ _ ⟨⟩)
  rw [Unlocked.perform] at attempts
  rw [UnlockedState.confirmDelete]
  generalize UnlockedState.attempt _ _ = reached at attempts
  cases attempts with
  | refused error => exact { asked with }
  | @accepted core account _ recipients =>
      have same := recipients fun _ _ => by simp [Unlocked.actOp]
      obtain ⟨files, listed⟩ := listFiles_of_descends account
      simp only [refreshFiles_of_ok
        { state with toUnlockedState := core, deleteConfirm := none } listed]
      exact ⟨account, listed, same.trans current.recipients, clamped_le _ _, by simp [updating],
        by simp⟩

omit [Lawful] apart in
/-- A key press while nothing is open. -/
theorem Current.plainKey (key : KeyCode) : (state.plainKey key).1.Current passwords := by
  unfold UnlockedState.plainKey
  split
  · exact current
  · exact current
  · exact current.moveSelection (-1)
  · exact current.moveSelection 1
  · exact { current with }
  · rw [startUpdate]
    split
    · rename_i file found
      refine { current with updating := fun _ empty => ?_ }
      rw [empty] at found
      cases found
    · exact current
  · rw [requestDelete]
    split
    · rename_i file found
      refine { current with deleting := ?_ }
      rintro _ ⟨⟩
      exact ⟨file, List.mem_of_getElem? found, rfl⟩
    · exact current
  · rw [UnlockedState.verify]
    split
    · exact { current with }
    · exact { current with }
  · exact current

/-- **A key press** on the screen of an unlocked vault. -/
theorem Current.handleKey (one : state.OneForm) (now : Nat) (key : KeyCode) :
    (state.handleKey disk now draws key).1.Current passwords := by
  have active : (state.recordActivity now).Current passwords := { current with }
  have one' : (state.recordActivity now).OneForm := one
  unfold UnlockedState.handleKey
  generalize state.recordActivity now = state at *
  simp only
  split
  · rename_i form adding
    obtain ⟨noUpdate, noDelete⟩ := one'.1 (by rw [adding]; rfl)
    rw [UnlockedState.addKey]
    split
    · exact { active with }
    · exact active.submitAdd apart disk draws noUpdate noDelete _
    · exact { active with }
  · rename_i form idle updating
    have noDelete := one'.2 (by rw [updating]; rfl)
    rw [UnlockedState.updateKey]
    split
    · exact { active with updating := by simp }
    · exact active.submitUpdate apart disk draws noDelete _
    · exact { active with updating := fun _ => active.updating (by rw [updating]; rfl) }
  · rename_i name idle idle' asking
    unfold UnlockedState.deleteKey
    split
    · exact active.confirmDelete apart draws idle' name
    · exact active.confirmDelete apart draws idle' name
    · exact active.confirmDelete apart draws idle' name
    · exact { active with deleting := by simp }
    · exact { active with deleting := by simp }
    · exact { active with deleting := by simp }
    · exact active
  · exact active.plainKey key

omit disk draws in
/-- A grant or a revocation: the recipients are read again, or nothing has changed. -/
theorem Current.attemptShare (act : Unlocked.Act)
    (known : ∀ target password draws, act = .revoke target password draws → password ∈ passwords)
    (notFile : ∀ op draws, Unlocked.actOp act ≠ some (op, draws, true)) :
    (state.attemptShare (Unlocked.perform act)).2.Current passwords ∧
      ∀ error, (state.attemptShare (Unlocked.perform act)).1 = some error →
        (state.attemptShare (Unlocked.perform act)).2 = state := by
  have attempts := current.attempts apart act known
  unfold UnlockedState.attemptShare
  generalize state.attempt (Unlocked.perform act) = reached at attempts
  cases attempts with
  | refused error => exact ⟨current, fun _ _ => rfl⟩
  | @accepted core account files _ =>
      obtain ⟨_, _, _, _, descends, _⟩ := id account
      obtain ⟨infos, listed, _⟩ := descends.holds.shows.recipients
      simp only [refreshRecipients_of_ok { state with toUnlockedState := core } listed]
      exact ⟨⟨account, (files notFile).trans current.files, listed, current.selected,
        current.updating, current.deleting⟩, by simp⟩

omit disk draws in
/-- An act that is no operation. -/
theorem Current.attempt_idle (act : Unlocked.Act) (idle : Unlocked.actOp act = none) :
    (state.attempt (Unlocked.perform act)).2.Current passwords := by
  have attempts := current.attempts apart act fun target password draws revokes => by
    subst revokes
    cases idle
  generalize state.attempt (Unlocked.perform act) = reached at attempts
  cases attempts with
  | refused error => exact current
  | accepted account files recipients =>
      exact ⟨account, (files (by simp [idle])).trans current.files,
        (recipients (by simp [idle])).trans current.recipients, current.selected,
        current.updating, current.deleting⟩

omit disk draws in
/-- **The network tab.** -/
theorem Current.shares {SocketAddr : Type} [SocketAddress SocketAddr]
    {env : Environment SocketAddr} {asked : Option String} {state' : UnlockedState}
    (shares : Shares env asked state state')
    (known : ∀ password, asked = some password → password ∈ passwords) :
    state'.Current passwords := by
  cases shares with
  | idle => exact current
  | start => exact current.attempt_idle apart .startServing rfl
  | stop => exact current.attempt_idle apart .stopServing rfl
  | grant input =>
      have notRevoke : ∀ invite target password draws,
          Unlocked.Act.grant invite env.draws = .revoke target password draws →
            password ∈ passwords := by rintro _ _ _ _ ⟨⟩
      exact (current.attemptShare apart (.grant (invitedPeer SocketAddr input) env.draws)
        (notRevoke _) (fun _ _ => grants_ne_file)).1
  | @revoke target password given =>
      have asks : ∀ target' password' draws,
          Unlocked.Act.revoke target password env.draws = .revoke target' password' draws →
            password' ∈ passwords := by
        rintro _ _ _ ⟨⟩
        exact known _ given
      exact (current.attemptShare apart (.revoke target password env.draws) asks
        (fun _ _ => by simp [Unlocked.actOp])).1

omit [Lawful] apart disk draws in
/-- What the network thread reports is shown. -/
theorem Current.pollNetwork (polled : Polled) : (state.pollNetwork polled).1.Current passwords := by
  obtain ⟨message, same⟩ := state.pollNetwork_eq polled
  rw [same]
  exact { current with }

end Keys

end

end UnlockedState

end ReVault.Tui
