import ReVault.Tui.Containers

/-!
# The history of a container

What happens to a container on the disk goes on from the operations that led to it: a round
opens it, acts on it at most once, or leaves it alone. So what the disk held at a place at
earlier moments of a run is in the past of what it holds there now.
-/

namespace ReVault.Tui

open Foundation Primitives

variable [Primitives]

/-! ## At most one act a round -/

namespace UnlockedState

/-- An attempt to share ends where its program does. -/
theorem core_attemptShare (program : UnlockedM Unit) (state : UnlockedState) :
    (state.attemptShare program).2.toUnlockedState =
      finalState (program state.toUnlockedState) := by
  rw [← core_attempt, attemptShare]
  split
  · rename_i reached ran
    rw [ran]
    exact refreshRecipients_core reached
  · rename_i error reached ran
    rw [ran]

/-- What a round comes to for the vault: nothing, or one act. A revocation is given the password
that was asked for. -/
inductive Acts (asked : Option String) (core core' : ReVault.UnlockedState) : Prop
  | idle (same : core' = core) : Acts asked core core'
  | act (act : Unlocked.Act) (ends : core' = finalState (Unlocked.perform act core))
      (given : ∀ target password draws, act = .revoke target password draws →
        asked = some password) : Acts asked core core'

/-- A key press on the screen of an unlocked vault. -/
theorem Acts.of_handled {asked : Option String} {state state' : UnlockedState}
    (handled : Handled state state') :
    Acts asked state.toUnlockedState state'.toUnlockedState := by
  cases handled with
  | screen core _ => exact .idle core
  | act onFiles core _ =>
      refine .act _ core ?_
      rintro target password draws rfl
      cases onFiles

variable {SocketAddr : Type} [SocketAddress SocketAddr] {env : Environment SocketAddr}
  {asked : Option String} {state state' : UnlockedState}

/-- The network tab. -/
theorem Acts.of_shares (shares : Shares env asked state state') :
    Acts asked state.toUnlockedState state'.toUnlockedState := by
  cases shares with
  | idle => exact .idle rfl
  | start => exact .act .startServing (core_attempt _ state) (by rintro _ _ _ ⟨⟩)
  | stop => exact .act .stopServing (core_attempt _ state) (by rintro _ _ _ ⟨⟩)
  | grant input =>
      refine .act (.grant (invitedPeer SocketAddr input) env.draws) ?_ (by rintro _ _ _ ⟨⟩)
      rw [submitGrant, Unlocked.perform, core_attemptShare]
  | @revoke target password given =>
      refine .act (.revoke target password env.draws) ?_ (by rintro _ _ _ ⟨⟩; exact given)
      rw [submitRevoke, Unlocked.perform, core_attemptShare]

/-- **A round** acts at most once on an unlocked vault. -/
theorem Acts.of_evolves {disk : FileSystem} (evolves : Evolves env disk asked state state') :
    Acts asked state.toUnlockedState state'.toUnlockedState := by
  cases evolves with
  | idle => exact .idle rfl
  | key key =>
      have handled := Handled.handleKey disk env.draws key state env.now
      have acts : Acts asked (state.recordActivity env.now).toUnlockedState _ := .of_handled handled
      exact acts
  | network shares =>
      have acts : Acts asked (state.recordActivity env.now).toUnlockedState _ := .of_shares shares
      exact acts
  | poll polled =>
      obtain ⟨message, same⟩ := state.pollNetwork_eq polled
      rw [same]
      exact .idle rfl

end UnlockedState

/-! ## What a round writes -/

section

variable {disk : FileSystem} {path : Path}

/-- Creating a vault writes to its place only. -/
theorem disk_create (disk : FileSystem) {other : Path} (elsewhere : path ≠ other)
    (name description : String) (capacityBytes : UInt64) (password : String) (admin : Identity)
    (draws : Draws) :
    finalState (OpenVault.create other name description capacityBytes password admin draws disk)
      path = disk path := by
  unfold OpenVault.create
  split
  · exact Function.update_of_ne elsewhere _ _
  · rfl
  · exact Function.update_of_ne elsewhere _ _
  · rfl

omit [Primitives] in
/-- The place for a new vault is one where nothing is. -/
theorem free_of_uniqueVaultPath {entries : List Path} {dir name : String}
    (found : uniqueVaultPath entries disk dir name = .ok path) : disk path = none := by
  unfold uniqueVaultPath at found
  split at found
  · rename_i n first
    cases found
    have isFree := List.find?_some first
    exact Option.isNone_iff_eq_none.mp isFree
  · cases found

variable {SocketAddr : Type} (env : Environment SocketAddr) {file : Bytes}
  (stored : disk path = some file)

include stored

/-- So what is stored is not overwritten by a new vault. -/
theorem VaultsApp.disk_tryCreate (form : CreateForm) (app : VaultsApp) :
    (app.tryCreate env disk form).2 path = disk path := by
  unfold tryCreate
  split
  · rfl
  · rename_i capacityBytes _
    split
    · rfl
    · rename_i other found
      have elsewhere : path ≠ other := by
        rintro rfl
        rw [free_of_uniqueVaultPath found] at stored
        cases stored
      have kept := disk_create disk elsewhere (trim form.name) (trim form.description)
        capacityBytes form.password app.identity env.draws
      split
      · rename_i ran
        rw [ran] at kept
        exact kept
      · rename_i ran
        rw [ran] at kept
        exact kept

/-- Nor by a key press in the form for one. -/
theorem VaultsApp.disk_creatingKey (form : CreateForm) (key : KeyCode) (app : VaultsApp) :
    (app.creatingKey env disk form key).2 path = disk path := by
  unfold creatingKey
  split
  · rfl
  · rename_i form' _
    have kept := app.disk_tryCreate env stored form'
    split
    · rename_i ran
      rw [ran] at kept
      exact kept
    · rename_i ran
      rw [ran] at kept
      exact kept
  · rfl

variable [SocketAddress SocketAddr]

/-- Nor by a replica. -/
theorem NetworkTab.disk_tryJoin (input : String) (tab : NetworkTab) :
    (tab.tryJoin env disk input).2 path = disk path := by
  unfold tryJoin
  split
  · rfl
  · rename_i invite _
    split
    · rfl
    · simp only
      split
      · rfl
      · rename_i nothing
        have elsewhere : path ≠ joinPath tab.vaults.vaultsDir
            ("joined-" ++ invite.peerId.fingerprint ++ ".rvlt") := by
          rintro rfl
          rw [stored] at nothing
          exact nothing rfl
        split
        · exact Function.update_of_ne elsewhere _ _
        · exact Function.update_of_ne elsewhere _ _

/-- Nor by a key press in the form for joining. -/
theorem NetworkTab.disk_joiningKey (input : String) (error : Option FormError) (key : KeyCode)
    (tab : NetworkTab) : (tab.joiningKey env disk input error key).2 path = disk path := by
  have kept := tab.disk_tryJoin env stored input
  unfold joiningKey
  split
  · rfl
  · rfl
  · split
    · rename_i ran
      rw [ran] at kept
      exact kept
    · rename_i ran
      rw [ran] at kept
      exact kept

end

/-- What a round leaves at a place: what was there, or what the vault that is unlocked there has
come to. -/
inductive Leaves (changes : UnlockedState → UnlockedState → Prop) (disk : FileSystem) (mode : Mode)
    (path : Path) : Option Bytes → Prop
  | kept : Leaves changes disk mode path (disk path)
  | written {state state' : UnlockedState} (unlocked : mode = .unlocked state)
      (place : state.path = path) (changed : changes state state') :
      Leaves changes disk mode path (some state'.vault.file)

section

variable {disk : FileSystem} {path : Path}

omit [Primitives] in
/-- What was there is left. -/
theorem Leaves.of_eq {changes : UnlockedState → UnlockedState → Prop} {mode : Mode}
    {left : Option Bytes} (same : left = disk path) : Leaves changes disk mode path left := by
  rw [same]
  exact .kept

omit [Primitives] in
/-- The unlocked vault is written to its own place. -/
theorem Leaves.of_update {changes : UnlockedState → UnlockedState → Prop} {mode : Mode}
    {state state' : UnlockedState} (unlocked : mode = .unlocked state)
    (changed : changes state state') (same : state'.path = state.path) : Leaves changes disk mode
      path (Function.update disk state'.path (some state'.vault.file) path) := by
  by_cases place : path = state'.path
  · subst place
    rw [Function.update_self]
    exact .written unlocked same.symm changed
  · rw [Function.update_of_ne place]
    exact .kept

variable {SocketAddr : Type} [SocketAddress SocketAddr] (env : Environment SocketAddr)
  {file : Bytes} (stored : disk path = some file)

include stored

/-- A key press in the vaults tab. -/
theorem VaultsApp.leaves_handleKey (asked : Option String) (key : KeyCode) (app : VaultsApp) :
    Leaves (Evolves env disk asked) disk app.mode path ((app.handleKey env disk key).2 path) := by
  have sameDisk : (app.handleKey env disk key).2 = (app.processKey env disk key).2 := by
    simp only [handleKey]
    split <;> rfl
  rw [sameDisk]
  unfold processKey
  split
  · exact .kept
  · rename_i form _
    exact .of_eq (app.disk_creatingKey env stored form key)
  · exact .kept
  · rename_i state unlocked
    have same := (UnlockedState.SameSession.handleKey disk env.draws key state env.now).path
    have written : (app.unlockedKey env disk state key).2 path =
        Function.update disk (state.handleKey disk env.now env.draws key).1.path
          (some (state.handleKey disk env.now env.draws key).1.vault.file) path := by
      simp only [unlockedKey]
      split <;> rfl
    rw [written]
    exact .of_update unlocked (.key key) same

/-- A key press in the network tab. -/
theorem NetworkTab.leaves_modeKey (key : KeyCode) (tab : NetworkTab) :
    Leaves (Shares env (tab.networkUi.submitted key)) disk tab.vaults.mode path
      ((tab.modeKey env disk key).2 path) := by
  unfold modeKey
  split
  · exact .kept
  · exact .of_eq (tab.disk_joiningKey env stored _ _ key)
  · rename_i input error _
    unfold grantingKey
    split
    · exact .kept
    · exact .kept
    · split
      · exact .kept
      · rename_i state unlocked
        have granted := @Shares.grant _ _ _ env (tab.networkUi.submitted key) state input
        have same := (UnlockedState.SameSession.of_shares granted).path
        split
        · rename_i ran
          rw [ran] at granted same
          exact .of_update (App.mode_of_current unlocked) granted same
        · rename_i ran
          rw [ran] at granted same
          exact .of_update (App.mode_of_current unlocked) granted same
  · rename_i target password error asks
    unfold confirmRevokeKey
    split
    · exact .kept
    · exact .kept
    · rename_i submits
      split
      · exact .kept
      · rename_i state unlocked
        have asked : tab.networkUi.submitted key = some password := by
          simp [NetworkTabWidget.submitted, asks, enter_of_submit submits]
        have revoked := @Shares.revoke _ _ _ env _ state target password asked
        have same := (UnlockedState.SameSession.of_shares revoked).path
        split
        · rename_i ran
          rw [ran] at revoked same
          exact .of_update (App.mode_of_current unlocked) revoked same
        · rename_i ran
          rw [ran] at revoked same
          exact .of_update (App.mode_of_current unlocked) revoked same
  · exact .kept

omit stored in
/-- **A round** writes to the place of the unlocked vault, and to places where nothing is. -/
theorem App.leaves_step {world : App × FileSystem} (stored : world.2 path = some file)
    (input : Input SocketAddr) : Leaves (Evolves input.env world.2 (world.1.asks input)) world.2
      world.1.vaults.mode path ((step world input).2 path) := by
  cases input with
  | tick env polled => exact .kept
  | key env key =>
      have presses := presses_handleKey env world.2 key world.1
      change Leaves _ _ _ _ ((world.1.handleKey env world.2 key).2 path)
      generalize (world.1.handleKey env world.2 key).1 = app' at *
      generalize (world.1.handleKey env world.2 key).2 = disk' at *
      cases presses with
      | idle _ => exact .kept
      | switch _ _ => exact .kept
      | settings _ => exact .kept
      | vaults _ => exact world.1.vaults.leaves_handleKey env stored _ key
      | network selected =>
          have asked : world.1.asks (.key env key : Input SocketAddr) =
              world.1.networkUi.submitted key := by simp only [asks, submitted, selected]
          have leaves := NetworkTab.leaves_modeKey env stored key
            ⟨world.1.vaults.onUnlocked (·.recordActivity env.now), world.1.networkUi⟩
          change Leaves _ _ _ _ ((world.1.networkKey env world.2 key).2 path) at leaves
          rw [asked]
          generalize (world.1.networkKey env world.2 key).2 path = left at leaves ⊢
          cases leaves with
          | kept => exact .kept
          | @written active state' unlocked place shares =>
              rcases mode_onUnlocked (·.recordActivity env.now) world.1.vaults with
                ⟨state, wasUnlocked, changed⟩ | ⟨locked, same⟩
              · have isActive := changed.symm.trans unlocked
                cases isActive
                exact .written wasUnlocked place (.network shares)
              · exact absurd (same.symm.trans unlocked) (locked active)

end

/-! ## The history of a container -/

/-- **The history of the container at a place**: the operations that led to what is stored, and
to the vault that is unlocked there. -/
structure HistoryAt (passwords : List String) (path : Path) (password : String) (origin : Vault)
    (trace : List Step) (world : App × FileSystem) : Prop where
  stored : ∃ (v : Vault) (account : Account), world.2 path = some v.file ∧
    v.Descends account password origin trace ∧ account.password ∈ passwords
  unlocked : ∀ state, world.1.vaults.mode = .unlocked state → state.path = path →
    ∃ account, state.toUnlockedState.Descends account password origin trace ∧
      account.password ∈ passwords

namespace HistoryAt

variable {passwords : List String} {path : Path} {password : String} {origin : Vault}
  {trace : List Step}

/-- A vault that has just been written. -/
theorem of_unlocked {world : App × FileSystem} {state : UnlockedState} {account : Account}
    (unlocked : world.1.vaults.mode = .unlocked state)
    (descends : state.toUnlockedState.Descends account password origin trace)
    (known : account.password ∈ passwords) (mirrored : world.2 path = some state.vault.file) :
    HistoryAt passwords path password origin trace world where
  stored := ⟨state.vault, account, mirrored, descends.toDescends, known⟩
  unlocked := by
    intro state' unlocked' _
    rw [unlocked, Mode.unlocked.injEq] at unlocked'
    exact unlocked' ▸ ⟨account, descends, known⟩

/-- What is stored is a past container of the history. -/
theorem past {world : App × FileSystem} (history : HistoryAt passwords path password origin trace
      world) {file : Bytes} (found : world.2 path = some file) :
    Past password origin trace (recordsAfter trace) file := by
  obtain ⟨v, account, found', descends, _⟩ := history.stored
  obtain ⟨seals, run⟩ := descends.run
  have same : file = v.file := Option.some.inj (found.symm.trans found')
  have shown : Past password origin trace (recordsAfter trace) (v.sealing seals).file :=
    Past.now run
  rw [same]
  exact shown

/-- It shows its position in the chain. -/
theorem reports [Lawful] {world : App × FileSystem} (history : HistoryAt passwords path password
      origin trace world) {file : Bytes} (found : world.2 path = some file) {header : Header}
    (read : readHeader file = .ok header) (short : recordsAfter trace < 2 ^ 64) :
    Past password origin trace header.chainNextSeq.toNat file := by
  have past := history.past found
  obtain ⟨v, account, _, descends, _⟩ := history.stored
  obtain ⟨_, _, _, _, _, created⟩ := descends.created
  obtain ⟨shown, read', counted⟩ := Run.readHeader_past created past short
  obtain rfl := Except.ok.inj (read'.symm.trans read)
  rw [counted]
  exact past

section

variable [Lawful] (apart : PasswordsApart passwords) {asked : Option String}
  (given : ∀ password, asked = some password → password ∈ passwords)

include apart given

/-- An act goes on from the history of the vault. -/
theorem of_acts {core core' : ReVault.UnlockedState} {account : Account}
    (descends : core.Descends account password origin trace) (known : account.password ∈ passwords)
    (acts : UnlockedState.Acts asked core core') :
    ∃ next trace', GrowsBy 1 trace trace' ∧ core'.Descends next password origin trace' ∧
      next.password ∈ passwords := by
  cases acts with
  | idle same => exact ⟨account, trace, .refl 1 trace, same ▸ descends, known⟩
  | act act ends revokes =>
      obtain ⟨next, trace', grows, descends', rekeyed⟩ := descends.ends act
        fun target password draws isRevoke =>
          apart.derives _ _ (given password (revokes _ _ _ isRevoke))
      refine ⟨next, trace', grows, ends ▸ descends', ?_⟩
      rcases rekeyed with same | ⟨target, draws, isRevoke⟩
      · exact same ▸ known
      · exact given _ (revokes _ _ _ isRevoke)

variable {SocketAddr : Type} {env : Environment SocketAddr} {world : App × FileSystem}
  (history : HistoryAt passwords path password origin trace world)

include history

/-- Opening the container goes on from its history. -/
theorem of_opens {state : UnlockedState}
    (opens : world.1.vaults.Opens env world.2 asked state) (place : state.path = path) :
    ∃ account trace', GrowsBy 1 trace trace' ∧
      state.toUnlockedState.Descends account password origin trace' ∧
      account.password ∈ passwords := by
  obtain ⟨form, path', name, opened, submits, _, ran, rfl⟩ := opens
  obtain ⟨v, account, found, descends, known⟩ := history.stored
  rw [UnlockedState.path_ofVault] at place
  subst place
  obtain ⟨file, found', opened'⟩ := OpenVault.exists_of_openVault ran
  have same : file = v.file := Option.some.inj (found'.symm.trans found)
  subst same
  have rightPassword : form.password = account.password := by
    by_contra wrong
    rw [descends.holds.refuses apart (given _ submits) known wrong] at opened'
    cases opened'
  rw [rightPassword] at opened'
  obtain ⟨w, reopened, _, again, _, drained⟩ := descends.opens world.1.vaults.identity env.draws
  have isOpened : w = opened.vault := Except.ok.inj (reopened.symm.trans opened')
  subst isOpened
  rw [UnlockedState.ofVault_core]
  exact ⟨account, _, .concat _ _, .of_opened again drained, known⟩

end

variable [Lawful] (apart : PasswordsApart passwords) {SocketAddr : Type}
  [SocketAddress SocketAddr] {world : App × FileSystem} (current : App.Current passwords world)
  (history : HistoryAt passwords path password origin trace world)

include apart current history

/-- **A round** goes on from the history, by at most one record. -/
theorem step {input : Input SocketAddr} (permits : App.Permits passwords world.1 input) :
    ∃ trace', GrowsBy 1 trace trace' ∧
      HistoryAt passwords path password origin trace' (App.step world input) := by
  have given : ∀ password, world.1.asks input = some password → password ∈ passwords :=
    fun _ asked => permits.asks asked
  have next := current.step apart permits
  by_cases there : ∃ state', (App.step world input).1.vaults.mode = .unlocked state' ∧
      state'.path = path
  · -- the vault that is unlocked there is the one of the history
    obtain ⟨state', unlocked, place⟩ := there
    have mirrored := next.tab.vaults.mirrored state' unlocked
    rw [place] at mirrored
    rcases App.unlocked_step unlocked with opens | ⟨state, wasUnlocked, evolves⟩
    · obtain ⟨account, trace', grows, descends, known⟩ := of_opens apart given history opens place
      exact ⟨trace', grows, of_unlocked unlocked descends known mirrored⟩
    · obtain ⟨account, descends, known⟩ :=
        history.unlocked state wasUnlocked (evolves.keeps.1.symm.trans place)
      obtain ⟨next, trace', grows, descends', known'⟩ :=
        of_acts apart given descends known (.of_evolves evolves)
      exact ⟨trace', grows, of_unlocked unlocked descends' known' mirrored⟩
  · have locked : ∀ state', (App.step world input).1.vaults.mode = .unlocked state' →
        state'.path ≠ path := fun state' unlocked place => there ⟨state', unlocked, place⟩
    obtain ⟨v, account, found, descends, known⟩ := history.stored
    have leaves := App.leaves_step found input
    generalize left : (App.step world input).2 path = file at leaves
    cases leaves with
    | kept =>
        exact ⟨trace, .refl 1 trace, ⟨v, account, left.trans found, descends, known⟩,
          fun state' unlocked place => absurd place (locked state' unlocked)⟩
    | @written state state' unlocked place evolves =>
        obtain ⟨account, descends, known⟩ := history.unlocked state unlocked place
        obtain ⟨next, trace', grows, descends', known'⟩ :=
          of_acts apart given descends known (.of_evolves evolves)
        exact ⟨trace', grows, ⟨state'.vault, next, left, descends'.toDescends, known'⟩,
          fun state' unlocked place => absurd place (locked state' unlocked)⟩

/-- **A run** goes on from the history, by at most one record a round. -/
theorem after {inputs : List (Input SocketAddr)}
    (permitted : App.Permitted passwords inputs world) :
    ∃ trace', GrowsBy inputs.length trace trace' ∧
      HistoryAt passwords path password origin trace' (App.after inputs world) := by
  induction inputs generalizing world trace with
  | nil => exact ⟨trace, .refl 0 trace, history⟩
  | cons input later ih =>
      obtain ⟨trace', grows, history'⟩ := step apart current history permitted.1
      obtain ⟨trace'', grows', history''⟩ :=
        ih (current.step apart permitted.1) history' permitted.2
      refine ⟨trace'', ?_, history''⟩
      rw [List.length_cons, Nat.add_comm]
      exact grows.trans grows'

end HistoryAt

end ReVault.Tui
