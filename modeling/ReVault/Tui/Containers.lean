import ReVault.Cli.Session
import ReVault.Tui.Screen
import ReVault.Tui.Timeout

/-!
# The containers behind the interface

Whatever keys are pressed, every container on the disk stays one that operations lead to from
its creation, and the container of an unlocked vault is what its handle has written.
-/

namespace ReVault.Tui

open Foundation Primitives

variable [Primitives]

/-! ## The disk -/

/-- Every file is kept. -/
def FilesKept (passwords : List String) (disk : FileSystem) : Prop :=
  ∀ path file, disk path = some file → Kept passwords file

/-- An empty file is no container. -/
theorem Kept.empty (passwords : List String) : Kept passwords [] := by
  apply Kept.foreign
  intro password _ identity v opened
  rw [Vault.openWithPassword] at opened
  obtain ⟨header, read, _⟩ := except_bind_eq_ok_iff.mp opened
  cases read

/-- What the surroundings of a round do: capacities are read as the ones that fit, and a peer
sends a container that is kept. -/
structure Environment.Allows {SocketAddr : Type} (env : Environment SocketAddr)
    (passwords : List String) : Prop where
  small : ∀ text capacityBytes, env.parseCapacity text = .ok capacityBytes →
    capacityBytes.toNat < Vault.capacityLimit
  joined : ∀ addr peer path file, (env.join addr peer path).2 = some file → Kept passwords file

omit [Primitives] in
/-- A form that passes its check has a capacity that parses. -/
theorem VaultsApp.parseCapacity_of_checkForm {SocketAddr : Type} {env : Environment SocketAddr}
    {form : CreateForm} {capacityBytes : UInt64}
    (checked : checkForm env form = .ok capacityBytes) :
    env.parseCapacity form.capacity = .ok capacityBytes := by
  unfold checkForm at checked
  split at checked
  · cases checked
  · split at checked
    · cases checked
    · split at checked
      · cases checked
      · split at checked
        · cases checked
          assumption
        · cases checked

namespace FilesKept

variable {passwords : List String} {disk : FileSystem}

/-- A kept file is written. -/
theorem write (kept : FilesKept passwords disk) (path : Path) {file : Bytes}
    (keeps : Kept passwords file) :
    FilesKept passwords (Function.update disk path (some file)) := by
  intro path' file' found
  by_cases same : path' = path
  · subst same
    rw [Function.update_self, Option.some.injEq] at found
    exact found ▸ keeps
  · rw [Function.update_of_ne same] at found
    exact kept path' file' found

/-- A container is created. -/
theorem create [Lawful] (kept : FilesKept passwords disk) (path : Path)
    (name description : String) {capacityBytes : UInt64}
    (small : capacityBytes.toNat < Vault.capacityLimit) {password : String}
    (known : password ∈ passwords) (admin : Identity) (draws : Draws) :
    FilesKept passwords (finalState
      (OpenVault.create path name description capacityBytes password admin draws disk)) := by
  unfold OpenVault.create
  split
  · rename_i v _ created _
    exact kept.write path (.container (.of_create created small) known)
  · exact kept
  · exact kept.write path (.empty passwords)
  · exact kept

/-- The form for a new vault is submitted. -/
theorem tryCreate [Lawful] {SocketAddr : Type} {env : Environment SocketAddr}
    (kept : FilesKept passwords disk) (allows : env.Allows passwords) (app : VaultsApp)
    {form : CreateForm} (known : form.password ∈ passwords) :
    FilesKept passwords (app.tryCreate env disk form).2 := by
  unfold VaultsApp.tryCreate
  split
  · exact kept
  · rename_i capacityBytes checked
    split
    · exact kept
    · rename_i path _
      have created := kept.create path (trim form.name) (trim form.description)
        (allows.small _ _ (VaultsApp.parseCapacity_of_checkForm checked)) known app.identity
        env.draws
      split
      · rename_i ran
        rw [ran] at created
        exact created
      · rename_i ran
        rw [ran] at created
        exact created

end FilesKept

/-! ## The vaults tab -/

namespace VaultsApp

/-- The unlocked vault is shown as it is, and its container is what its handle has written. -/
structure Current (passwords : List String) (app : VaultsApp) (disk : FileSystem) : Prop where
  kept : FilesKept passwords disk
  shown : ∀ state, app.mode = .unlocked state → state.Current passwords
  mirrored : ∀ state, app.mode = .unlocked state → disk state.path = some state.vault.file

variable {SocketAddr : Type} {env : Environment SocketAddr} {passwords : List String}
  {app : VaultsApp} {disk : FileSystem}

/-- A tab without an unlocked vault. -/
theorem Current.of_locked (kept : FilesKept passwords disk)
    (locked : ∀ state, app.mode ≠ .unlocked state) : app.Current passwords disk :=
  ⟨kept, fun state unlocked => absurd unlocked (locked state),
    fun state unlocked => absurd unlocked (locked state)⟩

/-- A tab with an unlocked vault whose container has just been written. -/
theorem Current.of_written (kept : FilesKept passwords disk) {state : UnlockedState}
    (shown : state.Current passwords) (unlocked : app.mode = .unlocked state) :
    app.Current passwords (Function.update disk state.path (some state.vault.file)) := by
  obtain ⟨account, _, _, _, descends, known⟩ := shown.account
  refine ⟨kept.write _ (.container descends.toDescends known), fun state' unlocked' => ?_,
    fun state' unlocked' => ?_⟩
  · rw [unlocked, Mode.unlocked.injEq] at unlocked'
    exact unlocked' ▸ shown
  · rw [unlocked, Mode.unlocked.injEq] at unlocked'
    rw [← unlocked', Function.update_self]

/-- The screen may change as long as its mode stays. -/
theorem Current.of_mode {app' : VaultsApp} (current : app.Current passwords disk)
    (same : app'.mode = app.mode) : app'.Current passwords disk :=
  ⟨current.kept, by rw [same]; exact current.shown, by rw [same]; exact current.mirrored⟩

/-- A change of the unlocked vault that leaves its container alone. -/
theorem Current.onUnlocked (current : app.Current passwords disk)
    {change : UnlockedState → UnlockedState} (keeps : ∀ state, app.mode = .unlocked state →
      (change state).Current passwords ∧ (change state).path = state.path ∧
        (change state).vault = state.vault) : (app.onUnlocked change).Current passwords disk := by
  rcases App.mode_onUnlocked change app with ⟨state, unlocked, changed⟩ | ⟨locked, same⟩
  · obtain ⟨shown, path, vault⟩ := keeps state unlocked
    refine ⟨current.kept, fun state' unlocked' => ?_, fun state' unlocked' => ?_⟩
    · rw [changed, Mode.unlocked.injEq] at unlocked'
      exact unlocked' ▸ shown
    · rw [changed, Mode.unlocked.injEq] at unlocked'
      rw [← unlocked', path, vault]
      exact current.mirrored state unlocked
  · exact current.of_mode same

variable [Lawful] (current : app.Current passwords disk) (apart : PasswordsApart passwords)
  (allows : env.Allows passwords)

include current apart allows

omit apart in
/-- A key press in the form for a new vault. -/
theorem Current.creatingKey {form : CreateForm} (creating : app.mode = .creating form)
    {key : KeyCode} (known : ∀ password, app.submitted key = some password →
      password ∈ passwords) :
    (app.creatingKey env disk form key).1.Current passwords
      (app.creatingKey env disk form key).2 := by
  have locked := app.mode_creatingKey env disk key form
  apply Current.of_locked _ locked
  unfold VaultsApp.creatingKey
  split
  · exact current.kept
  · rename_i form' submits
    obtain ⟨rfl, rfl⟩ := CreateForm.of_submit submits
    have inKnown := known form'.password (by simp [submitted, creating])
    have created := current.kept.tryCreate allows app inKnown
    split
    · rename_i ran
      rw [ran] at created
      exact created
    · rename_i ran
      rw [ran] at created
      exact created
  · exact current.kept

omit allows in
/-- A key press in the form for a password. -/
theorem Current.unlockingKey {form : UnlockForm} {path : Path} {name : String}
    (unlocking : app.mode = .unlocking form path name) {key : KeyCode}
    (known : ∀ password, app.submitted key = some password → password ∈ passwords) :
    (app.unlockingKey env disk form path name key).Current passwords disk := by
  have processed : app.processKey env disk key =
      (app.unlockingKey env disk form path name key, disk) := by
    rw [processKey, unlocking]
  have opens : ∀ state, (app.unlockingKey env disk form path name key).mode = .unlocked state →
      state.Current passwords ∧ disk state.path = some state.vault.file := by
    intro state unlocked
    have unlocked' : (app.processKey env disk key).1.mode = .unlocked state := by
      rw [processed, unlocked]
    rcases app.unlocked_processKey env disk key unlocked' with
      ⟨form', path', name', opened, asked, unlocking', ran, rfl⟩ | ⟨_, wasUnlocked, _⟩
    · rw [unlocking, Mode.unlocking.injEq] at unlocking'
      obtain ⟨rfl, rfl, rfl⟩ := unlocking'
      have inKnown := known form.password asked
      obtain ⟨file, found, opened'⟩ := OpenVault.exists_of_openVault ran
      obtain ⟨same, drained, account, _, _, _, descends, inForce⟩ :=
        (current.kept path file found).opens apart inKnown opened' env.draws
      have core := UnlockedState.ofVault_core opened.vault path name app.identity env.now
      refine ⟨.ofVault descends drained inForce path name app.identity env.now, ?_⟩
      rw [UnlockedState.path_ofVault, core, same]
      exact found
    · rw [unlocking] at wasUnlocked
      cases wasUnlocked
  exact ⟨current.kept, fun state unlocked => (opens state unlocked).1,
    fun state unlocked => (opens state unlocked).2⟩

omit allows in
/-- A key press on the screen of an unlocked vault. -/
theorem Current.unlockedKey {state : UnlockedState} (unlocked : app.mode = .unlocked state)
    (one : state.OneForm) (key : KeyCode) :
    (app.unlockedKey env disk state key).1.Current passwords
      (app.unlockedKey env disk state key).2 := by
  have shown := (current.shown state unlocked).handleKey apart disk env.draws one env.now key
  have samePath : (state.handleKey disk env.now env.draws key).1.path = state.path :=
    (UnlockedState.SameSession.handleKey disk env.draws key state env.now).path
  unfold VaultsApp.unlockedKey
  generalize state.handleKey disk env.now env.draws key = reached at *
  obtain ⟨state', outcome⟩ := reached
  simp only at shown samePath ⊢
  cases outcome with
  | lock =>
      obtain ⟨account, _, _, _, descends, known⟩ := shown.account
      apply Current.of_locked (current.kept.write _ (.container descends.toDescends known))
      simp
  | «continue» =>
      change VaultsApp.Current passwords { app with mode := .unlocked state' } _
      exact .of_written current.kept shown rfl

/-- **The vaults tab** keeps its containers and shows the unlocked one as it is. -/
theorem Current.processKey (one : ∀ state, app.mode = .unlocked state → state.OneForm)
    {key : KeyCode} (known : ∀ password, app.submitted key = some password →
      password ∈ passwords) :
    (app.processKey env disk key).1.Current passwords (app.processKey env disk key).2 := by
  unfold VaultsApp.processKey
  split
  · rename_i browsing
    exact .of_locked current.kept (app.mode_browsingKey key browsing)
  · rename_i form creating
    exact current.creatingKey allows creating known
  · rename_i form path name unlocking
    exact current.unlockingKey apart unlocking known
  · rename_i state unlocked
    exact current.unlockedKey apart unlocked (one state unlocked) key

end VaultsApp

/-! ## The network tab -/

namespace NetworkTab

variable {SocketAddr : Type} [SocketAddress SocketAddr] {env : Environment SocketAddr}
  {passwords : List String} {tab : NetworkTab} {disk : FileSystem}

/-- Beside what holds of the vaults: a peer that is about to be revoked is shown as granted. -/
structure Current (passwords : List String) (tab : NetworkTab) (disk : FileSystem) : Prop where
  vaults : tab.vaults.Current passwords disk
  revoking : ∀ target password error, tab.networkUi.mode = .confirmRevoke target password error →
    ∀ state, tab.vaults.mode = .unlocked state → ∃ info ∈ state.recipients, info.peerId = target

omit [SocketAddress SocketAddr] in
/-- Another mode without a question. -/
theorem Current.showing (current : tab.Current passwords disk) {mode : NetworkTabMode}
    (plain : ∀ target password error, mode ≠ .confirmRevoke target password error) :
    (tab.showing mode).Current passwords disk :=
  ⟨current.vaults, fun target password error asks => absurd asks (plain target password error)⟩

/-- A tab without a question. -/
theorem Current.of_plain {tab : NetworkTab} (vaults : tab.vaults.Current passwords disk)
    (plain : ∀ target password error, tab.networkUi.mode ≠ .confirmRevoke target password error) :
    tab.Current passwords disk :=
  ⟨vaults, fun target password error asks => absurd asks (plain target password error)⟩

omit [SocketAddress SocketAddr] in
/-- What becomes of the unlocked vault is written to its container. -/
theorem Current.withUnlocked (kept : FilesKept passwords disk) {state : UnlockedState}
    (shown : state.Current passwords)
    (revoking : ∀ target password error,
      tab.networkUi.mode = .confirmRevoke target password error →
        ∃ info ∈ state.recipients, info.peerId = target) :
    (tab.withUnlocked disk state).1.Current passwords (tab.withUnlocked disk state).2 := by
  refine ⟨?_, ?_⟩
  · change VaultsApp.Current passwords { tab.vaults with mode := .unlocked state } _
    exact .of_written kept shown rfl
  · rintro target password error asks _ ⟨⟩
    exact revoking target password error asks

variable [Lawful] (current : tab.Current passwords disk) (apart : PasswordsApart passwords)
  (allows : env.Allows passwords)

include current

section

include apart

omit [SocketAddress SocketAddr] in
/-- A key press while nothing is open. -/
theorem Current.idleKey (idle : tab.networkUi.mode = .idle) (key : KeyCode) :
    (tab.idleKey key).Current passwords disk := by
  unfold NetworkTab.idleKey
  split
  · exact current.showing nofun
  · split
    · exact current.showing nofun
    · exact current
  · split
    · rename_i target selected
      obtain ⟨state, unlocked, found⟩ := Option.bind_eq_some_iff.mp selected
      refine ⟨current.vaults, ?_⟩
      rintro _ _ _ ⟨⟩ state' unlocked'
      have same : tab.vaults.mode = .unlocked state' := unlocked'
      rw [App.mode_of_current unlocked, Mode.unlocked.injEq] at same
      exact ⟨target, same ▸ List.mem_of_getElem? found, rfl⟩
    · exact current
  · split
    · exact current
    · split
      · apply Current.of_plain
        · apply current.vaults.onUnlocked
          intro state unlocked
          exact ⟨(current.vaults.shown state unlocked).attempt_idle apart .stopServing rfl, rfl,
            rfl⟩
        · rw [idle]
          nofun
      · exact current.showing nofun
  · exact .of_plain current.vaults (by rw [idle]; nofun)
  · simp only
    split
    · exact .of_plain current.vaults (by rw [idle]; nofun)
    · exact current
  · exact current

/-- A key press in the form for granting. -/
theorem Current.grantingKey (input : String) (error : Option FormError) (key : KeyCode) :
    (tab.grantingKey env disk input error key).1.Current passwords
      (tab.grantingKey env disk input error key).2 := by
  unfold NetworkTab.grantingKey
  split
  · exact current.showing nofun
  · exact current.showing nofun
  · split
    · exact current.showing nofun
    · rename_i state unlocked
      have shown := (current.vaults.shown state (App.mode_of_current unlocked)).shares apart
        (Shares.grant input : Shares env none state _) nofun
      split
      · rename_i ran
        rw [ran] at shown
        exact Current.withUnlocked current.vaults.kept shown nofun
      · rename_i ran
        rw [ran] at shown
        exact Current.withUnlocked current.vaults.kept shown nofun

/-- A key press in the question for a revocation. -/
theorem Current.confirmRevokeKey {target : PeerId} {password : String}
    {error : Option FormError} (asks : tab.networkUi.mode = .confirmRevoke target password error)
    {key : KeyCode} (known : key = .enter → password ∈ passwords) :
    (tab.confirmRevokeKey env disk target password error key).1.Current passwords
      (tab.confirmRevokeKey env disk target password error key).2 := by
  unfold NetworkTab.confirmRevokeKey
  split
  · exact current.showing nofun
  · refine ⟨current.vaults, ?_⟩
    rintro _ _ _ ⟨⟩
    exact current.revoking _ _ _ asks
  · rename_i submits
    have inKnown := known (enter_of_submit submits)
    split
    · exact .of_plain current.vaults nofun
    · rename_i state unlocked
      have unlocked := App.mode_of_current unlocked
      have shown := (current.vaults.shown state unlocked).shares apart
        (Shares.revoke target rfl : Shares env (some password) state _) (by
          rintro _ ⟨⟩
          exact inKnown)
      split
      · rename_i ran
        rw [ran] at shown
        exact Current.withUnlocked current.vaults.kept shown nofun
      · rename_i failed reached ran
        have refused := ((current.vaults.shown state unlocked).attemptShare apart
          (.revoke target password env.draws) (by rintro _ _ _ ⟨⟩; exact inKnown)
          (fun _ _ => nofun)).2 failed
        have ran' : state.attemptShare (Unlocked.perform (.revoke target password env.draws)) =
            (some failed, reached) := ran
        rw [ran'] at refused
        obtain rfl : reached = state := refused rfl
        rw [ran] at shown
        apply Current.withUnlocked current.vaults.kept shown
        rintro _ _ _ ⟨⟩
        exact current.revoking _ _ _ asks _ unlocked

omit [SocketAddress SocketAddr] in
/-- A key press in the prompt for a port. -/
theorem Current.servePromptKey (portInput : String) (error : Option FormError)
    (key : KeyCode) : (tab.servePromptKey env portInput error key).Current passwords disk := by
  unfold NetworkTab.servePromptKey
  split
  · exact current.showing nofun
  · exact current.showing nofun
  · split
    · exact current.showing nofun
    · split
      · exact current.showing nofun
      · split
        · apply Current.of_plain
          · apply current.vaults.onUnlocked
            intro state unlocked
            exact ⟨(current.vaults.shown state unlocked).attempt_idle apart .startServing rfl,
              rfl, rfl⟩
          · nofun
        · exact current.showing nofun

end

omit [Lawful] in
include allows in
/-- A replica is joined at a place where nothing was. -/
theorem Current.tryJoin (input : String) :
    tab.vaults.Current passwords (tab.tryJoin env disk input).2 := by
  have joins : ∀ addr peer path, (disk path).isSome ≠ true →
      tab.vaults.Current passwords (Function.update disk path (env.join addr peer path).2) := by
    intro addr peer path nothing
    have elsewhere : ∀ state, tab.vaults.mode = .unlocked state → state.path ≠ path := by
      rintro state unlocked rfl
      rw [current.vaults.mirrored state unlocked] at nothing
      exact nothing rfl
    refine ⟨?_, current.vaults.shown, fun state unlocked => ?_⟩
    · intro path' file found
      by_cases same : path' = path
      · subst same
        rw [Function.update_self] at found
        exact allows.joined addr peer _ file found
      · rw [Function.update_of_ne same] at found
        exact current.vaults.kept path' file found
    · rw [Function.update_of_ne (elsewhere state unlocked)]
      exact current.vaults.mirrored state unlocked
  unfold NetworkTab.tryJoin
  split
  · exact current.vaults
  · rename_i invite _
    split
    · exact current.vaults
    · rename_i addr _
      simp only
      split
      · exact current.vaults
      · rename_i nothing
        have joined := joins addr invite.peerId _ nothing
        split
        · rename_i ran
          rw [ran] at joined
          exact joined
        · rename_i ran
          rw [ran] at joined
          exact joined

omit [Lawful] in
include allows in
/-- A key press in the form for joining. -/
theorem Current.joiningKey (input : String) (error : Option FormError) (key : KeyCode) :
    (tab.joiningKey env disk input error key).1.Current passwords
      (tab.joiningKey env disk input error key).2 := by
  unfold NetworkTab.joiningKey
  split
  · exact current.showing nofun
  · exact current.showing nofun
  · have joined := current.tryJoin allows input
    split
    · rename_i ran
      rw [ran] at joined
      exact .of_plain (joined.of_mode rfl) nofun
    · rename_i ran
      rw [ran] at joined
      exact .of_plain joined nofun

include apart allows in
/-- **The network tab** keeps the containers and shows the unlocked one as it is. -/
theorem Current.modeKey {key : KeyCode} (known : ∀ password,
      tab.networkUi.submitted key = some password → password ∈ passwords) :
    (tab.modeKey env disk key).1.Current passwords (tab.modeKey env disk key).2 := by
  unfold NetworkTab.modeKey
  split
  · rename_i idle
    exact current.idleKey apart idle key
  · exact current.joiningKey allows _ _ key
  · exact current.grantingKey apart _ _ key
  · rename_i target password error asks
    apply current.confirmRevokeKey apart asks
    intro enter
    exact known password (by simp [enter, NetworkTabWidget.submitted, asks])
  · exact current.servePromptKey apart _ _ key

end NetworkTab

/-! ## The interface -/

namespace App

variable {SocketAddr : Type} [SocketAddress SocketAddr] {env : Environment SocketAddr}
  {passwords : List String} {world : App × FileSystem} {disk : FileSystem}

/-- A round submits known passwords only. -/
structure Permits (passwords : List String) (app : App) (input : Input SocketAddr) : Prop where
  allows : input.env.Allows passwords
  known : ∀ env key, input = .key env key → ∀ password, app.submitted key = some password →
    password ∈ passwords

omit [SocketAddress SocketAddr] in
/-- The password that a permitted round is given is known. -/
theorem Permits.asks {app : App} {input : Input SocketAddr}
    (permits : Permits passwords app input) {password : String}
    (asked : app.asks input = some password) : password ∈ passwords := by
  cases input with
  | key env key => exact permits.known env key rfl password asked
  | tick env polled => cases asked

/-- So does every round of a run. -/
def Permitted (passwords : List String) : List (Input SocketAddr) → App × FileSystem → Prop
  | [], _ => True
  | input :: later, world =>
      Permits passwords world.1 input ∧ Permitted passwords later (step world input)

/-- **Nothing is stale.** What is open has the focus, the unlocked vault is shown as it is, and
the disk holds what its handle has written. -/
structure Current (passwords : List String) (world : App × FileSystem) : Prop where
  focused : world.1.Focused
  tab : NetworkTab.Current passwords ⟨world.1.vaults, world.1.networkUi⟩ world.2

section

variable [Lawful] (apart : PasswordsApart passwords)

include apart

/-- A key press. -/
theorem Current.handleKey (current : Current passwords world) (allows : env.Allows passwords)
    {key : KeyCode} (known : ∀ password, world.1.submitted key = some password →
      password ∈ passwords) :
    NetworkTab.Current passwords ⟨(world.1.handleKey env world.2 key).1.vaults,
      (world.1.handleKey env world.2 key).1.networkUi⟩ (world.1.handleKey env world.2 key).2 := by
  have presses := presses_handleKey env world.2 key world.1
  generalize (world.1.handleKey env world.2 key).1 = app' at *
  generalize (world.1.handleKey env world.2 key).2 = disk' at *
  cases presses with
  | idle _ => exact current.tab
  | switch _ _ => exact current.tab
  | settings _ => exact current.tab
  | vaults selected =>
      have processed := current.tab.vaults.processKey apart allows current.focused.oneForm
        (fun password submits => known password (by simp only [submitted, selected]; exact submits))
      have handled : (world.1.vaults.handleKey env world.2 key).1.Current passwords
          (world.1.vaults.handleKey env world.2 key).2 := by
        have sameDisk : (world.1.vaults.handleKey env world.2 key).2 =
            (world.1.vaults.processKey env world.2 key).2 := by
          simp only [VaultsApp.handleKey]
          split <;> rfl
        rw [sameDisk]
        exact processed.of_mode (world.1.vaults.mode_handleKey env world.2 key)
      refine ⟨handled, fun target password error asks => ?_⟩
      -- a question of the network tab would have the focus
      have onNetwork := current.focused.network (by
        change world.1.networkUi.mode = _ at asks
        simp [NetworkTabWidget.isModal, asks])
      rw [selected] at onNetwork
      cases onNetwork
  | network selected =>
      have active : NetworkTab.Current passwords
          ⟨world.1.vaults.onUnlocked (·.recordActivity env.now), world.1.networkUi⟩ world.2 := by
        refine ⟨current.tab.vaults.onUnlocked fun state unlocked =>
          ⟨{ current.tab.vaults.shown state unlocked with }, rfl, rfl⟩, ?_⟩
        intro target password error asks state unlocked
        rcases mode_onUnlocked (·.recordActivity env.now) world.1.vaults with
          ⟨state', wasUnlocked, changed⟩ | ⟨locked, same⟩
        · have unlocked' : (world.1.vaults.onUnlocked (·.recordActivity env.now)).mode =
              .unlocked state := unlocked
          rw [changed, Mode.unlocked.injEq] at unlocked'
          rw [← unlocked']
          exact current.tab.revoking target password error asks state' wasUnlocked
        · exact absurd (same.symm.trans unlocked) (locked state)
      exact active.modeKey apart allows fun password submits =>
        known password (by simp only [submitted, selected]; exact submits)

/-- A round. -/
theorem Current.step (current : Current passwords world) {input : Input SocketAddr}
    (permits : Permits passwords world.1 input) : Current passwords (step world input) := by
  refine ⟨current.focused.step input, ?_⟩
  cases input with
  | key env key => exact current.handleKey apart permits.allows (permits.known env key rfl)
  | tick env polled =>
      have ticks := ticks_tick env world.2 polled world.1
      change NetworkTab.Current passwords ⟨(world.1.tick env world.2 polled).1.vaults,
        (world.1.tick env world.2 polled).1.networkUi⟩ world.2
      generalize (world.1.tick env world.2 polled).1 = app' at *
      cases ticks with
      | idle _ => exact current.tab
      | lock unlocked expired =>
          have browsing : ∀ state, ({ world.1.vaults with mode := .browsing }.refresh env
              world.2).mode ≠ .unlocked state := by simp [VaultsApp.refresh]
          exact ⟨.of_locked current.tab.vaults.kept browsing,
            fun _ _ _ _ state unlocked => absurd unlocked (browsing state)⟩
      | @poll state unlocked active =>
          have shown := (current.tab.vaults.shown state unlocked).pollNetwork polled
          obtain ⟨message, same⟩ := state.pollNetwork_eq polled
          refine ⟨⟨current.tab.vaults.kept, ?_, ?_⟩, ?_⟩
          · rintro _ ⟨⟩
            exact shown
          · rintro _ ⟨⟩
            rw [same]
            exact current.tab.vaults.mirrored state unlocked
          · rintro target password error asks _ ⟨⟩
            rw [same]
            exact current.tab.revoking target password error asks state unlocked

/-- A run. -/
theorem Current.after (current : Current passwords world) {inputs : List (Input SocketAddr)}
    (permitted : Permitted passwords inputs world) : Current passwords (after inputs world) := by
  induction inputs generalizing world with
  | nil => exact current
  | cons input later ih => exact ih (current.step apart permitted.1) permitted.2

end

end App

end ReVault.Tui

namespace ReVault.Transparent

open Foundation Primitives Tui

/-- A new vault. -/
def blank : Account := .new "v" "" 65536 "p" (identity 1) (draws 1)

/-- That vault with a file. -/
def stored : Account where
  summary := blank.summary
  password := "p"
  adminSigningPubkey := (identity 1).peerId.signingPublic
  records := 2
  ledger := { blank.ledger with files := blank.ledger.files.set 0 (some ⟨"a", [1, 2, 3], 0, 0⟩) }

/-- The vault with a file descends from its creation. -/
theorem exists_stored : ∃ v origin : Vault,
    v.Descends stored "p" origin [⟨.addFile "a" [1, 2, 3], draws 2, true⟩] := by
  obtain ⟨origin, made, _⟩ := exists_container
  have created := Vault.create_spec made
  have descends : origin.Descends blank "p" origin [] := .of_create made (by decide)
  have added : blank.apply (.addFile "a" [1, 2, 3]) (draws 2) = .ok stored := rfl
  have mutates : (Op.addFile "a" [1, 2, 3]).mutates = true := rfl
  have outcome := descends.performs created.adminIdentity mutates (draws 2) (by rintro _ _ ⟨⟩)
  rw [added] at outcome
  obtain ⟨v, _, descends, _⟩ := outcome
  exact ⟨v, origin, descends⟩

end ReVault.Transparent
