import ReVault.Tui.Focus

/-!
# While a vault is served

A session begins with the key press that submits a port, and ends with the one that stops it or
when the vault is locked. The prompt for a port is open only while no session runs, so a session
that runs is never replaced by another.
-/

namespace ReVault

open Foundation Primitives

/-! ## Acts that keep the session -/

namespace Unlocked

/-- Whether the vault is served stays as it is. -/
def KeepsServing (core core' : UnlockedState) : Prop :=
  core'.network.isSome = core.network.isSome

/-- Nothing happened. -/
theorem KeepsServing.refl (core : UnlockedState) : KeepsServing core core := rfl

/-- One thing after another. -/
theorem KeepsServing.trans (core core' core'' : UnlockedState) (first : KeepsServing core core')
    (second : KeepsServing core' core'') : KeepsServing core core'' := Eq.trans second first

/-- A program of the vault. -/
theorem onVault_keeps {α : Type} (program : VaultM α) : Moves KeepsServing (onVault program) :=
  fun core => by rw [onVault, finalState_within]; rfl

/-- A file operation keeps the session. -/
theorem fileOperation_keeps (mutation : VaultM Unit) :
    Moves KeepsServing (fileOperation mutation) := by
  have reads : Moves KeepsServing (get : UnlockedM UnlockedState) :=
    fun core => KeepsServing.refl core
  apply Moves.bind KeepsServing.trans reads
  intro before
  apply Moves.bind KeepsServing.trans (onVault_keeps mutation)
  intro _ core
  change (recordPatchIfServing before.vault.chainState.1 core).network.isSome = _
  rw [recordPatchIfServing]
  split
  · rfl
  · rename_i serves
    simp [serves]

/-- So does an import. -/
theorem imports_keeps (disk : String → Option Bytes) (path : String)
    (mutation : Bytes → VaultM Unit) :
    Moves KeepsServing (readSource disk path >>= fun data => fileOperation (mutation data)) :=
  Moves.bind KeepsServing.trans (Moves.observe KeepsServing.refl _) fun _ => fileOperation_keeps _

/-- An act that neither starts nor stops the session. -/
def Act.keepsServing : Act → Bool
  | .startServing | .stopServing => false
  | _ => true

/-- So does every act but starting and stopping. -/
theorem perform_keeps [Primitives] {act : Act} (keeps : act.keepsServing = true) :
    Moves KeepsServing (perform act) := by
  have refused : ∀ error, Moves KeepsServing (throw error : UnlockedM Unit) :=
    Moves.throw KeepsServing.refl
  cases act with
  | add disk sourcePath destName draws =>
      rw [perform, submitAdd]
      split
      · exact refused _
      · exact imports_keeps disk sourcePath _
  | update disk sourcePath targetName draws =>
      rw [perform, submitUpdate]
      split
      · exact refused _
      · exact imports_keeps disk sourcePath _
  | delete name draws => exact fileOperation_keeps _
  | grant invite draws =>
      cases invite with
      | none => exact refused _
      | some peer => exact onVault_keeps _
  | revoke target password draws => exact onVault_keeps _
  | startServing => cases keeps
  | stopServing => cases keeps
  | request peer nextSeq => exact Moves.pure KeepsServing.refl _

end Unlocked

namespace Tui

/-! ## The screen of an unlocked vault -/

namespace UnlockedState

/-- The vault is served. -/
def serves (state : UnlockedState) : Bool := state.network.isSome

/-- Whether a vault is served is a matter of the vault. -/
theorem serves_of_core {state state' : UnlockedState}
    (core : state'.toUnlockedState = state.toUnlockedState) : state'.serves = state.serves := by
  rw [serves, core, serves]

variable [Primitives]

/-- An attempt keeps the session. -/
theorem serves_attempt {act : Unlocked.Act} (keeps : act.keepsServing = true)
    (state : UnlockedState) : (state.attempt (Unlocked.perform act)).2.serves = state.serves := by
  rw [serves, core_attempt]
  exact Unlocked.perform_keeps keeps _

/-- So does an attempt to share. -/
theorem serves_attemptShare {act : Unlocked.Act} (keeps : act.keepsServing = true)
    (state : UnlockedState) :
    (state.attemptShare (Unlocked.perform act)).2.serves = state.serves := by
  have kept := serves_attempt keeps state
  rw [attemptShare]
  split
  · rename_i reached ran
    rw [ran] at kept
    exact (serves_of_core (refreshRecipients_core reached)).trans kept
  · rename_i error reached ran
    rw [ran] at kept
    exact kept

/-- So does a grant. -/
theorem serves_submitGrant (SocketAddr : Type) [SocketAddress SocketAddr] (draws : Draws)
    (input : String) (state : UnlockedState) :
    (state.submitGrant SocketAddr draws input).2.serves = state.serves := by
  have keeps : (Unlocked.Act.grant (invitedPeer SocketAddr input) draws).keepsServing = true := rfl
  have kept := serves_attemptShare keeps state
  rw [Unlocked.perform] at kept
  exact kept

/-- So does a revocation. -/
theorem serves_submitRevoke (draws : Draws) (target : PeerId) (password : String)
    (state : UnlockedState) :
    (state.submitRevoke draws target password).2.serves = state.serves := by
  have keeps : (Unlocked.Act.revoke target password draws).keepsServing = true := rfl
  have kept := serves_attemptShare keeps state
  rw [Unlocked.perform] at kept
  exact kept

/-- No key press on its screen starts or stops the session. -/
theorem Handled.serves {state state' : UnlockedState} (handled : Handled state state') :
    state'.serves = state.serves := by
  cases handled with
  | screen core _ => exact serves_of_core core
  | @act act _ onFiles core _ =>
      have keeps : act.keepsServing = true := by cases onFiles <;> rfl
      rw [UnlockedState.serves, core]
      exact Unlocked.perform_keeps keeps _

/-- So does what the network thread reports. -/
theorem serves_pollNetwork (polled : Polled) (state : UnlockedState) :
    (state.pollNetwork polled).1.serves = state.serves := by
  obtain ⟨message, same⟩ := state.pollNetwork_eq polled
  rw [same]
  rfl

end UnlockedState

/-! ## The network tab -/

/-- The unlocked vault is served. -/
def VaultsApp.serves (app : VaultsApp) : Bool :=
  match app.mode with
  | .unlocked state => state.serves
  | _ => false

namespace NetworkTabWidget

/-- The prompt for a port is open. -/
def prompts (widget : NetworkTabWidget) : Bool :=
  match widget.mode with
  | .servePrompt _ _ => true
  | _ => false

/-- A key press starts a session: it submits the port, and the prompt is closed. -/
def startsServing (widget : NetworkTabWidget) (key : KeyCode) (widget' : NetworkTabWidget) : Bool :=
  widget.prompts && key = .enter && !widget'.isModal

/-- The prompt is closed by starting. -/
theorem prompts_of_startsServing {widget widget' : NetworkTabWidget} {key : KeyCode}
    (starts : widget.startsServing key widget' = true) : widget'.prompts = false := by
  simp only [startsServing, Bool.and_eq_true, Bool.not_eq_true'] at starts
  have closed := starts.2
  rw [isModal] at closed
  rw [prompts]
  split at closed
  · rename_i idle
    rw [idle]
  · cases closed

end NetworkTabWidget

/-- Whether the vault is served is a matter of the mode. -/
theorem VaultsApp.serves_of_mode {app app' : VaultsApp} (same : app'.mode = app.mode) :
    app'.serves = app.serves := by
  rw [serves, same, serves]

/-- A change of the vault that keeps the session. -/
theorem VaultsApp.serves_onUnlocked {change : UnlockedState → UnlockedState}
    (keeps : ∀ state, (change state).serves = state.serves) (app : VaultsApp) :
    (app.onUnlocked change).serves = app.serves := by
  rw [onUnlocked]
  split
  · rename_i state unlocked
    rw [serves, serves, unlocked]
    exact keeps state
  · rfl

namespace NetworkTab

/-- What a key press in the network tab comes to for the session. -/
inductive Sessions (key : KeyCode) (tab tab' : NetworkTab) : Prop
  /-- none begins, and no prompt is open -/
  | closed (serves : tab'.vaults.serves = true → tab.vaults.serves = true)
      (closed : tab'.networkUi.prompts = false)
  /-- a prompt is open, which was open before or was opened while none ran -/
  | prompts (serves : tab'.vaults.serves = tab.vaults.serves)
      (asked : tab.networkUi.prompts = true ∨ tab.vaults.serves = false)
  | starts (starts : tab.networkUi.startsServing key tab'.networkUi = true)

variable [Primitives] {SocketAddr : Type} [SocketAddress SocketAddr]
  (env : Environment SocketAddr) (disk : FileSystem) (key : KeyCode) (tab : NetworkTab)

omit [Primitives] in
/-- The unlocked vault is the one that is served. -/
theorem serves_of_current {state : UnlockedState} (current : tab.vaults.current = some state) :
    tab.vaults.serves = state.serves := by
  rw [VaultsApp.serves, App.mode_of_current current]

omit [Primitives] in
/-- A key press while nothing is open stops the session or keeps it. -/
theorem sessions_idleKey (idle : tab.networkUi.mode = .idle) :
    Sessions key tab (tab.idleKey key) := by
  have none' : tab.networkUi.prompts = false := by rw [NetworkTabWidget.prompts, idle]
  have same : ∀ mode, (tab.showing mode).networkUi.prompts = false →
      Sessions key tab (tab.showing mode) := fun mode closed => .closed id closed
  unfold idleKey
  split
  · exact same _ rfl
  · split
    · exact same _ rfl
    · exact .closed id none'
  · split
    · exact same _ rfl
    · exact .closed id none'
  · split
    · exact .closed id none'
    · rename_i state current
      split
      · refine Sessions.closed ?_ none'
        rw [VaultsApp.serves, VaultsApp.onUnlocked, App.mode_of_current current]
        intro serves
        cases serves
      · rename_i serving
        refine Sessions.prompts rfl ?_
        rw [tab.serves_of_current current, UnlockedState.serves, serving]
        exact Or.inr rfl
  · exact .closed id none'
  · simp only
    split
    · exact .closed id none'
    · exact .closed id none'
  · exact .closed id none'

omit [Primitives] in
/-- What is written to the container keeps the session. -/
theorem sessions_withUnlocked {disk : FileSystem} {tab' : NetworkTab}
    {state state' : UnlockedState} (current : tab.vaults.current = some state)
    (keeps : state'.serves = state.serves) (closed : tab'.networkUi.prompts = false) :
    Sessions key tab (tab'.withUnlocked disk state').1 := by
  refine Sessions.closed ?_ closed
  rw [tab.serves_of_current current, ← keeps]
  exact id

/-- Granting keeps it. -/
theorem sessions_grantingKey (input : String) (error : Option FormError) :
    Sessions key tab (tab.grantingKey env disk input error key).1 := by
  unfold grantingKey
  split
  · exact .closed id rfl
  · exact .closed id rfl
  · split
    · exact .closed id rfl
    · rename_i state current
      have keeps := state.serves_submitGrant SocketAddr env.draws input
      split
      · rename_i ran
        rw [ran] at keeps
        exact tab.sessions_withUnlocked key current keeps rfl
      · rename_i ran
        rw [ran] at keeps
        exact tab.sessions_withUnlocked key current keeps rfl

omit [SocketAddress SocketAddr] in
/-- So does revoking. -/
theorem sessions_confirmRevokeKey (target : PeerId) (password : String)
    (error : Option FormError) :
    Sessions key tab (tab.confirmRevokeKey env disk target password error key).1 := by
  unfold confirmRevokeKey
  split
  · exact .closed id rfl
  · exact .closed id rfl
  · split
    · exact .closed id rfl
    · rename_i state current
      have keeps := state.serves_submitRevoke env.draws target password
      split
      · rename_i ran
        rw [ran] at keeps
        exact tab.sessions_withUnlocked key current keeps rfl
      · rename_i ran
        rw [ran] at keeps
        exact tab.sessions_withUnlocked key current keeps rfl

/-- So does joining. -/
theorem sessions_joiningKey (input : String) (error : Option FormError) :
    Sessions key tab (tab.joiningKey env disk input error key).1 := by
  unfold joiningKey
  split
  · exact .closed id rfl
  · exact .closed id rfl
  · split
    · exact .closed id rfl
    · exact .closed id rfl

omit [Primitives] [SocketAddress SocketAddr] in
/-- The prompt for a port starts one. -/
theorem sessions_servePromptKey {portInput : String} {error : Option FormError}
    (asks : tab.networkUi.mode = .servePrompt portInput error) :
    Sessions key tab (tab.servePromptKey env portInput error key) := by
  have asked : tab.networkUi.prompts = true := by rw [NetworkTabWidget.prompts, asks]
  unfold servePromptKey
  split
  · exact .closed id rfl
  · exact .prompts rfl (Or.inl asked)
  · rename_i submits
    split
    · exact .prompts rfl (Or.inl asked)
    · split
      · exact .closed id rfl
      · split
        · apply Sessions.starts
          rw [NetworkTabWidget.startsServing, asked, enter_of_submit submits]
          rfl
        · exact .prompts rfl (Or.inl asked)

/-- **A key press** in the network tab. -/
theorem sessions_modeKey : Sessions key tab (tab.modeKey env disk key).1 := by
  unfold modeKey
  split
  · rename_i idle
    exact tab.sessions_idleKey key idle
  · exact tab.sessions_joiningKey env disk key _ _
  · exact tab.sessions_grantingKey env disk key _ _
  · exact tab.sessions_confirmRevokeKey env disk key _ _ _
  · rename_i asks
    exact tab.sessions_servePromptKey env key asks

end NetworkTab

/-! ## The interface -/

namespace App

/-- A key press starts a session. -/
def startsServing (app : App) (key : KeyCode) (app' : App) : Bool :=
  app.selectedTab = .network && app.networkUi.startsServing key app'.networkUi

/-- The prompt for a port is open only while no session runs. -/
def OneSession (app : App) : Prop := app.networkUi.prompts = true → app.vaults.serves = false

variable [Primitives] {SocketAddr : Type} [SocketAddress SocketAddr]
  {env : Environment SocketAddr} {disk : FileSystem} {app app' : App}

omit [SocketAddress SocketAddr] in
/-- The vaults tab starts no session. -/
theorem serves_vaultsKey (env : Environment SocketAddr) (disk : FileSystem) (key : KeyCode)
    (vaults : VaultsApp) (serves : (vaults.handleKey env disk key).1.serves = true) :
    vaults.serves = true := by
  rw [VaultsApp.serves_of_mode (vaults.mode_handleKey env disk key), VaultsApp.serves] at serves
  split at serves
  · rename_i state' unlocked
    rcases vaults.unlocked_processKey env disk key unlocked with
      ⟨_, path, name, opened, _, _, _, rfl⟩ | ⟨state, wasUnlocked, rfl⟩
    · have core := UnlockedState.ofVault_core opened.vault path name vaults.identity env.now
      rw [UnlockedState.serves, core] at serves
      cases serves
    · have handled := UnlockedState.Handled.handleKey disk env.draws key state env.now
      rw [VaultsApp.serves, wasUnlocked]
      exact handled.serves.symm.trans serves
  · cases serves

omit [Primitives] in
/-- A prompt has the focus. -/
theorem Focused.selectedTab_of_prompts (focused : app.Focused)
    (prompts : app.networkUi.prompts = true) : app.selectedTab = .network := by
  apply focused.network
  rw [NetworkTabWidget.prompts] at prompts
  rw [NetworkTabWidget.isModal]
  split at prompts
  · rename_i asks
    rw [asks]
  · cases prompts

/-- A key press that leads to a session finds it running or starts it, and no prompt is opened
while one runs. -/
theorem OneSession.handleKey (one : app.OneSession) (focused : app.Focused)
    (env : Environment SocketAddr) (disk : FileSystem) (key : KeyCode) :
    (app.handleKey env disk key).1.OneSession ∧
      ((app.handleKey env disk key).1.vaults.serves = true → app.vaults.serves = true ∨
        app.startsServing key (app.handleKey env disk key).1 = true) := by
  have presses := presses_handleKey env disk key app
  generalize (app.handleKey env disk key).1 = app' at *
  generalize (app.handleKey env disk key).2 = disk' at *
  cases presses with
  | idle _ => exact ⟨one, Or.inl⟩
  | switch _ _ => exact ⟨one, Or.inl⟩
  | settings _ => exact ⟨one, Or.inl⟩
  | vaults selected =>
      refine ⟨fun prompts => ?_, fun serves => Or.inl (serves_vaultsKey env disk key _ serves)⟩
      have onNetwork := focused.selectedTab_of_prompts prompts
      rw [selected] at onNetwork
      cases onNetwork
  | network selected =>
      have keeps : ∀ state, (UnlockedState.recordActivity env.now state).serves = state.serves :=
        fun _ => rfl
      have active := VaultsApp.serves_onUnlocked keeps app.vaults
      have sessions := NetworkTab.sessions_modeKey env disk key
        ⟨app.vaults.onUnlocked (·.recordActivity env.now), app.networkUi⟩
      simp only [App.OneSession, startsServing, networkKey, selected, decide_true, Bool.true_and]
      cases sessions with
      | closed serves closed =>
          rw [active] at serves
          exact ⟨by simp [closed], fun served => Or.inl (serves served)⟩
      | prompts serves asked =>
          rw [active] at serves asked
          rw [serves]
          exact ⟨fun _ => asked.elim one id, Or.inl⟩
      | starts starts =>
          have closed := NetworkTabWidget.prompts_of_startsServing starts
          exact ⟨by simp [closed], fun _ => Or.inr starts⟩

end App

end Tui

end ReVault
