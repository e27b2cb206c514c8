import ReVault.Tui.App

/-!
# What a round does

A round of the event loop either leaves the vaults tab without an unlocked vault, or opens
one from the form, or changes the one that is unlocked in one of a few ways. Whatever holds
of an unlocked vault is shown from these.
-/

namespace ReVault.Tui

open Foundation Primitives

variable [Primitives] {SocketAddr : Type} [SocketAddress SocketAddr]

/-- What the network tab does with an unlocked vault. A revocation is given the password that
was asked for. -/
inductive Shares (env : Environment SocketAddr) (asked : Option String) (state : UnlockedState) :
    UnlockedState → Prop
  | idle : Shares env asked state state
  | start : Shares env asked state (state.attempt Unlocked.startServing).2
  | stop : Shares env asked state (state.attempt Unlocked.stopServing).2
  | grant (input : String) :
      Shares env asked state (state.submitGrant SocketAddr env.draws input).2
  | revoke (target : PeerId) {password : String} (given : asked = some password) :
      Shares env asked state (state.submitRevoke env.draws target password).2

/-- A key press in the network tab leaves a vault unlocked when it is, and only then. -/
inductive ModeShares (env : Environment SocketAddr) (asked : Option String) : Mode → Mode → Prop
  | locked {mode : Mode} (locked : ∀ state, mode ≠ .unlocked state) :
      ModeShares env asked mode mode
  | unlocked {state state' : UnlockedState} (shares : Shares env asked state state') :
      ModeShares env asked (.unlocked state) (.unlocked state')

/-- Nothing happened. -/
theorem ModeShares.refl (env : Environment SocketAddr) (asked : Option String) (mode : Mode) :
    ModeShares env asked mode mode := by
  cases mode with
  | unlocked state => exact ModeShares.unlocked Shares.idle
  | _ =>
      apply ModeShares.locked
      rintro state ⟨⟩

/-- How an unlocked vault and its screen change in a round. -/
inductive Evolves (env : Environment SocketAddr) (disk : FileSystem) (asked : Option String)
    (state : UnlockedState) : UnlockedState → Prop
  | idle : Evolves env disk asked state state
  | key (key : KeyCode) :
      Evolves env disk asked state (state.handleKey disk env.now env.draws key).1
  | network {state' : UnlockedState}
      (shares : Shares env asked (state.recordActivity env.now) state') :
      Evolves env disk asked state state'
  | poll (polled : Polled) : Evolves env disk asked state (state.pollNetwork polled).1

omit [Primitives] [SocketAddress SocketAddr] in
/-- An unlock form is submitted as it stands. -/
theorem UnlockForm.of_submit {form form' : UnlockForm} {key : KeyCode}
    (submitted : form.handleKey key = (form', some .submit)) : form' = form ∧ key = .enter := by
  cases key <;> cases submitted
  exact ⟨rfl, rfl⟩

omit [Primitives] [SocketAddress SocketAddr] in
/-- So is a form for a new vault. -/
theorem CreateForm.of_submit {form form' : CreateForm} {key : KeyCode}
    (submitted : form.handleKey key = (form', some .submit)) : form' = form ∧ key = .enter := by
  cases key with
  | enter =>
      rw [CreateForm.handleKey] at submitted
      split at submitted
      · cases submitted
        exact ⟨rfl, rfl⟩
      · cases submitted
  | _ => cases submitted

omit [Primitives] [SocketAddress SocketAddr] in
/-- Only Enter submits an input. -/
theorem enter_of_submit {takes : Char → Bool} {input : String} {key : KeyCode}
    (submitted : inputKey takes input key = .submit) : key = .enter := by
  unfold inputKey at submitted
  split at submitted
  · cases submitted
  · rfl
  · cases submitted
  · split at submitted <;> cases submitted
  · cases submitted

/-! ## The vaults tab -/

namespace VaultsApp

omit [Primitives] in
/-- The password that a key press submits in the vaults tab. -/
def submitted (app : VaultsApp) (key : KeyCode) : Option String :=
  match app.mode, key with
  | .creating form, .enter => some form.password
  | .unlocking form _ _, .enter => some form.password
  | _, _ => none

variable (env : Environment SocketAddr) (disk : FileSystem) (key : KeyCode) (app : VaultsApp)

omit [SocketAddress SocketAddr] in
/-- The list is read again in the same mode. -/
theorem mode_handleKey :
    (app.handleKey env disk key).1.mode = (app.processKey env disk key).1.mode := by
  simp only [handleKey]
  split
  · rename_i browsing
    rw [browsing, refresh, browsing]
  · rfl

omit [Primitives] in
/-- A key press in the list unlocks no vault. -/
theorem mode_browsingKey (browsing : app.mode = .browsing) (state : UnlockedState) :
    (app.browsingKey key).mode ≠ .unlocked state := by
  unfold browsingKey
  split
  · nofun
  · rw [browsing]
    nofun
  · split
    · rw [browsing]
      nofun
    · rw [browsing]
      nofun
  · split
    · nofun
    · rw [browsing]
      nofun
  · rw [browsing]
    nofun

omit [SocketAddress SocketAddr] in
/-- A key press in the form for a new vault unlocks none. -/
theorem mode_creatingKey (form : CreateForm) (state : UnlockedState) :
    (app.creatingKey env disk form key).1.mode ≠ .unlocked state := by
  rw [creatingKey]
  split
  · nofun
  · split
    · nofun
    · nofun
  · nofun

/-- **Unlocking.** The form opens the container that was selected, by the password that it
asked for. -/
def Opens (env : Environment SocketAddr) (disk : FileSystem) (asked : Option String)
    (app : VaultsApp) (state : UnlockedState) : Prop :=
  ∃ form path name opened, asked = some form.password ∧ app.mode = .unlocking form path name ∧
    OpenVault.openVault path form.password app.identity disk = .ok opened disk ∧
    state = .ofVault opened.vault path name app.identity env.now

omit [SocketAddress SocketAddr] in
/-- A vault is unlocked by opening it. -/
theorem mode_tryUnlock {form : UnlockForm} {path : Path} {name : String} {state : UnlockedState}
    (unlocked : app.tryUnlock env disk form path name = .unlocked state) :
    ∃ opened, OpenVault.openVault path form.password app.identity disk = .ok opened disk ∧
      state = .ofVault opened.vault path name app.identity env.now := by
  rw [tryUnlock] at unlocked
  split at unlocked
  · rename_i opened disk' ran
    cases unlocked
    have same : disk' = disk := (observe_eq_ok_iff.mp ran).2
    exact ⟨opened, by rw [ran, same], rfl⟩
  · cases unlocked

omit [SocketAddress SocketAddr] in
/-- A vault that is unlocked after a key press was opened by it or unlocked before. -/
theorem unlocked_processKey {state' : UnlockedState}
    (unlocked : (app.processKey env disk key).1.mode = .unlocked state') :
    app.Opens env disk (app.submitted key) state' ∨ ∃ state, app.mode = .unlocked state ∧
      state' = (state.handleKey disk env.now env.draws key).1 := by
  unfold processKey at unlocked
  split at unlocked
  · rename_i browsing
    exact absurd unlocked (app.mode_browsingKey key browsing state')
  · exact absurd unlocked (app.mode_creatingKey env disk key _ state')
  · rename_i form path name unlocking
    simp only [unlockingKey] at unlocked
    split at unlocked
    · cases unlocked
    · rename_i form' submitted
      obtain ⟨rfl, isEnter⟩ := UnlockForm.of_submit submitted
      obtain ⟨opened, ran, rfl⟩ := app.mode_tryUnlock env disk unlocked
      have asked : app.submitted key = some form'.password := by
        simp [VaultsApp.submitted, unlocking, isEnter]
      exact Or.inl ⟨form', path, name, opened, asked, unlocking, ran, rfl⟩
    · cases unlocked
  · rename_i state wasUnlocked
    refine Or.inr ⟨state, wasUnlocked, ?_⟩
    simp only [unlockedKey] at unlocked
    split at unlocked
    · cases unlocked
    · exact (Mode.unlocked.inj unlocked).symm

end VaultsApp

/-! ## The interface -/

namespace App

variable (env : Environment SocketAddr) (disk : FileSystem)

omit [Primitives] in
/-- The unlocked vault changes, or none is unlocked. -/
theorem mode_onUnlocked (change : UnlockedState → UnlockedState) (app : VaultsApp) :
    (∃ state, app.mode = .unlocked state ∧
      (app.onUnlocked change).mode = .unlocked (change state)) ∨
    (∀ state, app.mode ≠ .unlocked state) ∧ (app.onUnlocked change).mode = app.mode := by
  rw [VaultsApp.onUnlocked]
  split
  · rename_i state unlocked
    exact Or.inl ⟨state, unlocked, rfl⟩
  · rename_i locked
    exact Or.inr ⟨locked, rfl⟩

/-- A change of the unlocked vault, whichever it is. -/
theorem shares_onUnlocked {change : UnlockedState → UnlockedState}
    {asked : Option String} (shares : ∀ state, Shares env asked state (change state))
    (app : VaultsApp) : ModeShares env asked app.mode (app.onUnlocked change).mode := by
  rcases mode_onUnlocked change app with ⟨state, unlocked, changed⟩ | ⟨locked, same⟩
  · rw [unlocked, changed]
    exact .unlocked (shares state)
  · rw [same]
    exact .locked locked

omit [Primitives] in
/-- The unlocked vault is the one of the mode. -/
theorem mode_of_current {app : VaultsApp} {state : UnlockedState}
    (current : app.current = some state) : app.mode = .unlocked state := by
  rw [VaultsApp.current] at current
  split at current
  · rename_i other unlocked
    rw [unlocked, Option.some.inj current]
  · cases current

section Network

variable (key : KeyCode) (app : NetworkTab) (asked : Option String)

/-- A key press while nothing is open. -/
theorem shares_idleKey : ModeShares env asked app.vaults.mode (app.idleKey key).vaults.mode := by
  unfold NetworkTab.idleKey
  split
  · exact ModeShares.refl env _ _
  · split <;> exact ModeShares.refl env _ _
  · split <;> exact ModeShares.refl env _ _
  · split
    · exact ModeShares.refl env _ _
    · split
      · exact shares_onUnlocked env (fun _ => .stop) app.vaults
      · exact ModeShares.refl env _ _
  · exact ModeShares.refl env _ _
  · simp only
    split <;> exact ModeShares.refl env _ _
  · exact ModeShares.refl env _ _

/-- Joining leaves the unlocked vault alone. -/
theorem mode_joiningKey (input : String) (error : Option FormError) :
    (app.joiningKey env disk input error key).1.vaults.mode = app.vaults.mode := by
  rw [NetworkTab.joiningKey]
  split
  · rfl
  · rfl
  · split <;> rfl

/-- A key press in the form for granting. -/
theorem shares_grantingKey (input : String) (error : Option FormError) :
    ModeShares env asked app.vaults.mode
      (app.grantingKey env disk input error key).1.vaults.mode := by
  rw [NetworkTab.grantingKey]
  split
  · exact ModeShares.refl env _ _
  · exact ModeShares.refl env _ _
  · split
    · exact ModeShares.refl env _ _
    · rename_i state current
      have granted := @Shares.grant _ _ _ env asked state input
      rw [mode_of_current current]
      split
      · rename_i reached ran
        rw [ran] at granted
        exact .unlocked granted
      · rename_i error' reached ran
        rw [ran] at granted
        exact .unlocked granted

/-- A key press in the question for a revocation. -/
theorem shares_confirmRevokeKey (target : PeerId) (password : String)
    (error : Option FormError) (submits : key = .enter → asked = some password) :
    ModeShares env asked app.vaults.mode
      (app.confirmRevokeKey env disk target password error key).1.vaults.mode := by
  rw [NetworkTab.confirmRevokeKey]
  split
  · exact ModeShares.refl env _ _
  · exact ModeShares.refl env _ _
  · rename_i submitted
    split
    · exact ModeShares.refl env _ _
    · rename_i state current
      have revoked := @Shares.revoke _ _ _ env asked state target password
        (submits (enter_of_submit submitted))
      rw [mode_of_current current]
      split
      · rename_i reached ran
        rw [ran] at revoked
        exact .unlocked revoked
      · rename_i error' reached ran
        rw [ran] at revoked
        exact .unlocked revoked

/-- A key press in the prompt for a port. -/
theorem shares_servePromptKey (portInput : String) (error : Option FormError) :
    ModeShares env asked app.vaults.mode
      (app.servePromptKey env portInput error key).vaults.mode := by
  rw [NetworkTab.servePromptKey]
  split
  · exact ModeShares.refl env _ _
  · exact ModeShares.refl env _ _
  · split
    · exact ModeShares.refl env _ _
    · split
      · exact ModeShares.refl env _ _
      · split
        · exact shares_onUnlocked env (fun _ => .start) app.vaults
        · exact ModeShares.refl env _ _

/-- A key press goes to what is open. -/
theorem shares_modeKey : ModeShares env (app.networkUi.submitted key) app.vaults.mode
    (app.modeKey env disk key).1.vaults.mode := by
  rw [NetworkTab.modeKey]
  split
  · exact shares_idleKey env key app _
  · rw [mode_joiningKey]
    exact ModeShares.refl env _ _
  · exact shares_grantingKey env disk key app _ _ _
  · rename_i target password error asks
    apply shares_confirmRevokeKey env disk key app _ target password error
    intro enter
    simp [enter, NetworkTabWidget.submitted, asks]
  · exact shares_servePromptKey env key app _ _ _

/-- A key press in the network tab. -/
theorem shares_networkKey (app : App) : ModeShares env (app.networkUi.submitted key)
      (app.vaults.onUnlocked (·.recordActivity env.now)).mode
      (app.networkKey env disk key).1.vaults.mode :=
  shares_modeKey env disk key
    ⟨app.vaults.onUnlocked (·.recordActivity env.now), app.networkUi⟩

/-- A vault that is unlocked after a key press in the network tab was unlocked before. -/
theorem unlocked_networkKey {app : App} {state' : UnlockedState}
    (unlocked : (app.networkKey env disk key).1.vaults.mode = .unlocked state') :
    ∃ state, app.vaults.mode = .unlocked state ∧
      Shares env (app.networkUi.submitted key) (state.recordActivity env.now) state' := by
  have shares := shares_networkKey env disk key app
  rw [unlocked] at shares
  rcases mode_onUnlocked (·.recordActivity env.now) app.vaults with
    ⟨state, wasUnlocked, active⟩ | ⟨locked, same⟩
  · rw [active] at shares
    cases shares with
    | locked locked => exact absurd rfl (locked _)
    | unlocked shares => exact ⟨state, wasUnlocked, shares⟩
  · rw [same] at shares
    cases mode : app.vaults.mode with
    | unlocked state => exact absurd mode (locked state)
    | _ =>
        rw [mode] at shares
        cases shares

end Network

/-- What a key press comes to: nothing, another tab, or a key press of the selected tab. -/
inductive Presses (env : Environment SocketAddr) (disk : FileSystem) (key : KeyCode) (app : App) :
    App → FileSystem → Prop
  | idle (untaken : app.quits key = true ∨ app.selectedTab = .logs) :
      Presses env disk key app app disk
  | switch (closed : app.blocksTabSwitch = false) (isTab : key = .tab) :
      Presses env disk key app { app with selectedTab := app.selectedTab.next } disk
  | vaults (selected : app.selectedTab = .vaults) : Presses env disk key app
      { app with vaults := (app.vaults.handleKey env disk key).1 }
      (app.vaults.handleKey env disk key).2
  | network (selected : app.selectedTab = .network) : Presses env disk key app
      (app.networkKey env disk key).1 (app.networkKey env disk key).2
  | settings (selected : app.selectedTab = .settings) : Presses env disk key app
      { app with
        settingsUi := (app.settingsUi.handleKey app.settings key).1
        settings := (app.settingsUi.handleKey app.settings key).2 } disk

/-- Every key press is one of these. -/
theorem presses_handleKey (key : KeyCode) (app : App) : Presses env disk key app
    (app.handleKey env disk key).1 (app.handleKey env disk key).2 := by
  unfold handleKey
  split
  · rename_i quits
    exact .idle (Or.inl quits)
  · split
    · rename_i switches
      simp only [Bool.and_eq_true, Bool.not_eq_true', decide_eq_true_eq] at switches
      exact .switch switches.1 switches.2
    · split
      · rename_i selected
        exact .vaults selected
      · rename_i selected
        exact .network selected
      · rename_i selected
        exact .settings selected
      · rename_i selected
        exact .idle (Or.inr selected)

/-- What the clock and the network thread come to. -/
inductive Ticks (env : Environment SocketAddr) (disk : FileSystem) (polled : Polled) (app : App) :
    App → Prop
  | idle (locked : ∀ state, app.vaults.mode ≠ .unlocked state) : Ticks env disk polled app app
  | lock {state : UnlockedState} (unlocked : app.vaults.mode = .unlocked state)
      (expired : defaultTimeout ≤ env.now - state.lastActivity) : Ticks env disk polled app
        { app with vaults := { app.vaults with mode := .browsing }.refresh env disk }
  | poll {state : UnlockedState} (unlocked : app.vaults.mode = .unlocked state)
      (active : env.now - state.lastActivity < defaultTimeout) : Ticks env disk polled app
        { app with
          vaults := { app.vaults with mode := .unlocked (state.pollNetwork polled).1 } }

omit [SocketAddress SocketAddr] in
/-- Every tick is one of these. -/
theorem ticks_tick (polled : Polled) (app : App) :
    Ticks env disk polled app (app.tick env disk polled).1 := by
  rw [tick]
  split
  · rename_i state unlocked
    split
    · rename_i expired
      exact .lock unlocked expired
    · rename_i active
      exact .poll unlocked (Nat.lt_of_not_ge active)
  · rename_i locked
    exact .idle locked

omit [Primitives] [SocketAddress SocketAddr] in
/-- The password that a key press submits. -/
def submitted (app : App) (key : KeyCode) : Option String :=
  match app.selectedTab with
  | .vaults => app.vaults.submitted key
  | .network => app.networkUi.submitted key
  | .settings | .logs => none

omit [Primitives] [SocketAddress SocketAddr] in
/-- The password that a round is given. -/
def asks (app : App) : Input SocketAddr → Option String
  | .key _ key => app.submitted key
  | .tick _ _ => none

/-- **A round.** A vault that is unlocked after a round was opened in it, or was unlocked before
and has changed in one of a few ways. -/
theorem unlocked_step {input : Input SocketAddr} {world : App × FileSystem}
    {state' : UnlockedState} (unlocked : (step world input).1.vaults.mode = .unlocked state') :
    world.1.vaults.Opens input.env world.2 (world.1.asks input) state' ∨
      ∃ state, world.1.vaults.mode = .unlocked state ∧
        Evolves input.env world.2 (world.1.asks input) state state' := by
  cases input with
  | key env key =>
      have presses := presses_handleKey env world.2 key world.1
      change (world.1.handleKey env world.2 key).1.vaults.mode = _ at unlocked
      generalize (world.1.handleKey env world.2 key).1 = app' at *
      generalize (world.1.handleKey env world.2 key).2 = disk' at *
      cases presses with
      | idle _ => exact Or.inr ⟨state', unlocked, .idle⟩
      | switch _ _ => exact Or.inr ⟨state', unlocked, .idle⟩
      | settings _ => exact Or.inr ⟨state', unlocked, .idle⟩
      | vaults selected =>
          have asked : world.1.asks (.key env key : Input SocketAddr) =
              world.1.vaults.submitted key := by simp only [asks, submitted, selected]
          rw [VaultsApp.mode_handleKey] at unlocked
          rcases world.1.vaults.unlocked_processKey env world.2 key unlocked with
            opens | ⟨state, wasUnlocked, rfl⟩
          · exact Or.inl (asked ▸ opens)
          · exact Or.inr ⟨state, wasUnlocked, .key key⟩
      | network selected =>
          have asked : world.1.asks (.key env key : Input SocketAddr) =
              world.1.networkUi.submitted key := by simp only [asks, submitted, selected]
          obtain ⟨state, wasUnlocked, shares⟩ := unlocked_networkKey env world.2 key unlocked
          exact Or.inr ⟨state, wasUnlocked, .network (asked ▸ shares)⟩
  | tick env polled =>
      have ticks := ticks_tick env world.2 polled world.1
      change (world.1.tick env world.2 polled).1.vaults.mode = _ at unlocked
      generalize (world.1.tick env world.2 polled).1 = app' at *
      cases ticks with
      | idle _ => exact Or.inr ⟨state', unlocked, .idle⟩
      | lock _ _ => cases unlocked
      | poll wasUnlocked _ =>
          cases unlocked
          exact Or.inr ⟨_, wasUnlocked, .poll polled⟩

end App

end ReVault.Tui
