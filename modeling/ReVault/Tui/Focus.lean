import Mathlib.Data.List.Induction
import ReVault.Tui.Frames

/-!
# One form at a time

A form holds the focus until it is closed: nothing is open on a tab that is not selected,
and at most one form is open on an unlocked vault. So a character that is typed can only
reach the form that is shown.
-/

namespace ReVault.Tui

open Foundation Primitives

/-! ## The forms of an unlocked vault -/

namespace UnlockedState

/-- At most one form is open. -/
def OneForm (state : UnlockedState) : Prop :=
  (state.addForm.isSome = true → state.updateForm = none ∧ state.deleteConfirm = none) ∧
    (state.updateForm.isSome = true → state.deleteConfirm = none)

/-- Which forms are open is all that counts. -/
theorem OneForm.of_forms {state state' : UnlockedState} (one : state.OneForm)
    (same : state'.forms = state.forms) : state'.OneForm := by
  simp only [forms, Prod.mk.injEq] at same
  rw [OneForm, same.1, same.2.1, same.2.2]
  exact one

section

variable [Primitives] (disk : FileSystem) (draws : Draws) (key : KeyCode) (state : UnlockedState)

/-- At most one form is opened by a key press. -/
theorem plainKey_oneForm (none' : state.forms = (none, none, none)) :
    (state.plainKey key).1.OneForm := by
  simp only [forms, Prod.mk.injEq] at none'
  have one : state.OneForm := by simp [OneForm, none']
  unfold plainKey
  split
  · exact one
  · exact one
  · exact one.of_forms (moveSelection_forms _ _)
  · exact one.of_forms (moveSelection_forms _ _)
  · simp [OneForm, none']
  · rw [startUpdate]
    split <;> simp [OneForm, none']
  · rw [requestDelete]
    split <;> simp [OneForm, none']
  · exact one.of_forms state.verify_forms
  · exact one

/-- **One form.** No key press opens a form beside another. -/
theorem OneForm.handleKey {state : UnlockedState} (one : state.OneForm) (now : Nat) :
    (state.handleKey disk now draws key).1.OneForm := by
  have one' : (state.recordActivity now).OneForm := one
  unfold UnlockedState.handleKey
  generalize state.recordActivity now = state at *
  simp only
  split
  · rename_i form adding
    obtain ⟨none', none''⟩ := one'.1 (by rw [adding]; rfl)
    obtain ⟨add, same⟩ := addKey_forms disk draws key state form
    simp only [forms, Prod.mk.injEq] at same
    exact ⟨fun _ => ⟨same.2.1.trans none', same.2.2.trans none''⟩, fun _ => same.2.2.trans none''⟩
  · rename_i form idle updating
    have none' := one'.2 (by rw [updating]; rfl)
    obtain ⟨update, same⟩ := updateKey_forms disk draws key state form
    simp only [forms, Prod.mk.injEq] at same
    simp [OneForm, same.1, same.2.2, idle, none']
  · rename_i name idle idle' asking
    obtain ⟨asked, same⟩ := deleteKey_forms draws key state name
    simp only [forms, Prod.mk.injEq] at same
    simp [OneForm, same.1, same.2.1, idle, idle']
  · rename_i idle idle' idle''
    exact plainKey_oneForm key state (by rw [forms, idle, idle', idle''])

end

end UnlockedState

namespace UnlockedState

variable [Primitives] {SocketAddr : Type} [SocketAddress SocketAddr]
  {env : Environment SocketAddr} {disk : FileSystem} {state state' : UnlockedState}

/-- A round opens no second form. -/
theorem OneForm.evolves {asked : Option String} (one : state.OneForm)
    (evolves : Evolves env disk asked state state') : state'.OneForm := by
  cases evolves with
  | idle => exact one
  | key key => exact one.handleKey disk env.draws key env.now
  | network shares =>
      have active : (state.recordActivity env.now).OneForm := one
      exact active.of_forms (forms_of_shares shares)
  | poll polled => exact one.of_forms (pollNetwork_forms polled state)

end UnlockedState

/-! ## The interface -/

namespace App

/-- What is open is on the selected tab. -/
structure Focused (app : App) : Prop where
  network : app.networkUi.isModal = true → app.selectedTab = .network
  settings : app.settingsUi.editing = true → app.selectedTab = .settings
  vaults : app.vaults.blocksTabSwitch = true → app.selectedTab = .vaults
  oneForm : ∀ state, app.vaults.mode = .unlocked state → state.OneForm

variable [Primitives] {SocketAddr : Type} [SocketAddress SocketAddr]

omit [Primitives] in
/-- A change of the vault that opens no form blocks no tab. -/
theorem blocksTabSwitch_onUnlocked (change : UnlockedState → UnlockedState)
    (keeps : ∀ state, (change state).forms = state.forms) (app : VaultsApp) :
    (app.onUnlocked change).blocksTabSwitch = app.blocksTabSwitch := by
  rw [VaultsApp.onUnlocked]
  split
  · rename_i state unlocked
    rw [VaultsApp.blocksTabSwitch, VaultsApp.blocksTabSwitch, unlocked]
    exact UnlockedState.modal_of_forms (keeps state)
  · rfl

/-- The network tab opens and closes no form of the vaults tab. -/
theorem blocksTabSwitch_networkKey (env : Environment SocketAddr) (disk : FileSystem)
    (key : KeyCode) (app : App) :
    (app.networkKey env disk key).1.vaults.blocksTabSwitch = app.vaults.blocksTabSwitch := by
  have shares := shares_networkKey env disk key app
  have active := blocksTabSwitch_onUnlocked (UnlockedState.recordActivity env.now)
    (fun _ => rfl) app.vaults
  rw [← active, VaultsApp.blocksTabSwitch, VaultsApp.blocksTabSwitch]
  generalize (app.networkKey env disk key).1.vaults.mode = mode' at *
  generalize (app.vaults.onUnlocked _).mode = mode at *
  cases shares with
  | locked _ => rfl
  | unlocked shares => exact UnlockedState.modal_of_forms (UnlockedState.forms_of_shares shares)

omit [Primitives] in
/-- Nothing is open anywhere when nothing is open on the selected tab. -/
theorem Focused.closed {app : App} (focused : app.Focused) (closed : app.blocksTabSwitch = false) :
    app.networkUi.isModal = false ∧ app.settingsUi.editing = false ∧
      app.vaults.blocksTabSwitch = false := by
  rw [blocksTabSwitch] at closed
  refine ⟨Bool.not_eq_true _ ▸ fun opened => ?_, Bool.not_eq_true _ ▸ fun opened => ?_,
    Bool.not_eq_true _ ▸ fun opened => ?_⟩
  · simp [focused.network opened, opened] at closed
  · simp [focused.settings opened, opened] at closed
  · simp [focused.vaults opened, opened] at closed

/-- A key press leaves what is open on the selected tab. -/
theorem Focused.presses {env : Environment SocketAddr} {disk disk' : FileSystem} {key : KeyCode}
    {app app' : App} (focused : app.Focused) (presses : Presses env disk key app app' disk')
    (oneForm : ∀ state, app'.vaults.mode = .unlocked state → state.OneForm) : app'.Focused := by
  cases presses with
  | idle _ => exact focused
  | switch closed _ =>
      obtain ⟨network, settings, vaults⟩ := focused.closed closed
      exact ⟨by simp [network], by simp [settings], by simp [vaults], oneForm⟩
  | vaults selected =>
      exact ⟨focused.network, focused.settings, fun _ => selected, oneForm⟩
  | network selected =>
      refine ⟨fun _ => selected, focused.settings, fun opened => ?_, oneForm⟩
      rw [blocksTabSwitch_networkKey] at opened
      exact focused.vaults opened
  | settings selected =>
      exact ⟨focused.network, fun _ => selected, focused.vaults, oneForm⟩

/-- **A round** leaves what is open on the selected tab. -/
theorem Focused.step {world : App × FileSystem} (focused : world.1.Focused)
    (input : Input SocketAddr) : (App.step world input).1.Focused := by
  have oneForm : ∀ state', (App.step world input).1.vaults.mode = .unlocked state' →
      state'.OneForm := by
    intro state' unlocked
    rcases unlocked_step unlocked with ⟨form, path, name, opened, _, _, _, rfl⟩ |
      ⟨state, wasUnlocked, evolves⟩
    · have closed := UnlockedState.ofVault_forms opened.vault path name world.1.vaults.identity
        input.env.now
      simp only [UnlockedState.forms, Prod.mk.injEq] at closed
      simp [UnlockedState.OneForm, closed]
    · exact (focused.oneForm state wasUnlocked).evolves evolves
  cases input with
  | key env key => exact focused.presses (presses_handleKey env world.2 key world.1) oneForm
  | tick env polled =>
      have ticks := ticks_tick env world.2 polled world.1
      change ∀ state', (world.1.tick env world.2 polled).1.vaults.mode = _ → _ at oneForm
      change (world.1.tick env world.2 polled).1.Focused
      generalize (world.1.tick env world.2 polled).1 = app' at *
      cases ticks with
      | idle _ => exact focused
      | lock _ _ => exact ⟨focused.network, focused.settings,
          by simp [VaultsApp.refresh, VaultsApp.blocksTabSwitch], oneForm⟩
      | @poll state unlocked _ =>
          refine ⟨focused.network, focused.settings, fun opened => ?_, oneForm⟩
          apply focused.vaults
          rw [VaultsApp.blocksTabSwitch, unlocked]
          rw [VaultsApp.blocksTabSwitch] at opened
          rw [← opened]
          exact (UnlockedState.modal_of_forms (UnlockedState.pollNetwork_forms polled state)).symm

omit [SocketAddress SocketAddr] in
/-- Nothing is open at the start. -/
theorem focused_new (env : Environment SocketAddr) (dir : Path) (identity : Identity)
    (disk : FileSystem) : (new env dir identity disk).Focused := by
  constructor <;> simp [new, NetworkTabWidget.isModal, VaultsApp.blocksTabSwitch]

/-- Something is open somewhere. -/
def modal (app : App) : Bool :=
  app.networkUi.isModal || app.settingsUi.editing || app.vaults.blocksTabSwitch

omit [Primitives] in
/-- Other tabs are blocked exactly when something is open. -/
theorem Focused.blocksTabSwitch_eq {app : App} (focused : app.Focused) :
    app.blocksTabSwitch = app.modal := by
  cases closed : app.blocksTabSwitch with
  | false =>
      obtain ⟨network, settings, vaults⟩ := focused.closed closed
      simp [modal, network, settings, vaults]
  | true =>
      rw [blocksTabSwitch] at closed
      split at closed <;> simp_all [modal]

omit [Primitives] in
/-- What keeps a tab selected keeps the interface from being quit. -/
theorem interceptsQuit_of_blocksTabSwitch {app : App} (blocks : app.blocksTabSwitch = true) :
    app.interceptsQuit = true := by
  rw [blocksTabSwitch] at blocks
  rw [interceptsQuit]
  split at blocks
  · rw [VaultsApp.blocksTabSwitch] at blocks
    rw [VaultsApp.interceptsQuit]
    split at blocks
    · cases blocks
    · simp_all
    · simp_all
    · simp_all
  · exact blocks
  · exact blocks
  · cases blocks

/-- While something is open, a key press neither quits nor selects another tab. -/
theorem Focused.held {app : App} (focused : app.Focused) (opened : app.modal = true)
    (env : Environment SocketAddr) (disk : FileSystem) (key : KeyCode) :
    app.quits key = false ∧ (app.handleKey env disk key).1.selectedTab = app.selectedTab := by
  have blocks := focused.blocksTabSwitch_eq.trans opened
  have presses := presses_handleKey env disk key app
  constructor
  · simp [quits, interceptsQuit_of_blocksTabSwitch blocks]
  · generalize (app.handleKey env disk key).1 = app' at *
    generalize (app.handleKey env disk key).2 = disk' at *
    cases presses with
    | switch closed _ =>
        rw [closed] at blocks
        cases blocks
    | _ => rfl

/-- **One form at a time**, in every run: what is open is on the selected tab, and it has the
focus until it is closed. -/
theorem focused_after (start : Environment SocketAddr) (dir : Path) (identity : Identity)
    (disk : FileSystem) (inputs : List (Input SocketAddr)) :
    let reached := after inputs (new start dir identity disk, disk)
    reached.1.Focused ∧ (reached.1.modal = true → ∀ (env : Environment SocketAddr) key,
      reached.1.quits key = false ∧
        (reached.1.handleKey env reached.2 key).1.selectedTab = reached.1.selectedTab) := by
  have focused : (after inputs (new start dir identity disk, disk)).1.Focused := by
    induction inputs using List.reverseRecOn with
    | nil => exact focused_new start dir identity disk
    | append_singleton earlier last ih =>
        rw [after, List.foldl_append]
        exact ih.step last
  exact ⟨focused, fun opened env key => focused.held opened env _ key⟩

end App

end ReVault.Tui
