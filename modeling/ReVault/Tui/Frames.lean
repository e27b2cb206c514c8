import Mathlib.Data.List.Induction
import ReVault.Tui.Steps

/-!
# What a key press leaves alone

A key press changes the form it goes to and no other, and nothing of the session but the
time of the last activity.
-/

namespace ReVault.Tui

open Foundation Primitives

/-! ## The forms of an unlocked vault -/

namespace UnlockedState

/-- The forms that are open. -/
def forms (state : UnlockedState) :
    Option AddFileForm × Option UpdateFileForm × Option String :=
  (state.addForm, state.updateForm, state.deleteConfirm)

/-- Whether something is open depends on the forms. -/
theorem modal_of_forms {state state' : UnlockedState} (same : state'.forms = state.forms) :
    state'.modal = state.modal := by
  simp only [forms, Prod.mk.injEq] at same
  rw [modal, same.1, same.2.1, same.2.2, modal]

/-- An attempt opens no form. -/
theorem attempt_forms (program : UnlockedM Unit) (state : UnlockedState) :
    (state.attempt program).2.forms = state.forms := by
  rw [attempt]
  split <;> rfl

/-- Moving the selection opens no form. -/
theorem moveSelection_forms (delta : Int) (state : UnlockedState) :
    (state.moveSelection delta).forms = state.forms := by
  simp only [moveSelection]
  split_ifs <;> rfl

variable [Primitives]

/-- Reading the files again opens no form. -/
theorem refreshFiles_forms (state : UnlockedState) :
    state.refreshFiles.forms = state.forms := by
  rw [refreshFiles]
  split <;> rfl

/-- Reading the recipients again opens no form. -/
theorem refreshRecipients_forms (state : UnlockedState) :
    state.refreshRecipients.forms = state.forms := by
  rw [refreshRecipients]
  split <;> rfl

/-- Reading the files again leaves the vault alone. -/
theorem refreshFiles_core (state : UnlockedState) :
    state.refreshFiles.toUnlockedState = state.toUnlockedState := by
  rw [refreshFiles]
  split <;> rfl

/-- Reading the recipients again leaves the vault alone. -/
theorem refreshRecipients_core (state : UnlockedState) :
    state.refreshRecipients.toUnlockedState = state.toUnlockedState := by
  rw [refreshRecipients]
  split <;> rfl

/-- A vault that has just been opened is not served. -/
theorem ofVault_core (vault : Vault) (path : Path) (name : String) (identity : Identity)
    (now : Nat) : (ofVault vault path name identity now).toUnlockedState = ⟨vault, none⟩ := by
  rw [ofVault, refreshRecipients_core, refreshFiles_core]

/-- Verifying opens no form. -/
theorem verify_forms (state : UnlockedState) : state.verify.forms = state.forms := by
  rw [verify]
  split <;> rfl

/-- No form is open on a vault that was just opened. -/
theorem ofVault_forms (vault : Vault) (path : Path) (name : String) (identity : Identity)
    (now : Nat) : (ofVault vault path name identity now).forms = (none, none, none) := by
  rw [ofVault, refreshRecipients_forms, refreshFiles_forms]
  rfl

/-- Sharing opens no form of the vaults tab. -/
theorem attemptShare_forms (program : UnlockedM Unit) (state : UnlockedState) :
    (state.attemptShare program).2.forms = state.forms := by
  have kept := attempt_forms program state
  rw [attemptShare]
  split
  · rename_i reached ran
    rw [ran] at kept
    rw [refreshRecipients_forms, kept]
  · rename_i error reached ran
    rw [ran] at kept
    exact kept

/-- Events are shown in the line below the files. -/
theorem pollNetwork_eq (polled : Polled) (state : UnlockedState) :
    ∃ message, (state.pollNetwork polled).1 = { state with message := message } := by
  have shown : ∀ events : List BridgeEvent,
      ∃ message, events.foldl showEvent state = { state with message := message } := by
    intro events
    induction events using List.reverseRecOn with
    | nil => exact ⟨state.message, rfl⟩
    | append_singleton earlier last ih =>
        obtain ⟨message, same⟩ := ih
        exact ⟨some last.message, by rw [List.foldl_append, same]; rfl⟩
  rw [pollNetwork]
  split
  · exact ⟨state.message, rfl⟩
  · exact shown polled.events

/-- Neither do the events of the network thread. -/
theorem pollNetwork_forms (polled : Polled) (state : UnlockedState) :
    (state.pollNetwork polled).1.forms = state.forms := by
  obtain ⟨message, same⟩ := state.pollNetwork_eq polled
  rw [same, forms, forms]

/-! Each form is changed by its own keys only. -/

section

variable (disk : FileSystem) (draws : Draws) (key : KeyCode) (state : UnlockedState)

/-- Submitting the form for importing. -/
theorem submitAdd_forms (form : AddFileForm) : ∃ add,
    (state.submitAdd disk draws form).forms = (add, state.updateForm, state.deleteConfirm) := by
  have kept := attempt_forms
    (Unlocked.submitAdd disk (trim form.sourcePath) (trim form.destName) draws) state
  rw [submitAdd]
  split
  · rename_i reached ran
    rw [ran, ← refreshFiles_forms] at kept
    exact ⟨none, congrArg (Prod.mk none) (congrArg Prod.snd kept)⟩
  · rename_i error reached ran
    rw [ran] at kept
    exact ⟨_, congrArg (Prod.mk _) (congrArg Prod.snd kept)⟩

/-- A key press in it. -/
theorem addKey_forms (form : AddFileForm) : ∃ add,
    (state.addKey disk draws form key).forms = (add, state.updateForm, state.deleteConfirm) := by
  rw [addKey]
  split
  · exact ⟨none, rfl⟩
  · exact submitAdd_forms disk draws state _
  · exact ⟨_, rfl⟩

/-- Submitting the form for a new content. -/
theorem submitUpdate_forms (form : UpdateFileForm) : ∃ update,
    (state.submitUpdate disk draws form).forms =
      (state.addForm, update, state.deleteConfirm) := by
  rw [submitUpdate]
  split
  · exact ⟨none, rfl⟩
  · rename_i file _
    have kept := attempt_forms
      (Unlocked.submitUpdate disk (trim form.sourcePath) file.name draws) state
    split
    · rename_i reached ran
      rw [ran, ← refreshFiles_forms] at kept
      simp only [forms, Prod.mk.injEq] at kept ⊢
      exact ⟨none, kept.1, rfl, kept.2.2⟩
    · rename_i error reached ran
      rw [ran] at kept
      simp only [forms, Prod.mk.injEq] at kept ⊢
      exact ⟨_, kept.1, rfl, kept.2.2⟩

/-- A key press in it. -/
theorem updateKey_forms (form : UpdateFileForm) : ∃ update,
    (state.updateKey disk draws form key).forms =
      (state.addForm, update, state.deleteConfirm) := by
  rw [updateKey]
  split
  · exact ⟨none, rfl⟩
  · exact submitUpdate_forms disk draws state _
  · exact ⟨_, rfl⟩

/-- Deleting a file closes the question. -/
theorem confirmDelete_forms (name : String) :
    (state.confirmDelete draws name).forms = (state.addForm, state.updateForm, none) := by
  have kept := attempt_forms (Unlocked.confirmDelete name draws)
    { state with deleteConfirm := none }
  rw [confirmDelete]
  split
  · rename_i reached ran
    rw [ran, ← refreshFiles_forms] at kept
    exact kept
  · rename_i error reached ran
    rw [ran] at kept
    exact kept

/-- A key press in the question. -/
theorem deleteKey_forms (name : String) : ∃ asked,
    (state.deleteKey draws name key).forms = (state.addForm, state.updateForm, asked) := by
  unfold deleteKey
  split
  · exact ⟨none, confirmDelete_forms draws state name⟩
  · exact ⟨none, confirmDelete_forms draws state name⟩
  · exact ⟨none, confirmDelete_forms draws state name⟩
  · exact ⟨none, rfl⟩
  · exact ⟨none, rfl⟩
  · exact ⟨none, rfl⟩
  · exact ⟨_, rfl⟩

end

variable {SocketAddr : Type} [SocketAddress SocketAddr] {env : Environment SocketAddr}
  {asked : Option String} {state state' : UnlockedState}

/-- The network tab opens no form of the vaults tab. -/
theorem forms_of_shares (shares : Shares env asked state state') : state'.forms = state.forms := by
  cases shares with
  | idle => rfl
  | start => exact attempt_forms _ _
  | stop => exact attempt_forms _ _
  | grant input => exact attemptShare_forms _ _
  | revoke target _ => exact attemptShare_forms _ _

end UnlockedState

/-! ## What never changes while a vault is unlocked -/

namespace UnlockedState

/-- The same vault, left alone for as long. -/
structure SameSession (state state' : UnlockedState) : Prop where
  path : state'.path = state.path
  name : state'.name = state.name
  localIdentity : state'.localIdentity = state.localIdentity
  lastActivity : state'.lastActivity = state.lastActivity

namespace SameSession

/-- Nothing happened. -/
theorem refl (state : UnlockedState) : SameSession state state := ⟨rfl, rfl, rfl, rfl⟩

/-- One thing after another. -/
theorem trans {state state' state'' : UnlockedState} (first : SameSession state state')
    (second : SameSession state' state'') : SameSession state state'' where
  path := second.path.trans first.path
  name := second.name.trans first.name
  localIdentity := second.localIdentity.trans first.localIdentity
  lastActivity := second.lastActivity.trans first.lastActivity

/-- An attempt. -/
theorem attempt (program : UnlockedM Unit) (state : UnlockedState) :
    SameSession state (state.attempt program).2 := by
  rw [UnlockedState.attempt]
  split <;> exact ⟨rfl, rfl, rfl, rfl⟩

/-- The selection moves. -/
theorem moveSelection (delta : Int) (state : UnlockedState) :
    SameSession state (state.moveSelection delta) := by
  simp only [UnlockedState.moveSelection]
  split_ifs <;> exact ⟨rfl, rfl, rfl, rfl⟩

variable [Primitives] (state : UnlockedState)

/-- The files are read again. -/
theorem refreshFiles : SameSession state state.refreshFiles := by
  rw [UnlockedState.refreshFiles]
  split <;> exact ⟨rfl, rfl, rfl, rfl⟩

/-- The recipients are read again. -/
theorem refreshRecipients : SameSession state state.refreshRecipients := by
  rw [UnlockedState.refreshRecipients]
  split <;> exact ⟨rfl, rfl, rfl, rfl⟩

end SameSession

/-- An attempt ends where its program does. -/
theorem core_attempt (program : UnlockedM Unit) (state : UnlockedState) :
    (state.attempt program).2.toUnlockedState = finalState (program state.toUnlockedState) := by
  unfold attempt finalState
  split <;> simp_all

/-- Acts on the files. -/
inductive OnFiles : Unlocked.Act → Prop
  | add (disk : FileSystem) (sourcePath destName : String) (draws : Draws) :
      OnFiles (.add disk sourcePath destName draws)
  | update (disk : FileSystem) (sourcePath targetName : String) (draws : Draws) :
      OnFiles (.update disk sourcePath targetName draws)
  | delete (name : String) (draws : Draws) : OnFiles (.delete name draws)

section

variable [Primitives]

/-- What a key press comes to: at most one act, on the files, and changes of the screen. -/
inductive Handled (state : UnlockedState) : UnlockedState → Prop
  | screen {state' : UnlockedState} (core : state'.toUnlockedState = state.toUnlockedState)
      (same : SameSession state state') : Handled state state'
  | act {act : Unlocked.Act} {state' : UnlockedState} (onFiles : OnFiles act)
      (core : state'.toUnlockedState = finalState (Unlocked.perform act state.toUnlockedState))
      (same : SameSession state state') : Handled state state'

namespace Handled

/-- Nothing happened. -/
theorem refl (state : UnlockedState) : Handled state state := .screen rfl (.refl state)

/-- An act, and no more. -/
theorem attempt {act : Unlocked.Act} (onFiles : OnFiles act) (state : UnlockedState) :
    Handled state (state.attempt (Unlocked.perform act)).2 :=
  .act onFiles (core_attempt _ state) (.attempt _ state)

/-- The screen changed before. -/
theorem after {state state' state'' : UnlockedState} (handled : Handled state' state'')
    (core : state'.toUnlockedState = state.toUnlockedState) (same : SameSession state state') :
    Handled state state'' := by
  cases handled with
  | screen core' same' => exact .screen (core'.trans core) (same.trans same')
  | act onFiles core' same' =>
      rw [core] at core'
      exact .act onFiles core' (same.trans same')

/-- The screen changes once more. -/
theorem shown {state state' state'' : UnlockedState} (handled : Handled state state')
    (core : state''.toUnlockedState = state'.toUnlockedState) (same : SameSession state' state'') :
    Handled state state'' := by
  cases handled with
  | screen core' same' => exact .screen (core.trans core') (same'.trans same)
  | act onFiles core' same' => exact .act onFiles (core.trans core') (same'.trans same)

variable (disk : FileSystem) (draws : Draws) (key : KeyCode) (state : UnlockedState)

/-- The files are read again. -/
theorem refreshFiles {state state' : UnlockedState} (handled : Handled state state') :
    Handled state state'.refreshFiles :=
  handled.shown state'.refreshFiles_core (.refreshFiles state')

/-- The form for importing is submitted. -/
theorem submitAdd (form : AddFileForm) : Handled state (state.submitAdd disk draws form) := by
  have kept := attempt (.add disk (trim form.sourcePath) (trim form.destName) draws) state
  rw [Unlocked.perform] at kept
  rw [UnlockedState.submitAdd]
  split
  · rename_i reached ran
    rw [ran] at kept
    exact kept.refreshFiles.shown rfl ⟨rfl, rfl, rfl, rfl⟩
  · rename_i error reached ran
    rw [ran] at kept
    exact kept.shown rfl ⟨rfl, rfl, rfl, rfl⟩

/-- The form for a new content is submitted. -/
theorem submitUpdate (form : UpdateFileForm) :
    Handled state (state.submitUpdate disk draws form) := by
  rw [UnlockedState.submitUpdate]
  split
  · exact .screen rfl ⟨rfl, rfl, rfl, rfl⟩
  · rename_i file _
    have kept := attempt (.update disk (trim form.sourcePath) file.name draws) state
    rw [Unlocked.perform] at kept
    split
    · rename_i reached ran
      rw [ran] at kept
      exact kept.refreshFiles.shown rfl ⟨rfl, rfl, rfl, rfl⟩
    · rename_i error reached ran
      rw [ran] at kept
      exact kept.shown rfl ⟨rfl, rfl, rfl, rfl⟩

/-- The question is answered with yes. -/
theorem confirmDelete (name : String) : Handled state (state.confirmDelete draws name) := by
  have closed : SameSession state { state with deleteConfirm := none } := ⟨rfl, rfl, rfl, rfl⟩
  have kept : Handled state (({ state with deleteConfirm := none } : UnlockedState).attempt
      (Unlocked.perform (.delete name draws))).2 :=
    (attempt (.delete name draws) _).after rfl closed
  rw [Unlocked.perform] at kept
  rw [UnlockedState.confirmDelete]
  split
  · rename_i reached ran
    rw [ran] at kept
    exact kept.refreshFiles.shown rfl ⟨rfl, rfl, rfl, rfl⟩
  · rename_i error reached ran
    rw [ran] at kept
    exact kept.shown rfl ⟨rfl, rfl, rfl, rfl⟩

/-- The selection moves. -/
theorem moveSelection (delta : Int) : Handled state (state.moveSelection delta) := by
  apply screen _ (.moveSelection delta state)
  simp only [UnlockedState.moveSelection]
  split_ifs <;> rfl

/-- A key press while nothing is open. -/
theorem plainKey : Handled state (state.plainKey key).1 := by
  unfold UnlockedState.plainKey
  split
  · exact refl state
  · exact refl state
  · exact moveSelection state _
  · exact moveSelection state _
  · exact .screen rfl ⟨rfl, rfl, rfl, rfl⟩
  · rw [UnlockedState.startUpdate]
    split <;> exact .screen rfl ⟨rfl, rfl, rfl, rfl⟩
  · rw [UnlockedState.requestDelete]
    split <;> exact .screen rfl ⟨rfl, rfl, rfl, rfl⟩
  · rw [UnlockedState.verify]
    split <;> exact .screen rfl ⟨rfl, rfl, rfl, rfl⟩
  · exact refl state

/-- A key press in the question. -/
theorem deleteKey (name : String) : Handled state (state.deleteKey draws name key) := by
  unfold UnlockedState.deleteKey
  split
  · exact confirmDelete draws state name
  · exact confirmDelete draws state name
  · exact confirmDelete draws state name
  · exact .screen rfl ⟨rfl, rfl, rfl, rfl⟩
  · exact .screen rfl ⟨rfl, rfl, rfl, rfl⟩
  · exact .screen rfl ⟨rfl, rfl, rfl, rfl⟩
  · exact refl state

/-- **A key press** on the screen of an unlocked vault. -/
theorem handleKey (now : Nat) : Handled (state.recordActivity now)
    (state.handleKey disk now draws key).1 := by
  unfold UnlockedState.handleKey
  generalize state.recordActivity now = state
  simp only
  split
  · rw [addKey]
    split
    · exact .screen rfl ⟨rfl, rfl, rfl, rfl⟩
    · exact submitAdd disk draws state _
    · exact .screen rfl ⟨rfl, rfl, rfl, rfl⟩
  · rw [updateKey]
    split
    · exact .screen rfl ⟨rfl, rfl, rfl, rfl⟩
    · exact submitUpdate disk draws state _
    · exact .screen rfl ⟨rfl, rfl, rfl, rfl⟩
  · exact deleteKey draws key state _
  · exact plainKey key state

end Handled

/-- A session is kept by what a key press comes to. -/
theorem Handled.sameSession {state state' : UnlockedState} (handled : Handled state state') :
    SameSession state state' := by
  cases handled with
  | screen _ same => exact same
  | act _ _ same => exact same

end

namespace SameSession

variable [Primitives] (disk : FileSystem) (draws : Draws) (key : KeyCode) (state : UnlockedState)

/-- A key press is an activity, and changes nothing else of the session. -/
theorem handleKey (now : Nat) : SameSession (state.recordActivity now)
    (state.handleKey disk now draws key).1 :=
  (Handled.handleKey disk draws key state now).sameSession

/-- An attempt to share. -/
theorem attemptShare (program : UnlockedM Unit) :
    SameSession state (state.attemptShare program).2 := by
  have kept := attempt program state
  rw [UnlockedState.attemptShare]
  split
  · rename_i reached ran
    rw [ran] at kept
    exact kept.trans (refreshRecipients reached)
  · rename_i error reached ran
    rw [ran] at kept
    exact kept

/-- What the network thread reports is shown. -/
theorem pollNetwork (polled : Polled) : SameSession state (state.pollNetwork polled).1 := by
  obtain ⟨message, same⟩ := state.pollNetwork_eq polled
  rw [same]
  exact ⟨rfl, rfl, rfl, rfl⟩

variable {SocketAddr : Type} [SocketAddress SocketAddr] {env : Environment SocketAddr}

/-- The network tab. -/
theorem of_shares {asked : Option String} {state state' : UnlockedState}
    (shares : Shares env asked state state') :
    SameSession state state' := by
  cases shares with
  | idle => exact refl state
  | start => exact attempt _ state
  | stop => exact attempt _ state
  | grant input => exact attemptShare state _
  | revoke target _ => exact attemptShare state _

end SameSession

/-- A vault is opened at its place. -/
theorem path_ofVault [Primitives] (vault : Vault) (path : Path) (name : String)
    (identity : Identity) (now : Nat) : (ofVault vault path name identity now).path = path :=
  ((SameSession.refreshFiles _).trans (SameSession.refreshRecipients _)).path

end UnlockedState

/-- A round keeps the place of the unlocked vault, and the identity that it belongs to. -/
theorem Evolves.keeps [Primitives] {SocketAddr : Type} [SocketAddress SocketAddr]
    {env : Environment SocketAddr} {disk : FileSystem} {asked : Option String}
    {state state' : UnlockedState} (evolves : Evolves env disk asked state state') :
    state'.path = state.path ∧ state'.localIdentity = state.localIdentity := by
  cases evolves with
  | idle => exact ⟨rfl, rfl⟩
  | key key =>
      have same := UnlockedState.SameSession.handleKey disk env.draws key state env.now
      exact ⟨same.path, same.localIdentity⟩
  | network shares =>
      have same := UnlockedState.SameSession.of_shares shares
      exact ⟨same.path, same.localIdentity⟩
  | poll polled =>
      have same := UnlockedState.SameSession.pollNetwork state polled
      exact ⟨same.path, same.localIdentity⟩

end ReVault.Tui
