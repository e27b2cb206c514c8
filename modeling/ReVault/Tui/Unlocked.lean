import ReVault.Core.IdentityFile
import ReVault.Net.Invite
import ReVault.Tui.Forms

/-!
# The screen of an unlocked vault

What the interface keeps beside an unlocked vault: the lists it shows, the selection, the
form that is open and the time of the last key press. Every key press goes to the open
form, if there is one.
-/

namespace ReVault.Tui

open Foundation Primitives

/-- The line below the files. -/
inductive Message where
  | added (name : String)
  | updated (name : String)
  | deleted (name : String)
  | verified
  | verifyFailed (fault : Fault)
  | failed (error : FormError)
  | listFailed (fault : Fault)
  | synced (fingerprint : String)
  | syncFailed (reason : String)
  deriving DecidableEq

/-- An unlocked vault and its screen. -/
structure UnlockedState extends ReVault.UnlockedState where
  path : Path
  name : String
  files : List FileInfo
  selected : Nat
  lastActivity : Nat
  message : Option Message
  addForm : Option AddFileForm
  updateForm : Option UpdateFileForm
  deleteConfirm : Option String
  recipients : List RecipientInfo
  localIdentity : Identity

/-- What becomes of an unlocked vault. -/
inductive Outcome where
  | continue
  | lock
  deriving DecidableEq

namespace UnlockedState

/-- A form or a question is open. -/
def modal (state : UnlockedState) : Bool :=
  state.addForm.isSome || state.updateForm.isSome || state.deleteConfirm.isSome

/-- `Session::record_activity`. -/
def recordActivity (now : Nat) (state : UnlockedState) : UnlockedState :=
  { state with lastActivity := now }

/-- The selection moves within the files. -/
def moveSelection (delta : Int) (state : UnlockedState) : UnlockedState :=
  if state.files = [] then state
  else
    let idx := (state.selected : Int) + delta
    if idx < 0 then { state with selected := 0 }
    else if idx ≥ state.files.length then { state with selected := state.files.length - 1 }
    else { state with selected := idx.toNat }

/-- The form for a new content of the selected file. -/
def startUpdate (state : UnlockedState) : UnlockedState :=
  match state.files[state.selected]? with
  | some _ => { state with updateForm := some {} }
  | none => state

/-- The question whether to delete the selected file. -/
def requestDelete (state : UnlockedState) : UnlockedState :=
  match state.files[state.selected]? with
  | some file => { state with deleteConfirm := some file.name }
  | none => state

/-- Runs a program of the vault and its journal. -/
def attempt (program : UnlockedM Unit) (state : UnlockedState) :
    Option FormError × UnlockedState :=
  match program state.toUnlockedState with
  | .ok _ core => (none, { state with toUnlockedState := core })
  | .error error core => (some error, { state with toUnlockedState := core })

section

variable [Primitives]

/-- The recipients are read once more; if they cannot be, the old ones stay. -/
def refreshRecipients (state : UnlockedState) : UnlockedState :=
  match state.vault.listRecipients with
  | .ok recipients => { state with recipients := recipients }
  | .error _ => state

/-- The selection stays inside the list. -/
def refreshFiles (state : UnlockedState) : UnlockedState :=
  match state.vault.listFiles with
  | .ok files =>
      { state with
        files := files
        selected := if state.selected ≥ files.length then files.length - 1 else state.selected }
  | .error fault => { state with message := some (.listFailed fault) }

/-- `UnlockedState::new`. -/
def ofVault (vault : Vault) (path : Path) (name : String) (localIdentity : Identity)
    (now : Nat) : UnlockedState :=
  refreshRecipients (refreshFiles
    { vault, path, name, localIdentity, network := none, files := [], selected := 0,
      lastActivity := now, message := none, addForm := none, updateForm := none,
      deleteConfirm := none, recipients := [] })

/-- The form for importing is submitted. -/
def submitAdd (disk : FileSystem) (draws : Draws) (form : AddFileForm) (state : UnlockedState) :
    UnlockedState :=
  match state.attempt
      (Unlocked.submitAdd disk (trim form.sourcePath) (trim form.destName) draws) with
  | (none, state) =>
      { state.refreshFiles with addForm := none, message := some (.added (trim form.destName)) }
  | (some error, state) => { state with addForm := some { form with error := some error } }

/-- The file that is selected is the one that is updated. -/
def submitUpdate (disk : FileSystem) (draws : Draws) (form : UpdateFileForm)
    (state : UnlockedState) : UnlockedState :=
  match state.files[state.selected]? with
  | none => { state with updateForm := none }
  | some file =>
      match state.attempt
          (Unlocked.submitUpdate disk (trim form.sourcePath) file.name draws) with
      | (none, state) =>
          { state.refreshFiles with updateForm := none, message := some (.updated file.name) }
      | (some error, state) => { state with updateForm := some { form with error := some error } }

/-- The question is answered with yes. -/
def confirmDelete (draws : Draws) (name : String) (state : UnlockedState) : UnlockedState :=
  match { state with deleteConfirm := none }.attempt (Unlocked.confirmDelete name draws) with
  | (none, state) => { state.refreshFiles with message := some (.deleted name) }
  | (some error, state) => { state with message := some (.failed error) }

/-- The vault is verified, and the result is shown. -/
def verify (state : UnlockedState) : UnlockedState :=
  match state.vault.verifyIntegrity with
  | .ok _ => { state with message := some .verified }
  | .error fault => { state with message := some (.verifyFailed fault) }

/-- A key press while a file is added. -/
def addKey (disk : FileSystem) (draws : Draws) (form : AddFileForm) (key : KeyCode)
    (state : UnlockedState) : UnlockedState :=
  match form.handleKey key with
  | (_, some .cancel) => { state with addForm := none }
  | (form, some .submit) => state.submitAdd disk draws form
  | (form, none) => { state with addForm := some form }

/-- A key press while a file is updated. -/
def updateKey (disk : FileSystem) (draws : Draws) (form : UpdateFileForm) (key : KeyCode)
    (state : UnlockedState) : UnlockedState :=
  match form.handleKey key with
  | (_, some .cancel) => { state with updateForm := none }
  | (form, some .submit) => state.submitUpdate disk draws form
  | (form, none) => { state with updateForm := some form }

/-- A key press while a deletion is to be confirmed. -/
def deleteKey (draws : Draws) (name : String) (key : KeyCode) (state : UnlockedState) :
    UnlockedState :=
  match key with
  | .char 'y' | .char 'Y' | .enter => state.confirmDelete draws name
  | .char 'n' | .char 'N' | .esc => { state with deleteConfirm := none }
  | _ => state

/-- A key press while nothing is open. -/
def plainKey (key : KeyCode) (state : UnlockedState) : UnlockedState × Outcome :=
  match key with
  | .char 'q' | .esc => (state, .lock)
  | .up => (state.moveSelection (-1), .continue)
  | .down => (state.moveSelection 1, .continue)
  | .char 'a' => ({ state with addForm := some {} }, .continue)
  | .char 'u' => (state.startUpdate, .continue)
  | .char 'd' => (state.requestDelete, .continue)
  | .char 'v' => (state.verify, .continue)
  | _ => (state, .continue)

/-- `unlocked::handle_key`. Every key press is an activity. -/
def handleKey (disk : FileSystem) (now : Nat) (draws : Draws) (key : KeyCode)
    (state : UnlockedState) : UnlockedState × Outcome :=
  let state := state.recordActivity now
  match state.addForm, state.updateForm, state.deleteConfirm with
  | some form, _, _ => (state.addKey disk draws form key, .continue)
  | none, some form, _ => (state.updateKey disk draws form key, .continue)
  | none, none, some name => (state.deleteKey draws name key, .continue)
  | none, none, none => state.plainKey key

end

end UnlockedState

end ReVault.Tui
