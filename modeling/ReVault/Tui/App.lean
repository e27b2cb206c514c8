import ReVault.Tui.Vaults

/-!
# The terminal interface

Four tabs over one state. A key press goes to the selected tab, unless it quits or switches
tabs; between key presses the clock locks an unlocked vault that is left alone, and requests
of connected peers are answered from it.
-/

namespace ReVault.Tui

open Foundation Primitives

/-- The tabs, in their order. -/
inductive Tab where
  | vaults
  | network
  | logs
  | settings
  deriving DecidableEq

/-- The tab to the right. -/
def Tab.next : Tab → Tab
  | vaults => network
  | network => logs
  | logs => settings
  | settings => vaults

/-! ## Settings -/

/-- What the settings tab changes. -/
structure AppSettings where
  vaultsDir : Path

/-- The settings tab. -/
structure SettingsWidget where
  editing : Bool
  buffer : String

/-- One key press. A directory takes effect when the interface is started again. -/
def SettingsWidget.handleKey (widget : SettingsWidget) (settings : AppSettings) (key : KeyCode) :
    SettingsWidget × AppSettings :=
  if widget.editing then
    match key with
    | .esc => (⟨false, settings.vaultsDir⟩, settings)
    | .enter =>
        ({ widget with editing := false },
          if trim widget.buffer = "" then settings else ⟨trim widget.buffer⟩)
    | .backspace => ({ widget with buffer := popChar widget.buffer }, settings)
    | .char c => ({ widget with buffer := widget.buffer.push c }, settings)
    | _ => (widget, settings)
  else if key = .enter then ({ widget with editing := true }, settings)
  else (widget, settings)

/-! ## The network tab -/

/-- What is open in the network tab. -/
inductive NetworkTabMode where
  | idle
  /-- joining a vault as a peer -/
  | joining (input : String) (error : Option FormError)
  /-- granting a peer access to the unlocked vault -/
  | granting (input : String) (error : Option FormError)
  /-- asking for the password again before a revocation -/
  | confirmRevoke (target : PeerId) (password : String) (error : Option FormError)
  /-- picking a port to serve the unlocked vault on -/
  | servePrompt (portInput : String) (error : Option FormError)

/-- The network tab. -/
structure NetworkTabWidget where
  mode : NetworkTabMode
  recipientsSelected : Nat

/-- A form, a question or a prompt is open. -/
def NetworkTabWidget.isModal (widget : NetworkTabWidget) : Bool :=
  match widget.mode with
  | .idle => false
  | _ => true

/-- What the network tab works on: its own state and the vaults. -/
structure NetworkTab where
  vaults : VaultsApp
  networkUi : NetworkTabWidget

/-- The password that a key press submits in the network tab. -/
def NetworkTabWidget.submitted (widget : NetworkTabWidget) (key : KeyCode) : Option String :=
  match widget.mode, key with
  | .confirmRevoke _ password _, .enter => some password
  | _, _ => none

/-- The interface. -/
structure App where
  selectedTab : Tab
  vaults : VaultsApp
  settings : AppSettings
  settingsUi : SettingsWidget
  networkUi : NetworkTabWidget

/-- The port of a text of digits. -/
def parsePort (s : String) : Option UInt16 :=
  let number := s.toList.foldl (fun number c => number * 10 + (c.toNat - '0'.toNat)) 0
  if s = "" ∨ ¬ s.toList.all Char.isDigit ∨ number ≥ 2 ^ 16 then none
  else some (UInt16.ofNat number)

/-- What the network thread reports. -/
inductive BridgeEvent where
  | synced (peerId : PeerId)
  | failed (reason : String)

/-- What is found in the channels of the network thread. -/
structure Polled where
  events : List BridgeEvent
  request : Option (PeerId × UInt64)

namespace VaultsApp

/-- The unlocked vault. -/
def current (app : VaultsApp) : Option UnlockedState :=
  match app.mode with
  | .unlocked state => some state
  | _ => none

/-- A change of the unlocked vault. -/
def onUnlocked (change : UnlockedState → UnlockedState) (app : VaultsApp) : VaultsApp :=
  match app.mode with
  | .unlocked state => { app with mode := .unlocked (change state) }
  | _ => app

end VaultsApp

variable [Primitives]

/-- The line that tells of an event. -/
def BridgeEvent.message : BridgeEvent → Message
  | .synced peerId => .synced peerId.fingerprint
  | .failed reason => .syncFailed reason

/-- The peer that an input invites. -/
def invitedPeer (SocketAddr : Type) [SocketAddress SocketAddr] (input : String) : Option PeerId :=
  match (InviteCode.decode (trim input) : Except Fault (InviteCode SocketAddr)) with
  | .ok invite => some invite.peerId
  | .error _ => none

namespace UnlockedState

/-- What `submit_grant` and `submit_revoke` share. -/
def attemptShare (program : UnlockedM Unit) (state : UnlockedState) :
    Option FormError × UnlockedState :=
  match state.attempt program with
  | (none, state) => (none, state.refreshRecipients)
  | (some error, state) => (some error, state)

/-- The peer that the input invites is granted access. -/
def submitGrant (SocketAddr : Type) [SocketAddress SocketAddr] (draws : Draws) (input : String)
    (state : UnlockedState) : Option FormError × UnlockedState :=
  state.attemptShare (Unlocked.submitGrant (invitedPeer SocketAddr input) draws)

/-- A peer is revoked. -/
def submitRevoke (draws : Draws) (target : PeerId) (password : String) (state : UnlockedState) :
    Option FormError × UnlockedState :=
  state.attemptShare (Unlocked.submitRevoke target password draws)

/-- An event is shown in the line below the files. -/
def showEvent (state : UnlockedState) (event : BridgeEvent) : UnlockedState :=
  { state with message := some event.message }

/-- `poll_network`: all events are shown, and one request is answered. -/
def pollNetwork (polled : Polled) (state : UnlockedState) :
    UnlockedState × Option SyncResponse :=
  match state.network with
  | none => (state, none)
  | some journal =>
      (polled.events.foldl showEvent state, polled.request.map fun request =>
        ReVault.pollNetwork state.vault journal request.1 request.2)

end UnlockedState

namespace NetworkTab

variable {SocketAddr : Type} [SocketAddress SocketAddr] (env : Environment SocketAddr)

omit [Primitives] in
/-- A mode of the network tab. -/
def showing (app : NetworkTab) (mode : NetworkTabMode) : NetworkTab :=
  { app with networkUi := { app.networkUi with mode := mode } }

/-- `try_join`, on the trimmed input. -/
def tryJoin (disk : FileSystem) (input : String) (app : NetworkTab) :
    Except FormError Unit × FileSystem :=
  match (InviteCode.decode (trim input) : Except Fault (InviteCode SocketAddr)) with
  | .error _ => (.error .invite, disk)
  | .ok invite =>
      match invite.address with
      | none => (.error (.form "This invite code has no address to connect to."), disk)
      | some addr =>
          let path := joinPath app.vaults.vaultsDir
            ("joined-" ++ invite.peerId.fingerprint ++ ".rvlt")
          if (disk path).isSome then
            (.error (.form "A replica from this peer already exists in your vaults directory."),
              disk)
          else
            match env.join addr invite.peerId path with
            | (.ok _, file) => (.ok (), Function.update disk path file)
            | (.error fault, file) => (.error (.vault fault), Function.update disk path file)

omit [Primitives] in
/-- A key press in the network tab while nothing is open. -/
def idleKey (key : KeyCode) (app : NetworkTab) : NetworkTab :=
  match key with
  | .char 'j' => app.showing (.joining "" none)
  | .char 'g' =>
      match app.vaults.current with
      | some _ => app.showing (.granting "" none)
      | none => app
  | .char 'r' =>
      match app.vaults.current.bind fun state =>
          state.recipients[app.networkUi.recipientsSelected]? with
      | some target => app.showing (.confirmRevoke target.peerId "" none)
      | none => app
  | .char 'n' =>
      match app.vaults.current with
      | none => app
      | some state =>
          match state.network with
          | some _ =>
              { app with vaults := app.vaults.onUnlocked fun state =>
                  (state.attempt Unlocked.stopServing).2 }
          | none => app.showing (.servePrompt "" none)
  | .up =>
      { app with networkUi :=
          { app.networkUi with recipientsSelected := app.networkUi.recipientsSelected - 1 } }
  | .down =>
      let len := (app.vaults.current.map fun state => state.recipients.length).getD 0
      if app.networkUi.recipientsSelected + 1 < len then
        { app with networkUi :=
            { app.networkUi with recipientsSelected := app.networkUi.recipientsSelected + 1 } }
      else app
  | _ => app

/-- A key press in the form for joining. -/
def joiningKey (disk : FileSystem) (input : String) (error : Option FormError) (key : KeyCode)
    (app : NetworkTab) : NetworkTab × FileSystem :=
  match inputKey (fun _ => true) input key with
  | .cancel => (app.showing .idle, disk)
  | .text input => (app.showing (.joining input error), disk)
  | .submit =>
      match app.tryJoin env disk input with
      | (.ok _, disk) =>
          ({ app.showing .idle with vaults := app.vaults.refresh env disk }, disk)
      | (.error error, disk) => (app.showing (.joining input (some error)), disk)

/-- What becomes of an unlocked vault goes to its container. -/
def withUnlocked (disk : FileSystem) (state : UnlockedState) (app : NetworkTab) :
    NetworkTab × FileSystem :=
  ({ app with vaults := { app.vaults with mode := .unlocked state } },
    Function.update disk state.path (some state.vault.file))

/-- A key press in the form for granting. -/
def grantingKey (disk : FileSystem) (input : String) (error : Option FormError) (key : KeyCode)
    (app : NetworkTab) : NetworkTab × FileSystem :=
  match inputKey (fun _ => true) input key with
  | .cancel => (app.showing .idle, disk)
  | .text input => (app.showing (.granting input error), disk)
  | .submit =>
      match app.vaults.current with
      | none => (app.showing .idle, disk)
      | some state =>
          match state.submitGrant SocketAddr env.draws input with
          | (none, state) => (app.showing .idle).withUnlocked disk state
          | (some error, state) =>
              (app.showing (.granting input (some error))).withUnlocked disk state

/-- The password is asked for again when a revocation fails. -/
def confirmRevokeKey (disk : FileSystem) (target : PeerId) (password : String)
    (error : Option FormError) (key : KeyCode) (app : NetworkTab) : NetworkTab × FileSystem :=
  match inputKey (fun _ => true) password key with
  | .cancel => (app.showing .idle, disk)
  | .text password => (app.showing (.confirmRevoke target password error), disk)
  | .submit =>
      match app.vaults.current with
      | none => ({ app with networkUi := ⟨.idle, 0⟩ }, disk)
      | some state =>
          match state.submitRevoke env.draws target password with
          | (none, state) => { app with networkUi := ⟨.idle, 0⟩ }.withUnlocked disk state
          | (some error, state) =>
              (app.showing (.confirmRevoke target "" (some error))).withUnlocked disk state

omit [Primitives] [SocketAddress SocketAddr] in
/-- A key press in the prompt for a port. -/
def servePromptKey (portInput : String) (error : Option FormError) (key : KeyCode)
    (app : NetworkTab) : NetworkTab :=
  match inputKey Char.isDigit portInput key with
  | .cancel => app.showing .idle
  | .text portInput => app.showing (.servePrompt portInput error)
  | .submit =>
      match parsePort (trim portInput) with
      | none =>
          app.showing
            (.servePrompt portInput (some (.form "Enter a valid port number (1-65535)")))
      | some port =>
          match app.vaults.current with
          | none => app.showing .idle
          | some _ =>
              if env.listens port then
                { app.showing .idle with vaults := app.vaults.onUnlocked fun state =>
                    (state.attempt Unlocked.startServing).2 }
              else app.showing (.servePrompt portInput (some (.vault (.error .io))))

/-- A key press goes to what is open. -/
def modeKey (disk : FileSystem) (key : KeyCode) (app : NetworkTab) : NetworkTab × FileSystem :=
  match app.networkUi.mode with
  | .idle => (app.idleKey key, disk)
  | .joining input error => app.joiningKey env disk input error key
  | .granting input error => app.grantingKey env disk input error key
  | .confirmRevoke target password error =>
      app.confirmRevokeKey env disk target password error key
  | .servePrompt portInput error => (app.servePromptKey env portInput error key, disk)

end NetworkTab

/-- One round of the event loop: a key press, or what is polled from the network thread. -/
inductive Input (SocketAddr : Type) where
  | key (env : Environment SocketAddr) (key : KeyCode)
  | tick (env : Environment SocketAddr) (polled : Polled)

/-- The surroundings of a round. -/
def Input.env {SocketAddr : Type} : Input SocketAddr → Environment SocketAddr
  | .key env _ | .tick env _ => env

namespace App

variable {SocketAddr : Type} [SocketAddress SocketAddr] (env : Environment SocketAddr)

/-- `network_tab::handle_key`. Every key press is an activity of the unlocked vault. -/
def networkKey (disk : FileSystem) (key : KeyCode) (app : App) : App × FileSystem :=
  let (tab, disk) :=
    NetworkTab.modeKey env disk key
      ⟨app.vaults.onUnlocked (·.recordActivity env.now), app.networkUi⟩
  ({ app with vaults := tab.vaults, networkUi := tab.networkUi }, disk)

omit [Primitives] in
/-- A key press that would quit goes to what is open. -/
def interceptsQuit (app : App) : Bool :=
  match app.selectedTab with
  | .vaults => app.vaults.interceptsQuit
  | .network => app.networkUi.isModal
  | .settings => app.settingsUi.editing
  | .logs => false

omit [Primitives] in
/-- So does one that would select another tab. -/
def blocksTabSwitch (app : App) : Bool :=
  match app.selectedTab with
  | .vaults => app.vaults.blocksTabSwitch
  | .network => app.networkUi.isModal
  | .settings => app.settingsUi.editing
  | .logs => false

omit [Primitives] in
/-- A key press quits. -/
def quits (key : KeyCode) (app : App) : Bool :=
  !app.interceptsQuit && (key = .char 'q' || key = .esc)

/-- `event::handle_key`, when the key press does not quit. -/
def handleKey (disk : FileSystem) (key : KeyCode) (app : App) : App × FileSystem :=
  if app.quits key then (app, disk)
  else if !app.blocksTabSwitch && key = .tab then
    ({ app with selectedTab := app.selectedTab.next }, disk)
  else
    match app.selectedTab with
    | .vaults =>
        let (vaults, disk) := app.vaults.handleKey env disk key
        ({ app with vaults := vaults }, disk)
    | .network => app.networkKey env disk key
    | .settings =>
        let (widget, settings) := app.settingsUi.handleKey app.settings key
        ({ app with settingsUi := widget, settings := settings }, disk)
    | .logs => (app, disk)

omit [SocketAddress SocketAddr] in
/-- `check_timeout`, in every round of the event loop. -/
def tick (disk : FileSystem) (polled : Polled) (app : App) : App × Option SyncResponse :=
  match app.vaults.mode with
  | .unlocked state =>
      if env.now - state.lastActivity ≥ defaultTimeout then
        ({ app with vaults := { app.vaults with mode := .browsing }.refresh env disk }, none)
      else
        let (state, response) := state.pollNetwork polled
        ({ app with vaults := { app.vaults with mode := .unlocked state } }, response)
  | _ => (app, none)

/-! ## Runs -/

/-- The interface and the disk after a round. -/
def step (world : App × FileSystem) : Input SocketAddr → App × FileSystem
  | .key env key => world.1.handleKey env world.2 key
  | .tick env polled => ((world.1.tick env world.2 polled).1, world.2)

/-- The interface and the disk after any number of rounds. -/
def after (inputs : List (Input SocketAddr)) (world : App × FileSystem) : App × FileSystem :=
  inputs.foldl step world

/-- The interface when it is started. -/
def new (dir : Path) (identity : Identity) (disk : FileSystem) : App where
  selectedTab := .vaults
  vaults :=
    { vaultsDir := dir, listing := scanVaultsDir (env.entries dir) disk, selected := 0,
      mode := .browsing, identity }
  settings := ⟨dir⟩
  settingsUi := ⟨false, dir⟩
  networkUi := ⟨.idle, 0⟩

end App

end ReVault.Tui
