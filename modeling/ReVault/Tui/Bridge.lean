import ReVault.Foundation.Mailbox
import ReVault.Net.Connection
import ReVault.Tui.Containers
import ReVault.Tui.Served

/-!
# The network thread

While a vault is served from the interface, a thread of its own accepts the connections. The
two share nothing but their channels: requests wait in one until the interface polls, answers
come back one by one, and what became of a connection is reported in the other. All of it goes
when the session ends.
-/

namespace ReVault.Tui

open Foundation Primitives

variable [Primitives]

/-- A connection that has reported its position. -/
structure Connection where
  channel : SecureChannel
  peerId : PeerId
  nextSeq : UInt64

/-- `NetworkBridge`, from both ends: what waits for the interface, what it has answered, where the
streams of the connections that are done stand, and what is reported. -/
structure Bridge where
  identity : Identity
  mailbox : Mailbox Connection SyncResponse
  sent : Nat → Option Stream
  events : List BridgeEvent

/-- The interface, the disk and the network thread, if one runs. -/
structure Host where
  app : App
  disk : FileSystem
  bridge : Option Bridge

/-- A round of the event loop, or something that the network thread does. -/
inductive Happening (SocketAddr : Type) where
  | key (env : Environment SocketAddr) (key : KeyCode)
  | tick (env : Environment SocketAddr)
  /-- a peer connects, shakes hands and reports its position -/
  | connects (ephemeral : ByteArr 32) (stream : Stream)
  /-- a connection takes its answer -/
  | finishes (ticket : Nat)
  /-- accepting a connection fails -/
  | refuses (reason : String)

namespace Bridge

/-- `NetworkBridge::start`. -/
def start (identity : Identity) : Bridge := ⟨identity, .empty, fun _ => none, []⟩

/-- What a poll finds. -/
def polled (bridge : Bridge) : Polled where
  events := bridge.events
  request := bridge.mailbox.next?.map fun connection => (connection.peerId, connection.nextSeq)

/-- A poll takes the events and answers a request. -/
def afterPoll (response : Option SyncResponse) (bridge : Bridge) : Bridge :=
  { bridge with
    events := []
    mailbox :=
      match response with
      | some response => bridge.mailbox.answer response
      | none => bridge.mailbox }

/-- The report of a connection; one that panics reports nothing. -/
def report (text : VaultError → String) : ConnectionError → List BridgeEvent
  | .fault (.error error) => [.failed (text error)]
  | .text message => [.failed message]
  | .fault .panic | .fault .diverge => []

/-- The first half of a connection. -/
def connect (text : VaultError → String) (ephemeral : ByteArr 32) (stream : Stream)
    (bridge : Bridge) : Bridge :=
  match SecureChannel.responder ephemeral bridge.identity stream with
  | .error fault _ => { bridge with events := bridge.events ++ report text (.fault fault) }
  | .ok (channel, peerId) _ =>
      match readPosition channel with
      | .error error _ => { bridge with events := bridge.events ++ report text error }
      | .ok nextSeq channel =>
          { bridge with mailbox := bridge.mailbox.ask ⟨channel, peerId, nextSeq⟩ }

/-- The second half, once the answer is there. -/
def finish (text : VaultError → String) (ticket : Nat) (bridge : Bridge) : Bridge :=
  match bridge.mailbox.answered? ticket, bridge.sent ticket with
  | some (connection, response), none =>
      match deliver connection.peerId (.ok response) connection.channel with
      | .ok peerId channel =>
          { bridge with
            sent := Function.update bridge.sent ticket (some channel.stream)
            events := bridge.events ++ [.synced peerId] }
      | .error error channel =>
          { bridge with
            sent := Function.update bridge.sent ticket (some channel.stream)
            events := bridge.events ++ report text error }
  | _, _ => bridge

end Bridge

namespace Host

variable {SocketAddr : Type} [SocketAddress SocketAddr] (text : VaultError → String)

omit [Primitives] in
/-- What a poll finds; nothing when no thread runs. -/
def polled (host : Host) : Polled := (host.bridge.map Bridge.polled).getD ⟨[], none⟩

omit [Primitives] in
/-- The thread after a key press: it begins and ends with its session. -/
def bridgeAfter (host : Host) (key : KeyCode) (app : App) : Option Bridge :=
  match app.vaults.mode with
  | .unlocked state =>
      if !state.serves then none
      else if host.app.startsServing key app then some (Bridge.start state.localIdentity)
      else host.bridge
  | _ => none

/-- What happens to the whole. -/
def step (host : Host) : Happening SocketAddr → Host
  | .key env key =>
      let (app, disk) := host.app.handleKey env host.disk key
      { app, disk
        bridge := host.bridgeAfter key app }
  | .tick env =>
      let (app, response) := host.app.tick env host.disk host.polled
      { host with
        app
        bridge := if app.vaults.serves then host.bridge.map (·.afterPoll response) else none }
  | .connects ephemeral stream =>
      { host with bridge := host.bridge.map (·.connect text ephemeral stream) }
  | .finishes ticket => { host with bridge := host.bridge.map (·.finish text ticket) }
  | .refuses reason =>
      { host with bridge := host.bridge.map fun bridge =>
          { bridge with events := bridge.events ++ [.failed ("accept error: " ++ reason)] } }

/-- The interface, its thread and the disk after any number of happenings. -/
def after (happenings : List (Happening SocketAddr)) (host : Host) : Host :=
  happenings.foldl (step text) host

/-! ## The interface alone -/

omit [Primitives] [SocketAddress SocketAddr] in
/-- What the interface sees of a happening. -/
def seen (host : Host) : Happening SocketAddr → List (Input SocketAddr)
  | .key env key => [.key env key]
  | .tick env => [.tick env host.polled]
  | .connects _ _ | .finishes _ | .refuses _ => []

/-- What the interface sees of a run. -/
def inputs : List (Happening SocketAddr) → Host → List (Input SocketAddr)
  | [], _ => []
  | happening :: later, host =>
      host.seen happening ++ inputs later (step text host happening)

end Host

end ReVault.Tui
