import ReVault.Device.Shell
import ReVault.Net.Invite

/-!
# Commands

The commands of the command line that work on one vault and end, as the operations of a
shell. Each opens its vault anew, does one thing and closes it.
-/

namespace ReVault

open Foundation Primitives

/-- The arguments of a command. -/
inductive Command (SocketAddr : Type) where
  | create (path : Path) (name description capacity password : String)
  | list (vault : Path) (password : String)
  | verify (vault : Path) (password : String)
  | add (vault : Path) (password : String) (source : Path) (name : String)
  | update (vault : Path) (password : String) (source : Path) (name : String)
  | delete (vault : Path) (password name : String)
  | whoami (listen : Option SocketAddr)
  | grant (vault : Path) (password peer : String)
  | revoke (vault : Path) (password peer : String)

/-- What a command prints when it succeeds. -/
inductive CommandOutput where
  | created (name : String) (path : Path) (capacityBytes : UInt64)
  | files (name : String) (usedBytes : Nat) (capacityBytes : UInt64) (files : List FileInfo)
  | verified
  | added (name : String) (size : Nat)
  | updated (name : String) (size : Nat)
  | deleted (name : String)
  | identity (fingerprint invite : String)
  | granted (fingerprint : String)
  | revoked (fingerprint : String)
  deriving DecidableEq

/-- A command with what it draws, and with what `parse_capacity` makes of a text. -/
structure Invocation (SocketAddr : Type) where
  command : Command SocketAddr
  drawn : Drawn
  parseCapacity : String → Except String UInt64

namespace Command

variable {SocketAddr : Type}

/-- The vault that a command opens, with the password it is given. -/
def opens : Command SocketAddr → Option (Path × String)
  | create .. | whoami _ => none
  | list vault password | verify vault password | add vault password _ _
  | update vault password _ _ | delete vault password _ | grant vault password _
  | revoke vault password _ => some (vault, password)

/-- The password that a command is given. -/
def password : Command SocketAddr → Option String
  | create _ _ _ _ password => some password
  | whoami _ => none
  | list _ password | verify _ password | add _ password _ _ | update _ password _ _
  | delete _ password _ | grant _ password _ | revoke _ password _ => some password

end Command

section

variable [Primitives] {SocketAddr : Type} [SocketAddress SocketAddr] {σ Handle : Type}
  (shell : Shell σ Handle)

/-- The invite code of an argument. -/
def decodeInvite (SocketAddr : Type) [SocketAddress SocketAddr] (peer : String) :
    EStateM CommandError σ (InviteCode SocketAddr) :=
  observe fun _ =>
    match InviteCode.decode peer with
    | .ok invite => .ok invite
    | .error fault => .error (.vault fault)

namespace Command

/-- `create`: a capacity that does not parse ends the command before anything is made. -/
def executeCreate (path : Path) (name description capacity password : String)
    (parseCapacity : String → Except String UInt64) (drawn : Drawn) :
    EStateM CommandError σ CommandOutput := do
  let capacityBytes ← observe fun _ =>
    match parseCapacity capacity with
    | .ok capacityBytes => .ok capacityBytes
    | .error message => .error (.argument message)
  let adminIdentity ← shell.loadOrCreate drawn.identity
  let vault ← shell.create path name description capacityBytes password adminIdentity drawn.draws
  pure (.created name path (shell.summary vault).capacityBytes)

/-- `list`: the files of the vault, with what is used of its capacity. -/
def executeList (vault : Path) (password : String) (drawn : Drawn) :
    EStateM CommandError σ CommandOutput := do
  let localIdentity ← shell.loadOrCreate drawn.identity
  let v ← shell.openVault vault password localIdentity
  let files ← shell.listFiles v
  pure (.files (shell.summary v).name (shell.usedBytes v) (shell.summary v).capacityBytes files)

/-- `verify`: the command succeeds if the vault passes its checks. -/
def executeVerify (vault : Path) (password : String) (drawn : Drawn) :
    EStateM CommandError σ CommandOutput := do
  let localIdentity ← shell.loadOrCreate drawn.identity
  let v ← shell.openVault vault password localIdentity
  shell.verifyIntegrity v
  pure .verified

/-- What `add` and `update` share: the source is read after the vault is opened. -/
def executeImport (op : String → Bytes → Op) (output : String → Nat → CommandOutput)
    (vault : Path) (password : String) (source : Path) (name : String) (drawn : Drawn) :
    EStateM CommandError σ CommandOutput := do
  let localIdentity ← shell.loadOrCreate drawn.identity
  let v ← shell.openVault vault password localIdentity
  let data ← shell.readSource source
  shell.perform v (op name data) drawn.draws
  pure (output name data.length)

/-- `add`: a file of the device becomes a file of the vault. -/
def executeAdd (vault : Path) (password : String) (source : Path) (name : String)
    (drawn : Drawn) : EStateM CommandError σ CommandOutput :=
  executeImport shell .addFile .added vault password source name drawn

/-- `update`: a file of the device replaces one of the vault. -/
def executeUpdate (vault : Path) (password : String) (source : Path) (name : String)
    (drawn : Drawn) : EStateM CommandError σ CommandOutput :=
  executeImport shell .updateFile .updated vault password source name drawn

/-- `delete`: a file of the vault is removed. -/
def executeDelete (vault : Path) (password name : String) (drawn : Drawn) :
    EStateM CommandError σ CommandOutput := do
  let localIdentity ← shell.loadOrCreate drawn.identity
  let v ← shell.openVault vault password localIdentity
  shell.perform v (.deleteFile name) drawn.draws
  pure (.deleted name)

/-- `whoami`: the fingerprint, and an invite to give to an admin. -/
def executeWhoami (listen : Option SocketAddr) (drawn : Drawn) :
    EStateM CommandError σ CommandOutput := do
  let identity ← shell.loadOrCreate drawn.identity
  pure (.identity identity.peerId.fingerprint
    (InviteCode.encode { peerId := identity.peerId, address := listen }))

/-- What `grant` and `revoke` share: the invite is read before anything is opened. -/
def executeShare (SocketAddr : Type) [SocketAddress SocketAddr] (op : PeerId → Op)
    (output : String → CommandOutput) (vault : Path) (password peer : String) (drawn : Drawn) :
    EStateM CommandError σ CommandOutput := do
  let invite ← decodeInvite SocketAddr peer
  let localIdentity ← shell.loadOrCreate drawn.identity
  let v ← shell.openVault vault password localIdentity
  shell.perform v (op invite.peerId) drawn.draws
  pure (output invite.peerId.fingerprint)

/-- `grant`: the invited peer may open the vault from now on. -/
def executeGrant (SocketAddr : Type) [SocketAddress SocketAddr] (vault : Path)
    (password peer : String) (drawn : Drawn) : EStateM CommandError σ CommandOutput :=
  executeShare shell SocketAddr .grantAccess .granted vault password peer drawn

/-- The password that opened the vault is the one that the new key is wrapped for. -/
def executeRevoke (SocketAddr : Type) [SocketAddress SocketAddr] (vault : Path)
    (password peer : String) (drawn : Drawn) : EStateM CommandError σ CommandOutput :=
  executeShare shell SocketAddr (fun peerId => .revokeAccess peerId.signingPublic password)
    .revoked vault password peer drawn

end Command

/-- Carries out a command. -/
def Invocation.execute (invocation : Invocation SocketAddr) :
    EStateM CommandError σ CommandOutput :=
  match invocation.command with
  | .create path name description capacity password =>
      Command.executeCreate shell path name description capacity password
        invocation.parseCapacity invocation.drawn
  | .list vault password => Command.executeList shell vault password invocation.drawn
  | .verify vault password => Command.executeVerify shell vault password invocation.drawn
  | .add vault password source name =>
      Command.executeAdd shell vault password source name invocation.drawn
  | .update vault password source name =>
      Command.executeUpdate shell vault password source name invocation.drawn
  | .delete vault password name =>
      Command.executeDelete shell vault password name invocation.drawn
  | .whoami listen => Command.executeWhoami shell listen invocation.drawn
  | .grant vault password peer =>
      Command.executeGrant shell SocketAddr vault password peer invocation.drawn
  | .revoke vault password peer =>
      Command.executeRevoke shell SocketAddr vault password peer invocation.drawn

end

end ReVault
