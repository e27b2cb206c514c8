import ReVault.Cli.Command
import ReVault.Device.Describes

/-!
# What commands come to

A command on the disk comes to what it comes to on the device that describes the disk: it
prints the same or fails with the same error, and the device it leads to describes the disk
again.
-/

namespace ReVault

open Foundation Primitives

section

variable [Primitives] {SocketAddr : Type}

/-- The arguments of a command that is followed: known passwords, and no container beyond the
capacity at which sizes wrap. -/
structure Invocation.Allowed (invocation : Invocation SocketAddr) (passwords : List String) :
    Prop where
  known : ∀ password, invocation.command.password = some password → password ∈ passwords
  small : ∀ path name description capacity password capacityBytes,
    invocation.command = .create path name description capacity password →
      invocation.parseCapacity capacity = .ok capacityBytes →
        capacityBytes.toNat < Vault.capacityLimit

/-- A command that opens the container of an account, if it opens one. Only a chain of fewer
than `2^64` records is verified. -/
def Invocation.OnAccount (invocation : Invocation SocketAddr) (device : Device) : Prop :=
  ∀ vault password, invocation.command.opens = some (vault, password) →
    ∃ account, device.accounts vault = some account ∧
      (invocation.command = .verify vault password → account.records < 2 ^ 64)

section Follows

variable [SocketAddress SocketAddr] [Lawful] {device : Device} {identityPath : Path}
  {passwords : List String} {disk : FileSystem}
  (describes : device.Describes identityPath passwords disk) (apart : PasswordsApart passwords)

/-- The outcome of a program on the disk is that on the device, which then describes the disk. -/
abbrev Device.Follows (identityPath : Path) (passwords : List String) (disk : FileSystem)
    (device : Device) (program : EStateM CommandError FileSystem CommandOutput)
    (spec : EStateM CommandError Device CommandOutput) : Prop :=
  Simulates program spec disk device
    (fun output disk output' device => output = output' ∧
      device.Describes identityPath passwords disk)
    fun disk device => device.Describes identityPath passwords disk

include describes apart

/-- A command that opens an account and works on its handle. -/
theorem Device.Describes.follows_opened {vault : Path} {password : String}
    (known : password ∈ passwords) {account : Account}
    (held : device.accounts vault = some account) (generated : Identity)
    {body : OpenVault → EStateM CommandError FileSystem CommandOutput}
    {body' : OpenAccount → EStateM CommandError Device CommandOutput}
    (follows : ∀ identity v opened, let view := Identity.settled identityPath generated disk
      let settled := { device with identity := some identity }
      settled.Sees identityPath passwords view view → v.Opens opened view settled →
      opened.account = account →
      Device.Follows identityPath passwords view settled (body v) (body' opened)) :
    Device.Follows identityPath passwords disk device
      (do
        let localIdentity ← (OpenVault.shell identityPath).loadOrCreate generated
        let v ← (OpenVault.shell identityPath).openVault vault password localIdentity
        body v)
      (do
        let localIdentity ←
          (OpenAccount.shell (Identity.settled identityPath generated disk)).loadOrCreate generated
        let opened ← (OpenAccount.shell (Identity.settled identityPath generated disk)).openVault
          vault password localIdentity
        body' opened) := by
  apply (describes.follows_loadOrCreate generated).bind
  rintro identity disk' _ device' ⟨rfl, rfl, sees⟩
  have seen := sees.seen
  subst seen
  apply (sees.follows_openVault apart known held identity).bind
  rintro v disk' opened device' ⟨rfl, rfl, opens, same, _⟩
  exact follows identity v opened sees opens same

/-- A command that opens an account and performs an operation of the admin on it. -/
theorem Device.Describes.follows_performed {vault : Path} {password : String}
    (known : password ∈ passwords) {account : Account}
    (held : device.accounts vault = some account) (drawn : Drawn) {op : Op}
    (mutates : op.mutates = true) (keeps : ∀ signingPubkey password',
      op = .revokeAccess signingPubkey password' → password' ∈ passwords) (output : CommandOutput) :
    Device.Follows identityPath passwords disk device
      (do
        let localIdentity ← (OpenVault.shell identityPath).loadOrCreate drawn.identity
        let v ← (OpenVault.shell identityPath).openVault vault password localIdentity
        (OpenVault.shell identityPath).perform v op drawn.draws
        pure output)
      (do
        let localIdentity ← (OpenAccount.shell
          (Identity.settled identityPath drawn.identity disk)).loadOrCreate drawn.identity
        let opened ← (OpenAccount.shell
          (Identity.settled identityPath drawn.identity disk)).openVault vault password
            localIdentity
        (OpenAccount.shell (Identity.settled identityPath drawn.identity disk)).perform opened op
          drawn.draws
        pure output) := by
  apply describes.follows_opened apart known held drawn.identity
  intro identity v opened view settled sees opens same
  apply (sees.follows_perform apart opens mutates keeps drawn.draws).bind
  rintro _ disk' _ device' described
  exact Simulates.pure ⟨rfl, described⟩

/-- A command that imports a source. -/
theorem Device.Describes.follows_import (op : String → Bytes → Op)
    (mutates : ∀ name data, (op name data).mutates = true)
    (plain : ∀ name data signingPubkey password',
      op name data ≠ .revokeAccess signingPubkey password')
    (output : String → Nat → CommandOutput) {vault : Path} {password : String}
    (known : password ∈ passwords) {account : Account}
    (held : device.accounts vault = some account) (source : Path) (name : String) (drawn : Drawn) :
    Device.Follows identityPath passwords disk device
      (Command.executeImport (OpenVault.shell identityPath) op output vault password source name
        drawn)
      (Command.executeImport (OpenAccount.shell
        (Identity.settled identityPath drawn.identity disk)) op output vault password source name
        drawn) := by
  apply describes.follows_opened apart known held drawn.identity
  intro identity v opened view settled sees opens same
  apply (sees.follows_readSource source).bind
  rintro data disk' _ device' ⟨rfl, rfl, rfl⟩
  apply (sees.follows_perform apart opens (mutates name data)
    (fun signingPubkey password' rotates => absurd rotates (plain name data _ _)) drawn.draws).bind
  rintro _ disk'' _ device'' described
  exact Simulates.pure ⟨rfl, described⟩

/-- A command for the peer of an invite. -/
theorem Device.Describes.follows_share (op : PeerId → Op)
    (mutates : ∀ peerId, (op peerId).mutates = true)
    (keeps : ∀ peerId signingPubkey password', op peerId = .revokeAccess signingPubkey password' →
      password' ∈ passwords) (output : String → CommandOutput) {vault : Path} {password : String}
    (known : password ∈ passwords) {account : Account}
    (held : device.accounts vault = some account) (peer : String) (drawn : Drawn) :
    Device.Follows identityPath passwords disk device
      (Command.executeShare (OpenVault.shell identityPath) SocketAddr op output vault password
        peer drawn)
      (Command.executeShare (OpenAccount.shell
        (Identity.settled identityPath drawn.identity disk)) SocketAddr op output vault password
        peer drawn) := by
  apply Simulates.given
  · exact fun _ _ => describes
  · exact fun invite _ =>
      describes.follows_performed apart known held drawn (mutates _) (keeps _) _

/-- A command that creates a container. -/
theorem Device.Describes.follows_create {password : String} (known : password ∈ passwords)
    (path : Path) (name description capacity : String)
    {parseCapacity : String → Except String UInt64} (small : ∀ capacityBytes,
      parseCapacity capacity = .ok capacityBytes → capacityBytes.toNat < Vault.capacityLimit)
    (drawn : Drawn) :
    Device.Follows identityPath passwords disk device
      (Command.executeCreate (OpenVault.shell identityPath) path name description capacity password
        parseCapacity drawn)
      (Command.executeCreate (OpenAccount.shell
        (Identity.settled identityPath drawn.identity disk)) path name description capacity password
        parseCapacity drawn) := by
  apply Simulates.given
  · exact fun _ _ => describes
  · intro capacityBytes parsed
    have bounded : capacityBytes.toNat < Vault.capacityLimit := by
      split at parsed
      · rename_i read
        cases parsed
        exact small _ read
      · cases parsed
    apply (describes.follows_loadOrCreate drawn.identity).bind
    rintro identity disk' _ device' ⟨rfl, rfl, sees⟩
    have seen := sees.seen
    subst seen
    apply (sees.follows_create apart known path name description bounded identity drawn.draws).bind
    rintro v disk'' opened device'' ⟨described, opens⟩
    apply Simulates.pure
    exact ⟨congrArg (fun summary => CommandOutput.created name path summary.capacityBytes)
      opens.holds.summary_eq, described⟩

/-- **One command.** -/
theorem Invocation.follows {invocation : Invocation SocketAddr}
    (allowed : invocation.Allowed passwords) (onAccount : invocation.OnAccount device) :
    Device.Follows identityPath passwords disk device
      (invocation.execute (OpenVault.shell identityPath))
      (invocation.execute (OpenAccount.shell
        (Identity.settled identityPath invocation.drawn.identity disk))) := by
  obtain ⟨command, drawn, parseCapacity⟩ := invocation
  cases command with
  | create path name description capacity password =>
      exact describes.follows_create apart (allowed.known password rfl) path name description
        capacity (fun capacityBytes => allowed.small _ _ _ _ _ capacityBytes rfl) drawn
  | list vault password =>
      obtain ⟨account, held, _⟩ := onAccount vault password rfl
      apply describes.follows_opened apart (allowed.known password rfl) held drawn.identity
      intro identity v opened view settled sees opens same
      apply (opens.follows_listFiles _).bind
      rintro files disk' _ device' ⟨rfl, rfl, rfl⟩
      apply Simulates.pure
      refine ⟨?_, sees.toDescribes⟩
      change CommandOutput.files v.vault.summary.name v.vault.usedBytes.toNat
        v.vault.summary.capacityBytes files = .files opened.account.summary.name
        opened.account.usedBytes opened.account.summary.capacityBytes files
      rw [opens.holds.summary_eq, opens.holds.usedBytes_eq]
  | verify vault password =>
      obtain ⟨account, held, short⟩ := onAccount vault password rfl
      apply describes.follows_opened apart (allowed.known password rfl) held drawn.identity
      intro identity v opened view settled sees opens same
      apply (opens.follows_verifyIntegrity (by rw [same]; exact short rfl) _).bind
      rintro _ disk' _ device' ⟨rfl, rfl⟩
      exact Simulates.pure ⟨rfl, sees.toDescribes⟩
  | add vault password source name =>
      obtain ⟨account, held, _⟩ := onAccount vault password rfl
      exact describes.follows_import apart .addFile (fun _ _ => rfl)
        (fun _ _ _ _ same => by cases same) .added (allowed.known password rfl) held source name
        drawn
  | update vault password source name =>
      obtain ⟨account, held, _⟩ := onAccount vault password rfl
      exact describes.follows_import apart .updateFile (fun _ _ => rfl)
        (fun _ _ _ _ same => by cases same) .updated (allowed.known password rfl) held source name
        drawn
  | delete vault password name =>
      obtain ⟨account, held, _⟩ := onAccount vault password rfl
      exact describes.follows_performed apart (allowed.known password rfl) held drawn rfl
        (fun _ _ same => by cases same) _
  | whoami listen =>
      apply (describes.follows_loadOrCreate drawn.identity).bind
      rintro identity disk' _ device' ⟨rfl, rfl, sees⟩
      exact Simulates.pure ⟨rfl, sees.toDescribes⟩
  | grant vault password peer =>
      obtain ⟨account, held, _⟩ := onAccount vault password rfl
      exact describes.follows_share apart .grantAccess (fun _ => rfl)
        (fun _ _ _ same => by cases same) .granted (allowed.known password rfl) held peer drawn
  | revoke vault password peer =>
      obtain ⟨account, held, _⟩ := onAccount vault password rfl
      have known := allowed.known password rfl
      refine describes.follows_share apart
        (fun peerId => .revokeAccess peerId.signingPublic password) (fun _ => rfl) ?_ .revoked known
        held peer drawn
      rintro _ _ _ ⟨⟩
      exact known

end Follows

end

end ReVault
