import ReVault.Cli.Outcome
import ReVault.Sharing.Lockout

/-!
# Command sessions

Commands one after the other, each a process of its own. Whatever they are, a command
changes only the identity file, when there is no identity yet, and the container that it
names; so the device that starts out describing the disk describes it ever after.
-/

namespace ReVault

open Foundation Primitives

/-! ## What a command leaves alone -/

/-- The files of a disk stay as they are, apart from one. -/
def FileSystem.Spares (target : Path) (disk disk' : FileSystem) : Prop :=
  ∀ path, path ≠ target → disk' path = disk path

namespace FileSystem.Spares

variable (target : Path)

/-- Nothing is written. -/
theorem refl (disk : FileSystem) : FileSystem.Spares target disk disk := fun _ _ => rfl

/-- One program after another. -/
theorem trans (first second third : FileSystem) (spares : FileSystem.Spares target first second)
    (spares' : FileSystem.Spares target second third) : FileSystem.Spares target first third :=
  fun path elsewhere => (spares' path elsewhere).trans (spares path elsewhere)

end FileSystem.Spares

section

variable {SocketAddr : Type}

/-- The container that a command may change. -/
def Command.writes : Command SocketAddr → Option Path
  | .create path .. => some path
  | .list .. | .verify .. | .whoami _ => none
  | .add vault .. | .update vault .. | .delete vault .. | .grant vault ..
  | .revoke vault .. => some vault

/-- Only the container that a command opens may change, unless it creates one. -/
theorem Command.writes_of_opens {command : Command SocketAddr} {vault : Path} {password : String}
    (opens : command.opens = some (vault, password)) :
    command.writes = none ∨ command.writes = some vault := by
  cases command <;> cases opens <;> simp [Command.writes]

/-- The arguments of a command parse, so that it goes on to its identity. -/
def Invocation.loads [SocketAddress SocketAddr] (invocation : Invocation SocketAddr) : Bool :=
  match invocation.command with
  | .create _ _ _ capacity _ => (invocation.parseCapacity capacity).isOk
  | .grant _ _ peer | .revoke _ _ peer =>
      (InviteCode.decode peer : Except Fault (InviteCode SocketAddr)).isOk
  | _ => true

/-- The files once a command has loaded its identity, if it does. -/
def Invocation.settled [SocketAddress SocketAddr] (invocation : Invocation SocketAddr)
    (identityPath : Path) (disk : FileSystem) : FileSystem :=
  if invocation.loads then Identity.settled identityPath invocation.drawn.identity disk else disk

variable [Primitives] {identityPath : Path}

/-- A file that is too short for a header is not opened. -/
theorem Vault.openWithPassword_of_short {file : Bytes} (short : file.length < headerSize)
    (password : String) (identity : Identity) :
    Vault.openWithPassword file password identity = .error (.error .io) := by
  have unread : readHeader file = .error (.error .io) := by
    apply except_bind_of_error
    have none : readAt file (0 : UInt64).toNat headerSize = none := if_neg (by simp; omega)
    rw [readExact, if_neg (by decide), none]
  exact except_bind_of_error unread

namespace OpenVault

/-- An operation writes to its container only. -/
theorem perform_spares (v : OpenVault) (op : Op) (draws : Draws) :
    Moves (FileSystem.Spares v.path) (perform v op draws) := by
  intro disk
  rw [perform]
  split <;> exact fun _ elsewhere => Function.update_of_ne elsewhere ..

omit [Primitives] in
/-- Reading a file writes nothing. -/
theorem readSource_spares (target source : Path) :
    Moves (FileSystem.Spares target) (readSource source) :=
  Moves.observe (FileSystem.Spares.refl target) _

/-- A place is opened when its file is a container that the password unwraps. -/
theorem openVault_cases (path : Path) (password : String) (identity : Identity)
    (disk : FileSystem) :
    (∃ error, openVault path password identity disk = .error error disk) ∨
    ∃ file v, disk path = some file ∧ Vault.openWithPassword file password identity = .ok v ∧
      openVault path password identity disk = .ok ⟨path, v⟩ disk := by
  cases found : disk path with
  | none => exact Or.inl ⟨.vault (.error .io), observe_of_error (by simp only [found])⟩
  | some file =>
      cases opened : Vault.openWithPassword file password identity with
      | error fault => exact Or.inl ⟨_, openVault_of_error found opened⟩
      | ok v => exact Or.inr ⟨file, v, rfl, opened, openVault_of_ok found opened⟩

section

variable (generated : Identity) (vault : Path) (password : String) (disk : FileSystem)
  {body : OpenVault → EStateM CommandError FileSystem CommandOutput}

/-- Where a program that opens a vault ends: where it opened it, or where it went from there. -/
theorem final_opened (holds : FileSystem → Prop)
    (start : holds (Identity.settled identityPath generated disk))
    (kept : ∀ file v, Identity.settled identityPath generated disk vault = some file →
      headerSize ≤ file.length →
      holds (finalState (body ⟨vault, v⟩ (Identity.settled identityPath generated disk)))) :
    holds (finalState ((do
      let localIdentity ← (shell identityPath).loadOrCreate generated
      let v ← (shell identityPath).openVault vault password localIdentity
      body v) disk)) := by
  have loaded : (shell identityPath).loadOrCreate generated disk = .ok _ _ :=
    Identity.loadOrCreate_eq identityPath generated disk
  rw [bind_of_ok loaded]
  generalize (Identity.ofFile (disk identityPath)).getD generated = identity
  generalize Identity.settled identityPath generated disk = settled at *
  change holds (finalState ((openVault vault password identity >>= body) settled))
  rcases openVault_cases vault password identity settled with
    ⟨error, failed⟩ | ⟨file, v, found, opened, ran⟩
  · rw [bind_of_error failed]
    exact start
  · rw [bind_of_ok ran]
    apply kept file v found
    by_contra short
    rw [Vault.openWithPassword_of_short (by omega)] at opened
    cases opened

/-- A program that changes nothing but the container it opens. The identity file is too short
to be opened. -/
theorem leaves_opened (spares : ∀ v, Moves (FileSystem.Spares v.path) (body v)) {path : Path}
    (apart : path = identityPath ∨ path ≠ vault) :
    (finalState ((do
      let localIdentity ← (shell identityPath).loadOrCreate generated
      let v ← (shell identityPath).openVault vault password localIdentity
      body v) disk) : FileSystem) path = Identity.settled identityPath generated disk path := by
  apply final_opened generated vault password disk
    (fun final => final path = Identity.settled identityPath generated disk path) rfl
  intro file v found sized
  apply spares ⟨vault, v⟩ _ path
  rintro rfl
  rcases apart with rfl | elsewhere
  · rw [Identity.settled_self, Option.some.injEq] at found
    rw [← found, Identity.length_toBytes] at sized
    exact absurd sized (by decide)
  · exact elsewhere rfl

/-- A program that only reads the container it opens. -/
theorem observes_opened (reads : ∀ v, Moves Eq (body v)) :
    finalState ((do
      let localIdentity ← (shell identityPath).loadOrCreate generated
      let v ← (shell identityPath).openVault vault password localIdentity
      body v) disk) = Identity.settled identityPath generated disk :=
  final_opened generated vault password disk
    (fun final => final = Identity.settled identityPath generated disk) rfl
    fun _ v _ _ => (reads ⟨vault, v⟩ _).symm

end

/-- Creating a container changes nothing where a file is. -/
theorem create_spares (path : Path) (name description : String) (capacityBytes : UInt64)
    (password : String) (adminIdentity : Identity) (draws : Draws) (disk : FileSystem)
    {other : Path} (apart : (disk other).isSome = true ∨ other ≠ path) :
    (finalState (create path name description capacityBytes password adminIdentity draws disk) :
      FileSystem) other = disk other := by
  have spares : ∀ content, disk path = none →
      Function.update disk path content other = disk other := by
    intro content nothing
    apply Function.update_of_ne
    rintro rfl
    rcases apart with found | elsewhere
    · rw [nothing] at found
      cases found
    · exact elsewhere rfl
  rw [create]
  split
  · rename_i nothing
    exact spares _ nothing
  · rfl
  · rename_i nothing
    exact spares _ nothing
  · rfl

end OpenVault

variable [SocketAddress SocketAddr]

namespace Invocation

variable (drawn : Drawn) (disk : FileSystem) {path vault : Path}
  (apart : path = identityPath ∨ path ≠ vault)

section

include apart

/-- What an operation leaves at a place. -/
theorem leaves_performed (op : Op) (output : CommandOutput) (password : String) :
    (finalState ((do
      let localIdentity ← (OpenVault.shell identityPath).loadOrCreate drawn.identity
      let v ← (OpenVault.shell identityPath).openVault vault password localIdentity
      (OpenVault.shell identityPath).perform v op drawn.draws
      pure output) disk) : FileSystem) path =
        Identity.settled identityPath drawn.identity disk path := by
  apply OpenVault.leaves_opened drawn.identity vault password disk _ apart
  intro v
  apply Moves.bind (FileSystem.Spares.trans v.path) (OpenVault.perform_spares v _ _)
  exact fun _ => Moves.pure (FileSystem.Spares.refl v.path) _

/-- What an import leaves at a place. -/
theorem leaves_import (op : String → Bytes → Op) (output : String → Nat → CommandOutput)
    (password : String) (source : Path) (name : String) :
    (finalState (Command.executeImport (OpenVault.shell identityPath) op output vault password
      source name drawn disk) : FileSystem) path =
        Identity.settled identityPath drawn.identity disk path := by
  apply OpenVault.leaves_opened drawn.identity vault password disk _ apart
  intro v
  apply Moves.bind (FileSystem.Spares.trans v.path) (OpenVault.readSource_spares v.path source)
  intro data
  apply Moves.bind (FileSystem.Spares.trans v.path) (OpenVault.perform_spares v _ _)
  exact fun _ => Moves.pure (FileSystem.Spares.refl v.path) _

/-- What a grant or a revocation leaves at a place: the peer is parsed before anything is done. -/
theorem leaves_share (op : PeerId → Op) (output : String → CommandOutput)
    (password peer : String) :
    (finalState (Command.executeShare (OpenVault.shell identityPath) SocketAddr op output vault
      password peer drawn disk) : FileSystem) path =
        (if (InviteCode.decode peer : Except Fault (InviteCode SocketAddr)).isOk then
          Identity.settled identityPath drawn.identity disk else disk) path := by
  apply finalState_given fun final : FileSystem => final path
  · cases (InviteCode.decode peer : Except Fault (InviteCode SocketAddr)) <;> rfl
  · exact fun invite => leaves_performed drawn disk apart _ _ password

/-- What a creation leaves at a place: the capacity is parsed before anything is done. -/
theorem leaves_create (name description capacity password : String)
    (parseCapacity : String → Except String UInt64) :
    (finalState (Command.executeCreate (OpenVault.shell identityPath) vault name description
      capacity password parseCapacity drawn disk) : FileSystem) path =
        (if (parseCapacity capacity).isOk then
          Identity.settled identityPath drawn.identity disk else disk) path := by
  apply finalState_given fun final : FileSystem => final path
  · cases parseCapacity capacity <;> rfl
  · intro capacityBytes
    have loaded : (OpenVault.shell identityPath).loadOrCreate drawn.identity disk = .ok _ _ :=
      Identity.loadOrCreate_eq identityPath drawn.identity disk
    rw [bind_of_ok loaded]
    have exists' : (Identity.settled identityPath drawn.identity disk path).isSome = true ∨
        path ≠ vault := by
      apply apart.imp_left
      rintro rfl
      rw [Identity.settled_self]
      rfl
    have spares := OpenVault.create_spares vault name description capacityBytes password
      ((Identity.ofFile (disk identityPath)).getD drawn.identity) drawn.draws _ exists'
    rw [← spares]
    exact (congrFun (Moves.from_first Eq.refl (fun _ => Moves.pure Eq.refl _) _) path).symm

end

/-- **What a command changes.** Once it has loaded its identity, a command changes nothing but
the container that it works on, and that is never the identity file. -/
theorem leaves (invocation : Invocation SocketAddr) {path : Path}
    (apart : path = identityPath ∨ invocation.command.writes ≠ some path) :
    (finalState (invocation.execute (OpenVault.shell identityPath) disk) : FileSystem) path =
      invocation.settled identityPath disk path := by
  obtain ⟨command, drawn, parseCapacity⟩ := invocation
  have elsewhere : ∀ vault, command.writes = some vault → path = identityPath ∨ path ≠ vault := by
    intro vault writes
    apply apart.imp_right
    rintro different rfl
    exact different writes
  cases command with
  | list vault password =>
      apply congrFun (OpenVault.observes_opened drawn.identity vault password disk _)
      intro v
      have reads : Moves Eq ((OpenVault.shell identityPath).listFiles v) := Moves.observe Eq.refl _
      exact reads.bind_eq fun _ => Moves.pure Eq.refl _
  | verify vault password =>
      apply congrFun (OpenVault.observes_opened drawn.identity vault password disk _)
      intro v
      have reads : Moves Eq ((OpenVault.shell identityPath).verifyIntegrity v) :=
        Moves.observe Eq.refl _
      exact reads.bind_eq fun _ => Moves.pure Eq.refl _
  | add vault password source name =>
      exact leaves_import drawn disk (elsewhere vault rfl) .addFile .added password source name
  | update vault password source name =>
      exact leaves_import drawn disk (elsewhere vault rfl) .updateFile .updated password source name
  | delete vault password name =>
      exact leaves_performed drawn disk (elsewhere vault rfl) (.deleteFile name) _ password
  | whoami listen =>
      have loaded : (OpenVault.shell identityPath).loadOrCreate drawn.identity disk = .ok _ _ :=
        Identity.loadOrCreate_eq identityPath drawn.identity disk
      change (finalState (Command.executeWhoami (OpenVault.shell identityPath) listen drawn disk) :
        FileSystem) path = Identity.settled identityPath drawn.identity disk path
      unfold Command.executeWhoami
      rw [bind_of_ok loaded]
      rfl
  | create target name description capacity password =>
      exact leaves_create drawn disk (elsewhere target rfl) name description capacity password
        parseCapacity
  | grant vault password peer =>
      exact leaves_share drawn disk (elsewhere vault rfl) .grantAccess .granted password peer
  | revoke vault password peer =>
      exact leaves_share drawn disk (elsewhere vault rfl)
        (fun peerId => .revokeAccess peerId.signingPublic password) .revoked password peer

end Invocation

/-! ## Containers that are no account's -/

/-- The device once a command has loaded its identity, if it does. -/
def Invocation.settledOn (invocation : Invocation SocketAddr) (device : Device) : Device :=
  if invocation.loads then
    { device with identity := some (device.identity.getD invocation.drawn.identity) }
  else device

namespace OpenAccount

variable (view : FileSystem) (generated : Identity) (vault : Path) (password : String)
  {body : OpenAccount → EStateM CommandError Device CommandOutput}

/-- A program that opens a vault on a device, when there is no such account or it only reads. -/
theorem observes_opened (device : Device)
    (reads : device.accounts vault = none ∨ ∀ opened, Moves Eq (body opened)) :
    finalState ((do
      let localIdentity ← (shell view).loadOrCreate generated
      let opened ← (shell view).openVault vault password localIdentity
      body opened) device) =
        { device with identity := some (device.identity.getD generated) } := by
  have loaded : (shell view).loadOrCreate generated device =
      .ok _ { device with identity := some (device.identity.getD generated) } := rfl
  have ends : ∀ settled : Device, settled.accounts = device.accounts → settled = finalState
      ((openVault vault password (device.identity.getD generated) >>= body) settled) := by
    intro settled same
    rcases reads with free | reads
    · rw [bind_of_error (openVault_of_none (by rw [same, free]) password _)]
      rfl
    · exact Moves.bind_eq (Moves.observe Eq.refl _) reads settled
  rw [bind_of_ok loaded]
  exact (ends { device with identity := some (device.identity.getD generated) } rfl).symm

end OpenAccount

/-- A command that opens a container, when it is no account's, or that writes nothing. -/
theorem Invocation.observes (view : FileSystem) (invocation : Invocation SocketAddr)
    (device : Device) (idle : invocation.command.writes = none ∨
      ∃ vault password, invocation.command.opens = some (vault, password) ∧
        device.accounts vault = none) :
    finalState (invocation.execute (OpenAccount.shell view) device) =
      invocation.settledOn device := by
  obtain ⟨command, drawn, parseCapacity⟩ := invocation
  have free : ∀ vault password, command.opens = some (vault, password) →
      command.writes ≠ none → device.accounts vault = none := by
    intro vault password opens writes
    obtain nothing | ⟨vault', password', opens', free⟩ := idle
    · exact absurd nothing writes
    · rw [opens] at opens'
      cases opens'
      exact free
  cases command with
  | create path name description capacity password =>
      obtain nothing | ⟨_, _, opens, _⟩ := idle
      · cases nothing
      · cases opens
  | whoami listen => rfl
  | list vault password =>
      apply OpenAccount.observes_opened view drawn.identity vault password device
      exact Or.inr fun opened => Moves.pure Eq.refl _
  | verify vault password =>
      apply OpenAccount.observes_opened view drawn.identity vault password device
      exact Or.inr fun opened => Moves.pure Eq.refl _
  | add vault password source name =>
      apply OpenAccount.observes_opened view drawn.identity vault password device
      exact Or.inl (free vault password rfl nofun)
  | update vault password source name =>
      apply OpenAccount.observes_opened view drawn.identity vault password device
      exact Or.inl (free vault password rfl nofun)
  | delete vault password name =>
      apply OpenAccount.observes_opened view drawn.identity vault password device
      exact Or.inl (free vault password rfl nofun)
  | grant vault password peer =>
      apply finalState_given id
      · change _ = (InviteCode.decode peer : Except Fault (InviteCode SocketAddr)).isOk
        cases (InviteCode.decode peer : Except Fault (InviteCode SocketAddr)) <;> rfl
      · intro invite
        apply OpenAccount.observes_opened view drawn.identity vault password device
        exact Or.inl (free vault password rfl nofun)
  | revoke vault password peer =>
      apply finalState_given id
      · change _ = (InviteCode.decode peer : Except Fault (InviteCode SocketAddr)).isOk
        cases (InviteCode.decode peer : Except Fault (InviteCode SocketAddr)) <;> rfl
      · intro invite
        apply OpenAccount.observes_opened view drawn.identity vault password device
        exact Or.inl (free vault password rfl nofun)

/-! ## One command after the other -/

omit [Primitives] in
/-- Settling the identity changes no account. -/
theorem Invocation.accounts_settledOn (invocation : Invocation SocketAddr) (device : Device) :
    (invocation.settledOn device).accounts = device.accounts := by
  rw [Invocation.settledOn]
  split <;> rfl

/-- The disk after a command. -/
def Invocation.onDisk (identityPath : Path) (invocation : Invocation SocketAddr)
    (disk : FileSystem) : FileSystem :=
  finalState (invocation.execute (OpenVault.shell identityPath) disk)

/-- The device after a command, with the other files as the command finds them. -/
def Invocation.onDevice (identityPath : Path) (invocation : Invocation SocketAddr)
    (disk : FileSystem) (device : Device) : Device :=
  finalState (invocation.execute (OpenAccount.shell
    (Identity.settled identityPath invocation.drawn.identity disk)) device)

/-- The disk after a session. -/
def diskAfter (identityPath : Path) :
    List (Invocation SocketAddr) → FileSystem → FileSystem
  | [], disk => disk
  | invocation :: later, disk =>
      diskAfter identityPath later (invocation.onDisk identityPath disk)

/-- The device after a session. -/
def deviceAfter (identityPath : Path) :
    List (Invocation SocketAddr) → FileSystem → Device → Device
  | [], _, device => device
  | invocation :: later, disk, device =>
      deviceAfter identityPath later (invocation.onDisk identityPath disk)
        (invocation.onDevice identityPath disk device)

/-- A device describes what agrees with a disk on the identity and on the accounts. -/
theorem Device.Describes.of_agrees {device : Device} {passwords : List String}
    {disk disk' : FileSystem} (describes : device.Describes identityPath passwords disk)
    (identity : disk' identityPath = disk identityPath)
    (agrees : ∀ path account, device.accounts path = some account → disk' path = disk path) :
    device.Describes identityPath passwords disk' where
  identity := by
    rw [identity]
    exact describes.identity
  contains := by
    intro path account held
    rw [agrees path account held]
    exact describes.contains path account held
  elsewhere := describes.elsewhere
  known := describes.known

section Sessions

variable {passwords : List String} {disk : FileSystem} {device : Device}
  (describes : device.Describes identityPath passwords disk)

include describes

/-- A device describes the disk once the identity is settled. -/
theorem Device.Describes.settledOn (invocation : Invocation SocketAddr) :
    (invocation.settledOn device).Describes identityPath passwords
      (invocation.settled identityPath disk) := by
  rw [Invocation.settledOn, Invocation.settled]
  split
  · exact describes.settle invocation.drawn.identity
  · exact describes

/-- A command that opens a container which is no account's, or that writes nothing. -/
theorem Device.Describes.idle {invocation : Invocation SocketAddr}
    (idle : invocation.command.writes = none ∨
      ∃ vault password, invocation.command.opens = some (vault, password) ∧
        device.accounts vault = none) :
    (invocation.onDevice identityPath disk device).Describes identityPath passwords
      (invocation.onDisk identityPath disk) := by
  rw [Invocation.onDevice, invocation.observes _ device idle]
  apply (describes.settledOn invocation).of_agrees
  · exact invocation.leaves disk (Or.inl rfl)
  · intro path account held
    apply invocation.leaves disk
    apply Or.inr
    intro writes
    rw [invocation.accounts_settledOn] at held
    rcases idle with nothing | ⟨vault, password, opens, free⟩
    · rw [nothing] at writes
      cases writes
    · rcases Command.writes_of_opens opens with nothing | only
      · rw [nothing] at writes
        cases writes
      · rw [only, Option.some.injEq] at writes
        rw [← writes, free] at held
        cases held

variable [Lawful] (apart : PasswordsApart passwords)

include apart

/-- **One command.** Whatever container it opens, the device goes on to describe the disk. -/
theorem Device.Describes.after {invocation : Invocation SocketAddr}
    (allowed : invocation.Allowed passwords) :
    (invocation.onDevice identityPath disk device).Describes identityPath passwords
      (invocation.onDisk identityPath disk) := by
  by_cases idle : invocation.command.writes = none ∨
      ∃ vault password, invocation.command.opens = some (vault, password) ∧
        device.accounts vault = none
  · exact describes.idle idle
  · push Not at idle
    obtain ⟨writes, accounts⟩ := idle
    have onAccount : invocation.OnAccount device := by
      intro vault password opens
      obtain ⟨account, held⟩ := Option.ne_none_iff_exists'.mp (accounts vault password opens)
      refine ⟨account, held, fun verifies => absurd ?_ writes⟩
      rw [verifies]
      rfl
    exact (Invocation.follows describes apart allowed onAccount).final.2

/-- A whole session. -/
theorem Device.Describes.after_all (session : List (Invocation SocketAddr))
    (allowed : ∀ invocation ∈ session, invocation.Allowed passwords) :
    (deviceAfter identityPath session disk device).Describes identityPath passwords
      (diskAfter identityPath session disk) := by
  induction session generalizing disk device with
  | nil => exact describes
  | cons invocation later ih =>
      apply ih (describes.after apart (allowed invocation List.mem_cons_self))
      exact fun next member => allowed next (List.mem_cons_of_mem invocation member)

/-- **Commands mean what they say.** After any session, a command on an account prints what
the device of that session says, or fails with the error that it says. -/
theorem Device.Describes.outcome_after (session : List (Invocation SocketAddr))
    (allowed : ∀ invocation ∈ session, invocation.Allowed passwords)
    {next : Invocation SocketAddr} (allowed' : next.Allowed passwords)
    (onAccount : next.OnAccount (deviceAfter identityPath session disk device)) :
    let reached := diskAfter identityPath session disk
    outcome (next.execute (OpenVault.shell identityPath) reached) =
      outcome (next.execute (OpenAccount.shell
        (Identity.settled identityPath next.drawn.identity reached))
          (deviceAfter identityPath session disk device)) :=
  (Invocation.follows (describes.after_all apart session allowed) apart allowed' onAccount).final.1

end Sessions

/-- **What a session leaves alone.** An identity that can be loaded is never replaced, and a
file that no command works on is never touched. -/
theorem diskAfter_eq_of_spared (session : List (Invocation SocketAddr)) (disk : FileSystem)
    {path : Path} (spared :
      if path = identityPath then (Identity.ofFile (disk path)).isSome = true
      else ∀ invocation ∈ session, invocation.command.writes ≠ some path) :
    diskAfter identityPath session disk path = disk path := by
  induction session generalizing disk with
  | nil => rfl
  | cons invocation later ih =>
      have kept : invocation.onDisk identityPath disk path = disk path := by
        by_cases same : path = identityPath
        · rw [if_pos same] at spared
          rw [Invocation.onDisk, invocation.leaves disk (Or.inl same), Invocation.settled]
          split
          · obtain ⟨identity, loaded⟩ := Option.isSome_iff_exists.mp spared
            rw [Identity.settled_of_some _ _ _ (by rw [← same]; exact loaded)]
          · rfl
        · rw [if_neg same] at spared
          rw [Invocation.onDisk,
            invocation.leaves disk (Or.inr (spared invocation List.mem_cons_self)),
            Invocation.settled]
          split
          · exact Identity.settled_of_ne _ _ _ same
          · rfl
      rw [diskAfter, ih, kept]
      by_cases same : path = identityPath
      · rw [if_pos same] at spared ⊢
        rw [kept]
        exact spared
      · rw [if_neg same] at spared ⊢
        exact fun next member => spared next (List.mem_cons_of_mem invocation member)

end

namespace Transparent

/-- The two passwords tell apart. -/
theorem passwordsApart : PasswordsApart ["p", "q"] where
  derives := fun _ _ _ => nofun
  rejects := by
    intro salt password member other member' different key key' derived derived'
    cases derived
    cases derived'
    apply rejects_of_tag_ne
    simp only [List.mem_cons, List.not_mem_nil, or_false] at member member'
    rcases member with rfl | rfl <;> rcases member' with rfl | rfl <;>
      first | exact absurd rfl different | decide

/-- A vault is created on a new device. -/
def creation : Invocation Loopback where
  command := .create "v" "v" "" "64 KB" "p"
  drawn := ⟨identity 1, draws 1⟩
  parseCapacity _ := .ok 65536

/-- Its files are listed, by a command with the password in force and by one without it. -/
def listing (password : String) : Invocation Loopback where
  command := .list "v" password
  drawn := ⟨identity 2, draws 2⟩
  parseCapacity _ := .ok 0

/-- A device without identity and accounts describes an empty disk. -/
theorem blank_describes (passwords : List String) :
    Device.Describes ⟨none, fun _ => none⟩ "id" passwords fun _ => none :=
  ⟨rfl, nofun, nofun, nofun⟩

/-- The creation is allowed. -/
theorem creation_allowed : ∀ invocation ∈ [creation], invocation.Allowed ["p", "q"] := by
  rintro _ (_ | ⟨_, ⟨⟩⟩)
  constructor
  · rintro _ ⟨⟩
    simp
  · rintro _ _ _ _ _ _ ⟨⟩ ⟨⟩
    decide

/-- Listing is allowed with either password. -/
theorem listing_allowed {password : String} (known : password ∈ ["p", "q"]) :
    (listing password).Allowed ["p", "q"] := by
  constructor
  · rintro _ ⟨⟩
    exact known
  · rintro _ _ _ _ _ _ ⟨⟩

/-- Listing is asked of the vault that was created. -/
theorem listing_onAccount (password : String) : (listing password).OnAccount
    (deviceAfter "id" [creation] (fun _ => none) ⟨none, fun _ => none⟩) := by
  rintro _ _ ⟨⟩
  exact ⟨Account.new "v" "" 65536 "p" (identity 1) (draws 1), rfl, nofun⟩

/-- The vault that was created is listed with its password, and with no other. -/
theorem outcome_after_creation :
    outcome ((listing "p").execute (OpenVault.shell "id")
      (diskAfter "id" [creation] fun _ => none)) = .ok (.files "v" 0 65536 []) ∧
    outcome ((listing "q").execute (OpenVault.shell "id")
      (diskAfter "id" [creation] fun _ => none)) =
        .error (.vault (.error .incorrectPassword)) :=
  ⟨(Device.Describes.outcome_after (blank_describes _) passwordsApart [creation] creation_allowed
      (listing_allowed (by simp)) (listing_onAccount "p")).trans rfl,
    (Device.Describes.outcome_after (blank_describes _) passwordsApart [creation] creation_allowed
      (listing_allowed (by simp)) (listing_onAccount "q")).trans rfl⟩

/-- The identity that was made for a creation stays as it is. -/
theorem identity_spared : diskAfter "id" [creation, listing "p"]
      (Identity.settled "id" (identity 3) fun _ => none) "id" = some (identity 3).toBytes :=
  (diskAfter_eq_of_spared [creation, listing "p"] _ (by
    rw [if_pos rfl, Identity.settled_self]
    rfl)).trans rfl

end Transparent

end ReVault
