import ReVault.Core.IdentityFile
import ReVault.Core.Summary
import ReVault.Device.Handle
import ReVault.Foundation.Simulation

/-!
# What a command finds on its device

The operations through which commands reach identities, sources and vaults, on two levels.
On the disk a vault is a container file, which changes with the handle that was opened on
it. On the device it is an account. The second is what the first is for.
-/

namespace ReVault

open Foundation Primitives

/-- Errors of a command. -/
inductive CommandError where
  | vault (fault : Fault)
  /-- a file to import that cannot be read -/
  | source
  /-- an argument that cannot be parsed -/
  | argument (message : String)
  deriving DecidableEq

/-- The values that a command draws. -/
structure Drawn where
  identity : Identity
  draws : Draws

/-- The operations of commands, over some state and some handles on vaults. -/
structure Shell (σ Handle : Type) where
  loadOrCreate (generated : Identity) : EStateM CommandError σ Identity
  create (path : Path) (name description : String) (capacityBytes : UInt64) (password : String)
    (adminIdentity : Identity) (draws : Draws) : EStateM CommandError σ Handle
  openVault (path : Path) (password : String) (localIdentity : Identity) :
    EStateM CommandError σ Handle
  readSource (path : Path) : EStateM CommandError σ Bytes
  listFiles (v : Handle) : EStateM CommandError σ (List FileInfo)
  verifyIntegrity (v : Handle) : EStateM CommandError σ Unit
  perform (v : Handle) (op : Op) (draws : Draws) : EStateM CommandError σ Unit
  summary (v : Handle) : VaultSummary
  usedBytes (v : Handle) : Nat

/-! ## On the disk -/

/-- A handle, with the place of its container. -/
structure OpenVault where
  path : Path
  vault : Vault

section

variable [Primitives]

namespace OpenVault

/-- `Vault::create` at a place. The checks and the keys come before the file is opened, which
has to be a new one; when its size cannot be set it stays empty. -/
def create (path : Path) (name description : String) (capacityBytes : UInt64)
    (password : String) (adminIdentity : Identity) (draws : Draws) :
    EStateM CommandError FileSystem OpenVault := fun disk =>
  match Vault.create name description capacityBytes password adminIdentity draws, disk path with
  | .ok v, none => .ok ⟨path, v⟩ (Function.update disk path (some v.file))
  | .ok _, some _ => .error (.vault (.error .io)) disk
  | .error (.error .io), none =>
      .error (.vault (.error .io)) (Function.update disk path (some []))
  | .error fault, _ => .error (.vault fault) disk

/-- `Vault::open` at a place. -/
def openVault (path : Path) (password : String) (localIdentity : Identity) :
    EStateM CommandError FileSystem OpenVault :=
  observe fun disk =>
    match disk path with
    | none => .error (.vault (.error .io))
    | some file =>
        match Vault.openWithPassword file password localIdentity with
        | .ok v => .ok ⟨path, v⟩
        | .error fault => .error (.vault fault)

omit [Primitives] in
/-- `fs::read` of a file to import. -/
def readSource (path : Path) : EStateM CommandError FileSystem Bytes :=
  observe fun disk =>
    match disk path with
    | some data => .ok data
    | none => .error .source

omit [Primitives] in
/-- What a handle reads from its container. -/
def reading {α : Type} (result : Except Fault α) : EStateM CommandError FileSystem α :=
  observe fun _ =>
    match result with
    | .ok value => .ok value
    | .error fault => .error (.vault fault)

/-- An operation on a handle, which writes through to the container. None of them is given
the password in force. -/
def perform (v : OpenVault) (op : Op) (draws : Draws) : EStateM CommandError FileSystem Unit :=
  fun disk =>
    match op.exec "" draws v.vault with
    | .ok _ v' => .ok () (Function.update disk v.path (some v'.file))
    | .error fault v' => .error (.vault fault) (Function.update disk v.path (some v'.file))

section

variable {path : Path} {disk : FileSystem} {v : OpenVault} {v' : Vault}

omit [Primitives] in
/-- A file that is there is read. -/
theorem readSource_of_some {data : Bytes} (found : disk path = some data) :
    readSource path disk = .ok data disk :=
  observe_of_ok (by simp only [found])

omit [Primitives] in
/-- A file that is missing is not. -/
theorem readSource_of_none (missing : disk path = none) :
    readSource path disk = .error .source disk :=
  observe_of_error (by simp only [missing])

/-- A container that opens is opened. -/
theorem openVault_of_ok {file : Bytes} {password : String} {identity : Identity}
    (found : disk path = some file)
    (opened : Vault.openWithPassword file password identity = .ok v') :
    openVault path password identity disk = .ok ⟨path, v'⟩ disk :=
  observe_of_ok (by simp only [found, opened])

/-- A vault that was opened. -/
theorem exists_of_openVault {password : String} {identity : Identity} {opened : OpenVault}
    (ran : openVault path password identity disk = .ok opened disk) :
    ∃ file, disk path = some file ∧
      Vault.openWithPassword file password identity = .ok opened.vault := by
  obtain ⟨read, _⟩ := observe_eq_ok_iff.mp ran
  split at read
  · cases read
  · rename_i file found
    split at read
    · rename_i v opens
      cases read
      exact ⟨file, found, opens⟩
    · cases read

/-- One that does not is refused with its error. -/
theorem openVault_of_error {file : Bytes} {password : String} {identity : Identity} {fault : Fault}
    (found : disk path = some file)
    (refused : Vault.openWithPassword file password identity = .error fault) :
    openVault path password identity disk = .error (.vault fault) disk :=
  observe_of_error (by simp only [found, refused])

omit [Primitives] in
/-- What was read is returned. -/
theorem reading_of_ok {α : Type} {result : Except Fault α} {value : α} (read : result = .ok value) :
    reading result disk = .ok value disk :=
  observe_of_ok (by simp only [read])

section

variable {name description password : String} {capacityBytes : UInt64} {admin : Identity}
  {draws : Draws}

/-- A container is created where nothing is. -/
theorem create_of_ok
    (made : Vault.create name description capacityBytes password admin draws = .ok v')
    (nothing : disk path = none) :
    create path name description capacityBytes password admin draws disk =
      .ok ⟨path, v'⟩ (Function.update disk path (some v'.file)) := by
  simp only [create, made, nothing]

/-- Where something is, nothing is created. -/
theorem create_of_exists
    (made : Vault.create name description capacityBytes password admin draws = .ok v')
    {file : Bytes} (found : disk path = some file) :
    create path name description capacityBytes password admin draws disk =
      .error (.vault (.error .io)) disk := by
  simp only [create, made, found]

/-- A refused creation leaves at most an empty file behind, at a place where nothing was. -/
theorem create_of_error {fault : Fault} (path : Path) (disk : FileSystem)
    (failed : Vault.create name description capacityBytes password admin draws = .error fault) :
    ∃ file, create path name description capacityBytes password admin draws disk =
      .error (.vault fault) (Function.update disk path file) ∧ (file = disk path ∨
        disk path = none) := by
  by_cases late : fault = .error .io ∧ disk path = none
  · obtain ⟨rfl, nothing⟩ := late
    exact ⟨some [], by simp only [create, failed, nothing], Or.inr nothing⟩
  · refine ⟨disk path, ?_, Or.inl rfl⟩
    rw [Function.update_eq_self, create, failed]
    split
    · rename_i impossible _
      cases impossible
    · rename_i impossible _
      cases impossible
    · rename_i isIo nothing
      exact absurd ⟨Except.error.inj isIo, nothing⟩ late
    · rename_i isFault _
      rw [Except.error.inj isFault]

end

/-- An accepted operation is written to the place of its handle. -/
theorem perform_of_ok {op : Op} {draws : Draws} (ran : op.exec "" draws v.vault = .ok () v') :
    perform v op draws disk = .ok () (Function.update disk v.path (some v'.file)) := by
  simp only [perform, ran]

/-- So is what a failed one has come to. -/
theorem perform_of_error {op : Op} {draws : Draws} {fault : Fault}
    (ran : op.exec "" draws v.vault = .error fault v') : perform v op draws disk =
      .error (.vault fault) (Function.update disk v.path (some v'.file)) := by
  simp only [perform, ran]

end

/-- The commands' operations on the disk, with the identity at a place. -/
def shell (identityPath : Path) : Shell FileSystem OpenVault where
  loadOrCreate := Identity.loadOrCreate identityPath
  create := create
  openVault := openVault
  readSource := readSource
  listFiles v := reading v.vault.listFiles
  verifyIntegrity v := reading v.vault.verifyIntegrity
  perform := perform
  summary v := v.vault.summary
  usedBytes v := v.vault.usedBytes.toNat

end OpenVault

end

/-! ## On the device -/

/-- The identity of a device, once it has one, and the accounts of its containers. -/
structure Device where
  identity : Option Identity
  accounts : Path → Option Account

/-- An account that was opened, with the identity that opened it. -/
structure OpenAccount where
  path : Path
  account : Account
  identity : Option Identity

namespace OpenAccount

/-- The identity of the device, made when it has none. -/
def loadOrCreate (generated : Identity) : EStateM CommandError Device Identity := fun device =>
  let identity := device.identity.getD generated
  .ok identity { device with identity := some identity }

section

variable [Primitives] (view : FileSystem)

/-- A new account, at a place where nothing is. -/
def create (path : Path) (name description : String) (capacityBytes : UInt64)
    (password : String) (adminIdentity : Identity) (draws : Draws) :
    EStateM CommandError Device OpenAccount := fun device =>
  match Account.create name description capacityBytes password adminIdentity draws with
  | .error error => .error (.vault (.error error)) device
  | .ok account =>
      if (view path).isSome then .error (.vault (.error .io)) device
      else .ok ⟨path, account, some adminIdentity⟩
        { device with accounts := Function.update device.accounts path (some account) }

/-- An account opens with its password; the identity counts when it is the admin's. -/
def openVault (path : Path) (password : String) (localIdentity : Identity) :
    EStateM CommandError Device OpenAccount :=
  observe fun device =>
    match device.accounts path with
    | none => .error (.vault (.error .io))
    | some account =>
        if password = account.password then
          .ok ⟨path, account, account.authorize localIdentity⟩
        else .error (.vault (.error .incorrectPassword))

omit [Primitives] in
/-- A file of the device. -/
def readSource (path : Path) : EStateM CommandError Device Bytes :=
  observe fun _ =>
    match view path with
    | some data => .ok data
    | none => .error .source

omit [Primitives] in
/-- An operation of the admin changes the account as its ledger says. -/
def perform (v : OpenAccount) (op : Op) (draws : Draws) : EStateM CommandError Device Unit :=
  fun device =>
    if op.mutates && v.identity.isNone then .error (.vault (.error .notAuthorized)) device
    else
      match v.account.apply op draws with
      | .error error => .error (.vault (.error error)) device
      | .ok account => .ok ()
          { device with accounts := Function.update device.accounts v.path (some account) }

section

variable {view} {path : Path} {device : Device} {v : OpenAccount} {account : Account}

omit [Primitives] in
/-- A file that is there is read. -/
theorem readSource_of_some {data : Bytes} (found : view path = some data) :
    readSource view path device = .ok data device :=
  observe_of_ok (by simp only [found])

omit [Primitives] in
/-- A file that is missing is not. -/
theorem readSource_of_none (missing : view path = none) :
    readSource view path device = .error .source device :=
  observe_of_error (by simp only [missing])

/-- An account opens with its password. -/
theorem openVault_of_eq {password : String} (held : device.accounts path = some account)
    (right : password = account.password) (identity : Identity) :
    openVault path password identity device =
      .ok ⟨path, account, account.authorize identity⟩ device :=
  observe_of_ok (by simp only [held, if_pos right])

/-- With another it does not. -/
theorem openVault_of_ne {password : String} (held : device.accounts path = some account)
    (wrong : password ≠ account.password) (identity : Identity) :
    openVault path password identity device =
      .error (.vault (.error .incorrectPassword)) device :=
  observe_of_error (by simp only [held, if_neg wrong])

section

variable {name description password : String} {capacityBytes : UInt64} {admin : Identity}
  {draws : Draws}

/-- What an account cannot be made of fails. -/
theorem create_of_error {error : VaultError}
    (failed : Account.create name description capacityBytes password admin draws = .error error) :
    create view path name description capacityBytes password admin draws device =
      .error (.vault (.error error)) device := by
  simp only [create, failed]

/-- Where something is, no account is made. -/
theorem create_of_exists
    (made : Account.create name description capacityBytes password admin draws = .ok account)
    {file : Bytes} (found : view path = some file) :
    create view path name description capacityBytes password admin draws device =
      .error (.vault (.error .io)) device := by
  simp only [create, made, found, Option.isSome_some, if_true]

/-- An account is made where nothing is. -/
theorem create_of_ok
    (made : Account.create name description capacityBytes password admin draws = .ok account)
    (nothing : view path = none) :
    create view path name description capacityBytes password admin draws device =
      .ok ⟨path, account, some admin⟩
        { device with accounts := Function.update device.accounts path (some account) } := by
  simp only [create, made, nothing, Option.isSome_none, Bool.false_eq_true, if_false]

end

section

variable {op : Op} {draws : Draws}

omit [Primitives] in
/-- Without the admin's identity nothing is changed. -/
theorem perform_of_unauthorized (mutates : op.mutates = true) (unauthorized : v.identity = none) :
    perform v op draws device = .error (.vault (.error .notAuthorized)) device := by
  simp only [perform, mutates, unauthorized, Option.isNone_none, Bool.and_true, if_true]

omit [Primitives] in
/-- What the account refuses fails. -/
theorem perform_of_error {identity : Identity} (authorized : v.identity = some identity)
    {error : VaultError} (refused : v.account.apply op draws = .error error) :
    perform v op draws device = .error (.vault (.error error)) device := by
  simp only [perform, authorized, Option.isNone_some, Bool.and_false, Bool.false_eq_true, if_false,
    refused]

omit [Primitives] in
/-- What the account accepts is what it is next. -/
theorem perform_of_ok {identity : Identity} (authorized : v.identity = some identity)
    (accepted : v.account.apply op draws = .ok account) : perform v op draws device = .ok ()
      { device with accounts := Function.update device.accounts v.path (some account) } := by
  simp only [perform, authorized, Option.isNone_some, Bool.and_false, Bool.false_eq_true, if_false,
    accepted]

end

/-- Where no account is, none is opened. -/
theorem openVault_of_none (free : device.accounts path = none) (password : String)
    (identity : Identity) :
    openVault path password identity device = .error (.vault (.error .io)) device :=
  observe_of_error (by simp only [free])

end

/-- The commands' operations on the device, with the other files in view. -/
def shell : Shell Device OpenAccount where
  loadOrCreate := loadOrCreate
  create := create view
  openVault := openVault
  readSource := readSource view
  listFiles v := pure v.account.ledger.listFiles
  verifyIntegrity _ := pure ()
  perform := perform
  summary v := v.account.summary
  usedBytes v := v.account.usedBytes

end

end OpenAccount

end ReVault
