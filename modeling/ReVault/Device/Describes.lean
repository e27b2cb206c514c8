import ReVault.Device.Shell

/-!
# The device that a disk stands for

A device describes a disk when the identity file holds its identity and every account lies
in a container. Each operation of a shell on the disk comes to what the same operation
comes to on the device.
-/

namespace ReVault

open Foundation Primitives

section

variable [Primitives]

/-- The identity and the accounts of a disk. Passwords in force are among the known ones. -/
structure Device.Describes (device : Device) (identityPath : Path) (passwords : List String)
    (disk : FileSystem) : Prop where
  identity : Identity.ofFile (disk identityPath) = device.identity
  contains : ∀ path account, device.accounts path = some account →
    ∃ file, disk path = some file ∧ account.In file
  elsewhere : ∀ path account, device.accounts path = some account → path ≠ identityPath
  known : ∀ path account, device.accounts path = some account → account.password ∈ passwords

/-- A handle on the container of an account. -/
structure OpenVault.Opens (v : OpenVault) (opened : OpenAccount) (disk : FileSystem)
    (device : Device) : Prop where
  path : v.path = opened.path
  holds : v.vault.Holds opened.account
  adminIdentity : v.vault.adminIdentity = opened.identity
  file : disk v.path = some v.vault.file
  account : device.accounts opened.path = some opened.account

namespace Device.Describes

variable {device : Device} {identityPath : Path} {passwords : List String} {disk : FileSystem}
  (describes : device.Describes identityPath passwords disk)

include describes

/-- An account that is written to its container. -/
theorem put {path : Path} {file : Bytes} {account : Account} (elsewhere : path ≠ identityPath)
    (holds : account.In file) (known : account.password ∈ passwords) :
    Device.Describes { device with accounts := Function.update device.accounts path (some account) }
      identityPath passwords (Function.update disk path (some file)) where
  identity := by
    rw [Function.update_of_ne (Ne.symm elsewhere)]
    exact describes.identity
  contains := by
    intro path' account' held
    by_cases same : path' = path
    · subst same
      simp only [Function.update_self, Option.some.injEq] at held ⊢
      subst held
      exact ⟨file, rfl, holds⟩
    · simp only [Function.update_of_ne same] at held ⊢
      exact describes.contains path' account' held
  elsewhere := by
    intro path' account' held
    by_cases same : path' = path
    · rw [same]
      exact elsewhere
    · simp only [Function.update_of_ne same] at held
      exact describes.elsewhere path' account' held
  known := by
    intro path' account' held
    by_cases same : path' = path
    · subst same
      simp only [Function.update_self, Option.some.injEq] at held
      subst held
      exact known
    · simp only [Function.update_of_ne same] at held
      exact describes.known path' account' held

/-- A file that is no account's and not the identity's may change. -/
theorem write {path : Path} (elsewhere : path ≠ identityPath)
    (free : device.accounts path = none) (file : Option Bytes) :
    device.Describes identityPath passwords (Function.update disk path file) where
  identity := by
    rw [Function.update_of_ne (Ne.symm elsewhere)]
    exact describes.identity
  contains := by
    intro path' account held
    have different : path' ≠ path := by
      rintro rfl
      rw [free] at held
      cases held
    rw [Function.update_of_ne different]
    exact describes.contains path' account held
  elsewhere := describes.elsewhere
  known := describes.known

/-- A place where nothing is has no account. -/
theorem free_of_none {path : Path} (nothing : disk path = none) : device.accounts path = none := by
  cases held : device.accounts path with
  | none => rfl
  | some account =>
      obtain ⟨file, found, _⟩ := describes.contains path account held
      rw [nothing] at found
      cases found

/-- The device once the identity has been loaded or made. -/
theorem settle (generated : Identity) :
    Device.Describes { device with identity := some (device.identity.getD generated) }
      identityPath passwords (Identity.settled identityPath generated disk) where
  identity := by
    rw [Identity.settled_self, Identity.ofFile_toBytes, describes.identity]
  contains := by
    intro path account held
    rw [Identity.settled_of_ne _ _ _ (describes.elsewhere path account held)]
    exact describes.contains path account held
  elsewhere := describes.elsewhere
  known := describes.known

end Device.Describes

/-! ## One operation after the other -/

/-- A device that describes a disk, where nothing was written since the files were seen. -/
structure Device.Sees (device : Device) (identityPath : Path) (passwords : List String)
    (view disk : FileSystem) : Prop extends device.Describes identityPath passwords disk where
  seen : disk = view
  settled : device.identity.isSome = true

section Operations

variable {device : Device} {identityPath : Path} {passwords : List String}
  {disk view : FileSystem}

/-- Loading the identity. -/
theorem Device.Describes.follows_loadOrCreate
    (describes : device.Describes identityPath passwords disk) (generated : Identity) :
    Simulates ((OpenVault.shell identityPath).loadOrCreate generated)
      ((OpenAccount.shell view).loadOrCreate generated) disk device
      (fun identity disk' identity' device' => identity = identity' ∧
        device' = { device with identity := some identity } ∧
        device'.Sees identityPath passwords (Identity.settled identityPath generated disk) disk')
      fun disk device => device.Describes identityPath passwords disk := by
  refine Simulates.of_ok (Identity.loadOrCreate_eq identityPath generated disk) rfl ⟨?_, ?_, ?_⟩
  · rw [describes.identity]
  · rw [describes.identity]
  · exact ⟨describes.settle generated, rfl, rfl⟩

variable (sees : device.Sees identityPath passwords view disk)

include sees

/-- Nothing is created at the place of the identity. -/
theorem Device.Sees.ne_identityPath {path : Path} (nothing : disk path = none) :
    path ≠ identityPath := by
  rintro rfl
  have settled := sees.settled
  rw [← sees.identity, nothing] at settled
  cases settled

/-- Reading a source. -/
theorem Device.Sees.follows_readSource (path : Path) :
    Simulates ((OpenVault.shell identityPath).readSource path)
      ((OpenAccount.shell view).readSource path) disk device
      (fun data disk' data' device' => data = data' ∧ disk' = disk ∧ device' = device)
      fun disk device => device.Describes identityPath passwords disk := by
  cases found : view path with
  | some data =>
      exact Simulates.of_ok (OpenVault.readSource_of_some (by rw [sees.seen, found]))
        (OpenAccount.readSource_of_some found) ⟨rfl, rfl, rfl⟩
  | none =>
      exact Simulates.of_error (OpenVault.readSource_of_none (by rw [sees.seen, found]))
        (OpenAccount.readSource_of_none found) sees.toDescribes

section Lawful

variable [Lawful] (apart : PasswordsApart passwords) {password : String}
  (known : password ∈ passwords)

include apart known

/-- Opening the container of an account. -/
theorem Device.Sees.follows_openVault {path : Path} {account : Account}
    (held : device.accounts path = some account) (identity : Identity) :
    Simulates ((OpenVault.shell identityPath).openVault path password identity)
      ((OpenAccount.shell view).openVault path password identity) disk device
      (fun v disk' opened device' => disk' = disk ∧ device' = device ∧
        v.Opens opened disk device ∧ opened.account = account ∧ password = account.password)
      fun disk device => device.Describes identityPath passwords disk := by
  obtain ⟨file, found, w, rfl, holds⟩ := sees.contains path account held
  by_cases right : password = account.password
  · obtain ⟨v, opened, sameFile, holds', admin, _⟩ := holds.opens identity
    rw [← right] at opened
    apply Simulates.of_ok (OpenVault.openVault_of_ok found opened)
      (OpenAccount.openVault_of_eq held right identity)
    exact ⟨rfl, rfl, ⟨rfl, holds', admin, by rw [sameFile]; exact found, held⟩, rfl, right⟩
  · have refused := holds.refuses apart known (sees.known path account held) right identity
    exact Simulates.of_error (OpenVault.openVault_of_error found refused)
      (OpenAccount.openVault_of_ne held right identity) sees.toDescribes

/-- Creating a container. -/
theorem Device.Sees.follows_create (path : Path) (name description : String)
    {capacityBytes : UInt64} (small : capacityBytes.toNat < Vault.capacityLimit)
    (admin : Identity) (draws : Draws) :
    Simulates
      ((OpenVault.shell identityPath).create path name description capacityBytes password admin
        draws)
      ((OpenAccount.shell view).create path name description capacityBytes password admin draws)
      disk device
      (fun v disk' opened device' => device'.Describes identityPath passwords disk' ∧
        v.Opens opened disk' device')
      fun disk device => device.Describes identityPath passwords disk := by
  have outcome := Vault.create_follows name description admin small
    (apart.derives draws.salt password known)
  cases made : Account.create name description capacityBytes password admin draws with
  | error error =>
      rw [made] at outcome
      obtain ⟨file, failed, harmless⟩ := OpenVault.create_of_error path disk outcome
      apply Simulates.of_error failed (OpenAccount.create_of_error made)
      rcases harmless with rfl | nothing
      · rw [Function.update_eq_self]
        exact sees.toDescribes
      · exact sees.write (sees.ne_identityPath nothing) (sees.free_of_none nothing) file
  | ok account =>
      rw [made] at outcome
      obtain ⟨v, created, holds⟩ := outcome
      cases nothing : disk path with
      | some file =>
          exact Simulates.of_error (OpenVault.create_of_exists created nothing)
            (OpenAccount.create_of_exists made (by rw [← sees.seen, nothing])) sees.toDescribes
      | none =>
          apply Simulates.of_ok (OpenVault.create_of_ok created nothing)
            (OpenAccount.create_of_ok made (by rw [← sees.seen, nothing]))
          have inForce := Account.password_of_create made
          refine ⟨sees.put (sees.ne_identityPath nothing) ⟨v, rfl, holds⟩
            (by rw [inForce]; exact known), rfl, holds, ?_, ?_, ?_⟩
          · exact (Vault.create_spec created).adminIdentity
          · simp
          · simp

omit sees apart known in
/-- Listing the files of an open account. -/
theorem OpenVault.Opens.follows_listFiles {v : OpenVault} {opened : OpenAccount}
    (opens : v.Opens opened disk device) (stopped : FileSystem → Device → Prop) :
    Simulates ((OpenVault.shell identityPath).listFiles v)
      ((OpenAccount.shell view).listFiles opened) disk device
      (fun files disk' files' device' => files = files' ∧ disk' = disk ∧ device' = device)
      stopped :=
  Simulates.of_ok (OpenVault.reading_of_ok opens.holds.shows.lists) rfl ⟨rfl, rfl, rfl⟩

omit sees apart known in
/-- Verifying an open account. -/
theorem OpenVault.Opens.follows_verifyIntegrity {v : OpenVault} {opened : OpenAccount}
    (opens : v.Opens opened disk device) (short : opened.account.records < 2 ^ 64)
    (stopped : FileSystem → Device → Prop) :
    Simulates ((OpenVault.shell identityPath).verifyIntegrity v)
      ((OpenAccount.shell view).verifyIntegrity opened) disk device
      (fun _ disk' _ device' => disk' = disk ∧ device' = device) stopped :=
  Simulates.of_ok (OpenVault.reading_of_ok (opens.holds.verifies short)) rfl ⟨rfl, rfl⟩

omit known in
/-- Performing an operation of the admin on an open account. -/
theorem Device.Sees.follows_perform {v : OpenVault} {opened : OpenAccount}
    (opens : v.Opens opened disk device) {op : Op} (mutates : op.mutates = true)
    (keeps : ∀ signingPubkey password, op = .revokeAccess signingPubkey password →
      password ∈ passwords) (draws : Draws) :
    Simulates ((OpenVault.shell identityPath).perform v op draws)
      ((OpenAccount.shell view).perform opened op draws) disk device
      (fun _ disk _ device => device.Describes identityPath passwords disk)
      fun disk device => device.Describes identityPath passwords disk := by
  have unchanged : Function.update disk v.path (some v.vault.file) = disk := by
    rw [← opens.file, Function.update_eq_self]
  cases authorized : opened.identity with
  | none =>
      have refused := Op.exec_unauthorized (opens.adminIdentity.trans authorized) "" draws mutates
      apply Simulates.of_error (OpenVault.perform_of_error refused)
        (OpenAccount.perform_of_unauthorized mutates authorized)
      rw [unchanged]
      exact sees.toDescribes
  | some identity =>
      have outcome := opens.holds.performs (opens.adminIdentity.trans authorized) op draws
        fun signingPubkey password rotates =>
          apart.derives _ password (keeps signingPubkey password rotates)
      rw [op.exec_of_mutates mutates opened.account.password ""] at outcome
      cases applied : opened.account.apply op draws with
      | error error =>
          rw [applied] at outcome
          apply Simulates.of_error (OpenVault.perform_of_error outcome)
            (OpenAccount.perform_of_error authorized applied)
          rw [unchanged]
          exact sees.toDescribes
      | ok next =>
          rw [applied] at outcome
          obtain ⟨v', ran, holds, _⟩ := outcome
          apply Simulates.of_ok (OpenVault.perform_of_ok ran)
            (OpenAccount.perform_of_ok authorized applied)
          rw [opens.path]
          apply sees.put (sees.elsewhere _ _ opens.account) ⟨v', rfl, holds⟩
          rcases Account.password_of_apply applied with same | ⟨signingPubkey, rotates⟩
          · rw [same]
            exact sees.known _ _ opens.account
          · exact keeps signingPubkey _ rotates

end Lawful

end Operations

end

end ReVault
