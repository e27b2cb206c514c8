import ReVault.Device.Shell
import ReVault.Tui.Unlocked

/-!
# The vaults tab

The vaults directory is browsed, a vault is created or unlocked in a form, and an unlocked
vault has its own screen until it is locked. Whenever nothing is open the directory is
scanned again.
-/

namespace ReVault

/-- The error of a command, in a form. -/
def FormError.ofCommand : CommandError → FormError
  | .vault fault => .vault fault
  | .source => .source
  | .argument message => .form message

namespace Tui

open Foundation Primitives

/-- What surrounds the interface when it takes a key. -/
structure Environment (SocketAddr : Type) where
  now : Nat
  draws : Draws
  /-- the files that a directory lists -/
  entries : Path → List Path
  /-- what `parse_capacity` makes of a text -/
  parseCapacity : String → Except String UInt64
  /-- what joining a peer comes to, and the file it leaves behind -/
  join : SocketAddr → PeerId → Path → Except Fault Unit × Option Bytes
  /-- the ports that can be listened on -/
  listens : UInt16 → Bool

/-- `core::session`: an unlocked vault is left alone for thirty seconds, in nanoseconds. -/
def defaultTimeout : Nat := 30 * 10 ^ 9

/-! ## Places for new vaults -/

/-- The lower case of a character, as far as slugs can tell: two characters outside ASCII have
a letter of ASCII in theirs. -/
def lowercase (c : Char) : List Char :=
  if c.toNat = 0x212a then ['k']
  else if c.toNat = 0x130 then ['i', Char.ofNat 0x307]
  else [c.toLower]

/-- A letter or a digit of ASCII. -/
def isAsciiAlphanumeric (c : Char) : Bool :=
  ('a' ≤ c && c ≤ 'z') || ('A' ≤ c && c ≤ 'Z') || ('0' ≤ c && c ≤ '9')

/-- One character of a slug: runs of others become one dash. -/
def slugChar (out : List Char) (c : Char) : List Char :=
  if isAsciiAlphanumeric c then out ++ [c]
  else if out.getLast? = some '-' then out else out ++ ['-']

/-- A file name from the name of a vault. -/
def slugify (name : String) : String :=
  let out := (name.toList.flatMap lowercase).foldl slugChar []
  let trimmed := (out.dropWhile (· == '-')).rdropWhile (· == '-')
  if trimmed = [] then "vault" else String.ofList trimmed

/-- `Path::join` of a name without separators. -/
def joinPath (dir file : String) : Path :=
  if dir = "" ∨ dir.toList.getLast? = some '/' then dir ++ file else dir ++ "/" ++ file

/-- The places that are tried for a new vault, one after the other. -/
def candidate (dir base : String) : Nat → Path
  | 0 => joinPath dir (base ++ ".rvlt")
  | n + 1 => joinPath dir (base ++ "-" ++ toString (n + 2) ++ ".rvlt")

/-- The first candidate where nothing is. As many as the directory has entries may be taken. -/
def uniqueVaultPath (entries : List Path) (disk : FileSystem) (dir name : String) :
    Except FormError Path :=
  match (List.range (entries.length + 1)).find? fun n =>
      (disk (candidate dir (slugify name) n)).isNone with
  | some n => .ok (candidate dir (slugify name) n)
  | none => .error (.vault .diverge)

/-! ## The directory -/

/-- A container of the directory, as it is listed. -/
structure VaultListing where
  path : Path
  name : String
  description : String
  capacityBytes : UInt64
  deriving DecidableEq

/-- The name of a file has the extension of a container. -/
def hasRvltExtension (path : Path) : Bool :=
  let fileName := path.toList.rtakeWhile (· != '/')
  ".rvlt".toList <:+ fileName && fileName.length > 5

variable [Primitives]

/-- The containers of a directory, by name. -/
def scanVaultsDir (entries : List Path) (disk : FileSystem) : List VaultListing :=
  ((entries.filter hasRvltExtension).filterMap fun path =>
    match (disk path).map Vault.peekSummary with
    | some (.ok summary) =>
        some ⟨path, summary.name, summary.description, summary.capacityBytes⟩
    | _ => none).mergeSort fun a b => a.name ≤ b.name

/-! ## The tab -/

omit [Primitives] in
/-- What the vaults tab shows. -/
inductive Mode where
  | browsing
  | creating (form : CreateForm)
  | unlocking (form : UnlockForm) (path : Path) (name : String)
  | unlocked (state : UnlockedState)

omit [Primitives] in
/-- `vaults::App`. -/
structure VaultsApp where
  vaultsDir : Path
  listing : List VaultListing
  selected : Nat
  mode : Mode
  identity : Identity

namespace VaultsApp

variable {SocketAddr : Type} (env : Environment SocketAddr)

/-- The selection stays inside the listing. -/
def refresh (disk : FileSystem) (app : VaultsApp) : VaultsApp :=
  let listing := scanVaultsDir (env.entries app.vaultsDir) disk
  { app with
    listing := listing
    selected := if app.selected ≥ listing.length then listing.length - 1 else app.selected }

omit [Primitives] in
/-- Esc and `q` are for this tab. -/
def interceptsQuit (app : VaultsApp) : Bool :=
  match app.mode with
  | .browsing => false
  | _ => true

omit [Primitives] in
/-- Tab is for this tab. -/
def blocksTabSwitch (app : VaultsApp) : Bool :=
  match app.mode with
  | .browsing => false
  | .unlocked state => state.modal
  | .creating _ | .unlocking .. => true

omit [Primitives] in
/-- The checks of the form, with the capacity it asks for. -/
def checkForm (form : CreateForm) : Except FormError UInt64 :=
  if trim form.name = "" then .error (.form "Name is required")
  else if form.password = "" then .error (.form "Password is required")
  else if form.password ≠ form.confirm then .error (.form "Passwords do not match")
  else
    match env.parseCapacity form.capacity with
    | .ok capacityBytes => .ok capacityBytes
    | .error message => .error (.form message)

/-- The form for a new vault is submitted. -/
def tryCreate (disk : FileSystem) (form : CreateForm) (app : VaultsApp) :
    Except FormError Unit × FileSystem :=
  match checkForm env form with
  | .error error => (.error error, disk)
  | .ok capacityBytes =>
      match uniqueVaultPath (env.entries app.vaultsDir) disk app.vaultsDir (trim form.name) with
      | .error error => (.error error, disk)
      | .ok path =>
          match OpenVault.create path (trim form.name) (trim form.description) capacityBytes
              form.password app.identity env.draws disk with
          | .ok _ disk => (.ok (), disk)
          | .error error disk => (.error (.ofCommand error), disk)

/-- Unlocking by the form. A wrong password is cleared, any other error keeps it. -/
def tryUnlock (disk : FileSystem) (form : UnlockForm) (path : Path) (name : String)
    (app : VaultsApp) : Mode :=
  match OpenVault.openVault path form.password app.identity disk with
  | .ok opened _ => .unlocked (.ofVault opened.vault path name app.identity env.now)
  | .error error _ =>
      .unlocking
        { password :=
            if error = .vault (.error .incorrectPassword) then "" else form.password
          error := some (.ofCommand error) } path name

omit [Primitives] in
/-- A key press in the list of vaults. -/
def browsingKey (key : KeyCode) (app : VaultsApp) : VaultsApp :=
  match key with
  | .char '+' => { app with mode := .creating {} }
  | .up => { app with selected := app.selected - 1 }
  | .down =>
      if app.selected + 1 < app.listing.length then { app with selected := app.selected + 1 }
      else app
  | .enter =>
      match app.listing[app.selected]? with
      | some v => { app with mode := .unlocking {} v.path v.name }
      | none => app
  | _ => app

/-- A key press in the form for a new vault. -/
def creatingKey (disk : FileSystem) (form : CreateForm) (key : KeyCode) (app : VaultsApp) :
    VaultsApp × FileSystem :=
  match form.handleKey key with
  | (_, some .cancel) => ({ app with mode := .browsing }, disk)
  | (form, some .submit) =>
      match app.tryCreate env disk form with
      | (.ok _, disk) => ({ app with mode := .browsing }, disk)
      | (.error error, disk) =>
          ({ app with mode := .creating { form with error := some error } }, disk)
  | (form, none) => ({ app with mode := .creating form }, disk)

/-- A key press in the form for a password. -/
def unlockingKey (disk : FileSystem) (form : UnlockForm) (path : Path) (name : String)
    (key : KeyCode) (app : VaultsApp) : VaultsApp :=
  match form.handleKey key with
  | (_, some .cancel) => { app with mode := .browsing }
  | (form, some .submit) => { app with mode := app.tryUnlock env disk form path name }
  | (form, none) => { app with mode := .unlocking form path name }

/-- What a mutation of the vault writes goes to its container. -/
def unlockedKey (disk : FileSystem) (state : UnlockedState) (key : KeyCode) (app : VaultsApp) :
    VaultsApp × FileSystem :=
  let (state, outcome) := state.handleKey disk env.now env.draws key
  let disk := Function.update disk state.path (some state.vault.file)
  match outcome with
  | .lock => ({ app with mode := .browsing }, disk)
  | .continue => ({ app with mode := .unlocked state }, disk)

/-- A key press goes to what is open. -/
def processKey (disk : FileSystem) (key : KeyCode) (app : VaultsApp) : VaultsApp × FileSystem :=
  match app.mode with
  | .browsing => (app.browsingKey key, disk)
  | .creating form => app.creatingKey env disk form key
  | .unlocking form path name => (app.unlockingKey env disk form path name key, disk)
  | .unlocked state => app.unlockedKey env disk state key

/-- `vaults::App::handle_key`. -/
def handleKey (disk : FileSystem) (key : KeyCode) (app : VaultsApp) : VaultsApp × FileSystem :=
  let (app, disk) := app.processKey env disk key
  match app.mode with
  | .browsing => (app.refresh env disk, disk)
  | _ => (app, disk)

end VaultsApp

end Tui

end ReVault
