import Mathlib.Algebra.GroupWithZero.Nat
import ReVault.Foundation.Slots
import ReVault.Runs.Steps

/-!
# The ledger of a vault

What a vault is for, without bytes, blocks or keys: files and peers in numbered slots,
and a stock of blocks that the contents use up. Every operation either changes one slot
or is refused with the error that says why.
-/

namespace ReVault

open Foundation

/-- A file of the ledger. -/
structure FileRecord where
  name : String
  data : Bytes
  createdAt : Int64
  modifiedAt : Int64
  deriving DecidableEq

/-- The line of a file in the listing. -/
def FileRecord.info (record : FileRecord) : FileInfo where
  name := record.name
  size := UInt64.ofNat record.data.length
  createdAt := record.createdAt
  modifiedAt := record.modifiedAt

/-- Files and granted peers in their slots, and the number of blocks for the contents. -/
structure Ledger where
  blockCount : Nat
  files : Slots FileRecord
  peers : Slots PeerId
  deriving DecidableEq

namespace Ledger

/-- A ledger without files and peers. -/
def empty (blockCount maxFiles maxRecipients : Nat) : Ledger where
  blockCount := blockCount
  files := Slots.tabulate maxFiles fun _ => none
  peers := Slots.tabulate maxRecipients fun _ => none

/-- The blocks that the contents take. -/
def used (ledger : Ledger) : Nat :=
  (ledger.files.values.map fun record => blocksOfSize record.data.length).sum

/-- The blocks left. -/
def free (ledger : Ledger) : Nat := ledger.blockCount - ledger.used

/-- The file of this name, and its slot. -/
def findFile (name : String) (ledger : Ledger) : Option (Nat × FileRecord) :=
  ledger.files.find fun record => record.name == name

/-- The peer with this signing key, and its slot. -/
def findPeer (signingPubkey : ByteArr 32) (ledger : Ledger) : Option (Nat × PeerId) :=
  ledger.peers.find fun peer => peer.signingPublic == signingPubkey

/-- The error when a number of blocks is called for and fewer are at hand. -/
def shortage (requested available : Nat) : VaultError :=
  .insufficientSpace (UInt64.ofNat requested * defaultBlockSize.toUInt64)
    (UInt64.ofNat available * defaultBlockSize.toUInt64)

/-! ## What is asked of a ledger -/

/-- The content of a file. -/
def readFile (name : String) (ledger : Ledger) : Except VaultError Bytes :=
  match ledger.findFile name with
  | none => .error (.fileNotFound name)
  | some (_, record) => .ok record.data

/-- The files, slot by slot. -/
def listFiles (ledger : Ledger) : List FileInfo := ledger.files.values.map FileRecord.info

/-- The recipients, slot by slot. -/
def listRecipients (ledger : Ledger) : List PeerId := ledger.peers.values

/-! ## What changes a ledger -/

/-- A new file takes the first empty slot. -/
def slotForNew (name : String) (ledger : Ledger) : Except VaultError Nat :=
  if (utf8 name).length = 0 ∨ (utf8 name).length > maxFilenameLen then .error .fieldTooLong
  else if (ledger.findFile name).isSome then .error (.fileAlreadyExists name)
  else
    match ledger.files.firstFree with
    | none => .error .fileTableFull
    | some idx => .ok idx

/-- A new file, if there are a slot and blocks for it. -/
def addFile (name : String) (data : Bytes) (time : Int64) (ledger : Ledger) :
    Except VaultError Ledger := do
  let idx ← ledger.slotForNew name
  if ledger.free < blocksOfSize data.length then
    .error (shortage (blocksOfSize data.length) ledger.free)
  else .ok { ledger with files := ledger.files.set idx (some ⟨name, data, time, time⟩) }

/-- A file keeps its slot and the time of its creation; its own blocks count as free. -/
def updateFile (name : String) (data : Bytes) (time : Int64) (ledger : Ledger) :
    Except VaultError Ledger :=
  match ledger.findFile name with
  | none => .error (.fileNotFound name)
  | some (idx, old) =>
      if ledger.free + blocksOfSize old.data.length < blocksOfSize data.length then
        .error (shortage (blocksOfSize data.length)
          (ledger.free + blocksOfSize old.data.length))
      else .ok { ledger with
        files := ledger.files.set idx (some { old with data := data, modifiedAt := time }) }

/-- The file is gone. -/
def deleteFile (name : String) (ledger : Ledger) : Except VaultError Ledger :=
  match ledger.findFile name with
  | none => .error (.fileNotFound name)
  | some (idx, _) => .ok { ledger with files := ledger.files.set idx none }

/-- A new peer takes the first empty slot. -/
def slotForPeer (peer : PeerId) (ledger : Ledger) : Except VaultError Nat :=
  if (ledger.findPeer peer.signingPublic).isSome then .error .alreadyGranted
  else
    match ledger.peers.firstFree with
    | none => .error .recipientTableFull
    | some idx => .ok idx

/-- The peer gets a slot. -/
def grantAccess (peer : PeerId) (ledger : Ledger) : Except VaultError Ledger := do
  let idx ← ledger.slotForPeer peer
  .ok { ledger with peers := ledger.peers.set idx (some peer) }

/-- The peer is gone. -/
def revokeAccess (signingPubkey : ByteArr 32) (ledger : Ledger) : Except VaultError Ledger :=
  match ledger.findPeer signingPubkey with
  | none => .error .accessNotGranted
  | some (idx, _) => .ok { ledger with peers := ledger.peers.set idx none }

/-- What an operation leads to, on the admin's handle. -/
def apply (op : Op) (draws : Draws) (ledger : Ledger) : Except VaultError Ledger :=
  match op with
  | .addFile name data => ledger.addFile name data draws.slotTime
  | .updateFile name data => ledger.updateFile name data draws.slotTime
  | .deleteFile name => ledger.deleteFile name
  | .grantAccess peer => ledger.grantAccess peer
  | .revokeAccess signingPubkey _ => ledger.revokeAccess signingPubkey
  | .readFile name => (ledger.readFile name).map fun _ => ledger
  | .listFiles | .takeChangeLog | .reopen _ => .ok ledger

end Ledger

/-- An accepted operation changes the ledger. -/
def Step.setsLedger (step : Step) (current : Ledger) : Ledger :=
  match current.apply step.op step.draws with
  | .ok next => next
  | .error _ => current

end ReVault
