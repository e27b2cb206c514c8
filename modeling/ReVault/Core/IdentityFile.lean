import Mathlib.Logic.Function.Basic
import ReVault.Core.Identity
import ReVault.Foundation.Fallible
import ReVault.Foundation.Hex

/-!
# The identity file

A device keeps its identity in a file of its own: both secrets, one after the other. A
file of the right length is loaded, whatever is in it; otherwise a new identity is drawn
and stored.
-/

namespace ReVault

open Foundation Primitives

/-- The place of a file. -/
abbrev Path := String

/-- The contents of the files that exist. -/
abbrev FileSystem := Path → Option Bytes

namespace Identity

/-- The signing seed and the encryption secret, one after the other. -/
def toBytes (identity : Identity) : Bytes :=
  identity.signing.toList ++ identity.encryption.toList

/-- An identity from its file. -/
def fromBytes (bytes : ByteArr 64) : Identity where
  signing := (toArr? 32 (bytes.toList.take 32)).getD (zeroArr 32)
  encryption := (toArr? 32 (bytes.toList.drop 32)).getD (zeroArr 32)

/-- The identity that a file holds. -/
def ofFile (file : Option Bytes) : Option Identity :=
  file.bind fun bytes => (toArr? 64 bytes).map fromBytes

/-- `Identity::load_or_create`, with the identity that is drawn when none is loaded. -/
def loadOrCreate {ε : Type} (path : Path) (generated : Identity) :
    EStateM ε FileSystem Identity := fun disk =>
  match ofFile (disk path) with
  | some identity => .ok identity disk
  | none => .ok generated (Function.update disk path (some generated.toBytes))

/-- The file of an identity holds two keys. -/
theorem length_toBytes (identity : Identity) : identity.toBytes.length = 64 := by
  simp [toBytes]

/-- An identity is read back from its file. -/
theorem fromBytes_eq {bytes : ByteArr 64} {identity : Identity}
    (made : bytes.toList = identity.toBytes) : fromBytes bytes = identity := by
  have sized := identity.signing.toList_length
  have first : bytes.toList.take 32 = identity.signing.toList := by
    rw [made, toBytes, List.take_left' sized]
  have second : bytes.toList.drop 32 = identity.encryption.toList := by
    rw [made, toBytes, List.drop_left' sized]
  rw [fromBytes, first, second]
  simp

/-- A stored identity is the one that is loaded. -/
@[simp] theorem ofFile_toBytes (identity : Identity) :
    ofFile (some identity.toBytes) = some identity := by
  obtain ⟨array, made⟩ : ∃ array : ByteArr 64, array.toList = identity.toBytes :=
    ⟨⟨_, identity.length_toBytes⟩, rfl⟩
  rw [ofFile, Option.bind_some, ← made, toArr?_toList, Option.map_some, fromBytes_eq made]

/-- A file that is loaded is what the identity would be stored as. -/
theorem toBytes_fromBytes (bytes : ByteArr 64) : (fromBytes bytes).toBytes = bytes.toList := by
  rw [toBytes, fromBytes, toList_toArr? (by simp), toList_toArr? (by simp),
    List.take_append_drop]

/-- The identity loaded from a file is the one that the file was stored for. -/
theorem ofFile_eq_some_iff {file : Option Bytes} {identity : Identity} :
    ofFile file = some identity ↔ file = some identity.toBytes := by
  constructor
  · intro loaded
    obtain ⟨bytes, rfl, found⟩ := Option.bind_eq_some_iff.mp loaded
    obtain ⟨array, isArray, rfl⟩ := Option.map_eq_some_iff.mp found
    rw [toBytes_fromBytes]
    rw [toArr?] at isArray
    split at isArray
    · cases isArray
      rfl
    · cases isArray
  · rintro rfl
    exact ofFile_toBytes identity

/-- The files once the identity has been loaded or made. -/
def settled (path : Path) (generated : Identity) (disk : FileSystem) : FileSystem :=
  match ofFile (disk path) with
  | some _ => disk
  | none => Function.update disk path (some generated.toBytes)

section

variable (path : Path) (generated : Identity) (disk : FileSystem)

/-- The identity of the file is loaded, and a generated one is stored if there is none. -/
theorem loadOrCreate_eq {ε : Type} :
    (loadOrCreate path generated : EStateM ε FileSystem Identity) disk =
      .ok ((ofFile (disk path)).getD generated) (settled path generated disk) := by
  rw [loadOrCreate, settled]
  cases ofFile (disk path) <;> rfl

/-- The identity that is loaded or made is the one that the file then holds. -/
theorem settled_self : settled path generated disk path =
    some ((ofFile (disk path)).getD generated).toBytes := by
  rw [settled]
  cases loaded : ofFile (disk path) with
  | some identity => exact ofFile_eq_some_iff.mp loaded
  | none => exact Function.update_self ..

/-- No other file changes. -/
theorem settled_of_ne {other : Path} (different : other ≠ path) :
    settled path generated disk other = disk other := by
  rw [settled]
  cases ofFile (disk path) with
  | some identity => rfl
  | none => exact Function.update_of_ne different ..

/-- Once there is an identity, nothing changes. -/
theorem settled_of_some {identity : Identity} (loaded : ofFile (disk path) = some identity) :
    settled path generated disk = disk := by
  rw [settled, loaded]

end

end Identity

variable [Primitives]

/-- A short text to compare identities by: the start of the hash of both keys. -/
def PeerId.fingerprint (peerId : PeerId) : String :=
  String.ofList (hexText ((sha256Concat
    [peerId.signingPublic.toList, peerId.encryptionPublic.toList]).toList.take 8))

end ReVault
