import ReVault.Core.Vault

/-!
# Metadata in the clear

The name, the description, the capacity and the time of creation stand in the header, and
can be read without a password.
-/

namespace ReVault

open Foundation Primitives

/-- What can be seen of a vault that is not unlocked. -/
structure VaultSummary where
  name : String
  description : String
  capacityBytes : UInt64
  createdAt : Int64
  deriving DecidableEq

/-- What the header says without a key. -/
def Header.summary (h : Header) : VaultSummary where
  name := h.name
  description := h.description
  capacityBytes := h.capacityBytes
  createdAt := h.createdAt

namespace Vault

/-- What the header of the handle says. -/
def summary (v : Vault) : VaultSummary := v.header.summary

/-- What was asked for when the vault was created. -/
def capacityBytes (v : Vault) : UInt64 := v.header.capacityBytes

/-- `Vault::peek_summary`. -/
def peekSummary [Primitives] (file : Bytes) : Except Fault VaultSummary := do
  let header ← readHeader file
  .ok header.summary

end Vault

end ReVault
