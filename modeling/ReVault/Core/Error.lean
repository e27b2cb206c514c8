import Mathlib.Tactic.Common

/-!
# Errors of the storage engine

`VaultError` follows the error type of the source; an I/O error keeps no detail.
`Fault` adds the two ways a call can end without returning: a panic (a slice or
division fault, a failed assertion) and a loop that never ends.
-/

namespace ReVault

/-- Errors produced by the storage engine. -/
inductive VaultError where
  | io
  | notARvltFile
  | unsupportedVersion (found min max : UInt32)
  | corruptContainer (reason : String)
  | checksumMismatch (what : String)
  | incorrectPassword
  | cryptoFailure
  | capacityTooSmall
  | insufficientSpace (requested available : UInt64)
  | fileTableFull
  | fileNotFound (name : String)
  | fileAlreadyExists (name : String)
  | integrityViolation (reason : String)
  | fieldTooLong
  | notAuthorized
  | accessNotGranted
  | alreadyGranted
  | recipientTableFull
  | remote (message : String)
  deriving DecidableEq

/-- How a call can fail to return a value. -/
inductive Fault where
  | error (reason : VaultError)
  | panic
  | diverge
  deriving DecidableEq

/-- Errors raised by the environment (the file system, a cryptographic
primitive) and not by a check of the engine. -/
def VaultError.environmental : VaultError → Bool
  | .io | .cryptoFailure => true
  | _ => false

/-- A fault that is a refusal: an error raised by a check of the engine. -/
def Fault.refusal : Fault → Bool
  | .error reason => !reason.environmental
  | .panic | .diverge => false

end ReVault
