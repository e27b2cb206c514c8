import ReVault.Serving.Session

/-!
# The unlocked vault of the terminal interface

One unlocked vault, with the journal of its network session when it is served. File
operations are drained into the journal of a running session; grants and revocations are
not, so what they write waits in the change log while peers are answered.
-/

namespace ReVault

open Foundation Primitives

/-- An unlocked vault. A network session is known by its journal. -/
structure UnlockedState where
  vault : Vault
  network : Option PatchJournal

/-- Errors that a form shows. -/
inductive FormError where
  | vault (fault : Fault)
  | form (message : String)
  /-- the file to import cannot be read -/
  | source
  /-- the invite code cannot be decoded -/
  | invite
  deriving DecidableEq

/-- Programs on an unlocked vault. -/
abbrev UnlockedM := EStateM FormError UnlockedState

/-- The error is not one of the environment. -/
def FormError.refusal : FormError → Bool
  | vault fault => fault.refusal
  | form _ | source | invite => true

namespace Unlocked

/-- The entries that the journal of a network session holds. -/
abbrev journalCapacity : Nat := 64

/-- A program over the vault. -/
def onVault {α : Type} (program : VaultM α) : UnlockedM α :=
  within UnlockedState.vault (fun vault state => { state with vault := vault }) .vault program

/-- Drains the change log into the journal of a running session. -/
def recordPatchIfServing (seqBefore : UInt64) (state : UnlockedState) : UnlockedState :=
  match state.network with
  | none => state
  | some journal =>
      { vault := state.vault.takeChangeLog.2
        network := some (journal.record seqBefore state.vault.takeChangeLog.1) }

/-- A file operation, and the record of its patch under the sequence number before it. -/
def fileOperation (mutation : VaultM Unit) : UnlockedM Unit := do
  let before ← get
  onVault mutation
  modify (recordPatchIfServing before.vault.chainState.1)

/-- Reads the file to import. -/
def readSource (disk : String → Option Bytes) (path : String) : UnlockedM Bytes :=
  observe fun _ => match disk path with
    | some data => .ok data
    | none => .error .source

/-- Starts a network session with a new journal. -/
def startServing : UnlockedM Unit := do
  let journal ← observe fun _ => (PatchJournal.new journalCapacity).mapError .vault
  modify fun state => { state with network := some journal }

/-- The session ends, and its journal with it. -/
def stopServing : UnlockedM Unit := modify fun state => { state with network := none }

variable [Primitives]

/-- `submit_add`, on the trimmed fields of the form. -/
def submitAdd (disk : String → Option Bytes) (sourcePath destName : String) (draws : Draws) :
    UnlockedM Unit :=
  if sourcePath = "" ∨ destName = "" then throw (.form "Both fields are required")
  else do
    let data ← readSource disk sourcePath
    fileOperation (Vault.addFile destName data draws)

/-- `submit_update` of the selected file. -/
def submitUpdate (disk : String → Option Bytes) (sourcePath targetName : String)
    (draws : Draws) : UnlockedM Unit :=
  if sourcePath = "" then throw (.form "A source path is required")
  else do
    let data ← readSource disk sourcePath
    fileOperation (Vault.updateFile targetName data draws)

/-- `confirm_delete` of the selected file. -/
def confirmDelete (name : String) (draws : Draws) : UnlockedM Unit :=
  fileOperation (Vault.deleteFile name draws)

/-- `submit_grant`, on what the invite code decodes to. -/
def submitGrant (invite : Option PeerId) (draws : Draws) : UnlockedM Unit :=
  match invite with
  | none => throw .invite
  | some peer => onVault (Vault.grantAccess peer draws)

/-- A revocation; the journal is left alone. -/
def submitRevoke (target : PeerId) (password : String) (draws : Draws) : UnlockedM Unit :=
  onVault (Vault.revokeAccess target.signingPublic password draws)

omit [Primitives] in
/-- What happens to an unlocked vault, with the files it can import and the values it
draws. A request is what `poll_network` finds from a connected peer. -/
inductive Act where
  | add (disk : String → Option Bytes) (sourcePath destName : String) (draws : Draws)
  | update (disk : String → Option Bytes) (sourcePath targetName : String) (draws : Draws)
  | delete (name : String) (draws : Draws)
  | grant (invite : Option PeerId) (draws : Draws)
  | revoke (target : PeerId) (password : String) (draws : Draws)
  | startServing
  | stopServing
  | request (peer : PeerId) (nextSeq : UInt64)

/-- Carries out an act. Answering a request only reads. -/
def perform : Act → UnlockedM Unit
  | .add disk sourcePath destName draws => submitAdd disk sourcePath destName draws
  | .update disk sourcePath targetName draws => submitUpdate disk sourcePath targetName draws
  | .delete name draws => confirmDelete name draws
  | .grant invite draws => submitGrant invite draws
  | .revoke target password draws => submitRevoke target password draws
  | .startServing => startServing
  | .stopServing => stopServing
  | .request _ _ => pure ()

omit [Primitives] in
/-- The operation of the vault that an act leads to, with what it draws and whether it is a
file operation. -/
def actOp : Act → Option (Op × Draws × Bool)
  | .add disk sourcePath destName draws =>
      if sourcePath = "" ∨ destName = "" then none
      else (disk sourcePath).map fun data => (.addFile destName data, draws, true)
  | .update disk sourcePath targetName draws =>
      if sourcePath = "" then none
      else (disk sourcePath).map fun data => (.updateFile targetName data, draws, true)
  | .delete name draws => some (.deleteFile name, draws, true)
  | .grant invite draws => invite.map fun peer => (.grantAccess peer, draws, false)
  | .revoke target password draws =>
      some (.revokeAccess target.signingPublic password, draws, false)
  | .startServing | .stopServing | .request _ _ => none

omit [Primitives] in
/-- The steps that the handle takes for an act. -/
def actSteps (act : Act) (serving accepted : Bool) : List Step :=
  match actOp act with
  | none => []
  | some (op, draws, isFile) =>
      if accepted && isFile && serving then
        [⟨op, draws, true⟩, ⟨.takeChangeLog, draws, true⟩]
      else [⟨op, draws, accepted⟩]

/-- An act is carried out or refused, the handle having taken these steps. -/
def Handles (act : Act) (s : UnlockedState) (steps : List Step) (s' : UnlockedState) : Prop :=
  match perform act s with
  | .ok _ reached => s' = reached ∧ steps = actSteps act s.network.isSome true
  | .error fault reached =>
      fault.refusal = true ∧ s' = reached ∧ steps = actSteps act s.network.isSome false

/-- The events of an unlocked vault. -/
abbrev Serves (start : UnlockedState) : List (Event Act) → UnlockedState → Prop :=
  Runs (fun _ s event s' => Handles event.act s event.steps s') start

/-! ## What an act can do -/

/-- An act changes at most the network session, or runs a file operation, or a grant or a
revocation. -/
inductive Performs (s : UnlockedState) (act : Act) : Prop
  | idle (opIs : actOp act = none) (vault : (finalState (perform act s)).vault = s.vault)
      (network : (finalState (perform act s)).network = s.network ∨
        (finalState (perform act s)).network = none ∨
        (finalState (perform act s)).network = some (PatchJournal.empty journalCapacity))
  | file {op : Op} {draws : Draws} (opIs : actOp act = some (op, draws, true))
      (mutates : op.mutates = true) (keeps : op.rotates = false)
      (program : ∀ password, perform act s = fileOperation (op.exec password draws) s)
  | access {op : Op} {draws : Draws} (opIs : actOp act = some (op, draws, false))
      (mutates : op.mutates = true)
      (program : ∀ password, perform act s = onVault (op.exec password draws) s)

namespace Performs

variable {s : UnlockedState} {act : Act}

/-- An act that is refused by the form. -/
theorem refused {error : FormError} (opIs : actOp act = none)
    (stopped : perform act s = .error error s) : Performs s act := by
  refine Performs.idle opIs ?_ (Or.inl ?_)
  all_goals
    rw [stopped]
    rfl

/-- An act that imports a file. -/
theorem importing {disk : String → Option Bytes} {path : String} {draws : Draws}
    {op : Bytes → Op} (opIs : actOp act = (disk path).map fun data => (op data, draws, true))
    (mutates : ∀ data, (op data).mutates = true) (keeps : ∀ data, (op data).rotates = false)
    (program : ∀ password, perform act s = (readSource disk path >>= fun data =>
      fileOperation ((op data).exec password draws)) s) : Performs s act := by
  cases found : disk path with
  | none =>
      have missing : readSource disk path s = .error .source s :=
        observe_of_error (by simp only [found])
      exact refused (by rw [opIs, found]; rfl) ((program "").trans (bind_of_error missing))
  | some data =>
      have read : readSource disk path s = .ok data s :=
        observe_of_ok (by simp only [found])
      exact Performs.file (by rw [opIs, found]; rfl) (mutates data) (keeps data)
        fun password => (program password).trans (bind_of_ok read)

end Performs

/-- What an act comes to. -/
theorem perform_cases (s : UnlockedState) (act : Act) : Performs s act := by
  cases act with
  | add disk sourcePath destName draws =>
      by_cases empty : sourcePath = "" ∨ destName = ""
      · have stopped : perform (.add disk sourcePath destName draws) s =
            .error (.form "Both fields are required") s := by
          simp only [perform, submitAdd, if_pos empty]
          rfl
        exact Performs.refused (if_pos empty) stopped
      · exact Performs.importing (if_neg empty) (fun _ => rfl) (fun _ => rfl) fun _ => by
          simp only [perform, submitAdd, if_neg empty]
          rfl
  | update disk sourcePath targetName draws =>
      by_cases empty : sourcePath = ""
      · have stopped : perform (.update disk sourcePath targetName draws) s =
            .error (.form "A source path is required") s := by
          simp only [perform, submitUpdate, if_pos empty]
          rfl
        exact Performs.refused (if_pos empty) stopped
      · exact Performs.importing (if_neg empty) (fun _ => rfl) (fun _ => rfl) fun _ => by
          simp only [perform, submitUpdate, if_neg empty]
          rfl
  | delete name draws => exact Performs.file rfl rfl rfl fun _ => rfl
  | grant invite draws =>
      cases invite with
      | none =>
          have stopped : perform (.grant none draws) s = .error .invite s := rfl
          exact Performs.refused rfl stopped
      | some peer => exact Performs.access rfl rfl fun _ => rfl
  | revoke target password draws => exact Performs.access rfl rfl fun _ => rfl
  | startServing => exact Performs.idle rfl rfl (Or.inr (Or.inr rfl))
  | stopServing => exact Performs.idle rfl rfl (Or.inr (Or.inl rfl))
  | request peer nextSeq => exact Performs.idle rfl rfl (Or.inl rfl)

section

variable [Lawful] {password : String} {origin : Vault} {trace : List Step}
  {s s' : UnlockedState} {name description : String}
  {capacityBytes : UInt64} {admin : Identity} {draws : Draws}

omit [Primitives] [Lawful] in
/-- An accepted change of the vault. -/
theorem onVault_of_ok {mutation : VaultM Unit} {v' : Vault}
    (ran : mutation s.vault = .ok () v') :
    onVault mutation s = .ok () { s with vault := v' } := within_of_ok ran

omit [Primitives] [Lawful] in
/-- A refused one. -/
theorem onVault_of_error {mutation : VaultM Unit} {v' : Vault} {fault : Fault}
    (ran : mutation s.vault = .error fault v') :
    onVault mutation s = .error (.vault fault) { s with vault := v' } := within_of_error ran

omit [Primitives] [Lawful] in
/-- An accepted file operation is recorded when a session runs. -/
theorem fileOperation_of_ok {mutation : VaultM Unit} {v' : Vault}
    (ran : mutation s.vault = .ok () v') : fileOperation mutation s =
      .ok () (recordPatchIfServing s.vault.chainState.1 { s with vault := v' }) := by
  unfold fileOperation
  rw [bind_of_ok (get_apply s)]
  exact (bind_of_ok (onVault_of_ok ran)).trans (modify_apply _ _)

omit [Primitives] [Lawful] in
/-- A refused one is not. -/
theorem fileOperation_of_error {mutation : VaultM Unit} {v' : Vault} {fault : Fault}
    (ran : mutation s.vault = .error fault v') :
    fileOperation mutation s = .error (.vault fault) { s with vault := v' } := by
  unfold fileOperation
  rw [bind_of_ok (get_apply s)]
  exact bind_of_error (onVault_of_error ran)

/-- The journal of an unlocked vault; without a session it is empty. -/
def journalOf (network : Option PatchJournal) : PatchJournal :=
  network.getD (PatchJournal.empty journalCapacity)

namespace Handles

variable {act : Act} {steps : List Step}

omit [Lawful] in
/-- An act without an operation takes no step and leaves the vault alone. -/
theorem idle (opIs : actOp act = none) (handled : Handles act s steps s') :
    steps = [] ∧ s' = finalState (perform act s) := by
  unfold Handles at handled
  unfold finalState
  split at handled
  · rename_i outcome
    obtain ⟨rfl, rfl⟩ := handled
    rw [outcome]
    exact ⟨by simp only [actSteps, opIs], rfl⟩
  · rename_i outcome
    obtain ⟨_, rfl, rfl⟩ := handled
    rw [outcome]
    exact ⟨by simp only [actSteps, opIs], rfl⟩

omit [Lawful] in
/-- A file operation is recorded when a session runs. -/
theorem turn_file {op : Op} {draws' : Draws} (opIs : actOp act = some (op, draws', true))
    (mutates : op.mutates = true) (keeps : op.rotates = false)
    (program : ∀ password, perform act s = fileOperation (op.exec password draws') s)
    (handled : Handles act s steps s') :
    Turn password trace s.vault (journalOf s.network) steps s'.vault (journalOf s'.network) := by
  unfold Handles at handled
  rw [program (passwordAfter password trace)] at handled
  cases ran : op.exec (passwordAfter password trace) draws' s.vault with
  | error fault v' =>
      rw [fileOperation_of_error ran] at handled
      obtain ⟨refused, rfl, rfl⟩ := handled
      have turn : Turn password trace s.vault (journalOf s.network) _ _ _ :=
        Turn.advance (Takes.of_error ran refused) (Or.inl mutates)
      simpa [actSteps, opIs] using turn
  | ok value v' =>
      rw [fileOperation_of_ok ran] at handled
      obtain ⟨rfl, rfl⟩ := handled
      have taken : Takes password trace s.vault ⟨op, draws', true⟩ v' := Takes.of_ok ran
      cases session : s.network with
      | none =>
          have turn : Turn password trace s.vault (journalOf none) _ _ _ :=
            Turn.advance taken (Or.inl mutates)
          simpa [actSteps, opIs, recordPatchIfServing, session] using turn
      | some journal =>
          have turn : Turn password trace s.vault journal _ _ _ :=
            Turn.publish taken ⟨rfl, mutates⟩ keeps draws'
          simpa [actSteps, opIs, recordPatchIfServing, session, journalOf] using turn

omit [Lawful] in
/-- A grant or a revocation is not drained. -/
theorem turn_access {op : Op} {draws' : Draws} (opIs : actOp act = some (op, draws', false))
    (mutates : op.mutates = true)
    (program : ∀ password, perform act s = onVault (op.exec password draws') s)
    (handled : Handles act s steps s') :
    Turn password trace s.vault (journalOf s.network) steps s'.vault (journalOf s'.network) := by
  unfold Handles at handled
  rw [program (passwordAfter password trace)] at handled
  cases ran : op.exec (passwordAfter password trace) draws' s.vault with
  | error fault v' =>
      rw [onVault_of_error ran] at handled
      obtain ⟨refused, rfl, rfl⟩ := handled
      have turn : Turn password trace s.vault (journalOf s.network) _ _ _ :=
        Turn.advance (Takes.of_error ran refused) (Or.inl mutates)
      simpa [actSteps, opIs] using turn
  | ok value v' =>
      rw [onVault_of_ok ran] at handled
      obtain ⟨rfl, rfl⟩ := handled
      have turn : Turn password trace s.vault (journalOf s.network) _ _ _ :=
        Turn.advance (Takes.of_ok ran) (Or.inl mutates)
      simpa [actSteps, opIs] using turn

omit [Lawful] in
/-- **One event.** Whatever happens is a move of the session. -/
theorem turn (handled : Handles act s steps s') :
    Turn password trace s.vault (journalOf s.network) steps s'.vault (journalOf s'.network) := by
  cases perform_cases s act with
  | idle opIs vault network =>
      obtain ⟨rfl, rfl⟩ := handled.idle opIs
      rw [vault]
      rcases network with same | ended | begun
      · rw [same]
        exact Turn.idle
      · rw [ended]
        exact Turn.restart journalCapacity
      · rw [begun]
        exact Turn.restart journalCapacity
  | file opIs mutates keeps program => exact handled.turn_file opIs mutates keeps program
  | access opIs mutates program => exact handled.turn_access opIs mutates program

end Handles

omit [Lawful] in
/-- The events of an unlocked vault are the turns of a session. -/
theorem Serves.session {start : UnlockedState} {events : List (Event Act)}
    (serves : Serves start events s) :
    SessionRun password trace start.vault (journalOf start.network) (stepsOf events) s.vault
      (journalOf s.network) := by
  induction serves with
  | nil => exact SessionRun.nil
  | snoc _ handled ih =>
      rw [stepsOf_concat]
      exact ih.snoc (Handles.turn handled)

/-- The journal of a vault that was opened from its container, through any acts. -/
theorem Serves.serving {v : Vault} {events : List (Event Act)}
    (created : Vault.create name description capacityBytes password admin draws = .ok origin)
    (run : Run password origin trace v) (drained : v.changeLog = [])
    (serves : Serves ⟨v, none⟩ events s)
    (short : recordsAfter (trace ++ stepsOf events) < 2 ^ 64) :
    Serving password origin (trace ++ stepsOf events) s.vault (journalOf s.network) :=
  (Serving.start created run drained journalCapacity).session created serves.session short

/-- **Convergence of an unlocked vault.** Through any acts, a granted peer that reports its
position, with a replica of the container as it was there, is brought up to date exactly
when the journal does not reach back to it, it is up to date already, or no grant or
revocation waits in the change log. -/
theorem poll_brings_up_to_date_iff {v : Vault} {identity : Identity} {opening : Draws}
    {events : List (Event Act)} {journal : PatchJournal} {peer : PeerId} {nextSeq : UInt64}
    {replica : Vault}
    (created : Vault.create name description capacityBytes password admin draws = .ok origin)
    (opened : Run password origin (trace ++ [⟨.reopen identity, opening, true⟩]) v)
    (serves : Serves ⟨v, none⟩ events s) (session : s.network = some journal)
    (short : recordsAfter
      (trace ++ [⟨.reopen identity, opening, true⟩] ++ stepsOf events) < 2 ^ 64)
    (granted : peer ∈ grantedAfter
      (trace ++ [⟨.reopen identity, opening, true⟩] ++ stepsOf events))
    (shown : ShownAt password origin
      (trace ++ [⟨.reopen identity, opening, true⟩] ++ stepsOf events) nextSeq replica.file) :
    (∃ message, pollNetwork s.vault journal peer nextSeq = .message message ∧
      Converges message replica s.vault) ↔
    ¬ journal.Covers nextSeq ∨ nextSeq = s.vault.chainState.1 ∨ s.vault.changeLog = [] := by
  have serving := Serves.serving created opened (opened.reopened_drained created) serves short
  rw [session] at serving
  change Serving _ _ _ _ journal at serving
  have answered : pollNetwork s.vault journal peer nextSeq =
      .message (catchUp s.vault (some journal) nextSeq) := by
    unfold pollNetwork
    rw [(serving.run.isGranted_iff created peer).mpr granted]
  rw [answered, ← serving.converges_iff created short
    (Run.past_of_shownAt created shown short)]
  constructor
  · rintro ⟨message, same, converges⟩
    cases same
    exact converges
  · exact fun converges => ⟨_, rfl, converges⟩

end

end Unlocked

namespace Transparent

open Unlocked

/-- The session begins. -/
def starting : Event Act := ⟨.startServing, []⟩

/-- The file is updated while the session runs. -/
def rewriting : Event Act :=
  ⟨.update (fun _ => some [1, 2, 3]) "src" "a" (draws 5), updateSteps⟩

/-- A second peer is granted access. -/
def granting : Event Act :=
  ⟨.grant (some (identity 3).peerId) (draws 6),
    [⟨.grantAccess (identity 3).peerId, draws 6, true⟩]⟩

/-- A session on the sample container, in which the file has been updated: its journal
holds this update. -/
theorem exists_rewritten_session : ∃ origin v v₁,
    Vault.create "v" "" 65536 "p" (identity 1) (draws 1) = .ok origin ∧
    Run "p" origin (sharedTrace 0 ++ [opening]) v ∧ v.chainState.1 = 3 ∧
    Run "p" origin (sharedTrace 0 ++ [opening] ++ updateSteps) v₁ ∧
    v₁.isAdmin = true ∧ ∃ ranges, Serves ⟨v, none⟩ [starting, rewriting]
      ⟨v₁, some ((PatchJournal.empty journalCapacity).record 3 ranges)⟩ := by
  obtain ⟨origin, v, created, sized, opened, isAdmin, present⟩ := exists_opened 0
  obtain ⟨v₁, piece, ran, _, run, isAdmin', _⟩ :=
    exists_recorded created sized opened isAdmin present
  have position : v.chainState.1 = 3 :=
    (opened.chainNextSeq_ofNat created).trans (congrArg UInt64.ofNat (recordsAfter_opened 0))
  refine ⟨origin, v, _, created, opened, position, run, isAdmin', v₁.changeLog, ?_⟩
  let started : UnlockedState := ⟨v, some (PatchJournal.empty journalCapacity)⟩
  have begins : Handles starting.act ⟨v, none⟩ starting.steps started := ⟨rfl, rfl⟩
  have updates : perform rewriting.act started = .ok ()
      (recordPatchIfServing started.vault.chainState.1 { started with vault := v₁ }) := by
    have read : readSource (fun _ => some [1, 2, 3]) "src" started = .ok [1, 2, 3] started := rfl
    have program : perform rewriting.act =
        readSource (fun _ => some [1, 2, 3]) "src" >>= fun data =>
          fileOperation (Vault.updateFile "a" data (draws 5)) := by
      simp [perform, rewriting, submitUpdate]
    rw [program, bind_of_ok read]
    exact fileOperation_of_ok ran
  have recorded : Handles rewriting.act started rewriting.steps
      ⟨v₁.takeChangeLog.2, some ((PatchJournal.empty journalCapacity).record 3 v₁.changeLog)⟩ := by
    unfold Handles
    rw [updates, ← position]
    exact ⟨rfl, rfl⟩
  exact (Runs.nil.snoc begins).snoc recorded

/-- A grant or a revocation that succeeds. -/
theorem handles_access {act : Act} {s : UnlockedState} {op : Op} {draws : Draws}
    {password : String} {v' : Vault} (opIs : actOp act = some (op, draws, false))
    (program : perform act s = onVault (op.exec password draws) s)
    (ran : op.exec password draws s.vault = .ok () v') :
    Handles act s [⟨op, draws, true⟩] { s with vault := v' } := by
  unfold Handles
  rw [program, onVault_of_ok ran]
  exact ⟨rfl, by simp [actSteps, opIs]⟩

/-- A change that is not recorded leaves the peer that was up to date when the session began
with the update only. -/
theorem not_converges_of_unrecorded {origin v v₁ v₂ : Vault} {ranges : Piece} {step : Step}
    {act : Act}
    (created : Vault.create "v" "" 65536 "p" (identity 1) (draws 1) = .ok origin)
    (opened : Run "p" origin (sharedTrace 0 ++ [opening]) v) (position : v.chainState.1 = 3)
    (run : Run "p" origin (sharedTrace 0 ++ [opening] ++ updateSteps) v₁)
    (taken : Takes "p" (sharedTrace 0 ++ [opening] ++ updateSteps) v₁ step v₂)
    (changes : step.Changes)
    (serves : Serves ⟨v, none⟩ ([starting, rewriting] ++ [⟨act, [step]⟩])
      ⟨v₂, some ((PatchJournal.empty journalCapacity).record 3 ranges)⟩) :
    ¬ Converges (catchUp v₂ (some ((PatchJournal.empty journalCapacity).record 3 ranges))
      v.chainState.1) v v₂ := by
  have counted : recordsAfter (sharedTrace 0 ++ [opening] ++ updateSteps ++ [step]) = 5 := by
    rw [recordsAfter_concat, if_pos changes]
    rfl
  have steps : sharedTrace 0 ++ [opening] ++ stepsOf ([starting, rewriting] ++ [⟨act, [step]⟩]) =
      sharedTrace 0 ++ [opening] ++ updateSteps ++ [step] := by
    rw [stepsOf_concat, ← List.append_assoc]
    rfl
  have short : recordsAfter (sharedTrace 0 ++ [opening] ++
      stepsOf ([starting, rewriting] ++ [⟨act, [step]⟩])) < 2 ^ 64 := by
    rw [steps, counted]
    decide
  have serving := Serves.serving created opened (opened.reopened_drained created) serves short
  have shown := Run.past_of_shownAt created
    ⟨_, v, List.prefix_append _ _, opened, rfl, rfl⟩ short
  intro converges
  rcases (serving.converges_iff created short shown).mp converges with uncovered | current | empty
  · refine uncovered ⟨?_, (3, ranges), rfl, ?_⟩
    · rw [position]
      decide
    · rw [position]
      exact UInt64.le_refl _
  · have reached : Run "p" origin _ v₂ := run.snoc taken
    have advanced : v₂.chainState.1 = 5 := by
      refine (reached.chainNextSeq_ofNat created).trans ?_
      rw [counted]
      rfl
    rw [position] at current
    exact absurd (current.trans advanced) (by decide)
  · exact run.changeLog_ne_nil created taken changes empty

/-- The peer of the example is answered. -/
theorem isGranted_sample {origin v : Vault} {trace : List Step}
    (created : Vault.create "v" "" 65536 "p" (identity 1) (draws 1) = .ok origin)
    (run : Run "p" origin trace v) (granted : (identity 2).peerId ∈ grantedAfter trace)
    (journal : PatchJournal) (nextSeq : UInt64) :
    pollNetwork v journal (identity 2).peerId nextSeq =
      .message (catchUp v (some journal) nextSeq) := by
  unfold pollNetwork
  rw [(run.isGranted_iff created _).mpr granted]

/-- The session goes on: a second peer is granted access. -/
theorem exists_granted_session : ∃ origin v v₁ v₂ journal,
    Vault.create "v" "" 65536 "p" (identity 1) (draws 1) = .ok origin ∧
    Run "p" origin (sharedTrace 0 ++ [opening]) v ∧ v.chainState.1 = 3 ∧
    Run "p" origin (sharedTrace 0 ++ [opening] ++ updateSteps) v₁ ∧
    Run "p" origin (sharedTrace 0 ++ [opening] ++ updateSteps ++ granting.steps) v₂ ∧
    Serves ⟨v, none⟩ ([starting, rewriting] ++ [granting]) ⟨v₂, some journal⟩ ∧
    ∃ ranges, journal = (PatchJournal.empty journalCapacity).record 3 ranges := by
  obtain ⟨origin, v, v₁, created, opened, position, run₁, isAdmin, ranges, serves⟩ :=
    exists_rewritten_session
  have granted : grantedAfter (sharedTrace 0 ++ [opening] ++ updateSteps) =
      [(identity 2).peerId] := rfl
  have fresh : ∀ other ∈ grantedAfter (sharedTrace 0 ++ [opening] ++ updateSteps),
      other.signingPublic ≠ (identity 3).peerId.signingPublic := by
    rw [granted]
    decide
  obtain ⟨v₂, run₂⟩ := run₁.exists_grant created isAdmin fresh (by rw [granted]; decide) (draws 6)
  let journal := (PatchJournal.empty journalCapacity).record 3 ranges
  have handled : Handles granting.act ⟨v₁, some journal⟩ granting.steps ⟨v₂, some journal⟩ :=
    handles_access rfl rfl (run₁.exec_eq run₂)
  exact ⟨origin, v, v₁, v₂, journal, created, opened, position, run₁, run₂, serves.snoc handled,
    ranges, rfl⟩

/-- Once another peer has been granted access, a peer that was up to date when the session
began is sent the update only. -/
theorem stale_after_grant : ∃ origin v s journal,
    Vault.create "v" "" 65536 "p" (identity 1) (draws 1) = .ok origin ∧
    Run "p" origin (sharedTrace 0 ++ [opening]) v ∧
    Serves ⟨v, none⟩ [starting, rewriting, granting] s ∧ s.network = some journal ∧
    (identity 2).peerId ∈
      grantedAfter (sharedTrace 0 ++ [opening] ++ stepsOf [starting, rewriting, granting]) ∧
    ∃ message,
      pollNetwork s.vault journal (identity 2).peerId v.chainState.1 = .message message ∧
      ¬ Converges message v s.vault := by
  obtain ⟨origin, v, v₁, v₂, journal, created, opened, position, run₁, run₂, serves, ranges, rfl⟩ :=
    exists_granted_session
  have peer : (identity 2).peerId ∈ grantedAfter (sharedTrace 0 ++ [opening] ++
      updateSteps ++ granting.steps) :=
    show _ ∈ [(identity 3).peerId, (identity 2).peerId] from
      List.mem_cons_of_mem _ List.mem_cons_self
  refine ⟨origin, v, _, _, created, opened, serves, rfl, peer, _, isGranted_sample created run₂ peer
    _ _, ?_⟩
  exact not_converges_of_unrecorded created opened position run₁
    (Takes.of_ok (run₁.exec_eq run₂)) ⟨rfl, rfl⟩ serves

/-- An unlocked vault with one update brings a peer up to date. -/
theorem poll_brings_up_to_date_iff_rewritten : ∃ origin v s journal,
    Vault.create "v" "" 65536 "p" (identity 1) (draws 1) = .ok origin ∧
    Run "p" origin (sharedTrace 0 ++ [opening]) v ∧
    Serves ⟨v, none⟩ [starting, rewriting] s ∧ s.network = some journal ∧
    ((∃ message, pollNetwork s.vault journal (identity 2).peerId v.chainState.1 =
        .message message ∧ Converges message v s.vault) ↔
      ¬ journal.Covers v.chainState.1 ∨ v.chainState.1 = s.vault.chainState.1 ∨
        s.vault.changeLog = []) := by
  obtain ⟨origin, v, v₁, created, opened, _, _, _, ranges, serves⟩ := exists_rewritten_session
  refine ⟨origin, v, _, _, created, opened, serves, rfl, ?_⟩
  exact poll_brings_up_to_date_iff created opened serves rfl (by decide)
    (show _ ∈ [(identity 2).peerId] from List.mem_singleton.mpr rfl)
    ⟨_, v, List.prefix_append _ _, opened, rfl, rfl⟩

end Transparent

end ReVault
