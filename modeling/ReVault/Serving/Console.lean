import ReVault.Serving.Session

/-!
# The serving console

A `serve` session on the command line: one handle and one journal, console lines that
change the vault and connections that are answered. Every accepted mutation is drained
into the journal at once, so every granted peer is brought up to date.
-/

namespace ReVault

open Foundation Primitives

/-- The vault and the journal of a serving session. -/
structure Session where
  vault : Vault
  journal : PatchJournal

/-- Errors that a console line reports. -/
inductive ConsoleError where
  | vault (fault : Fault)
  | usage (message : String)
  /-- the file to import cannot be read -/
  | source
  deriving DecidableEq

/-- Programs of the console. -/
abbrev ConsoleM := EStateM ConsoleError Session

/-- The error leaves the session able to go on: it is not one of the environment. -/
def ConsoleError.refusal : ConsoleError → Bool
  | vault fault => fault.refusal
  | usage _ | source => true

namespace Console

/-- The usage line of a command. -/
def usageErr (message : String) : ConsoleError := .usage ("usage: " ++ message)

/-- Reads the file to import. -/
def readSource (disk : String → Option Bytes) (path : String) : ConsoleM Bytes :=
  observe fun _ => match disk path with
    | some data => .ok data
    | none => .error .source

/-- A program over the vault of the session. -/
def onVault {α : Type} (program : VaultM α) : ConsoleM α :=
  within Session.vault (fun vault session => { session with vault := vault }) .vault program

/-- Runs a mutation and records its patch under the sequence number before it. -/
def recorded (mutation : VaultM Unit) : ConsoleM Unit := do
  let before ← get
  onVault mutation
  modify fun session =>
    { vault := session.vault.takeChangeLog.2
      journal := session.journal.record before.vault.chainState.1 session.vault.takeChangeLog.1 }

/-- A line that imports a file under a name. -/
def importing (disk : String → Option Bytes) (change : String → Bytes → VaultM Unit)
    (usage : String) : (args : List String) → ConsoleM Bool
  | src :: name :: _ => do
      let data ← readSource disk src
      recorded (change name data)
      pure true
  | _ => throw (usageErr usage)

/-- The operation of a line that imports a file. -/
def importOp (disk : String → Option Bytes) (op : String → Bytes → Op) :
    (args : List String) → Option Op
  | src :: name :: _ => (disk src).map fun data => op name data
  | _ => none

variable [Primitives]

/-- `handle_command`, on the words of a line: whether the session goes on. -/
def handleCommand (disk : String → Option Bytes) (draws : Draws) :
    (words : List String) → ConsoleM Bool
  | [] => pure true
  | command :: args =>
      if command = "help" then pure true
      else if command = "list" then do
        let _ ← onVault (observe fun v => v.listFiles)
        pure true
      else if command = "add" then
        importing disk (fun name data => Vault.addFile name data draws)
          "add <source-path> <name>" args
      else if command = "update" then
        importing disk (fun name data => Vault.updateFile name data draws)
          "update <source-path> <name>" args
      else if command = "delete" then
        match args with
        | name :: _ => do
            recorded (Vault.deleteFile name draws)
            pure true
        | [] => throw (usageErr "delete <name>")
      else if command = "quit" ∨ command = "exit" then pure false
      else pure true

omit [Primitives] in
/-- The operation of the vault that a line leads to. -/
def commandOp (disk : String → Option Bytes) : (words : List String) → Option Op
  | [] => none
  | command :: args =>
      if command = "list" then some .listFiles
      else if command = "add" then importOp disk .addFile args
      else if command = "update" then importOp disk .updateFile args
      else if command = "delete" then
        match args with
        | name :: _ => some (.deleteFile name)
        | [] => none
      else none

omit [Primitives] in
/-- The steps that the handle takes for a line. -/
def commandSteps (disk : String → Option Bytes) (words : List String) (draws : Draws)
    (accepted : Bool) : List Step :=
  match commandOp disk words with
  | none => []
  | some op =>
      if accepted && op.mutates then [⟨op, draws, true⟩, ⟨.takeChangeLog, draws, true⟩]
      else [⟨op, draws, accepted⟩]

/-- What happens in a session: a line is typed, with the files it can import and the values
it draws, or a peer connects. -/
inductive Act where
  | command (disk : String → Option Bytes) (words : List String) (draws : Draws)
  | connection (peer : PeerId) (nextSeq : UInt64)

/-- A line is handled and the session goes on, its handle having taken these steps. -/
def Handles (disk : String → Option Bytes) (words : List String) (draws : Draws) (s : Session)
    (steps : List Step) (s' : Session) : Prop :=
  match handleCommand disk draws words s with
  | .ok continues reached =>
      continues = true ∧ s' = reached ∧ steps = commandSteps disk words draws true
  | .error fault reached =>
      fault.refusal = true ∧ s' = reached ∧ steps = commandSteps disk words draws false

/-- One event of a session. Serving a connection only reads. -/
inductive Proceeds : Session → Event Act → Session → Prop
  | command {disk : String → Option Bytes} {words : List String} {draws : Draws} {s s' : Session}
      {steps : List Step} (handled : Handles disk words draws s steps s') :
      Proceeds s ⟨.command disk words draws, steps⟩ s'
  | connection {s : Session} (peer : PeerId) (nextSeq : UInt64) :
      Proceeds s ⟨.connection peer nextSeq, []⟩ s

/-! ## What a line can do -/

omit [Primitives] in
/-- An accepted change is recorded. -/
theorem recorded_of_ok {mutation : VaultM Unit} {s : Session} {v' : Vault}
    (ran : mutation s.vault = .ok () v') : recorded mutation s = .ok ()
      ⟨v'.takeChangeLog.2, s.journal.record s.vault.chainState.1 v'.takeChangeLog.1⟩ := by
  unfold recorded
  rw [bind_of_ok (get_apply s)]
  have stepped : onVault mutation s = .ok () { s with vault := v' } := within_of_ok ran
  exact (bind_of_ok stepped).trans (modify_apply _ _)

omit [Primitives] in
/-- A failed one is not. -/
theorem recorded_of_error {mutation : VaultM Unit} {s : Session} {v' : Vault} {fault : Fault}
    (ran : mutation s.vault = .error fault v') :
    recorded mutation s = .error (.vault fault) { s with vault := v' } := by
  unfold recorded
  rw [bind_of_ok (get_apply s)]
  have failed : onVault mutation s = .error (.vault fault) { s with vault := v' } :=
    within_of_error ran
  exact bind_of_error failed

/-- A program does nothing to a session, or it runs one mutation and records its patch. -/
def Records (draws : Draws) (op : Option Op) (program : ConsoleM Bool) (s : Session) : Prop :=
  op = none ∧ finalState (program s) = s ∨
    ∃ change, op = some change ∧ change.mutates = true ∧ ∀ password,
      program s = (recorded (change.exec password draws) >>= fun _ => pure true) s

/-- An import that is accepted is recorded. -/
theorem importing_records (disk : String → Option Bytes) {draws : Draws}
    {change : String → Bytes → VaultM Unit} {op : String → Bytes → Op}
    (mutates : ∀ name data, (op name data).mutates = true)
    (runs : ∀ name data password, (op name data).exec password draws = change name data)
    (usage : String) (args : List String) (s : Session) :
    Records draws (importOp disk op args) (importing disk change usage args) s := by
  match args with
  | src :: name :: rest =>
      cases found : disk src with
      | none =>
          have missing : readSource disk src s = .error .source s :=
            observe_of_error (by simp only [found])
          have stopped : importing disk change usage (src :: name :: rest) s =
              .error .source s := bind_of_error missing
          exact Or.inl ⟨by simp only [importOp, found, Option.map_none], congrArg _ stopped⟩
      | some data =>
          have read : readSource disk src s = .ok data s :=
            observe_of_ok (by simp only [found])
          refine Or.inr ⟨op name data, by simp only [importOp, found, Option.map_some],
            mutates name data, fun password => ?_⟩
          rw [runs]
          exact bind_of_ok read
  | [_] => exact Or.inl ⟨rfl, rfl⟩
  | [] => exact Or.inl ⟨rfl, rfl⟩

/-- A line lists the files, or does nothing to the session, or runs one mutation and
records its patch. -/
theorem handleCommand_cases (disk : String → Option Bytes) (draws : Draws) (words : List String)
    (s : Session) :
    (commandOp disk words = some .listFiles ∧ handleCommand disk draws words s =
      match s.vault.listFiles with
      | .ok _ => .ok true s
      | .error fault => .error (.vault fault) s) ∨
    Records draws (commandOp disk words) (handleCommand disk draws words) s := by
  cases words with
  | nil => exact Or.inr (Or.inl ⟨rfl, rfl⟩)
  | cons command args =>
      by_cases list : command = "list"
      · subst list
        have program : handleCommand disk draws ("list" :: args) =
            onVault (observe fun v => v.listFiles) >>= fun _ => pure true := by
          simp [handleCommand]
        refine Or.inl ⟨by simp [commandOp], ?_⟩
        rw [program]
        cases listed : s.vault.listFiles with
        | ok infos =>
            have read : onVault (observe fun v => v.listFiles) s = .ok infos s :=
              within_of_ok (observe_of_ok listed)
            exact bind_of_ok read
        | error fault =>
            have read : onVault (observe fun v => v.listFiles) s = .error (.vault fault) s :=
              within_of_error (observe_of_error listed)
            exact bind_of_error read
      right
      by_cases add : command = "add"
      · subst add
        simpa [handleCommand, commandOp] using importing_records disk (fun _ _ => rfl)
          (fun _ _ _ => rfl) "add <source-path> <name>" args s
      by_cases update : command = "update"
      · subst update
        simpa [handleCommand, commandOp] using importing_records disk (fun _ _ => rfl)
          (fun _ _ _ => rfl) "update <source-path> <name>" args s
      by_cases delete : command = "delete"
      · subst delete
        cases args with
        | nil => exact Or.inl ⟨by simp [commandOp], by simp [handleCommand]; rfl⟩
        | cons name rest =>
            exact Or.inr ⟨.deleteFile name, by simp [commandOp], rfl, fun password => by
              simp [handleCommand]; rfl⟩
      refine Or.inl ⟨by simp [commandOp, list, add, update, delete], ?_⟩
      by_cases help : command = "help"
      · simp [handleCommand, help]
        rfl
      · simp [handleCommand, help, list, add, update, delete]
        split <;> rfl

/-- A line that updates a file, when the vault accepts it. -/
theorem Proceeds.update {disk : String → Option Bytes} {draws : Draws} {src name : String}
    {data : Bytes} {s : Session} {v' : Vault} (found : disk src = some data)
    (ran : Vault.updateFile name data draws s.vault = .ok () v') :
    Proceeds s ⟨.command disk ["update", src, name] draws,
        [⟨.updateFile name data, draws, true⟩, ⟨.takeChangeLog, draws, true⟩]⟩
      ⟨v'.takeChangeLog.2, s.journal.record s.vault.chainState.1 v'.takeChangeLog.1⟩ := by
  have read : readSource disk src s = .ok data s := observe_of_ok (by simp only [found])
  have handled : handleCommand disk draws ["update", src, name] s = .ok true
      ⟨v'.takeChangeLog.2, s.journal.record s.vault.chainState.1 v'.takeChangeLog.1⟩ := by
    have program : handleCommand disk draws ["update", src, name] =
        readSource disk src >>= fun data =>
          recorded (Vault.updateFile name data draws) >>= fun _ => pure true := by
      simp [handleCommand, importing]
    rw [program, bind_of_ok read, bind_of_ok (recorded_of_ok ran)]
    rfl
  apply Proceeds.command
  unfold Handles
  rw [handled]
  exact ⟨rfl, rfl, by simp [commandSteps, commandOp, importOp, found, Op.mutates]⟩

/-! ## The session along a run -/

omit [Primitives] in
/-- No line rotates the content key. -/
theorem keeps_of_commandOp {disk : String → Option Bytes} {words : List String} {op : Op}
    (opIs : commandOp disk words = some op) : op.rotates = false := by
  have imported : ∀ {make : String → Bytes → Op} {args : List String},
      (∀ name data, (make name data).rotates = false) →
        importOp disk make args = some op → op.rotates = false := by
    intro make args keeps isImport
    unfold importOp at isImport
    split at isImport
    · obtain ⟨data, _, rfl⟩ := Option.map_eq_some_iff.mp isImport
      exact keeps _ data
    · cases isImport
  unfold commandOp at opIs
  split at opIs
  · cases opIs
  · split at opIs
    · cases opIs
      rfl
    · split at opIs
      · exact imported (fun _ _ => rfl) opIs
      · split at opIs
        · exact imported (fun _ _ => rfl) opIs
        · split at opIs
          · split at opIs
            · cases opIs
              rfl
            · cases opIs
          · cases opIs

omit [Primitives] in
/-- No command of the console replaces the key. -/
theorem keeps_of_commandSteps {disk : String → Option Bytes} {words : List String}
    {draws : Draws} {accepted : Bool} :
    ∀ step ∈ commandSteps disk words draws accepted, step.op.rotates = false := by
  intro step member
  unfold commandSteps at member
  split at member
  · cases member
  · rename_i op opIs
    have keeps := keeps_of_commandOp opIs
    split at member
    · rcases List.mem_pair.mp member with rfl | rfl
      · exact keeps
      · rfl
    · rw [List.mem_singleton.mp member]
      exact keeps

section

variable {password : String} {origin : Vault} {trace : List Step} {s s' : Session}
  {disk : String → Option Bytes} {words : List String} {draws' : Draws} {steps : List Step}
  {name description : String} {capacityBytes : UInt64} {admin : Identity} {draws : Draws}

namespace Handles

/-- A line that lists the files. -/
theorem turn_list (opIs : commandOp disk words = some .listFiles)
    (program : handleCommand disk draws' words s = match s.vault.listFiles with
      | .ok _ => .ok true s
      | .error fault => .error (.vault fault) s)
    (handled : Handles disk words draws' s steps s') :
    Turn password trace s.vault s.journal steps s'.vault s'.journal ∧ s' = s := by
  unfold Handles at handled
  rw [program] at handled
  cases listed : s.vault.listFiles with
  | ok infos =>
      rw [listed] at handled
      obtain ⟨_, rfl, rfl⟩ := handled
      have read : Op.listFiles.exec (passwordAfter password trace) draws' s'.vault =
          .ok () s'.vault := bind_of_ok (observe_of_ok listed)
      have turn : Turn password trace s'.vault s'.journal _ _ _ :=
        Turn.advance (Takes.of_ok read) (Or.inr (Or.inr rfl))
      exact ⟨by simpa [commandSteps, opIs, Op.mutates] using turn, rfl⟩
  | error fault =>
      rw [listed] at handled
      obtain ⟨refused, rfl, rfl⟩ := handled
      have read : Op.listFiles.exec (passwordAfter password trace) draws' s'.vault =
          .error fault s'.vault := observe_bind_of_error listed
      have turn : Turn password trace s'.vault s'.journal _ _ _ :=
        Turn.advance (Takes.of_error read refused) (Or.inr (Or.inr rfl))
      exact ⟨by simpa [commandSteps, opIs] using turn, rfl⟩

/-- A line that does nothing. -/
theorem idle (opIs : commandOp disk words = none)
    (kept : finalState (handleCommand disk draws' words s) = s)
    (handled : Handles disk words draws' s steps s') : steps = [] ∧ s' = s := by
  unfold Handles at handled
  unfold finalState at kept
  split at handled
  all_goals
    rename_i outcome
    rw [outcome] at kept
    obtain ⟨_, rfl, rfl⟩ := handled
    exact ⟨by simp only [commandSteps, opIs], kept⟩

/-- A line that runs a mutation: it is refused, or its patch is recorded. -/
theorem turn_change {op : Op} (opIs : commandOp disk words = some op)
    (mutates : op.mutates = true)
    (program : ∀ password, handleCommand disk draws' words s =
      (recorded (op.exec password draws') >>= fun _ => pure true) s)
    (handled : Handles disk words draws' s steps s') :
    Turn password trace s.vault s.journal steps s'.vault s'.journal ∧
      (Takes password trace s.vault ⟨op, draws', false⟩ s'.vault ∨ s'.vault.changeLog = []) := by
  unfold Handles at handled
  rw [program (passwordAfter password trace)] at handled
  cases ran : op.exec (passwordAfter password trace) draws' s.vault with
  | ok value v' =>
      rw [bind_of_ok (recorded_of_ok ran)] at handled
      obtain ⟨_, rfl, rfl⟩ := handled
      have turn : Turn password trace s.vault s.journal _ _ _ :=
        Turn.publish (Takes.of_ok ran) ⟨rfl, mutates⟩ (keeps_of_commandOp opIs) draws'
      exact ⟨by simpa [commandSteps, opIs, mutates] using turn, Or.inr rfl⟩
  | error fault v' =>
      rw [bind_of_error (recorded_of_error ran)] at handled
      obtain ⟨refused, rfl, rfl⟩ := handled
      have taken : Takes password trace s.vault ⟨op, draws', false⟩ v' :=
        Takes.of_error ran refused
      have turn : Turn password trace s.vault s.journal _ _ _ :=
        Turn.advance taken (Or.inl mutates)
      exact ⟨by simpa [commandSteps, opIs] using turn, Or.inl taken⟩

end Handles

variable [Lawful]

/-- **One event.** The session takes a turn, and its change log is empty again. -/
theorem Proceeds.turn {event : Event Act}
    (created : Vault.create name description capacityBytes password admin draws = .ok origin)
    (run : Run password origin trace s.vault) (drained : s.vault.changeLog = [])
    (proceeds : Proceeds s event s') :
    Turn password trace s.vault s.journal event.steps s'.vault s'.journal ∧
      s'.vault.changeLog = [] := by
  cases proceeds with
  | connection peer nextSeq => exact ⟨Turn.idle, drained⟩
  | @command disk words draws' _ _ steps handled =>
      rcases handleCommand_cases disk draws' words s with
        ⟨opIs, program⟩ | ⟨opIs, kept⟩ | ⟨op, opIs, mutates, program⟩
      · have lists : Turn password trace _ _ _ _ _ ∧ s' = s := handled.turn_list opIs program
        exact ⟨lists.1, by rw [lists.2]; exact drained⟩
      · obtain ⟨rfl, rfl⟩ := handled.idle opIs kept
        exact ⟨Turn.idle, drained⟩
      · obtain ⟨turn, refused | drained'⟩ := handled.turn_change opIs mutates program
        · refine ⟨turn, ?_⟩
          rw [run.refused_eq created refused rfl]
          exact drained
        · exact ⟨turn, drained'⟩

/-- The events of a session. -/
abbrev Serves (start : Session) : List (Event Act) → Session → Prop :=
  Runs (fun _ => Proceeds) start

omit [Lawful] in
/-- No event of a session rotates the content key. -/
theorem Serves.keeps {start : Session} {events : List (Event Act)}
    (serves : Serves start events s) : ∀ step ∈ stepsOf events, step.op.rotates = false := by
  induction serves with
  | nil => exact fun _ member => absurd member List.not_mem_nil
  | snoc _ proceeds ih =>
      rw [stepsOf_concat]
      intro step member
      rcases List.mem_append.mp member with old | new
      · exact ih step old
      · cases proceeds with
        | connection peer nextSeq => cases new
        | command handled =>
            unfold Handles at handled
            split at handled
            · obtain ⟨_, _, rfl⟩ := handled
              exact keeps_of_commandSteps step new
            · obtain ⟨_, _, rfl⟩ := handled
              exact keeps_of_commandSteps step new

/-- A session on a handle without undrained changes. -/
theorem Serves.session {v : Vault} {journal : PatchJournal} {events : List (Event Act)}
    (created : Vault.create name description capacityBytes password admin draws = .ok origin)
    (run : Run password origin trace v) (drained : v.changeLog = [])
    (serves : Serves ⟨v, journal⟩ events s) :
    SessionRun password trace v journal (stepsOf events) s.vault s.journal ∧
      Run password origin (trace ++ stepsOf events) s.vault ∧ s.vault.changeLog = [] := by
  induction serves with
  | nil => exact ⟨SessionRun.nil, by simpa [stepsOf] using run, drained⟩
  | @snoc events s s' event _ proceeds ih =>
      obtain ⟨session, reached, drained⟩ := ih
      obtain ⟨turn, drained⟩ := Proceeds.turn created reached drained proceeds
      rw [stepsOf_concat, ← List.append_assoc]
      exact ⟨session.snoc turn, turn.run reached, drained⟩

/-- **Convergence of a console session.** Whatever lines are typed and whoever connects, a
granted peer that reports its position, with a replica of the container as it was there, is
sent a message that makes its replica the present container. -/
theorem serve_brings_up_to_date {v : Vault} {identity : Identity} {opening : Draws}
    {capacity : Nat} {events : List (Event Act)} {peer : PeerId} {nextSeq : UInt64}
    {replica : Vault}
    (created : Vault.create name description capacityBytes password admin draws = .ok origin)
    (opened : Run password origin (trace ++ [⟨.reopen identity, opening, true⟩]) v)
    (serves : Serves ⟨v, PatchJournal.empty capacity⟩ events s)
    (short : recordsAfter
      (trace ++ [⟨.reopen identity, opening, true⟩] ++ stepsOf events) < 2 ^ 64)
    (granted : peer ∈ grantedAfter
      (trace ++ [⟨.reopen identity, opening, true⟩] ++ stepsOf events))
    (position : nextSeq = 0 ∨ ShownAt password origin
      (trace ++ [⟨.reopen identity, opening, true⟩] ++ stepsOf events) nextSeq replica.file) :
    ∃ message, answer s.vault (some s.journal) peer nextSeq = .ok message ∧
      Converges message replica s.vault := by
  have drained := opened.reopened_drained created
  obtain ⟨session, _, settled⟩ := Serves.session created opened drained serves
  have serving := (Serving.start created opened drained capacity).session created session short
  have isGranted := (serving.run.isGranted_iff created peer).mpr granted
  refine ⟨catchUp s.vault (some s.journal) nextSeq, ?_, ?_⟩
  · unfold answer
    rw [except_bind_of_ok isGranted]
    rfl
  rcases position with fresh | shown
  · rw [catchUp_uncovered s.vault fun covers => covers.1 fresh]
    rfl
  · apply (serving.converges_iff created short (Run.past_of_shownAt created shown short)).mpr
    exact Or.inr (Or.inr settled)

end

end Console

namespace Transparent

open Console

/-- The file is updated from the console. -/
def updating : Event Act :=
  ⟨.command (fun _ => some [1, 2, 3]) ["update", "src", "a"] (draws 5),
    updateSteps⟩

/-- A session with one update brings a peer up to date. -/
theorem serve_brings_up_to_date_updated : ∃ origin v s,
    Vault.create "v" "" 65536 "p" (identity 1) (draws 1) = .ok origin ∧
    Run "p" origin (sharedTrace 0 ++ [opening]) v ∧
    Serves ⟨v, PatchJournal.empty 64⟩ [updating] s ∧
    ∃ message, answer s.vault (some s.journal) (identity 2).peerId v.chainState.1 = .ok message ∧
      Converges message v s.vault := by
  obtain ⟨origin, v, created, sized, opened, isAdmin, present⟩ := exists_opened 0
  obtain ⟨v', ran⟩ := opened.exists_update created sized isAdmin present
    (show ([1, 2, 3] : Bytes).length = _ from rfl) (draws 5)
  have proceeds : Proceeds ⟨v, PatchJournal.empty 64⟩ updating _ := Proceeds.update rfl ran
  have serves : Serves ⟨v, PatchJournal.empty 64⟩ ([] ++ [updating]) _ := Runs.nil.snoc proceeds
  refine ⟨origin, v, _, created, opened, serves, ?_⟩
  exact serve_brings_up_to_date created opened serves (by decide)
    (show _ ∈ [(identity 2).peerId] from List.mem_singleton.mpr rfl)
    (Or.inr ⟨_, v, List.prefix_append _ _, opened, rfl, rfl⟩)

/-- When the sequence numbers wrap between two updates of a session, a peer that was up to
date before them is sent the first update only. -/
theorem stale_across_wrap : ∃ origin v s,
    Vault.create "v" "" 65536 "p" (identity 1) (draws 1) = .ok origin ∧
    Run "p" origin (sharedTrace (2 ^ 64 - 4) ++ [opening]) v ∧
    Serves ⟨v, PatchJournal.empty 64⟩ [updating, updating] s ∧
    (identity 2).peerId ∈
      grantedAfter (sharedTrace (2 ^ 64 - 4) ++ [opening] ++ stepsOf [updating, updating]) ∧
    ∃ message, answer s.vault (some s.journal) (identity 2).peerId v.chainState.1 = .ok message ∧
      ¬ Converges message v s.vault := by
  obtain ⟨origin, v, created, sized, opened, isAdmin, present⟩ := exists_opened (2 ^ 64 - 4)
  obtain ⟨v₁, piece₁, ran₁, logged₁, run₁, isAdmin₁, present₁⟩ :=
    exists_recorded created sized opened isAdmin present
  obtain ⟨v₂, piece₂, ran₂, logged₂, run₂, _, _⟩ :=
    exists_recorded created sized run₁ isAdmin₁ present₁
  let middle : Session := ⟨v₁.takeChangeLog.2,
    (PatchJournal.empty 64).record v.chainState.1 v₁.takeChangeLog.1⟩
  let final : Session := ⟨v₂.takeChangeLog.2,
    middle.journal.record middle.vault.chainState.1 v₂.takeChangeLog.1⟩
  have first : Proceeds ⟨v, PatchJournal.empty 64⟩ updating middle := Proceeds.update rfl ran₁
  have second : Proceeds middle updating final := Proceeds.update rfl ran₂
  have serves : Serves ⟨v, PatchJournal.empty 64⟩ ([] ++ [updating] ++ [updating]) final :=
    (Runs.nil.snoc first).snoc second
  have granted : grantedAfter (sharedTrace (2 ^ 64 - 4) ++ [opening] ++ updateSteps ++
      updateSteps) = [(identity 2).peerId] := by
    unfold grantedAfter
    rw [Step.fold_append, Step.fold_append]
    exact congrArg (fun value => Step.fold Step.setsGranted (Step.fold Step.setsGranted value
      updateSteps) updateSteps) (grantedAfter_opened _)
  have peer : (identity 2).peerId ∈ grantedAfter (sharedTrace (2 ^ 64 - 4) ++ [opening] ++
      updateSteps ++ updateSteps) := by
    rw [granted]
    exact List.mem_singleton.mpr rfl
  refine ⟨origin, v, final, created, opened, serves, ?_, ?_⟩
  · change _ ∈ grantedAfter (sharedTrace (2 ^ 64 - 4) ++ [opening] ++
      (updateSteps ++ updateSteps))
    rw [← List.append_assoc]
    exact peer
  -- the numbers of the chain before the session, between the updates and after them
  have position : v.chainState.1 = UInt64.ofNat (2 ^ 64 - 1) :=
    (opened.chainNextSeq_ofNat created).trans (congrArg UInt64.ofNat (recordsAfter_opened _))
  have position₁ : v₁.takeChangeLog.2.chainState.1 = 0 := by
    refine (run₁.chainNextSeq_ofNat created).trans ?_
    rw [recordsAfter_updateSteps, recordsAfter_opened]
    rfl
  have position₂ : v₂.takeChangeLog.2.chainState.1 = 1 := by
    refine (run₂.chainNextSeq_ofNat created).trans ?_
    rw [recordsAfter_updateSteps, recordsAfter_updateSteps, recordsAfter_opened]
    rfl
  have entries : final.journal.entries =
      [(v.chainState.1, v₁.changeLog), (0, v₂.changeLog)] := by
    rw [← position₁]
    rfl
  have covers : final.journal.Covers v.chainState.1 := by
    refine ⟨?_, _, congrArg List.head? entries, UInt64.le_refl _⟩
    rw [position]
    decide
  have shipped : rangesFrom v.chainState.1.toNat final.journal.entries = v₁.changeLog := by
    rw [entries, position]
    simp [rangesFrom]
  have isGranted := (run₂.isGranted_iff created (identity 2).peerId).mpr peer
  refine ⟨_, (except_bind_of_ok isGranted).trans rfl, ?_⟩
  rw [catchUp_covered _ covers, shipped]
  rintro ⟨replica, applied, same⟩
  -- the first update alone leads to the container between the two
  have whole : v₁.changeLog = piece₁ := by
    rw [logged₁.recorded, opened.reopened_drained created, List.nil_append]
  rw [whole] at applied
  have reached : v₁.takeChangeLog.2.file = v₂.takeChangeLog.2.file :=
    (logged₁.replayed.trans (Vault.applied_eq logged₁.bounded applied).1.symm).trans same
  have headers := run₁.header_eq_of_file created run₂ reached
  have wrapped : (0 : UInt64) = 1 :=
    position₁.symm.trans ((congrArg Header.chainNextSeq headers).trans position₂)
  exact absurd wrapped (by decide)

end Transparent

end ReVault
