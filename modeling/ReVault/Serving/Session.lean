import ReVault.Serving.Coverage
import ReVault.Sharing.Readers

/-!
# Serving along a run

Whatever a session does to its handle and its journal, one of a few turns is taken: a step
that is not drained, a mutation whose patch is recorded, or an empty journal that takes
the place of the old one. Each keeps the journal good for all past containers.
-/

namespace ReVault

open Foundation Primitives

/-- An event of a session, with the steps that the handle takes for it. -/
structure Event (Act : Type) where
  act : Act
  steps : List Step

/-- The steps of the events of a session. -/
def stepsOf {Act : Type} (events : List (Event Act)) : List Step :=
  events.flatMap fun event => event.steps

/-- The steps of one more event. -/
theorem stepsOf_concat {Act : Type} (events : List (Event Act)) (event : Event Act) :
    stepsOf (events ++ [event]) = stepsOf events ++ event.steps := by
  simp only [stepsOf, List.flatMap_append, List.flatMap_singleton]

section

variable [Primitives]

/-- What a session does with its handle and its journal in one turn: nothing, or it begins with
an empty journal, or the handle takes a step that is not drained, or a mutation is recorded
under the sequence number before it. A rotation is never recorded. -/
inductive Turn (password : String) (trace : List Step) (v : Vault) (journal : PatchJournal) :
    List Step → Vault → PatchJournal → Prop
  | idle : Turn password trace v journal [] v journal
  | restart (capacity : Nat) : Turn password trace v journal [] v (PatchJournal.empty capacity)
  | advance {step : Step} {v' : Vault} (taken : Takes password trace v step v')
      (kind : step.op.mutates = true ∨ step.accepted = false ∨ v' = v) :
      Turn password trace v journal [step] v' journal
  | publish {step : Step} {v' : Vault} (taken : Takes password trace v step v')
      (changes : step.Changes) (keeps : step.op.rotates = false) (draws : Draws) :
      Turn password trace v journal [step, ⟨.takeChangeLog, draws, true⟩] v'.takeChangeLog.2
        (journal.record v.chainState.1 v'.takeChangeLog.1)

/-- The turns of a session, one after the other, with the steps of its handle. -/
inductive SessionRun (password : String) (trace : List Step) (v : Vault) (journal : PatchJournal) :
    List Step → Vault → PatchJournal → Prop
  | nil : SessionRun password trace v journal [] v journal
  | snoc {done steps : List Step} {v' v'' : Vault} {journal' journal'' : PatchJournal}
      (earlier : SessionRun password trace v journal done v' journal')
      (turn : Turn password (trace ++ done) v' journal' steps v'' journal'') :
      SessionRun password trace v journal (done ++ steps) v'' journal''

section

variable {password : String} {origin v v' : Vault} {trace steps : List Step}
  {journal journal' : PatchJournal}

/-- A turn goes on from a run. -/
theorem Turn.run (run : Run password origin trace v)
    (turn : Turn password trace v journal steps v' journal') :
    Run password origin (trace ++ steps) v' := by
  cases turn with
  | idle => simpa using run
  | restart capacity => simpa using run
  | advance taken kind => exact run.snoc taken
  | @publish step mutated taken changes _ draws =>
      have reached : Run password origin (trace ++ [step]) mutated := run.snoc taken
      have drained : Takes password (trace ++ [step]) mutated ⟨.takeChangeLog, draws, true⟩
          mutated.takeChangeLog.2 := ⟨rfl, rfl⟩
      rw [← List.singleton_append, ← List.append_assoc]
      exact reached.snoc drained

end

/-- A reachable handle with a journal that is good for all past containers. -/
structure Serving (password : String) (origin : Vault) (trace : List Step) (v : Vault)
    (journal : PatchJournal) : Prop where
  run : Run password origin trace v
  journaled : ∃ mark drained, Journaled (Past password origin trace) (recordsAfter trace) v
    journal mark drained

variable [Lawful] {password : String} {origin v v' : Vault} {trace : List Step} {step : Step}
  {journal : PatchJournal} {name description : String} {capacityBytes : UInt64}
  {admin : Identity} {draws : Draws}

namespace Run

/-- The past containers of a run are a history. -/
theorem history
    (created : Vault.create name description capacityBytes password admin draws = .ok origin)
    (run : Run password origin trace v) :
    History (Past password origin trace) (recordsAfter trace) v.file where
  present := Past.now run
  below := fun _ _ past => past.le
  only := fun _ past => past_now created run past

omit [Lawful] in
/-- A change adds the container that it leads to. -/
theorem past_concat_iff (run : Run password origin trace v)
    (taken : Takes password trace v step v') (changes : step.Changes) (count : Nat)
    (file : Bytes) : Past password origin (trace ++ [step]) count file ↔
      Past password origin trace count file ∨
        count = recordsAfter trace + 1 ∧ file = v'.file := by
  have more : recordsAfter (trace ++ [step]) = recordsAfter trace + 1 := by
    rw [recordsAfter_concat, if_pos changes]
  rw [← more]
  constructor
  · exact Past.concat_cases (run.snoc taken)
  · rintro (old | ⟨rfl, rfl⟩)
    · exact old.longer (List.prefix_append _ _)
    · exact Past.now (run.snoc taken)

/-- Any other step adds none. -/
theorem past_concat_of_keeps
    (created : Vault.create name description capacityBytes password admin draws = .ok origin)
    (run : Run password origin trace v) (taken : Takes password trace v step v')
    (keeps : ¬ step.Changes) (count : Nat) (file : Bytes) :
    Past password origin (trace ++ [step]) count file ↔
      Past password origin trace count file := by
  constructor
  · intro past
    rcases past.concat_cases (run.snoc taken) with old | ⟨rfl, rfl⟩
    · exact old
    · rw [recordsAfter_concat, if_neg keeps, (container_eq created run taken keeps).1]
      exact Past.now run
  · exact fun old => old.longer (List.prefix_append _ _)

/-- A handle that has just been opened has nothing to drain. -/
theorem reopened_drained {identity : Identity} {opening : Draws}
    (created : Vault.create name description capacityBytes password admin draws = .ok origin)
    (run : Run password origin (trace ++ [⟨.reopen identity, opening, true⟩]) v) :
    v.changeLog = [] := by
  obtain ⟨before, earlier, taken⟩ := run.exists_last
  obtain ⟨d, files, healthy⟩ := Run.healthy created earlier
  rcases healthy.step_cases taken with ⟨refused, _⟩ | ⟨_, _, _, took⟩
  · cases refused
  · cases took with
    | reopened identity => rfl

/-- The container can be opened again with the password in force; the admin gets the
admin's handle. -/
theorem exists_reopened
    (created : Vault.create name description capacityBytes password admin draws = .ok origin)
    (run : Run password origin trace v) (identity : Identity) (opening : Draws) :
    ∃ v', Run password origin (trace ++ [⟨.reopen identity, opening, true⟩]) v' ∧
      (identity = admin → v'.isAdmin = true) := by
  obtain ⟨d, files, healthy⟩ := run.healthy created
  have opened := healthy.sound.openWithPassword_eq healthy.keyring.password identity
  have observed : observe (fun v => Vault.openWithPassword v.file (passwordAfter password trace)
      identity) v = .ok _ v := observe_of_ok opened
  have ran : (Op.reopen identity).exec (passwordAfter password trace) opening v = .ok () _ :=
    (bind_of_ok observed).trans (modify_apply _ _)
  refine ⟨_, Run.accept run ran, ?_⟩
  rintro rfl
  obtain ⟨slot, header⟩ := (Vault.create_spec created).header
  have signs : identity.peerId.signingPublic = v.header.adminSigningPubkey := by
    rw [healthy.shape.ring_eq.1, header]
    rfl
  change Option.isSome (if identity.peerId.signingPublic = v.header.adminSigningPubkey
    then some identity else none) = true
  rw [if_pos signs]
  rfl

/-- A change that has not been drained is in the change log. -/
theorem changeLog_ne_nil
    (created : Vault.create name description capacityBytes password admin draws = .ok origin)
    (run : Run password origin trace v) (taken : Takes password trace v step v')
    (changes : step.Changes) : v'.changeLog ≠ [] := by
  intro empty
  obtain ⟨d, files, healthy⟩ := run.healthy created
  obtain ⟨piece, logged, _⟩ := healthy.logs taken changes.2
  have nothing : piece = [] := by
    rw [logged.recorded] at empty
    exact (List.append_eq_nil_iff.mp empty).2
  have same : v'.file = v.file := by
    rw [logged.replayed, nothing]
    rfl
  -- the header that was written shows one record more
  have reached : Run password origin (trace ++ [step]) v' := run.snoc taken
  have advanced : UInt64.ofNat (recordsAfter trace + 1) = UInt64.ofNat (recordsAfter trace) := by
    have header := congrArg Header.chainNextSeq (reached.header_eq_of_file created run same)
    rw [reached.chainNextSeq_ofNat created, run.chainNextSeq_ofNat created,
      recordsAfter_concat, if_pos changes] at header
    exact header
  rw [UInt64.ofNat_add] at advanced
  generalize UInt64.ofNat (recordsAfter trace) = number at advanced
  exact absurd (UInt64.add_eq_left.mp advanced) (by decide)

/-- Past containers can be loaded. -/
theorem loads_past
    (created : Vault.create name description capacityBytes password admin draws = .ok origin)
    {count : Nat} {file : Bytes} (past : Past password origin trace count file) :
    Loads file := by
  obtain ⟨earlier, w, _, reached, _, rfl⟩ := past
  obtain ⟨d, files, healthy⟩ := reached.healthy created
  exact healthy.sound.loaded.loads

/-- A peer is granted access exactly when the trace granted it. -/
theorem isGranted_iff
    (created : Vault.create name description capacityBytes password admin draws = .ok origin)
    (run : Run password origin trace v) (peer : PeerId) :
    isGranted v peer = .ok true ↔ peer ∈ grantedAfter trace := by
  obtain ⟨d, files, healthy⟩ := run.healthy created
  obtain ⟨infos, listed, peers⟩ := Vault.listRecipients_eq healthy.sound.tracks
  rw [isGranted_of_lists listed, Except.ok.injEq, List.any_eq_true]
  simp only [beq_iff_eq]
  exact (peers peer).trans (healthy.keyring.granted peer)

end Run

namespace Serving

/-- A handle without undrained changes begins with any empty journal. -/
theorem start
    (created : Vault.create name description capacityBytes password admin draws = .ok origin)
    (run : Run password origin trace v) (drained : v.changeLog = []) (capacity : Nat) :
    Serving password origin trace v (PatchJournal.empty capacity) :=
  ⟨run, _, _, Journaled.start (run.history created) drained capacity⟩

omit [Lawful] in
/-- The session begins again with an empty journal. -/
theorem restart (serving : Serving password origin trace v journal) (capacity : Nat) :
    Serving password origin trace v (PatchJournal.empty capacity) := by
  obtain ⟨mark, drained, journaled⟩ := serving.journaled
  exact ⟨serving.run, mark, drained, journaled.restart capacity⟩

/-- A step that neither drains the change log nor opens the container again. -/
theorem advance
    (created : Vault.create name description capacityBytes password admin draws = .ok origin)
    (serving : Serving password origin trace v journal)
    (taken : Takes password trace v step v')
    (kind : step.op.mutates = true ∨ step.accepted = false ∨ v' = v) :
    Serving password origin (trace ++ [step]) v' journal := by
  obtain ⟨run, mark, drained, journaled⟩ := serving
  obtain ⟨d, files, healthy⟩ := run.healthy created
  refine ⟨run.snoc taken, mark, drained, ?_⟩
  by_cases changes : step.Changes
  · obtain ⟨piece, logged, _⟩ := healthy.logs taken changes.2
    rw [recordsAfter_concat, if_pos changes]
    exact journaled.change (run.history created) logged (run.past_concat_iff taken changes)
  · have same : v' = v := by
      rcases kind with mutates | refused | same
      · rcases healthy.step_cases taken with ⟨_, same⟩ | ⟨accepted, _⟩
        · exact same
        · exact absurd ⟨accepted, mutates⟩ changes
      · exact run.refused_eq created taken refused
      · exact same
    rw [recordsAfter_concat, if_neg changes]
    exact journaled.congr (congrArg Vault.file same) (congrArg Vault.changeLog same)
      (run.past_concat_of_keeps created taken changes)

/-- A mutation whose patch is recorded under the sequence number before it. -/
theorem publish
    (created : Vault.create name description capacityBytes password admin draws = .ok origin)
    (serving : Serving password origin trace v journal) (short : recordsAfter trace < 2 ^ 64)
    (taken : Takes password trace v step v') (changes : step.Changes) (draws' : Draws) :
    Serving password origin (trace ++ [step, ⟨.takeChangeLog, draws', true⟩]) v'.takeChangeLog.2
      (journal.record v.chainState.1 v'.takeChangeLog.1) := by
  obtain ⟨run, mark, drained, journaled⟩ := serving
  obtain ⟨d, files, healthy⟩ := run.healthy created
  obtain ⟨piece, logged, _⟩ := healthy.logs taken changes.2
  have mutated : Run password origin (trace ++ [step]) v' := run.snoc taken
  have drains : Takes password (trace ++ [step]) v' ⟨.takeChangeLog, draws', true⟩
      v'.takeChangeLog.2 := ⟨rfl, rfl⟩
  have idle : ¬ Step.Changes ⟨.takeChangeLog, draws', true⟩ := fun changes => by
    cases changes.2
  have published := journaled.publish (run.history created) logged
    (run.past_concat_iff taken changes) (run.chainNextSeq_eq created short)
  have split : trace ++ [step, ⟨.takeChangeLog, draws', true⟩] =
      trace ++ [step] ++ [⟨.takeChangeLog, draws', true⟩] := by
    rw [List.append_assoc, List.singleton_append]
  rw [split]
  refine ⟨mutated.snoc drains, recordsAfter trace + 1, v'.file, ?_⟩
  rw [recordsAfter_concat, if_neg idle, recordsAfter_concat, if_pos changes]
  exact published.congr rfl rfl (mutated.past_concat_of_keeps created drains idle)

/-- **One turn.** The journal stays good for all past containers. -/
theorem turn {steps : List Step} {journal' : PatchJournal}
    (created : Vault.create name description capacityBytes password admin draws = .ok origin)
    (serving : Serving password origin trace v journal) (short : recordsAfter trace < 2 ^ 64)
    (turn : Turn password trace v journal steps v' journal') :
    Serving password origin (trace ++ steps) v' journal' := by
  cases turn with
  | idle =>
      rw [List.append_nil]
      exact serving
  | restart capacity =>
      rw [List.append_nil]
      exact serving.restart capacity
  | advance taken kind => exact serving.advance created taken kind
  | publish taken changes _ draws' => exact serving.publish created short taken changes draws'

/-- **A session.** Its journal is good for all past containers. -/
theorem session {done : List Step} {journal' : PatchJournal}
    (created : Vault.create name description capacityBytes password admin draws = .ok origin)
    (serving : Serving password origin trace v journal)
    (session : SessionRun password trace v journal done v' journal')
    (short : recordsAfter (trace ++ done) < 2 ^ 64) :
    Serving password origin (trace ++ done) v' journal' := by
  induction session with
  | nil =>
      rw [List.append_nil]
      exact serving
  | @snoc done steps _ _ _ _ _ turn ih =>
      rw [← List.append_assoc] at short ⊢
      have earlier := (recordsAfter_isPrefix (List.prefix_append _ steps)).trans_lt short
      exact (ih earlier).turn created earlier turn

/-- **Coverage.** The answer to a peer whose replica is a past container makes it the
present one exactly when the journal does not reach back to the peer, the peer is up to
date, or no change is waiting in the change log. -/
theorem converges_iff
    (created : Vault.create name description capacityBytes password admin draws = .ok origin)
    (serving : Serving password origin trace v journal) (short : recordsAfter trace < 2 ^ 64)
    {nextSeq : UInt64} {replica : Vault}
    (shown : Past password origin trace nextSeq.toNat replica.file) :
    Converges (catchUp v (some journal) nextSeq) replica v ↔
      ¬ journal.Covers nextSeq ∨ nextSeq = v.chainState.1 ∨ v.changeLog = [] := by
  obtain ⟨run, mark, drained, journaled⟩ := serving
  have current : nextSeq = v.chainState.1 ↔ nextSeq.toNat = recordsAfter trace := by
    rw [← run.chainNextSeq_eq created short]
    exact UInt64.toNat_inj.symm
  rw [current]
  exact journaled.converges_iff (fun _ _ past => Run.loads_past created past) shown
    (run.history created) fun _ _ _ past past' => Run.count_eq_of_past created past past' short

end Serving

end

namespace Transparent

/-- A file is added, a peer granted access and the file written so many times. -/
def sharedTrace (count : Nat) : List Step :=
  [⟨.addFile "a" [1, 2, 3], draws 2, true⟩,
    ⟨.grantAccess (identity 2).peerId, draws 3, true⟩] ++
    List.replicate count ⟨.updateFile "a" [1, 2, 3], draws 2, true⟩

/-- The admin opens the container. -/
def opening : Step := ⟨.reopen (identity 1), draws 4, true⟩

/-- The records of the shared vault. -/
theorem recordsAfter_opened (count : Nat) :
    recordsAfter (sharedTrace count ++ [opening]) = 3 + count := by
  rw [recordsAfter_concat, if_neg fun changes => by cases changes.2]
  exact recordsAfter_replicate _ ⟨rfl, rfl⟩ count

/-- The peer is granted access to it. -/
theorem grantedAfter_opened (count : Nat) :
    grantedAfter (sharedTrace count ++ [opening]) = [(identity 2).peerId] := by
  have shared : grantedAfter (sharedTrace count) = [(identity 2).peerId] := by
    unfold sharedTrace
    induction count with
    | zero => rfl
    | succ count ih =>
        rw [List.replicate_succ', ← List.append_assoc]
        unfold grantedAfter at ih ⊢
        rw [Step.fold_accepted _ _ _ rfl]
        exact ih
  unfold grantedAfter at shared ⊢
  rw [Step.fold_accepted _ _ _ rfl]
  exact shared

/-- The sample container, opened by the admin. -/
theorem exists_opened (count : Nat) : ∃ origin v,
    Vault.create "v" "" 65536 "p" (identity 1) (draws 1) = .ok origin ∧ origin.header.Sized ∧
    Run "p" origin (sharedTrace count ++ [opening]) v ∧ v.isAdmin = true ∧
    catalogAfter (sharedTrace count ++ [opening]) "a" = some [1, 2, 3] := by
  obtain ⟨origin, v₁, created, sized, added⟩ := exists_added
  have isAdmin := Run.isAdmin created (show Run _ _ ([] ++ [_]) _ from added) rfl rfl
  obtain ⟨v₂, granted⟩ := added.exists_grant created isAdmin
    (fun other member => absurd member List.not_mem_nil) (by decide) (draws 3)
  have isAdmin := Run.isAdmin created granted rfl rfl
  have present : catalogAfter ([⟨.addFile "a" [1, 2, 3], draws 2, true⟩] ++
      [⟨.grantAccess (identity 2).peerId, draws 3, true⟩]) "a" = some [1, 2, 3] := rfl
  obtain ⟨v₃, shared, _, present⟩ :=
    granted.exists_updates created sized isAdmin present (draws 2) count
  obtain ⟨v, opened, isAdmin⟩ := shared.exists_reopened created (identity 1) (draws 4)
  refine ⟨origin, v, created, sized, opened, isAdmin rfl, ?_⟩
  unfold catalogAfter
  rw [Step.fold_accepted _ _ _ rfl]
  exact present

/-- The steps of an update that is recorded. -/
def updateSteps : List Step :=
  [⟨.updateFile "a" [1, 2, 3], draws 5, true⟩, ⟨.takeChangeLog, draws 5, true⟩]

/-- The file can be updated, and its patch drained, as often as the admin likes. -/
theorem exists_recorded {origin v : Vault} {trace : List Step}
    (created : Vault.create "v" "" 65536 "p" (identity 1) (draws 1) = .ok origin)
    (sized : origin.header.Sized) (run : Run "p" origin trace v) (isAdmin : v.isAdmin = true)
    (present : catalogAfter trace "a" = some [1, 2, 3]) : ∃ v' piece,
      Vault.updateFile "a" [1, 2, 3] (draws 5) v = .ok () v' ∧ Logged v v' piece ∧
      Run "p" origin (trace ++ updateSteps) v'.takeChangeLog.2 ∧ v'.isAdmin = true ∧
      catalogAfter (trace ++ updateSteps) "a" = some [1, 2, 3] := by
  obtain ⟨v', ran⟩ := run.exists_update created sized isAdmin present rfl (draws 5)
  have ran' : (Op.updateFile "a" [1, 2, 3]).exec (passwordAfter "p" trace) (draws 5) v =
      .ok () v' := ran
  have updated := Run.accept run ran'
  have drains : Op.takeChangeLog.exec (passwordAfter "p" (trace ++
      [⟨.updateFile "a" [1, 2, 3], draws 5, true⟩])) (draws 5) v' = .ok () v'.takeChangeLog.2 :=
    rfl
  have drained := Run.accept updated drains
  obtain ⟨d, files, healthy⟩ := run.healthy created
  obtain ⟨piece, logged, _⟩ := healthy.logs (Takes.of_ok ran') rfl
  have split : trace ++ updateSteps = trace ++
      [⟨.updateFile "a" [1, 2, 3], draws 5, true⟩] ++ [⟨.takeChangeLog, draws 5, true⟩] := by
    rw [List.append_assoc]
    rfl
  rw [split]
  refine ⟨v', piece, ran, logged, drained, updated.isAdmin created rfl rfl, ?_⟩
  unfold catalogAfter
  rw [Step.fold_accepted _ _ _ rfl, Step.fold_accepted _ _ _ rfl]
  simp only [Step.setsCatalog, Function.update_self]

/-- An update writes one record. -/
theorem recordsAfter_updateSteps (trace : List Step) :
    recordsAfter (trace ++ updateSteps) = recordsAfter trace + 1 := by
  unfold recordsAfter
  rw [Step.fold_append]
  rfl

end Transparent

end ReVault
