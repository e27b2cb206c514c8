import ReVault.Runs.Steps

/-!
# Reachable vaults

A run starts at a new container and takes accepted and refused steps. The trace alone
determines the password in force, the content key, the granted peers and the catalog of
files; every vault a run reaches is sound and holds exactly these.
-/

namespace ReVault

open Foundation Primitives

/-! ## What a trace determines -/

/-- The value that the accepted steps of a trace lead to. -/
def Step.fold {α : Type} (effect : Step → α → α) (start : α) (trace : List Step) : α :=
  trace.foldl (fun value step => if step.accepted then effect step value else value) start

namespace Step

variable {α : Type} (effect : Step → α → α) (start : α) (trace : List Step) {step : Step}

/-- An accepted step has its effect. -/
theorem fold_accepted (accepted : step.accepted = true) :
    fold effect start (trace ++ [step]) = effect step (fold effect start trace) := by
  unfold fold
  rw [List.foldl_append, List.foldl_cons, List.foldl_nil, if_pos accepted]

/-- A refused one has none. -/
theorem fold_refused (refused : step.accepted = false) :
    fold effect start (trace ++ [step]) = fold effect start trace := by
  unfold fold
  rw [List.foldl_append, List.foldl_cons, List.foldl_nil, refused]
  rfl

/-- One trace after another. -/
theorem fold_append (later : List Step) :
    fold effect start (trace ++ later) = fold effect (fold effect start trace) later := by
  unfold fold
  exact List.foldl_append

end Step

/-- A revocation wraps the content key for the password it is given. -/
def Step.setsPassword (step : Step) (current : String) : String :=
  match step.op with
  | .revokeAccess _ password => password
  | _ => current

/-- A revocation swaps in the content key it draws. -/
def Step.setsKey (step : Step) (current : MasterKey) : MasterKey :=
  match step.op with
  | .revokeAccess _ _ => step.draws.dek
  | _ => current

/-- A grant adds a peer, a revocation drops the peers with its signing key. -/
def Step.setsGranted (step : Step) (current : List PeerId) : List PeerId :=
  match step.op with
  | .grantAccess peer => peer :: current
  | .revokeAccess signingPubkey _ => current.filter fun peer => peer.signingPublic ≠ signingPubkey
  | _ => current

/-- The content of each name. -/
abbrev Catalog := String → Option Bytes

/-- A file operation maps its name to new content, or to nothing. -/
def Step.setsCatalog (step : Step) (current : Catalog) : Catalog :=
  match step.op with
  | .addFile name data | .updateFile name data => Function.update current name (some data)
  | .deleteFile name => Function.update current name none
  | _ => current

/-- The password the content key is wrapped for. -/
def passwordAfter (password : String) (trace : List Step) : String :=
  Step.fold Step.setsPassword password trace

/-- The content key in use. -/
def keyAfter (key : MasterKey) (trace : List Step) : MasterKey := Step.fold Step.setsKey key trace

/-- The peers granted and not since revoked. -/
def grantedAfter (trace : List Step) : List PeerId := Step.fold Step.setsGranted [] trace

/-- The files added and not since deleted, with their last content. -/
def catalogAfter (trace : List Step) : Catalog := Step.fold Step.setsCatalog (fun _ => none) trace

/-- The stored files are those of a catalog. -/
def Files.Shows (files : Files) (catalog : Catalog) : Prop :=
  ∀ name data, catalog name = some data ↔
    ∃ idx file, files.Present name idx file ∧ file.data = data

namespace Files.Shows

variable {files : Files} {catalog : Catalog} (shows : files.Shows catalog) {name : String}
  {idx : Nat} (only : ∀ idx' file', files.Present name idx' file' → idx' = idx)

include shows only

/-- Storing a file under its name, in its slot or in a free one. -/
theorem put (slot : ∀ old, files idx = some old → old.entry.name = name) {file : StoredFile}
    (named : file.entry.name = name) :
    Files.Shows (Function.update files idx (some file))
      (Function.update catalog name (some file.data)) := by
  intro other data
  by_cases same : other = name
  · rw [same, Function.update_self]
    constructor
    · rintro ⟨⟩
      exact ⟨idx, file, ⟨Function.update_self .., named⟩, rfl⟩
    · rintro ⟨idx', file', ⟨found, named'⟩, rfl⟩
      by_cases here : idx' = idx
      · rw [here, Function.update_self] at found
        cases found
        rfl
      · rw [Function.update_of_ne here] at found
        exact absurd (only idx' file' ⟨found, named'⟩) here
  · rw [Function.update_of_ne same, shows other data]
    constructor
    · rintro ⟨idx', file', ⟨found, named'⟩, rfl⟩
      have elsewhere : idx' ≠ idx := by
        rintro rfl
        exact same (named'.symm.trans (slot file' found))
      exact ⟨idx', file', ⟨by rw [Function.update_of_ne elsewhere]; exact found, named'⟩, rfl⟩
    · rintro ⟨idx', file', ⟨found, named'⟩, rfl⟩
      have elsewhere : idx' ≠ idx := by
        rintro rfl
        rw [Function.update_self] at found
        cases found
        exact same (named'.symm.trans named)
      rw [Function.update_of_ne elsewhere] at found
      exact ⟨idx', file', ⟨found, named'⟩, rfl⟩

/-- Dropping the file of a name. -/
theorem drop {old : StoredFile} (present : files.Present name idx old) :
    Files.Shows (Function.update files idx none) (Function.update catalog name none) := by
  intro other data
  by_cases same : other = name
  · rw [same, Function.update_self]
    constructor
    · intro impossible
      cases impossible
    · rintro ⟨idx', file', ⟨found, named'⟩, _⟩
      by_cases here : idx' = idx
      · rw [here, Function.update_self] at found
        cases found
      · rw [Function.update_of_ne here] at found
        exact absurd (only idx' file' ⟨found, named'⟩) here
  · rw [Function.update_of_ne same, shows other data]
    constructor
    · rintro ⟨idx', file', ⟨found, named'⟩, rfl⟩
      have elsewhere : idx' ≠ idx := by
        rintro rfl
        rw [present.1] at found
        cases found
        exact same (named'.symm.trans present.2)
      exact ⟨idx', file', ⟨by rw [Function.update_of_ne elsewhere]; exact found, named'⟩, rfl⟩
    · rintro ⟨idx', file', ⟨found, named'⟩, rfl⟩
      by_cases here : idx' = idx
      · rw [here, Function.update_self] at found
        cases found
      · rw [Function.update_of_ne here] at found
        exact ⟨idx', file', ⟨found, named'⟩, rfl⟩

end Files.Shows

variable [Primitives]

/-! ## Runs -/

/-- A step from one vault to the next: the operation is accepted, or refused by a check.
A failure of the environment is not a step. -/
def Takes (password : String) (trace : List Step) (v : Vault) (step : Step) (v' : Vault) : Prop :=
  match step.op.exec (passwordAfter password trace) step.draws v with
  | .ok _ reached => step.accepted = true ∧ v' = reached
  | .error fault reached => step.accepted = false ∧ fault.refusal = true ∧ v' = reached

section

variable {password : String} {trace : List Step} {v v' : Vault} {op : Op} {draws : Draws}

/-- A step that was accepted. -/
theorem Takes.of_ok (ran : op.exec (passwordAfter password trace) draws v = .ok () v') :
    Takes password trace v ⟨op, draws, true⟩ v' := by
  unfold Takes
  rw [ran]
  exact ⟨rfl, rfl⟩

/-- A step that was refused. -/
theorem Takes.of_error {fault : Fault}
    (ran : op.exec (passwordAfter password trace) draws v = .error fault v')
    (refusal : fault.refusal = true) : Takes password trace v ⟨op, draws, false⟩ v' := by
  unfold Takes
  rw [ran]
  exact ⟨rfl, refusal, rfl⟩

end

/-- The runs from a container created with a password. -/
abbrev Run (password : String) (origin : Vault) : List Step → Vault → Prop :=
  Runs (Takes password) origin

/-- An accepted step keeps the keyring, up to the password and the peers it sets. -/
theorem Took.keyring (step : Step) {v v' : Vault} {d d' : Disk} {files files' : Files}
    {current : String} {granted : List PeerId}
    (took : Took step.draws v d files step.op v' d' files')
    (keyring : Keyring v d current granted) :
    Keyring v' d' (step.setsPassword current) (step.setsGranted granted) := by
  have shape := took.sameShape
  unfold Step.setsPassword Step.setsGranted
  generalize step.op = op at took
  cases took with
  | added _ _ _ stores => exact keyring.frame shape stores.keepsKeys
  | updated _ _ _ _ stores => exact keyring.frame shape stores.keepsKeys
  | deleted _ _ deletes => exact keyring.frame shape deletes.keepsKeys
  | granted _ fresh inTable vacant grants => exact keyring.grant inTable vacant fresh grants
  | revoked _ occupies signer revokes =>
      rw [← signer]
      exact keyring.revoke occupies revokes
  | readFile name => exact keyring
  | listFiles => exact keyring
  | takeChangeLog => exact keyring.frame shape ⟨rfl, rfl, rfl⟩
  | reopened identity => exact keyring.frame shape ⟨rfl, rfl, rfl⟩

/-- A vault that holds what its trace says. -/
structure Healthy (password : String) (origin : Vault) (trace : List Step) (v : Vault) (d : Disk)
    (files : Files) : Prop where
  sound : Sound v d files
  shape : SameShape origin.header v.header
  keyring : Keyring v d (passwordAfter password trace) (grantedAfter trace)
  shown : files.Shows (catalogAfter trace)
  named : ∀ name data, catalogAfter trace name = some data → 1 ≤ (utf8 name).length
  key : v.key = keyAfter origin.key trace
  admin : ∀ identity, v.adminIdentity = some identity →
    identity.peerId.signingPublic = v.header.adminSigningPubkey

namespace Healthy

variable {password : String} {origin v v' : Vault} {trace : List Step} {d d' : Disk}
  {files files' : Files} {step : Step}

/-- A refused step changes nothing. -/
theorem refused (healthy : Healthy password origin trace v d files)
    (refused : step.accepted = false) : Healthy password origin (trace ++ [step]) v d files where
  sound := healthy.sound
  shape := healthy.shape
  keyring := by
    unfold passwordAfter grantedAfter
    rw [Step.fold_refused _ _ _ refused, Step.fold_refused _ _ _ refused]
    exact healthy.keyring
  shown := by
    unfold catalogAfter
    rw [Step.fold_refused _ _ _ refused]
    exact healthy.shown
  named := by
    unfold catalogAfter
    rw [Step.fold_refused _ _ _ refused]
    exact healthy.named
  key := by
    unfold keyAfter
    rw [Step.fold_refused _ _ _ refused]
    exact healthy.key
  admin := healthy.admin

/-- The slot of a present name is the only one with it. -/
theorem only (healthy : Healthy password origin trace v d files) {name : String} {idx : Nat}
    {file : StoredFile} (present : files.Present name idx file) (idx' : Nat) (file' : StoredFile)
    (present' : files.Present name idx' file') : idx' = idx :=
  healthy.sound.named idx' idx file' file present'.1 present.1
    (present'.2.trans present.2.symm)

/-- The keyring after an accepted step. -/
private theorem accepted_keyring (healthy : Healthy password origin trace v d files)
    (took : Took step.draws v d files step.op v' d' files') :
    Keyring v' d' (step.setsPassword (passwordAfter password trace))
      (step.setsGranted (grantedAfter trace)) := took.keyring step healthy.keyring

/-- The catalog after it. -/
private theorem accepted_shows (healthy : Healthy password origin trace v d files)
    (took : Took step.draws v d files step.op v' d' files') :
    files'.Shows (step.setsCatalog (catalogAfter trace)) := by
  unfold Step.setsCatalog
  generalize step.op = op at took
  cases took with
  | added _ can vacant stores =>
      refine healthy.shown.put ?_ ?_ rfl
      · exact fun idx' file' present => absurd present.2 (can.absent idx' file' present.1)
      · intro old found
        rw [vacant] at found
        cases found
  | updated _ present _ _ stores =>
      refine healthy.shown.put (healthy.only present) ?_ rfl
      intro old found
      rw [present.1] at found
      cases found
      exact present.2
  | deleted _ present deletes => exact healthy.shown.drop (healthy.only present) present
  | granted _ _ _ _ _ => exact healthy.shown
  | revoked _ _ _ _ => exact healthy.shown
  | readFile name => exact healthy.shown
  | listFiles => exact healthy.shown
  | takeChangeLog => exact healthy.shown
  | reopened identity => exact healthy.shown

/-- No name becomes empty by it. -/
private theorem accepted_named (healthy : Healthy password origin trace v d files)
    (took : Took step.draws v d files step.op v' d' files') :
    ∀ name data, step.setsCatalog (catalogAfter trace) name = some data →
      1 ≤ (utf8 name).length := by
  have updated : ∀ (name : String) (slot : Option Bytes), 1 ≤ (utf8 name).length →
      ∀ other data, Function.update (catalogAfter trace) name slot other = some data →
        1 ≤ (utf8 other).length := by
    intro name slot long other data held
    by_cases same : other = name
    · rw [same]
      exact long
    · rw [Function.update_of_ne same] at held
      exact healthy.named other data held
  have known : ∀ {name : String} {idx : Nat} {file : StoredFile},
      files.Present name idx file → 1 ≤ (utf8 name).length := fun {name idx file} present =>
    healthy.named name file.data ((healthy.shown name file.data).mpr ⟨idx, file, present, rfl⟩)
  unfold Step.setsCatalog
  generalize step.op = op at took
  cases took with
  | added _ can _ _ => exact updated _ _ can.named.1
  | updated _ present _ _ _ => exact updated _ _ (known present)
  | deleted _ present _ => exact updated _ _ (known present)
  | _ => exact healthy.named

/-- The key after it. -/
private theorem accepted_key (healthy : Healthy password origin trace v d files)
    (took : Took step.draws v d files step.op v' d' files') :
    v'.key = step.setsKey (keyAfter origin.key trace) := by
  rw [← healthy.key]
  unfold Step.setsKey
  generalize step.op = op at took
  cases took with
  | added _ _ _ stores => exact stores.keepsKeys.key
  | updated _ _ _ _ stores => exact stores.keepsKeys.key
  | deleted _ _ deletes => exact deletes.keepsKeys.key
  | granted _ _ _ _ grants => exact grants.key
  | revoked _ _ _ revokes => exact revokes.key
  | readFile name => rfl
  | listFiles => rfl
  | takeChangeLog => rfl
  | reopened identity => rfl

/-- An accepted step leads to the vault its trace says. -/
theorem accepted (healthy : Healthy password origin trace v d files)
    (accepted : step.accepted = true) (took : Took step.draws v d files step.op v' d' files') :
    Healthy password origin (trace ++ [step]) v' d' files' where
  sound := took.sound healthy.sound
  shape := healthy.shape.trans took.sameShape
  keyring := by
    unfold passwordAfter grantedAfter
    rw [Step.fold_accepted _ _ _ accepted, Step.fold_accepted _ _ _ accepted]
    exact healthy.accepted_keyring took
  shown := by
    unfold catalogAfter
    rw [Step.fold_accepted _ _ _ accepted]
    exact healthy.accepted_shows took
  named := by
    unfold catalogAfter
    rw [Step.fold_accepted _ _ _ accepted]
    exact healthy.accepted_named took
  key := by
    unfold keyAfter
    rw [Step.fold_accepted _ _ _ accepted]
    exact healthy.accepted_key took
  admin := took.admin healthy.admin

/-- A new vault holds what the empty trace says. -/
theorem created {name description : String} {capacityBytes : UInt64} {admin : Identity}
    {draws : Draws}
    (created : Vault.Created origin name description capacityBytes password admin draws) :
    Healthy password origin [] origin (Vault.emptyDisk origin.header
      (Vault.genesisRecord name description capacityBytes admin draws)) fun _ => none where
  sound := created.sound
  shape := SameShape.refl _
  keyring := created.keyring
  shown := by
    intro name data
    constructor
    · intro impossible
      cases impossible
    · rintro ⟨idx, file, ⟨found, _⟩, _⟩
      cases found
  named := by
    intro name data impossible
    cases impossible
  key := rfl
  admin := by
    obtain ⟨slot, header⟩ := created.header
    intro identity held
    rw [created.adminIdentity] at held
    cases held
    rw [header]
    rfl

/-- A step from a healthy vault is refused and changes nothing, or does what it is for. -/
theorem step_cases [Lawful] (healthy : Healthy password origin trace v d files)
    (taken : Takes password trace v step v') :
    (step.accepted = false ∧ v' = v) ∨
    (step.accepted = true ∧ ∃ d' files', Took step.draws v d files step.op v' d' files') := by
  have outcome := step.op.exec_yields healthy.sound healthy.keyring.password step.draws
  unfold Yields at outcome
  unfold Takes at taken
  split at taken
  · rename_i reached ran
    rw [ran] at outcome
    obtain ⟨accepted, rfl⟩ := taken
    exact Or.inr ⟨accepted, outcome⟩
  · rename_i fault reached ran
    rw [ran] at outcome
    obtain ⟨refused, refusal, rfl⟩ := taken
    exact Or.inl ⟨refused, outcome refusal⟩

end Healthy

namespace Run

variable [Lawful] {password : String} {origin v : Vault} {trace : List Step}
  {name description : String} {capacityBytes : UInt64} {admin : Identity} {draws : Draws}

/-- **Run rule.** A relation that the new vault satisfies, that a refused step cannot
break and that every accepted step of an allowed kind keeps, holds of every vault that a
run of such steps reaches. -/
theorem invariant_where {allowed : Vault → Step → Prop}
    (created : Vault.create name description capacityBytes password admin draws = .ok origin)
    (run : Runs (fun trace v step v' => Takes password trace v step v' ∧
      (step.accepted = true → allowed v step)) origin trace v)
    (holds : List Step → Vault → Disk → Files → Prop)
    (start : holds [] origin (Vault.emptyDisk origin.header
      (Vault.genesisRecord name description capacityBytes admin draws)) fun _ => none)
    (refused : ∀ trace v d files step, step.accepted = false → holds trace v d files →
      holds (trace ++ [step]) v d files)
    (accepted : ∀ trace v d files step v' d' files', step.accepted = true → allowed v step →
      Healthy password origin trace v d files → Took step.draws v d files step.op v' d' files' →
      holds trace v d files → holds (trace ++ [step]) v' d' files') :
    ∃ d files, Healthy password origin trace v d files ∧ holds trace v d files := by
  suffices ghosted : ∃ ghost : Disk × Files, Healthy password origin trace v ghost.1 ghost.2 ∧
      holds trace v ghost.1 ghost.2 by
    obtain ⟨⟨d, files⟩, both⟩ := ghosted
    exact ⟨d, files, both⟩
  refine run.ghost (fun trace v (ghost : Disk × Files) =>
    Healthy password origin trace v ghost.1 ghost.2 ∧ holds trace v ghost.1 ghost.2)
    ⟨⟨_, _⟩, Healthy.created (Vault.create_spec created), start⟩ ?_
  rintro trace v step v' ⟨d, files⟩ ⟨healthy, held⟩ ⟨taken, kind⟩
  rcases healthy.step_cases taken with ⟨wasRefused, rfl⟩ | ⟨wasAccepted, d', files', took⟩
  · exact ⟨⟨d, files⟩, healthy.refused wasRefused, refused _ _ _ _ _ wasRefused held⟩
  · exact ⟨⟨d', files'⟩, healthy.accepted wasAccepted took,
      accepted _ _ _ _ _ _ _ _ wasAccepted (kind wasAccepted) healthy took held⟩

/-- The run rule for steps of any kind. -/
theorem invariant
    (created : Vault.create name description capacityBytes password admin draws = .ok origin)
    (run : Run password origin trace v)
    (holds : List Step → Vault → Disk → Files → Prop)
    (start : holds [] origin (Vault.emptyDisk origin.header
      (Vault.genesisRecord name description capacityBytes admin draws)) fun _ => none)
    (refused : ∀ trace v d files step, step.accepted = false → holds trace v d files →
      holds (trace ++ [step]) v d files)
    (accepted : ∀ trace v d files step v' d' files', step.accepted = true →
      Healthy password origin trace v d files → Took step.draws v d files step.op v' d' files' →
      holds trace v d files → holds (trace ++ [step]) v' d' files') :
    ∃ d files, Healthy password origin trace v d files ∧ holds trace v d files :=
  invariant_where created (show Runs (fun trace v step v' => Takes password trace v step v' ∧
      (step.accepted = true → True)) origin trace v from
    run.mono fun _ _ _ _ taken => ⟨taken, fun _ => trivial⟩) holds start refused
    fun _ _ _ _ _ _ _ _ wasAccepted _ => accepted _ _ _ _ _ _ _ _ wasAccepted

/-- Every vault a run reaches holds what its trace says. -/
theorem healthy
    (created : Vault.create name description capacityBytes password admin draws = .ok origin)
    (run : Run password origin trace v) :
    ∃ d files, Healthy password origin trace v d files := by
  obtain ⟨d, files, healthy, _⟩ := run.invariant created (fun _ _ _ _ => True) trivial
    (fun _ _ _ _ _ _ => id) (fun _ _ _ _ _ _ _ _ _ _ _ => id)
  exact ⟨d, files, healthy⟩

/-- The handle that an accepted mutation leaves is the admin's. -/
theorem isAdmin {step : Step}
    (created : Vault.create name description capacityBytes password admin draws = .ok origin)
    (run : Run password origin (trace ++ [step]) v) (accepted : step.accepted = true)
    (mutates : step.op.mutates = true) : v.isAdmin = true := by
  obtain ⟨before, earlier, taken⟩ := run.exists_last
  obtain ⟨d, files, healthy⟩ := Run.healthy created earlier
  rcases healthy.step_cases taken with ⟨refused, _⟩ | ⟨_, d', files', took⟩
  · rw [accepted] at refused
    cases refused
  · obtain ⟨identity, _, _, _, _, authorized, commits⟩ := took.commits mutates
    exact congrArg Option.isSome (commits.adminIdentity.trans authorized)

omit [Lawful] in
/-- An operation that succeeds is an accepted step. -/
theorem accept (run : Run password origin trace v) {op : Op} {draws : Draws} {v' : Vault}
    (ran : op.exec (passwordAfter password trace) draws v = .ok () v') :
    Run password origin (trace ++ [⟨op, draws, true⟩]) v' := run.snoc (Takes.of_ok ran)

end Run

end ReVault
