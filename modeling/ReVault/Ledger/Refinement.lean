import ReVault.Ledger.Outcomes

/-!
# A vault is its ledger

Along every run the vault shows the ledger of its trace: the listing with its times and in
the order of the slots, the contents, the peers and the space in use. What the admin's
handle answers to the next operation is what this ledger says, error for error.
-/

namespace ReVault

open Foundation Primitives

/-- The ledger that the accepted steps of a trace lead to, from a new container. -/
def ledgerAfter (h : Header) (trace : List Step) : Ledger :=
  Step.fold Step.setsLedger
    (Ledger.empty h.blockCount.toNat h.maxFiles.toNat h.maxRecipients.toNat) trace

section

variable (h : Header) (trace : List Step) {step : Step}

/-- An accepted operation changes the ledger. -/
theorem ledgerAfter_accepted (accepted : step.accepted = true) :
    ledgerAfter h (trace ++ [step]) = step.setsLedger (ledgerAfter h trace) :=
  Step.fold_accepted _ _ _ accepted

/-- A refused one does not. -/
theorem ledgerAfter_refused (refused : step.accepted = false) :
    ledgerAfter h (trace ++ [step]) = ledgerAfter h trace := Step.fold_refused _ _ _ refused

end

/-- An operation that is not the admin's leaves the ledger as it is. -/
theorem Step.setsLedger_of_reads {step : Step} (reads : step.op.mutates = false)
    (ledger : Ledger) : step.setsLedger ledger = ledger := by
  rw [Step.setsLedger]
  cases held : step.op with
  | readFile name =>
      simp only [Ledger.apply]
      cases ledger.readFile name <;> rfl
  | listFiles => rfl
  | takeChangeLog => rfl
  | reopen identity => rfl
  | _ => simp [held, Op.mutates] at reads

section

variable [Primitives]

/-- What a handle shows of a ledger. -/
structure Vault.Shows (v : Vault) (ledger : Ledger) : Prop where
  lists : v.listFiles = .ok ledger.listFiles
  reads : ∀ name, v.readFile name = checked (ledger.readFile name)
  recipients : ∃ infos, v.listRecipients = .ok infos ∧
    infos.map (fun info => info.peerId) = ledger.listRecipients
  used : v.usedBytes.toNat = defaultBlockSize.toNat * ledger.used
  left : ledger.used + v.allocator.freeCount = ledger.blockCount

section Sound

variable {v : Vault} {d : Disk} {files : Files} {ledger : Ledger} (sound : Sound v d files)
  (of : ledger.Of v.header d files)

include sound of

/-- The files are listed as in the ledger. -/
theorem Sound.listFiles_shows : v.listFiles = .ok ledger.listFiles := by
  rw [sound.listFiles_eq, Ledger.listFiles, of.files, Slots.values_tabulate, List.map_filterMap]
  congr 1
  apply List.filterMap_congr
  intro idx _
  cases found : files idx with
  | none => rfl
  | some file =>
      simp [StoredFile.record, StoredFile.info, FileRecord.info,
        ← (sound.stored idx file found).size]

/-- They are read as in the ledger. -/
theorem Sound.readFile_shows [Lawful] (name : String) :
    v.readFile name = checked (ledger.readFile name) := by
  rcases files.absent_or_present name with absent | ⟨idx, file, present⟩
  · rw [sound.readFile_of_absent absent, Ledger.readFile, of.findFile_of_absent absent]
    rfl
  · rw [sound.readFile_of_present present, Ledger.readFile, sound.findFile_of_present of present]
    rfl

/-- The recipients are listed as in the ledger. -/
theorem Sound.listRecipients_shows : ∃ infos, v.listRecipients = .ok infos ∧
    infos.map (fun info => info.peerId) = ledger.listRecipients := by
  refine ⟨_, except_bind_of_ok (keepSlots_eq (Vault.readRecipients sound.tracks) _), ?_⟩
  rw [Ledger.listRecipients, of.peers, Slots.values_tabulate, List.map_map, List.map_map]
  change List.map (fun idx => (d.recipients idx).peer)
    ((List.range v.header.maxRecipients.toNat).filter _) = _
  rw [← List.filterMap_eq_map, List.filterMap_filter]
  apply List.filterMap_congr
  intro idx _
  simp [RecipientSlot.holder]

/-- A sound vault shows the ledger it keeps. -/
theorem Sound.shows [Lawful] (size : v.header.blockSize = defaultBlockSize) : v.Shows ledger where
  lists := sound.listFiles_shows of
  reads := sound.readFile_shows of
  recipients := sound.listRecipients_shows of
  used := by rw [sound.toNat_usedBytes.1, sound.used_eq_card of size, size]
  left := by
    have bounded := sound.toNat_usedBytes.2
    rw [sound.used_eq_card of size, BlockAllocator.freeCount_eq, of.stock, sound.counted]
    omega

end Sound

/-- A password that a revocation wrapped the key for derives a key. -/
theorem Took.derives [Lawful] {draws : Draws} {op : Op} {v v' : Vault} {d d' : Disk}
    {files files' : Files} (took : Took draws v d files op v' d' files')
    (signingPubkey : ByteArr 32) (password : String)
    (rotates : op = .revokeAccess signingPubkey password) :
    argon2id (utf8 password) v.header.salt v.header.argon2Params ≠ none := by
  subst rotates
  cases took with
  | revoked _ _ _ revokes =>
      obtain ⟨kek, _, derived, _⟩ := revokes.password
      have shape := revokes.commits.sameShape
      rw [SameShape] at shape
      rw [shape] at derived
      have derived' := MasterKey.derive_eq_ok_iff.mp derived
      intro fails
      simp [Header.argon2Params] at derived' fails
      rw [fails] at derived'
      cases derived'

/-- A step keeps the ledger, or changes it as the ledger says. -/
theorem Healthy.step_ledger [Lawful] {password : String} {origin v v' : Vault} {trace : List Step}
    {d : Disk} {files : Files} {step : Step} {ledger : Ledger}
    (healthy : Healthy password origin trace v d files) (of : ledger.Of v.header d files)
    (size : v.header.blockSize = defaultBlockSize) (fits : v.header.Fits)
    (taken : Takes password trace v step v') :
    ∃ d' files', Healthy password origin (trace ++ [step]) v' d' files' ∧
      (if step.accepted then step.setsLedger ledger else ledger).Of v'.header d' files' := by
  rcases healthy.step_cases taken with ⟨refused, rfl⟩ | ⟨accepted, d', files', took⟩
  · refine ⟨d, files, healthy.refused refused, ?_⟩
    simpa [refused] using of
  · rw [if_pos accepted]
    cases mutates : step.op.mutates with
    | false =>
        obtain ⟨_, header, rfl, rfl⟩ := took.container mutates
        refine ⟨d', files', healthy.accepted accepted took, ?_⟩
        rw [Step.setsLedger_of_reads mutates, header]
        exact of
    | true =>
        obtain ⟨admin, _, _, _, _, authorized, _⟩ := took.commits mutates
        have follows : Vault.Follows _ step.draws v d files _ step.op :=
          healthy.sound.follows of authorized size fits healthy.keyring step.op
            fun signingPubkey password' rotates => took.derives signingPubkey password' rotates
        rw [Takes] at taken
        rw [Vault.Follows] at follows
        rw [Step.setsLedger]
        cases applied : ledger.apply step.op step.draws with
        | error error =>
            rw [applied] at follows
            rw [follows] at taken
            rw [taken.1] at accepted
            cases accepted
        | ok next =>
            rw [applied] at follows
            obtain ⟨reached, d'', files'', ran, took', next'⟩ := follows
            rw [ran] at taken
            obtain ⟨_, rfl⟩ := taken
            exact ⟨d'', files'', healthy.accepted accepted took', next'⟩

namespace Run

variable [Lawful] {password : String} {origin v : Vault} {trace : List Step}
  {name description : String} {capacityBytes : UInt64} {admin : Identity} {draws : Draws}
  (created : Vault.create name description capacityBytes password admin draws = .ok origin)

include created

/-- The blocks of a created container have 4096 bytes. -/
theorem blockSize_eq {h : Header} (shape : SameShape origin.header h) :
    h.blockSize = defaultBlockSize := by
  obtain ⟨slot, header⟩ := (Vault.create_spec created).header
  rw [SameShape] at shape
  rw [shape, header]
  rfl

/-- Every vault of a run keeps the ledger of its trace. -/
theorem keeps_ledger (sized : origin.header.Sized) (run : Run password origin trace v) :
    ∃ d files, Healthy password origin trace v d files ∧
      (ledgerAfter origin.header trace).Of v.header d files := by
  have spec := Vault.create_spec created
  have kept : ∃ ghost : Disk × Files, Healthy password origin trace v ghost.1 ghost.2 ∧
      (ledgerAfter origin.header trace).Of v.header ghost.1 ghost.2 := by
    apply run.ghost (fun trace v (ghost : Disk × Files) =>
      Healthy password origin trace v ghost.1 ghost.2 ∧
        (ledgerAfter origin.header trace).Of v.header ghost.1 ghost.2)
    · refine ⟨⟨_, _⟩, Healthy.created spec, rfl, rfl, ?_⟩
      simp [ledgerAfter, Step.fold, Ledger.empty]
    · rintro trace v step v' ⟨d, files⟩ ⟨healthy, of⟩ taken
      obtain ⟨d', files', healthy', of'⟩ := healthy.step_ledger of
        (blockSize_eq created healthy.shape)
        (healthy.shape.fits (Vault.fits_of_sized spec.sized sized)) taken
      refine ⟨⟨d', files'⟩, healthy', ?_⟩
      cases accepted : step.accepted with
      | true =>
          rw [ledgerAfter_accepted _ _ accepted]
          simpa [accepted] using of'
      | false =>
          rw [ledgerAfter_refused _ _ accepted]
          simpa [accepted] using of'
  obtain ⟨⟨d, files⟩, both⟩ := kept
  exact ⟨d, files, both⟩

/-- A container has as many whole blocks as its capacity. -/
theorem blockCount_eq : origin.header.blockCount.toNat = capacityBytes.toNat / 4096 := by
  obtain ⟨slot, header⟩ := (Vault.create_spec created).header
  rw [header]
  exact UInt64.toNat_div capacityBytes defaultBlockSize.toUInt64

/-- **Outcomes.** On the admin's handle an operation succeeds exactly when the ledger of the
trace allows it, and then shows the next ledger; otherwise it returns the ledger's error and
leaves the vault as it was. -/
theorem follows_ledger (sized : origin.header.Sized) (run : Run password origin trace v)
    (isAdmin : v.isAdmin = true) (op : Op) (draws' : Draws)
    (derives : ∀ signingPubkey password', op = .revokeAccess signingPubkey password' →
      argon2id (utf8 password') v.header.salt v.header.argon2Params ≠ none) :
    match (ledgerAfter origin.header trace).apply op draws' with
    | .ok next => ∃ v', op.exec (passwordAfter password trace) draws' v = .ok () v' ∧
        v'.Shows next
    | .error error =>
        op.exec (passwordAfter password trace) draws' v = .error (.error error) v := by
  obtain ⟨d, files, healthy, of⟩ := keeps_ledger created sized run
  obtain ⟨identity, authorized⟩ := Option.isSome_iff_exists.mp isAdmin
  have spec := Vault.create_spec created
  have follows : Vault.Follows _ draws' v d files _ op :=
    healthy.sound.follows of authorized (blockSize_eq created healthy.shape)
      (healthy.shape.fits (Vault.fits_of_sized spec.sized sized)) healthy.keyring op derives
  rw [Vault.Follows] at follows
  cases applied : (ledgerAfter origin.header trace).apply op draws' with
  | error error =>
      rw [applied] at follows
      exact follows
  | ok next =>
      rw [applied] at follows
      obtain ⟨v', d', files', ran, took, next'⟩ := follows
      refine ⟨v', ran, (took.sound healthy.sound).shows next' ?_⟩
      exact blockSize_eq created (healthy.shape.trans took.sameShape)

end Run

end

namespace Transparent

/-- Deleting that file comes to what the ledger says. -/
theorem follows_ledger_added : ∃ origin v,
    Vault.create "v" "" 65536 "p" (identity 1) (draws 1) = .ok origin ∧
    Run "p" origin [⟨.addFile "a" [1, 2, 3], draws 2, true⟩] v ∧
    match (ledgerAfter origin.header [⟨.addFile "a" [1, 2, 3], draws 2, true⟩]).apply
      (.deleteFile "a") (draws 3) with
    | .ok next => ∃ v', (Op.deleteFile "a").exec "p" (draws 3) v = .ok () v' ∧ v'.Shows next
    | .error error =>
        (Op.deleteFile "a").exec "p" (draws 3) v = .error (.error error) v := by
  obtain ⟨origin, v, created, sized, run⟩ := exists_added
  have isAdmin := Run.isAdmin created (show Run _ _ ([] ++ [_]) _ from run) rfl rfl
  exact ⟨origin, v, created, run, Run.follows_ledger created sized run isAdmin (.deleteFile "a")
    (draws 3) fun _ _ rotates => by cases rotates⟩

end Transparent

end ReVault
