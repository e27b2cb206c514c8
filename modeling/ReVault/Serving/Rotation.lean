import ReVault.Serving.Console
import ReVault.Serving.Unlocked

/-!
# Key rotation while serving

A revocation draws a new content key, and a handle that applies a patch keeps its key, so
a peer behind a rotation has to be sent the whole container. A console session never rotates
the key. An unlocked vault does not clear its journal when it does.
-/

namespace ReVault

open Foundation Primitives

/-- The chain of a run holds the record of a key rotation under this sequence number. -/
def RotatedAt (trace : List Step) (seq : UInt64) : Prop :=
  ∃ position, (chainOpsAfter trace)[position]? = some .keyRotated ∧
    UInt64.ofNat position = seq

/-- Steps that keep the key leave no record of a rotation. -/
theorem rotation_lt_of_keeps {trace later : List Step} {position : Nat}
    (keeps : ∀ step ∈ later, step.op.rotates = false)
    (rotated : (chainOpsAfter (trace ++ later))[position]? = some .keyRotated) :
    position < recordsAfter trace := by
  induction later using List.reverseRecOn with
  | nil =>
      rw [List.append_nil] at rotated
      rw [← length_chainOpsAfter]
      exact (List.getElem?_eq_some_iff.mp rotated).1
  | append_singleton later step ih =>
      apply ih fun other member => keeps other (List.mem_append_left _ member)
      rw [← List.append_assoc, chainOpsAfter_concat] at rotated
      by_cases old : position < (chainOpsAfter (trace ++ later)).length
      · rwa [List.getElem?_append_left old] at rotated
      · have kept : step.op.chainOp ≠ some .keyRotated := by
          have quiet := keeps step (List.mem_append_right _ (List.mem_singleton.mpr rfl))
          exact of_decide_eq_false (by simpa [Op.rotates] using quiet)
        rw [List.getElem?_append_right (Nat.le_of_not_lt old)] at rotated
        have member := List.mem_of_getElem? rotated
        split at member
        · exact absurd (Option.mem_toList.mp member) kept
        · cases member

/-- Kinds of records stay where they are. -/
theorem chainOpsAfter_getElem? {earlier trace : List Step} {position : Nat} {op : ChainOp}
    (isPrefix : earlier <+: trace) (held : (chainOpsAfter earlier)[position]? = some op) :
    (chainOpsAfter trace)[position]? = some op := by
  induction trace using List.reverseRecOn with
  | nil =>
      rw [List.prefix_nil.mp isPrefix] at held
      exact held
  | append_singleton trace step ih =>
      rcases List.prefix_concat_iff.mp isPrefix with rfl | shorter
      · exact held
      · rw [chainOpsAfter_concat]
        exact (List.getElem?_append_left
          (List.getElem?_eq_some_iff.mp (ih shorter)).1).trans (ih shorter)

section

variable [Primitives]

/-- A handle that shows a past container of a run and holds its content key. -/
def HoldsKey (password : String) (origin : Vault) (trace : List Step) (replica : Vault) : Prop :=
  ∃ earlier v, earlier <+: trace ∧ Run password origin earlier v ∧
    replica.file = v.file ∧ replica.header = v.header ∧ replica.key = v.key

/-- Peers at a rotation or before it are sent the whole container, and no patch leaves a
handle without the key of the container that it then shows. -/
structure ForcesFullSync (password : String) (origin : Vault) (trace : List Step) (v : Vault)
    (sends : PeerId → UInt64 → SyncMessage → Prop) : Prop where
  full : ∀ peer ∈ grantedAfter trace, ∀ seq, RotatedAt trace seq → ∀ nextSeq ≤ seq,
    sends peer nextSeq (.fullSync v.file)
  keyed : ∀ peer ∈ grantedAfter trace, ∀ replica, HoldsKey password origin trace replica →
    ∀ seq ranges replica', sends peer replica.chainState.1 (.patch seq ranges) →
      Vault.applyRemotePatch ranges replica = .ok () replica' →
      HoldsKey password origin trace replica'

variable [Lawful] {password : String} {origin v w : Vault} {trace earlier : List Step}
  {name description : String} {capacityBytes : UInt64} {admin : Identity} {draws : Draws}

namespace Run

/-- The sequence numbers of rotations are those of the key rotation records of the chain. -/
theorem rotatedAt_iff
    (created : Vault.create name description capacityBytes password admin draws = .ok origin)
    (run : Run password origin trace v) : ∃ d files history,
      Healthy password origin trace v d files ∧ Ring v.header d history ∧
      ∀ seq, RotatedAt trace seq ↔ ∃ record ∈ history, record.op = .keyRotated ∧
        record.seq = seq := by
  obtain ⟨d, files, healthy, history, ring, ops⟩ := run.ring_ops created
  refine ⟨d, files, history, healthy, ring, fun seq => ?_⟩
  unfold RotatedAt
  rw [← ops]
  constructor
  · rintro ⟨position, rotated, rfl⟩
    rw [List.getElem?_map] at rotated
    obtain ⟨record, held, isRotation⟩ := Option.map_eq_some_iff.mp rotated
    exact ⟨record, List.mem_of_getElem? held, isRotation, ring.chained.seq position record held⟩
  · rintro ⟨record, member, isRotation, rfl⟩
    obtain ⟨position, held⟩ := List.mem_iff_getElem?.mp member
    refine ⟨position, ?_, (ring.chained.seq position record held).symm⟩
    rw [List.getElem?_map, held, Option.map_some, isRotation]

/-- Without a rotation after it, a past state has the present content key. -/
theorem key_eq_of_unrotated
    (created : Vault.create name description capacityBytes password admin draws = .ok origin)
    (reached : Run password origin earlier w) (isPrefix : earlier <+: trace)
    (run : Run password origin trace v)
    (unrotated : ∀ position, (chainOpsAfter trace)[position]? = some .keyRotated →
      position < recordsAfter earlier) : w.key = v.key := by
  induction run with
  | nil =>
      rw [List.prefix_nil.mp isPrefix] at reached
      rw [reached.eq_start]
  | @snoc trace v v' step run taken ih =>
      have whole : Run password origin (trace ++ [step]) v' := run.snoc taken
      rcases List.prefix_concat_iff.mp isPrefix with rfl | shorter
      · rw [reached.unique whole]
      · have kept := ih shorter fun position rotated =>
          unrotated position (chainOpsAfter_getElem? (List.prefix_append _ _) rotated)
        obtain ⟨d, files, healthy⟩ := Run.healthy created run
        obtain ⟨d', files', healthy'⟩ := whole.healthy created
        rw [kept, healthy.key, healthy'.key]
        unfold keyAfter
        cases accepted : step.accepted with
        | false => rw [Step.fold_refused _ _ _ accepted]
        | true =>
            rw [Step.fold_accepted _ _ _ accepted]
            cases opIs : step.op with
            | revokeAccess signingPubkey password' =>
                -- the record of this step would be a rotation after the past state
                have last : (chainOpsAfter (trace ++ [step]))[recordsAfter trace]? =
                    some .keyRotated := by
                  rw [chainOpsAfter_concat, accepted, opIs, ← length_chainOpsAfter]
                  exact List.getElem?_concat_length
                have bound := unrotated _ last
                have more := recordsAfter_isPrefix shorter
                omega
            | _ => simp only [Step.setsKey, opIs]

omit [Primitives] [Lawful] in
/-- Before the sequence numbers wrap, a rotation has its position as sequence number. -/
theorem exists_rotation {seq : UInt64} (short : recordsAfter trace < 2 ^ 64)
    (rotated : RotatedAt trace seq) :
    (chainOpsAfter trace)[seq.toNat]? = some .keyRotated ∧ seq ≠ 0 := by
  obtain ⟨position, held, rfl⟩ := rotated
  have inside := (List.getElem?_eq_some_iff.mp held).1
  rw [length_chainOpsAfter] at inside
  have same : (UInt64.ofNat position).toNat = position := by
    rw [UInt64.toNat_ofNat', Nat.mod_eq_of_lt (inside.trans short)]
  refine ⟨by rw [same]; exact held, fun zero => ?_⟩
  rw [zero] at same
  rw [← same] at held
  have first : (chainOpsAfter trace)[0]? = some .vaultCreated :=
    chainOpsAfter_getElem? List.nil_prefix rfl
  rw [show (0 : UInt64).toNat = 0 from rfl, first] at held
  cases held

end Run

namespace Serving

variable {journal : PatchJournal} {sends : PeerId → UInt64 → SyncMessage → Prop}

/-- A patch for a handle that holds its key leaves it holding its key, when no rotation is
as new as the journal. -/
theorem holdsKey_of_patch
    (created : Vault.create name description capacityBytes password admin draws = .ok origin)
    (serving : Serving password origin trace v journal) (short : recordsAfter trace < 2 ^ 64)
    (newer : ∀ oldest, journal.entries.head? = some oldest → ∀ seq, RotatedAt trace seq →
      seq < oldest.1) {replica replica' : Vault} (holds : HoldsKey password origin trace replica)
    (covers : journal.Covers replica.chainState.1)
    (applied : Vault.applyRemotePatch
      (rangesFrom replica.chainState.1.toNat journal.entries) replica = .ok () replica') :
    HoldsKey password origin trace replica' := by
  obtain ⟨earlier, w, isPrefix, reached, file, header, key⟩ := holds
  have position : replica.chainState.1.toNat = recordsAfter earlier := by
    change replica.header.chainNextSeq.toNat = _
    rw [header]
    exact reached.chainNextSeq_eq created ((recordsAfter_isPrefix isPrefix).trans_lt short)
  have unrotated : ∀ at', recordsAfter earlier ≤ at' → ∀ position,
      (chainOpsAfter trace)[position]? = some .keyRotated → position < at' := by
    intro at' later position' held
    obtain ⟨_, oldest, isHead, reaches⟩ := covers
    have inside := (List.getElem?_eq_some_iff.mp held).1
    rw [length_chainOpsAfter] at inside
    have older := UInt64.lt_iff_toNat_lt.mp
      (newer oldest isHead (UInt64.ofNat position') ⟨position', held, rfl⟩)
    rw [UInt64.toNat_ofNat', Nat.mod_eq_of_lt (inside.trans short)] at older
    have bound := UInt64.le_iff_toNat_le.mp reaches
    omega
  have unchanged : replica'.key = v.key := by
    have kept := Vault.applyRemotePatch_key
      (rangesFrom replica.chainState.1.toNat journal.entries) replica
    rw [applied] at kept
    exact (kept.trans key).trans (Run.key_eq_of_unrotated created reached isPrefix serving.run
      (unrotated _ (Nat.le_refl _)))
  obtain ⟨run, mark, drained, journaled⟩ := serving
  have shown : Past password origin trace replica.chainState.1.toNat replica.file :=
    ⟨earlier, w, isPrefix, reached, position.symm, file.symm⟩
  obtain ⟨other, applied', ends⟩ := journaled.exists_caught
    (fun _ _ past => Run.loads_past created past) shown covers
  have loaded := (Vault.applied_eq (journaled.bounded_rangesFrom _) applied).2
  rw [applied] at applied'
  cases applied'
  -- the handle shows a container from its own position on
  have past : ∃ at', recordsAfter earlier ≤ at' ∧ Past password origin trace at' replica'.file := by
    rw [ends]
    split
    · rename_i behind
      exact ⟨mark, by omega, journaled.reached⟩
    · exact ⟨_, position.ge, shown⟩
  obtain ⟨at', later, now, u, isPrefix', reached', rfl, same⟩ := past
  obtain ⟨d, files, healthy⟩ := reached'.healthy created
  refine ⟨now, u, isPrefix', reached', same.symm, ?_, ?_⟩
  · exact (loaded.mirrors healthy.sound.loaded same.symm).header
  · rw [unchanged]
    exact (Run.key_eq_of_unrotated created reached' isPrefix' run (unrotated _ later)).symm

/-- **Rotations.** Every peer at a rotation or before it is sent the whole container exactly
when no rotation is as new as the oldest entry of the journal. -/
theorem forcesFullSync_iff
    (created : Vault.create name description capacityBytes password admin draws = .ok origin)
    (serving : Serving password origin trace v journal) (short : recordsAfter trace < 2 ^ 64)
    (sent : ∀ peer ∈ grantedAfter trace, ∀ nextSeq message,
      sends peer nextSeq message ↔ message = catchUp v (some journal) nextSeq) :
    ForcesFullSync password origin trace v sends ↔ grantedAfter trace = [] ∨
      ∀ oldest, journal.entries.head? = some oldest → ∀ seq, RotatedAt trace seq →
        seq < oldest.1 := by
  constructor
  · intro forces
    cases granted : grantedAfter trace with
    | nil => exact Or.inl rfl
    | cons peer others =>
        have member : peer ∈ grantedAfter trace := by
          rw [granted]
          exact List.mem_cons_self
        refine Or.inr fun oldest isHead seq rotated => UInt64.not_le.mp fun reaches => ?_
        have covers : journal.Covers seq :=
          ⟨(Run.exists_rotation short rotated).2, oldest, isHead, reaches⟩
        have full := (sent peer member seq _).mp
          (forces.full peer member seq rotated seq (UInt64.le_refl _))
        rw [catchUp_covered v covers] at full
        cases full
  · rintro (none | newer)
    · exact ⟨by simp [none], by simp [none]⟩
    · refine ⟨?_, ?_⟩
      · intro peer member seq rotated nextSeq behind
        rw [sent peer member, catchUp_uncovered v]
        rintro ⟨_, oldest, isHead, reaches⟩
        exact UInt64.not_lt.mpr (UInt64.le_trans reaches behind)
          (newer oldest isHead seq rotated)
      · intro peer member replica holds seq ranges replica' isPatch applied
        rw [sent peer member] at isPatch
        by_cases covers : journal.Covers replica.chainState.1
        · rw [catchUp_covered v covers] at isPatch
          cases isPatch
          exact serving.holdsKey_of_patch created short newer holds covers applied
        · rw [catchUp_uncovered v covers] at isPatch
          cases isPatch

end Serving

/-- A session that begins with an empty journal has no entries from before it. -/
theorem SessionRun.entries_ge {journal : PatchJournal} {capacity : Nat} {done : List Step}
    (created : Vault.create name description capacityBytes password admin draws = .ok origin)
    (run : Run password origin trace w)
    (session : SessionRun password trace w (PatchJournal.empty capacity) done v journal)
    (short : recordsAfter (trace ++ done) < 2 ^ 64) :
    Run password origin (trace ++ done) v ∧
      ∀ entry ∈ journal.entries, recordsAfter trace ≤ entry.1.toNat := by
  induction session with
  | nil =>
      rw [List.append_nil]
      exact ⟨run, fun _ member => absurd member List.not_mem_nil⟩
  | @snoc done steps before after journal journal' _ turn ih =>
      rw [← List.append_assoc] at short ⊢
      have earlier := (recordsAfter_isPrefix (List.prefix_append _ steps)).trans_lt short
      obtain ⟨reached, later⟩ := ih earlier
      refine ⟨turn.run reached, ?_⟩
      cases turn with
      | idle => exact later
      | restart capacity => exact fun _ member => absurd member List.not_mem_nil
      | advance taken kind => exact later
      | @publish step mutated taken changes _ _ =>
          rcases journal.record_entries before.chainState.1 mutated.takeChangeLog.1 with
            ⟨_, same⟩ | ⟨kept, suffix, entries⟩
          · rw [same]
            exact later
          · rw [entries]
            intro entry member
            rcases List.mem_append.mp member with old | new
            · exact later entry (suffix.mem old)
            · rw [List.mem_singleton.mp new]
              have numbered := Run.chainNextSeq_eq created reached earlier
              change _ ≤ before.header.chainNextSeq.toNat
              rw [numbered]
              exact recordsAfter_isPrefix (List.prefix_append _ _)

/-- **Rotations while serving.** In a console session every granted peer at a rotation or
before it is always sent the whole container. An unlocked vault does so exactly when no
rotation is as new as the oldest entry of its journal. -/
theorem rotation_forces_full_sync_iff {identity : Identity} {opening : Draws}
    (created : Vault.create name description capacityBytes password admin draws = .ok origin)
    (opened : Run password origin (trace ++ [⟨.reopen identity, opening, true⟩]) v) :
    (∀ capacity events s, Console.Serves ⟨v, PatchJournal.empty capacity⟩ events s →
      recordsAfter (trace ++ [⟨.reopen identity, opening, true⟩] ++ stepsOf events) < 2 ^ 64 →
      ForcesFullSync password origin
        (trace ++ [⟨.reopen identity, opening, true⟩] ++ stepsOf events) s.vault
        fun peer nextSeq message =>
          answer s.vault (some s.journal) peer nextSeq = .ok message) ∧
    ∀ events s journal, Unlocked.Serves ⟨v, none⟩ events s → s.network = some journal →
      recordsAfter (trace ++ [⟨.reopen identity, opening, true⟩] ++ stepsOf events) < 2 ^ 64 →
      (ForcesFullSync password origin
        (trace ++ [⟨.reopen identity, opening, true⟩] ++ stepsOf events) s.vault
        (fun peer nextSeq message =>
          pollNetwork s.vault journal peer nextSeq = .message message) ↔
      grantedAfter (trace ++ [⟨.reopen identity, opening, true⟩] ++ stepsOf events) = [] ∨
        ∀ oldest, journal.entries.head? = some oldest → ∀ seq,
          RotatedAt (trace ++ [⟨.reopen identity, opening, true⟩] ++ stepsOf events) seq →
            seq < oldest.1) := by
  have drained := opened.reopened_drained created
  constructor
  · intro capacity events s serves short
    obtain ⟨session, run, _⟩ := Console.Serves.session created opened drained serves
    have serving := (Serving.start created opened drained capacity).session created session short
    refine (serving.forcesFullSync_iff created short ?_).mpr (Or.inr ?_)
    · intro peer granted nextSeq message
      unfold answer
      rw [except_bind_of_ok ((run.isGranted_iff created peer).mpr granted), if_pos rfl,
        Except.ok.injEq, eq_comm]
    · intro oldest isHead seq rotated
      have keeps := serves.keeps
      have older := rotation_lt_of_keeps keeps (Run.exists_rotation short rotated).1
      have newer := (session.entries_ge created opened short).2 oldest
        (List.mem_of_mem_head? isHead)
      exact UInt64.lt_iff_toNat_lt.mpr (older.trans_le newer)
  · intro events s journal serves network short
    have serving := Unlocked.Serves.serving created opened drained serves short
    rw [network] at serving
    refine Serving.forcesFullSync_iff created serving short ?_
    intro peer granted nextSeq message
    unfold pollNetwork
    rw [(serving.run.isGranted_iff created peer).mpr granted]
    simp only [SyncResponse.message.injEq, eq_comm]

end

namespace Transparent

open Unlocked

/-- The second peer is revoked again. -/
def revoking : Event Act :=
  ⟨.revoke (identity 3).peerId "p" (draws 7),
    [⟨.revokeAccess (identity 3).peerId.signingPublic "p", draws 7, true⟩]⟩

/-- The key is rotated while the journal holds an update: a peer from before the rotation is
sent the patch of the update. -/
theorem patch_across_rotation : ∃ origin v s journal ranges,
    Vault.create "v" "" 65536 "p" (identity 1) (draws 1) = .ok origin ∧
    Run "p" origin (sharedTrace 0 ++ [opening]) v ∧
    Serves ⟨v, none⟩ [starting, rewriting, granting, revoking] s ∧ s.network = some journal ∧
    (identity 2).peerId ∈ grantedAfter
      (sharedTrace 0 ++ [opening] ++ stepsOf [starting, rewriting, granting, revoking]) ∧
    RotatedAt
      (sharedTrace 0 ++ [opening] ++ stepsOf [starting, rewriting, granting, revoking]) 5 ∧
    pollNetwork s.vault journal (identity 2).peerId 3 = .message (.patch 3 ranges) := by
  obtain ⟨origin, v, v₁, v₂, journal, created, opened, position, run₁, run₂, serves, ranges, rfl⟩ :=
    exists_granted_session
  have isAdmin := run₂.isAdmin created rfl rfl
  have present : ∃ peer ∈ grantedAfter (sharedTrace 0 ++ [opening] ++ updateSteps ++
      granting.steps), peer.signingPublic = (identity 3).peerId.signingPublic :=
    ⟨(identity 3).peerId, show _ ∈ [(identity 3).peerId, (identity 2).peerId] from
      List.mem_cons_self, rfl⟩
  obtain ⟨v₃, run₃⟩ := run₂.exists_revocation created isAdmin present
    (show MasterKey.derive (utf8 "p") _ _ = .ok (digest keyLen (utf8 "p")) from rfl) (draws 7)
  let journal := (PatchJournal.empty journalCapacity).record 3 ranges
  have handled : Handles revoking.act ⟨v₂, some journal⟩ revoking.steps ⟨v₃, some journal⟩ :=
    handles_access rfl rfl (run₂.exec_eq run₃)
  have granted : (identity 2).peerId ∈ grantedAfter (sharedTrace 0 ++ [opening] ++ updateSteps ++
      granting.steps ++ revoking.steps) :=
    show _ ∈ [(identity 2).peerId] from List.mem_singleton.mpr rfl
  have covers : journal.Covers 3 := ⟨by decide, (3, ranges), rfl, UInt64.le_refl _⟩
  refine ⟨origin, v, ⟨v₃, some journal⟩, journal, rangesFrom 3 journal.entries, created, opened,
    serves.snoc handled, rfl, granted, ⟨5, rfl, rfl⟩, ?_⟩
  rw [isGranted_sample created run₃ granted, catchUp_covered v₃ covers]
  rfl

/-- The condition in a session that rewrites a file. -/
theorem rotation_forces_full_sync_iff_rewritten : ∃ origin v s journal,
    Vault.create "v" "" 65536 "p" (identity 1) (draws 1) = .ok origin ∧
    Run "p" origin (sharedTrace 0 ++ [opening]) v ∧
    Serves ⟨v, none⟩ [starting, rewriting] s ∧ s.network = some journal ∧
    (ForcesFullSync "p" origin (sharedTrace 0 ++ [opening] ++ stepsOf [starting, rewriting])
      s.vault (fun peer nextSeq message =>
        pollNetwork s.vault journal peer nextSeq = .message message) ↔
    grantedAfter (sharedTrace 0 ++ [opening] ++ stepsOf [starting, rewriting]) = [] ∨
      ∀ oldest, journal.entries.head? = some oldest → ∀ seq,
        RotatedAt (sharedTrace 0 ++ [opening] ++ stepsOf [starting, rewriting]) seq →
          seq < oldest.1) := by
  obtain ⟨origin, v, v₁, created, opened, _, _, _, ranges, serves⟩ := exists_rewritten_session
  refine ⟨origin, v, _, _, created, opened, serves, rfl, ?_⟩
  exact (rotation_forces_full_sync_iff created opened).2 _ _ _ serves rfl (by decide)

end Transparent

end ReVault
