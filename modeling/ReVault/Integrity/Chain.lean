import ReVault.Foundation.Ring
import ReVault.Integrity.Verify
import ReVault.Runs.Refinement

/-!
# The chain of a run

A run writes a history of records, one for the creation and one for every accepted
mutation: numbered in order, signed by the admin, each linked to the one before. The
ring retains the last of them, so verification raises no false alarm for as long as the
sequence numbers do not wrap.
-/

namespace ReVault

open Foundation Primitives

/-- The number of records that a trace has written. -/
def recordsAfter (trace : List Step) : Nat :=
  Step.fold (fun step count => if step.op.mutates then count + 1 else count) 1 trace

/-- A mutation that was accepted. -/
def Step.Changes (step : Step) : Prop := step.accepted = true ∧ step.op.mutates = true

/-- Whether a step changes the vault can be computed. -/
instance (step : Step) : Decidable step.Changes :=
  inferInstanceAs (Decidable (step.accepted = true ∧ step.op.mutates = true))

/-- An accepted mutation writes a record, any other step none. -/
theorem recordsAfter_concat (trace : List Step) (step : Step) :
    recordsAfter (trace ++ [step]) =
      if step.Changes then recordsAfter trace + 1 else recordsAfter trace := by
  by_cases accepted : step.accepted = true
  · simp only [Step.Changes, accepted, true_and]
    exact Step.fold_accepted _ _ _ accepted
  · rw [if_neg fun changes => accepted changes.1]
    exact Step.fold_refused _ _ _ (Bool.eq_false_iff.mpr accepted)

/-- A trace has written no fewer records than its beginning. -/
theorem recordsAfter_isPrefix {earlier trace : List Step} (isPrefix : earlier <+: trace) :
    recordsAfter earlier ≤ recordsAfter trace := by
  induction trace using List.reverseRecOn with
  | nil =>
      rw [List.prefix_nil.mp isPrefix]
  | append_singleton trace step ih =>
      rcases List.prefix_concat_iff.mp isPrefix with rfl | shorter
      · exact Nat.le_refl _
      · apply (ih shorter).trans
        rw [recordsAfter_concat]
        split <;> omega

/-- A trace goes on, with at most so many more records. -/
structure GrowsBy (count : Nat) (trace trace' : List Step) : Prop where
  isPrefix : trace <+: trace'
  records : recordsAfter trace' ≤ recordsAfter trace + count

/-- A trace that stays as it is. -/
theorem GrowsBy.refl (count : Nat) (trace : List Step) : GrowsBy count trace trace :=
  ⟨List.prefix_refl trace, Nat.le_add_right _ _⟩

/-- A trace that goes on twice. -/
theorem GrowsBy.trans {first second : Nat} {trace trace' trace'' : List Step}
    (grows : GrowsBy first trace trace') (grows' : GrowsBy second trace' trace'') :
    GrowsBy (first + second) trace trace'' where
  isPrefix := grows.isPrefix.trans grows'.isPrefix
  records := by
    have within := grows.records
    have within' := grows'.records
    omega

/-- A step writes at most one record. -/
theorem GrowsBy.concat (trace : List Step) (step : Step) :
    GrowsBy 1 trace (trace ++ [step]) where
  isPrefix := List.prefix_append trace [step]
  records := by
    rw [recordsAfter_concat]
    split <;> omega

/-- A step that is no mutation writes none. -/
theorem GrowsBy.idle {trace : List Step} {step : Step} (idle : step.op.mutates = false) :
    GrowsBy 0 trace (trace ++ [step]) where
  isPrefix := List.prefix_append trace [step]
  records := by
    rw [recordsAfter_concat, if_neg]
    · exact Nat.le_refl _
    · rintro ⟨_, mutates⟩
      rw [idle] at mutates
      cases mutates

/-- So many changes write so many records. -/
theorem recordsAfter_replicate (trace : List Step) {step : Step} (changes : step.Changes)
    (count : Nat) :
    recordsAfter (trace ++ List.replicate count step) = recordsAfter trace + count := by
  induction count with
  | zero => simp only [List.replicate_zero, List.append_nil, Nat.add_zero]
  | succ count ih =>
      rw [List.replicate_succ', ← List.append_assoc, recordsAfter_concat, if_pos changes, ih]
      rfl

/-- The kinds of the records that a trace has written, from the creation on. -/
def chainOpsAfter (trace : List Step) : List ChainOp :=
  Step.fold (fun step ops => ops ++ step.op.chainOp.toList) [.vaultCreated] trace

/-- A step that writes adds its kind. -/
theorem chainOpsAfter_concat (trace : List Step) (step : Step) :
    chainOpsAfter (trace ++ [step]) =
      chainOpsAfter trace ++ if step.accepted then step.op.chainOp.toList else [] := by
  cases accepted : step.accepted with
  | true => exact Step.fold_accepted _ _ _ accepted
  | false => exact (Step.fold_refused _ _ _ accepted).trans (List.append_nil _).symm

/-- There is a kind for every record. -/
theorem length_chainOpsAfter (trace : List Step) :
    (chainOpsAfter trace).length = recordsAfter trace := by
  induction trace using List.reverseRecOn with
  | nil => rfl
  | append_singleton trace step ih =>
      have mutates := step.op.isSome_chainOp
      rw [chainOpsAfter_concat, recordsAfter_concat, List.length_append, ih]
      cases accepted : step.accepted <;> cases appends : step.op.chainOp <;>
        simp_all [Step.Changes]

section

variable [Primitives]

/-- A history of signed records, each at its position and linked to the one before. -/
structure Chained (signer : ByteArr 32) (history : List ChainRecord) : Prop where
  seq : ∀ position record, history[position]? = some record →
    record.seq = UInt64.ofNat position
  hashed : ∀ record ∈ history, record.verifySelf = true
  signed : ∀ record ∈ history, record.verifySignature signer = .ok ()
  linked : history.IsChain ChainRecord.Follows

/-- A header and a disk whose ring holds the end of a history. Slots are computed from
64-bit sequence numbers, so the ring is in order until those wrap. -/
structure Ring (h : Header) (d : Disk) (history : List ChainRecord) : Prop where
  chained : Chained h.adminSigningPubkey history
  next : h.chainNextSeq = UInt64.ofNat history.length
  last : ∃ record, history.getLast? = some record ∧ record.recordHash = h.chainLastHash
  retained : history.length ≤ 2 ^ 64 → Retains h.maxChainRecords.toNat d.records history

omit [Primitives] in
/-- The key of the admin and the number of slots for records stay. -/
theorem SameShape.ring_eq {h h' : Header} (same : SameShape h h') :
    h'.adminSigningPubkey = h.adminSigningPubkey ∧ h'.maxChainRecords = h.maxChainRecords := by
  unfold SameShape at same
  rw [same]
  exact ⟨rfl, rfl⟩

namespace Ring

variable {v v' : Vault} {d d' : Disk} {history : List ChainRecord}

/-- Appending a signed record extends the history. -/
theorem push [Lawful] (ring : Ring v.header d history) {admin : Identity}
    (genuine : admin.peerId.signingPublic = v.header.adminSigningPubkey) {op : ChainOp}
    {targetId : BitVec 128} {dataHash : ByteArr 32} {timestamp : Int64}
    (commits : Commits v v' d d' (signedRecord v admin op targetId dataHash timestamp)) :
    Ring v'.header d' (history ++ [signedRecord v admin op targetId dataHash timestamp]) := by
  obtain ⟨samePubkey, sameRing⟩ := commits.sameShape.ring_eq
  generalize recordIs : signedRecord v admin op targetId dataHash timestamp = record at commits
  have seqIs : record.seq = UInt64.ofNat history.length := by
    rw [← recordIs, ← ring.next]
    rfl
  have length : (history ++ [record]).length = history.length + 1 := by
    rw [List.length_append, List.length_singleton]
  obtain ⟨before, lastIs, hash⟩ := ring.last
  refine ⟨⟨?_, ?_, ?_, ?_⟩, ?_, ⟨record, List.getLast?_concat .., ?_⟩, ?_⟩
  · intro position found held
    by_cases old : position < history.length
    · rw [List.getElem?_append_left old] at held
      exact ring.chained.seq position found held
    · have inside := (List.getElem?_eq_some_iff.mp held).1
      have last : position = history.length := by omega
      rw [last, List.getElem?_concat_length] at held
      cases held
      rw [last, seqIs]
  · intro found member
    rcases List.mem_append.mp member with old | new
    · exact ring.chained.hashed found old
    · rw [List.mem_singleton.mp new, ← recordIs]
      exact decide_eq_true rfl
  · intro found member
    rw [samePubkey]
    rcases List.mem_append.mp member with old | new
    · exact ring.chained.signed found old
    · rw [List.mem_singleton.mp new, ← recordIs, ← genuine]
      exact verifySignature_sign admin _
  · refine ring.chained.linked.append (List.isChain_singleton _) ?_
    intro found isLast other isHead
    rw [lastIs] at isLast
    cases isLast
    cases isHead
    unfold ChainRecord.Follows
    rw [hash, ← recordIs]
    rfl
  · have next : v'.header.chainNextSeq = record.seq + 1 := by
      rw [commits.header]
      rfl
    rw [next, seqIs, length, UInt64.ofNat_add]
    rfl
  · rw [commits.header]
    rfl
  · intro bounded
    rw [length] at bounded
    have slot : Layout.ringSlot v.header record.seq =
        history.length % v.header.maxChainRecords.toNat := by
      unfold Layout.ringSlot
      rw [seqIs, UInt64.toNat_ofNat', Nat.mod_eq_of_lt (show history.length < 2 ^ 64 by omega)]
    rw [commits.records, slot, sameRing]
    exact (ring.retained (by omega)).push record

/-! ## Verifying a ring -/

section Verify

variable (ring : Ring v.header d history) (tracks : Tracks v.header v.file d)
  (short : history.length < 2 ^ 64)

include ring short in
/-- The newest record is the last of the history. -/
theorem newestSeq_eq : v.newestSeq = history.length - 1 := by
  unfold Vault.newestSeq
  rw [ring.next, UInt64.toNat_ofNat', Nat.mod_eq_of_lt short]

include ring tracks short

/-- The slot of a sequence number of the window holds the record of that position. -/
theorem read_eq {seq : Nat} (member : seq ∈ v.windowSeqs) : ∃ record,
    history[seq]? = some record ∧
      v.readChainSlotAtSeq (UInt64.ofNat seq) = .ok (some record) := by
  obtain ⟨low, high⟩ := (Vault.mem_windowSeqs seq).mp member
  obtain ⟨last, isLast, _⟩ := ring.last
  have nonempty : 0 < history.length := by
    rcases Nat.eq_zero_or_pos history.length with zero | positive
    · rw [List.length_eq_zero_iff.mp zero] at isLast
      cases isLast
    · exact positive
  have newest := newestSeq_eq ring short
  have below : seq < history.length := by omega
  have positive : 0 < v.header.maxChainRecords.toNat := Nat.pos_of_ne_zero fun zero =>
    tracks.layout.chainRecords (UInt32.toNat_inj.mp zero)
  have recent : history.length ≤ seq + v.header.maxChainRecords.toNat := by
    unfold Vault.oldestSeq at low
    omega
  have held := ring.retained short.le seq history[seq] (List.getElem?_eq_getElem below) recent
  refine ⟨history[seq], List.getElem?_eq_getElem below, ?_⟩
  rw [Vault.readChainSlotAtSeq_eq tracks, ← held]
  unfold Layout.ringSlot
  rw [UInt64.toNat_ofNat', Nat.mod_eq_of_lt (show seq < 2 ^ 64 by omega)]

/-- The survivors of the window are the end of the history. -/
theorem survivors_eq : v.survivors v.windowSeqs = history.drop v.oldestSeq := by
  have newest := newestSeq_eq ring short
  have mapped := Vault.map_some_survivors fun seq member =>
    (ring.read_eq tracks short member).imp fun _ both => both.2
  refine List.map_injective_iff.mpr (Option.some_injective _) (mapped.trans ?_)
  refine List.ext_getElem? fun index => ?_
  rw [List.getElem?_map, List.getElem?_map, List.getElem?_drop]
  have length : v.windowSeqs.length = v.newestSeq - v.oldestSeq + 1 := Vault.length_windowSeqs
  have ordered : v.oldestSeq ≤ v.newestSeq := Nat.sub_le _ _
  by_cases inside : index < v.windowSeqs.length
  · have member : v.oldestSeq + index ∈ v.windowSeqs :=
      (Vault.mem_windowSeqs _).mpr ⟨Nat.le_add_right _ _, by omega⟩
    have position := Vault.getElem?_windowSeqs member
    rw [Nat.add_sub_cancel_left] at position
    obtain ⟨record, held, read⟩ := ring.read_eq tracks short member
    rw [position, held, Option.map_some, Option.map_some, Vault.recordAt_of_read read]
  · rw [List.getElem?_eq_none (Nat.le_of_not_lt inside), List.getElem?_eq_none (by omega)]
    rfl

/-- A vault whose ring is in order and whose files read back passes. -/
theorem passes (files : ∃ infos, v.listFiles = .ok infos ∧ ∀ info ∈ infos, ∃ data,
    v.readFile info.name = .ok data) : v.Passes where
  decodes := by
    intro seq member
    obtain ⟨record, _, read⟩ := ring.read_eq tracks short member
    exact ⟨some record, read⟩
  genuine := by
    intro seq member record found
    obtain ⟨record', held, read⟩ := ring.read_eq tracks short member
    rw [Vault.recordAt_of_read read] at found
    cases found
    have inHistory := List.mem_of_getElem? held
    have below := (List.getElem?_eq_some_iff.mp held).1
    refine ⟨?_, ring.chained.hashed _ inHistory, ring.chained.signed _ inHistory⟩
    rw [ring.chained.seq seq _ held, UInt64.toNat_ofNat',
      Nat.mod_eq_of_lt (show seq < 2 ^ 64 by omega)]
  linked := by
    rw [ring.survivors_eq tracks short]
    exact ring.chained.linked.drop _
  anchored := by
    intro last isLast
    rw [ring.survivors_eq tracks short, List.getLast?_drop] at isLast
    obtain ⟨record, recordIs, hash⟩ := ring.last
    split at isLast
    · cases isLast
    · rw [recordIs] at isLast
      cases isLast
      exact hash
  files := files

end Verify

/-- When the sequence numbers have just wrapped, the window is the one slot of number
zero, which still holds a record with a later number. -/
theorem not_passes_of_wrapped (ring : Ring v.header d history)
    (tracks : Tracks v.header v.file d) (wrapped : history.length = 2 ^ 64) : ¬ v.Passes := by
  intro passes
  have next : v.header.chainNextSeq = 0 := by
    rw [ring.next, wrapped]
    rfl
  have newest : v.newestSeq = 0 := by
    unfold Vault.newestSeq
    rw [next]
    rfl
  have member : 0 ∈ v.windowSeqs :=
    (Vault.mem_windowSeqs 0).mpr ⟨(Nat.sub_le _ _).trans newest.le, Nat.zero_le _⟩
  have positive : 0 < v.header.maxChainRecords.toNat := Nat.pos_of_ne_zero fun zero =>
    tracks.layout.chainRecords (UInt32.toNat_inj.mp zero)
  have small : v.header.maxChainRecords.toNat < 2 ^ 32 := v.header.maxChainRecords.toNat_lt
  -- the last position that shares the slot of number zero
  obtain ⟨position, positionIs⟩ : ∃ position, position =
      v.header.maxChainRecords.toNat * ((2 ^ 64 - 1) / v.header.maxChainRecords.toNat) :=
    ⟨_, rfl⟩
  have division := Nat.div_add_mod (2 ^ 64 - 1) v.header.maxChainRecords.toNat
  have remainder := Nat.mod_lt (2 ^ 64 - 1) positive
  rw [← positionIs] at division
  have below : position < history.length := by omega
  have held := ring.retained wrapped.le position history[position]
    (List.getElem?_eq_getElem below) (by omega)
  have slot : position % v.header.maxChainRecords.toNat = 0 := by
    rw [positionIs]
    exact Nat.mul_mod_right _ _
  have read : v.readChainSlotAtSeq (UInt64.ofNat 0) = .ok (some history[position]) := by
    rw [Vault.readChainSlotAtSeq_eq tracks, ← held, slot]
    unfold Layout.ringSlot
    rw [show (UInt64.ofNat 0).toNat = 0 from rfl, Nat.zero_mod]
  have genuine := (passes.genuine 0 member _ (Vault.recordAt_of_read read)).seq
  rw [ring.chained.seq position _ (List.getElem?_eq_getElem below), UInt64.toNat_ofNat',
    Nat.mod_eq_of_lt (by omega)] at genuine
  omega

end Ring

/-- Every file that a sound vault lists reads back. -/
theorem Sound.reads_listed [Lawful] {v : Vault} {d : Disk} {files : Files}
    (sound : Sound v d files) : ∃ infos, v.listFiles = .ok infos ∧ ∀ info ∈ infos, ∃ data,
      v.readFile info.name = .ok data := by
  refine ⟨_, sound.listFiles_eq, fun info member => ?_⟩
  obtain ⟨idx, file, found, rfl⟩ := (sound.mem_infos info).mp member
  exact ⟨file.data, sound.readFile_of_present ⟨found, rfl⟩⟩

/-! ## The ring along a run -/

namespace Run

variable [Lawful] {password : String} {origin v : Vault} {trace : List Step}
  {name description : String} {capacityBytes : UInt64} {admin : Identity} {draws : Draws}

/-- The ring of a new container holds the record of its creation. -/
theorem ring_created
    (spec : Vault.Created origin name description capacityBytes password admin draws) :
    Ring origin.header (Vault.emptyDisk origin.header
      (Vault.genesisRecord name description capacityBytes admin draws))
      [Vault.genesisRecord name description capacityBytes admin draws] := by
  obtain ⟨slot, header⟩ := spec.header
  generalize recordIs : Vault.genesisRecord name description capacityBytes admin draws = record
    at header
  refine ⟨⟨?_, ?_, ?_, List.isChain_singleton _⟩, ?_, ⟨record, rfl, ?_⟩, fun _ => ?_⟩
  · intro position found held
    have inside := (List.getElem?_eq_some_iff.mp held).1
    have first : position = 0 := Nat.lt_one_iff.mp inside
    rw [first] at held ⊢
    cases held
    rw [← recordIs]
    rfl
  · intro found member
    rw [List.mem_singleton.mp member, ← recordIs]
    exact decide_eq_true rfl
  · intro found member
    rw [List.mem_singleton.mp member, ← recordIs, header]
    exact verifySignature_sign admin _
  · rw [header]
    rfl
  · rw [header]
    rfl
  · intro position found held _
    have inside := (List.getElem?_eq_some_iff.mp held).1
    have first : position = 0 := Nat.lt_one_iff.mp inside
    rw [first] at held ⊢
    cases held
    rw [Nat.zero_mod]
    rfl

/-- **Ring invariant.** Every reachable vault has a history of the records that its trace
has written, and its ring holds the end of it. -/
theorem ring_ops
    (created : Vault.create name description capacityBytes password admin draws = .ok origin)
    (run : Run password origin trace v) :
    ∃ d files, Healthy password origin trace v d files ∧ ∃ history, Ring v.header d history ∧
      history.map ChainRecord.op = chainOpsAfter trace := by
  refine run.invariant created (fun trace v d _ => ∃ history,
    Ring v.header d history ∧ history.map ChainRecord.op = chainOpsAfter trace)
    ⟨_, ring_created (Vault.create_spec created), rfl⟩ ?_ ?_
  · rintro trace v d files step refused ⟨history, ring, ops⟩
    rw [chainOpsAfter_concat, refused, ← ops]
    exact ⟨history, ring, (List.append_nil _).symm⟩
  · rintro trace v d files step v' d' files' accepted healthy took ⟨history, ring, ops⟩
    rw [chainOpsAfter_concat, accepted, ← ops]
    cases appends : step.op.chainOp with
    | some chainOp =>
        obtain ⟨identity, targetId, dataHash, timestamp, authorized, commits⟩ :=
          took.commits_as appends
        refine ⟨_, ring.push (healthy.admin identity authorized) commits, ?_⟩
        rw [List.map_append]
        rfl
    | none =>
        have reads : step.op.mutates = false := by
          rw [← step.op.isSome_chainOp, appends]
          rfl
        obtain ⟨_, header, rfl, _⟩ := took.container reads
        rw [header]
        exact ⟨history, ring, (List.append_nil _).symm⟩

/-- After a run the ring holds the end of a history as long as its records. -/
theorem ring
    (created : Vault.create name description capacityBytes password admin draws = .ok origin)
    (run : Run password origin trace v) :
    ∃ d files history, Healthy password origin trace v d files ∧ Ring v.header d history ∧
      history.length = recordsAfter trace := by
  obtain ⟨d, files, healthy, history, ring, ops⟩ := run.ring_ops created
  refine ⟨d, files, history, healthy, ring, ?_⟩
  rw [← length_chainOpsAfter, ← ops, List.length_map]

/-- **No false alarm.** As long as the sequence numbers have not wrapped, verification
accepts every reachable vault, and its ring holds the whole retained window. -/
theorem no_false_alarm
    (created : Vault.create name description capacityBytes password admin draws = .ok origin)
    (run : Run password origin trace v) (short : recordsAfter trace < 2 ^ 64) :
    v.verifyIntegrity = .ok () ∧ v.WindowHolds := by
  obtain ⟨d, files, history, healthy, ring, length⟩ := run.ring created
  rw [← length] at short
  have tracks := healthy.sound.tracks
  have passes := ring.passes tracks short healthy.sound.reads_listed
  refine ⟨Vault.verifyIntegrity_eq_ok_iff.mpr passes, passes.windowHolds fun seq member empty => ?_⟩
  obtain ⟨record, _, read⟩ := ring.read_eq tracks short member
  rw [empty] at read
  cases read

/-- Once `2 ^ 64` records have been written, verification refuses the vault. -/
theorem false_alarm_of_wrapped
    (created : Vault.create name description capacityBytes password admin draws = .ok origin)
    (run : Run password origin trace v) (wrapped : recordsAfter trace = 2 ^ 64) :
    v.verifyIntegrity ≠ .ok () := by
  obtain ⟨d, files, history, healthy, ring, length⟩ := run.ring created
  intro accepted
  exact ring.not_passes_of_wrapped healthy.sound.tracks (length.trans wrapped)
    (Vault.verifyIntegrity_eq_ok_iff.mp accepted)

end Run

end

namespace Transparent

/-- A vault with a file passes, and its window holds. -/
theorem no_false_alarm_added : ∃ origin v,
    Vault.create "v" "" 65536 "p" (identity 1) (draws 1) = .ok origin ∧
    Run "p" origin [⟨.addFile "a" [1, 2, 3], draws 2, true⟩] v ∧
    v.verifyIntegrity = .ok () ∧ v.WindowHolds := by
  obtain ⟨origin, v, created, _, run⟩ := exists_added
  have short : recordsAfter [⟨.addFile "a" [1, 2, 3], draws 2, true⟩] = 2 := rfl
  exact ⟨origin, v, created, run, Run.no_false_alarm created run (by rw [short]; decide)⟩

/-- A file is added and then written again and again. -/
def rewrites (count : Nat) : List Step :=
  ⟨.addFile "a" [1, 2, 3], draws 2, true⟩ ::
    List.replicate count ⟨.updateFile "a" [1, 2, 3], draws 2, true⟩

/-- A creation, a file and so many rewrites. -/
theorem recordsAfter_rewrites (count : Nat) : recordsAfter (rewrites count) = 2 + count :=
  recordsAfter_replicate [⟨.addFile "a" [1, 2, 3], draws 2, true⟩] ⟨rfl, rfl⟩ count

/-- The file can be written any number of times. -/
theorem exists_rewritten (count : Nat) : ∃ origin v,
    Vault.create "v" "" 65536 "p" (identity 1) (draws 1) = .ok origin ∧
    Run "p" origin (rewrites count) v := by
  obtain ⟨origin, v, created, sized, first⟩ := exists_added
  have isAdmin := Run.isAdmin created (show Run _ _ ([] ++ [_]) _ from first) rfl rfl
  have present : catalogAfter [⟨.addFile "a" [1, 2, 3], draws 2, true⟩] "a" = some [1, 2, 3] :=
    rfl
  obtain ⟨v', run, _⟩ := first.exists_updates created sized isAdmin present (draws 2) count
  exact ⟨origin, v', created, run⟩

/-- After `2 ^ 64 - 1` successful mutations verification raises a false alarm. -/
theorem false_alarm : ∃ origin v,
    Vault.create "v" "" 65536 "p" (identity 1) (draws 1) = .ok origin ∧
    Run "p" origin (rewrites (2 ^ 64 - 2)) v ∧ v.verifyIntegrity ≠ .ok () := by
  obtain ⟨origin, v, created, run⟩ := exists_rewritten (2 ^ 64 - 2)
  have wrapped := recordsAfter_rewrites (2 ^ 64 - 2)
  exact ⟨origin, v, created, run, Run.false_alarm_of_wrapped created run (wrapped.trans rfl)⟩

end Transparent

end ReVault
