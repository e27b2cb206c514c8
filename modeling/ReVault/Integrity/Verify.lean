import Mathlib.Data.List.Chain
import ReVault.Core.Vault

/-!
# What verification accepts

`verify_integrity` walks the retained window of the chain, skips the slots that are
empty, and checks the records that survive; then it reads every listed file. It accepts
exactly the vaults whose surviving records form a signed, linked chain that ends at the
header's anchor. When no slot is empty this is the whole window.
-/

namespace ReVault

open Foundation Primitives

/-- A record names the hash of the one before it. -/
def ChainRecord.Follows (record next : ChainRecord) : Prop := next.prevHash = record.recordHash

variable [Primitives]

namespace Vault

variable (v : Vault)

omit [Primitives] in
/-- The record in the ring slot of a sequence number, if there is one. -/
def recordAt (seq : Nat) : Option ChainRecord :=
  match v.readChainSlotAtSeq (UInt64.ofNat seq) with
  | .ok slot => slot
  | .error _ => none

/-- A record has its sequence number, its own hash and the admin's signature. -/
structure Genuine (seq : Nat) (record : ChainRecord) : Prop where
  seq : record.seq.toNat = seq
  hashed : record.verifySelf = true
  signed : record.verifySignature v.header.adminSigningPubkey = .ok ()

omit [Primitives] in
/-- The records of the slots that are not empty. -/
def survivors (seqs : List Nat) : List ChainRecord := seqs.filterMap v.recordAt

/-- Every slot of the retained window holds its record, linked to the one before and
anchored by the header. -/
structure WindowHolds : Prop where
  records : ∀ seq ∈ v.windowSeqs, ∃ record,
    v.readChainSlotAtSeq (UInt64.ofNat seq) = .ok (some record) ∧ v.Genuine seq record
  linked : ∀ seq ∈ v.windowSeqs, seq + 1 ∈ v.windowSeqs → ∀ record next,
    v.readChainSlotAtSeq (UInt64.ofNat seq) = .ok (some record) →
    v.readChainSlotAtSeq (UInt64.ofNat (seq + 1)) = .ok (some next) → record.Follows next
  anchored : ∀ record, v.readChainSlotAtSeq (UInt64.ofNat v.newestSeq) = .ok (some record) →
    record.recordHash = v.header.chainLastHash

/-- The surviving records are in order and every listed file reads back. -/
structure Passes : Prop where
  decodes : ∀ seq ∈ v.windowSeqs, ∃ slot, v.readChainSlotAtSeq (UInt64.ofNat seq) = .ok slot
  genuine : ∀ seq ∈ v.windowSeqs, ∀ record, v.recordAt seq = some record → v.Genuine seq record
  linked : (v.survivors v.windowSeqs).IsChain ChainRecord.Follows
  anchored : ∀ last, (v.survivors v.windowSeqs).getLast? = some last →
    last.recordHash = v.header.chainLastHash
  files : ∃ infos, v.listFiles = .ok infos ∧ ∀ info ∈ infos, ∃ data,
    v.readFile info.name = .ok data

variable {v : Vault}

omit [Primitives] in
/-- A record that is read from its slot. -/
theorem recordAt_of_read {seq : Nat} {slot : Option ChainRecord}
    (read : v.readChainSlotAtSeq (UInt64.ofNat seq) = .ok slot) : v.recordAt seq = slot := by
  unfold recordAt
  rw [read]

/-! ## The chain loop -/

/-- When a record is accepted. -/
theorem checkRecord_eq_ok_iff (seq : Nat) (prev : Option ChainRecord) (record : ChainRecord) :
    v.checkRecord seq prev record = .ok () ↔
      v.Genuine seq record ∧ ∀ last, prev = some last → last.Follows record := by
  unfold checkRecord
  by_cases numbered : record.seq.toNat = seq
  · rw [if_neg (not_not_intro numbered)]
    cases hashed : record.verifySelf with
    | false =>
        constructor
        · intro accepted
          cases accepted
        · rintro ⟨genuine, _⟩
          rw [genuine.hashed] at hashed
          cases hashed
    | true =>
        cases signed : record.verifySignature v.header.adminSigningPubkey with
        | error reason =>
            constructor
            · intro accepted
              cases accepted
            · rintro ⟨genuine, _⟩
              rw [genuine.signed] at signed
              cases signed
        | ok _ =>
            have genuine : v.Genuine seq record := ⟨numbered, hashed, signed⟩
            cases prev with
            | none =>
                exact ⟨fun _ => ⟨genuine, fun last held => by cases held⟩, fun _ => rfl⟩
            | some last =>
                change (if record.prevHash ≠ last.recordHash then _ else Except.ok ()) = _ ↔ _
                by_cases follows : record.prevHash = last.recordHash
                · rw [if_neg (not_not_intro follows)]
                  refine ⟨fun _ => ⟨genuine, fun other held => ?_⟩, fun _ => rfl⟩
                  cases held
                  exact follows
                · rw [if_pos follows]
                  constructor
                  · intro accepted
                    cases accepted
                  · rintro ⟨_, linked⟩
                    exact absurd (linked last rfl) follows
  · rw [if_pos numbered]
    constructor
    · intro accepted
      cases accepted
    · rintro ⟨genuine, _⟩
      exact absurd genuine.seq numbered

/-- The chain loop succeeds exactly when the surviving records are genuine and each
follows the one before, and it returns the last of them. -/
theorem verifyChain_eq_ok_iff (seqs : List Nat) (prev last : Option ChainRecord) :
    v.verifyChain seqs prev = .ok last ↔
      (∀ seq ∈ seqs, ∃ slot, v.readChainSlotAtSeq (UInt64.ofNat seq) = .ok slot) ∧
      (∀ seq ∈ seqs, ∀ record, v.recordAt seq = some record → v.Genuine seq record) ∧
      (prev.toList ++ v.survivors seqs).IsChain ChainRecord.Follows ∧
      last = (prev.toList ++ v.survivors seqs).getLast? := by
  induction seqs generalizing prev with
  | nil =>
      change Except.ok prev = Except.ok last ↔ _
      have single : prev.toList.IsChain ChainRecord.Follows ∧ prev.toList.getLast? = prev := by
        cases prev with
        | none => exact ⟨List.isChain_nil, rfl⟩
        | some record => exact ⟨List.isChain_singleton record, rfl⟩
      change _ ↔ _ ∧ _ ∧ (prev.toList ++ []).IsChain _ ∧ last = (prev.toList ++ []).getLast?
      rw [List.append_nil, single.2, Except.ok.injEq, eq_comm]
      exact ⟨fun same => ⟨fun seq member => absurd member List.not_mem_nil,
        fun seq member => absurd member List.not_mem_nil, single.1, same⟩, fun all => all.2.2.2⟩
  | cons seq rest ih =>
      rw [verifyChain]
      cases read : v.readChainSlotAtSeq (UInt64.ofNat seq) with
      | error fault =>
          constructor
          · intro accepted
            cases accepted
          · rintro ⟨decodes, _⟩
            obtain ⟨slot, decoded⟩ := decodes seq List.mem_cons_self
            rw [read] at decoded
            cases decoded
      | ok slot =>
          have here := recordAt_of_read read
          rw [List.forall_mem_cons, List.forall_mem_cons, here]
          cases slot with
          | none =>
              change v.verifyChain rest prev = .ok last ↔ _
              have skipped : v.survivors (seq :: rest) = v.survivors rest := by
                unfold survivors
                rw [List.filterMap_cons, here]
              rw [ih prev, skipped]
              constructor
              · rintro ⟨decodes, genuine, linked, last⟩
                exact ⟨⟨⟨_, read⟩, decodes⟩, ⟨fun record held => (by cases held), genuine⟩, linked,
                  last⟩
              · rintro ⟨⟨_, decodes⟩, ⟨_, genuine⟩, linked, last⟩
                exact ⟨decodes, genuine, linked, last⟩
          | some record =>
              change (v.checkRecord seq prev record >>= fun _ =>
                v.verifyChain rest (some record)) = .ok last ↔ _
              have kept : v.survivors (seq :: rest) = record :: v.survivors rest := by
                unfold survivors
                rw [List.filterMap_cons, here]
              have joined : (prev.toList ++ record :: v.survivors rest).IsChain
                    ChainRecord.Follows ↔ (∀ last, prev = some last → last.Follows record) ∧
                    (record :: v.survivors rest).IsChain ChainRecord.Follows := by
                cases prev with
                | none => exact ⟨fun chain => ⟨fun last held => (by cases held), chain⟩,
                    fun both => both.2⟩
                | some before =>
                    change (before :: record :: v.survivors rest).IsChain _ ↔ _
                    rw [List.isChain_cons_cons]
                    exact ⟨fun both => ⟨fun last held => (by cases held; exact both.1), both.2⟩,
                      fun both => ⟨both.1 before rfl, both.2⟩⟩
              have ending : (prev.toList ++ record :: v.survivors rest).getLast? =
                  (record :: v.survivors rest).getLast? := by
                rw [List.getLast?_append_of_ne_nil _ (List.cons_ne_nil _ _)]
              rw [except_bind_eq_ok_iff, kept, joined, ending]
              constructor
              · rintro ⟨_, checkedRecord, accepted⟩
                obtain ⟨genuine, follows⟩ :=
                  (checkRecord_eq_ok_iff seq prev record).mp checkedRecord
                obtain ⟨decodes, others, linked, last⟩ := (ih (some record)).mp accepted
                exact ⟨⟨⟨_, read⟩, decodes⟩,
                  ⟨fun other held => (by cases held; exact genuine), others⟩, ⟨follows, linked⟩,
                  last⟩
              · rintro ⟨⟨_, decodes⟩, ⟨genuine, others⟩, ⟨follows, linked⟩, last⟩
                exact ⟨(), (checkRecord_eq_ok_iff seq prev record).mpr
                  ⟨genuine record rfl, follows⟩,
                  (ih (some record)).mpr ⟨decodes, others, linked, last⟩⟩

/-! ## The whole verification -/

omit [Primitives] in
/-- When the anchor is accepted. -/
theorem checkAnchor_eq_ok_iff (prev : Option ChainRecord) : v.checkAnchor prev = .ok () ↔
    ∀ last, prev = some last → last.recordHash = v.header.chainLastHash := by
  cases prev with
  | none => exact ⟨fun _ last held => (by cases held), fun _ => rfl⟩
  | some last =>
      change (if last.recordHash ≠ v.header.chainLastHash then _ else Except.ok ()) = _ ↔ _
      by_cases same : last.recordHash = v.header.chainLastHash
      · rw [if_neg (not_not_intro same)]
        exact ⟨fun _ other held => (by cases held; exact same), fun _ => rfl⟩
      · rw [if_pos same]
        constructor
        · intro accepted
          cases accepted
        · exact fun anchored => absurd (anchored last rfl) same

/-- When the files are accepted. -/
theorem verifyFiles_eq_ok_iff (names : List String) : v.verifyFiles names = .ok () ↔
    ∀ name ∈ names, ∃ data, v.readFile name = .ok data := by
  induction names with
  | nil => exact ⟨fun _ name member => absurd member List.not_mem_nil, fun _ => rfl⟩
  | cons name rest ih =>
      rw [verifyFiles, except_bind_eq_ok_iff, List.forall_mem_cons, ← ih]
      exact ⟨fun ⟨data, read, later⟩ => ⟨⟨data, read⟩, later⟩,
        fun ⟨⟨data, read⟩, later⟩ => ⟨data, read, later⟩⟩

/-- **Verification** succeeds exactly on the vaults that pass. -/
theorem verifyIntegrity_eq_ok_iff : v.verifyIntegrity = .ok () ↔ v.Passes := by
  unfold verifyIntegrity
  rw [except_bind_eq_ok_iff]
  constructor
  · rintro ⟨prev, walked, rest⟩
    obtain ⟨_, anchored, rest⟩ := except_bind_eq_ok_iff.mp rest
    obtain ⟨infos, listed, read⟩ := except_bind_eq_ok_iff.mp rest
    obtain ⟨decodes, genuine, linked, last⟩ := (verifyChain_eq_ok_iff _ none prev).mp walked
    refine ⟨decodes, genuine, linked, fun record held => ?_, infos, listed, fun info member => ?_⟩
    · exact (checkAnchor_eq_ok_iff prev).mp anchored record (last.trans held)
    · exact (verifyFiles_eq_ok_iff _).mp read info.name (List.mem_map_of_mem member)
  · rintro ⟨decodes, genuine, linked, anchored, infos, listed, read⟩
    refine ⟨(v.survivors v.windowSeqs).getLast?,
      (verifyChain_eq_ok_iff _ none _).mpr ⟨decodes, genuine, linked, rfl⟩, ?_⟩
    rw [except_bind_of_ok ((checkAnchor_eq_ok_iff _).mpr anchored), except_bind_of_ok listed]
    refine (verifyFiles_eq_ok_iff _).mpr fun name member => ?_
    obtain ⟨info, inInfos, rfl⟩ := List.mem_map.mp member
    exact read info inInfos

/-! ## Windows without empty slots -/

omit [Primitives] in
/-- The window reaches from the oldest record to the newest. -/
theorem mem_windowSeqs (seq : Nat) :
    seq ∈ v.windowSeqs ↔ v.oldestSeq ≤ seq ∧ seq ≤ v.newestSeq := by
  have ordered : v.oldestSeq ≤ v.newestSeq := Nat.sub_le _ _
  unfold windowSeqs
  rw [List.mem_map]
  constructor
  · rintro ⟨index, member, rfl⟩
    have := List.mem_range.mp member
    omega
  · rintro ⟨low, high⟩
    exact ⟨seq - v.oldestSeq, List.mem_range.mpr (by omega), by omega⟩

omit [Primitives] in
/-- How many records the window has. -/
theorem length_windowSeqs : v.windowSeqs.length = v.newestSeq - v.oldestSeq + 1 := by
  have ordered : v.oldestSeq ≤ v.newestSeq := Nat.sub_le _ _
  unfold windowSeqs
  rw [List.length_map, List.length_range]
  omega

omit [Primitives] in
/-- The records of the window, by their place. -/
theorem getElem?_windowSeqs {seq : Nat} (member : seq ∈ v.windowSeqs) :
    v.windowSeqs[seq - v.oldestSeq]? = some seq := by
  obtain ⟨low, high⟩ := (mem_windowSeqs seq).mp member
  unfold windowSeqs
  rw [List.getElem?_map, List.getElem?_range (by omega), Option.map_some]
  congr 1
  omega

omit [Primitives] in
/-- Filtering out nothing is mapping. -/
private theorem map_some_filterMap {α β : Type} {keep : α → Option β} {items : List α}
    (all : ∀ item ∈ items, (keep item).isSome = true) :
    (items.filterMap keep).map some = items.map keep := by
  induction items with
  | nil => rfl
  | cons item rest ih =>
      obtain ⟨value, kept⟩ := Option.isSome_iff_exists.mp (all item List.mem_cons_self)
      rw [List.filterMap_cons, kept, List.map_cons, List.map_cons, kept,
        ih fun later member => all later (List.mem_cons_of_mem item member)]

omit [Primitives] in
/-- In a full window the survivors are the records of the window. -/
theorem map_some_survivors (full : ∀ seq ∈ v.windowSeqs, ∃ record,
    v.readChainSlotAtSeq (UInt64.ofNat seq) = .ok (some record)) :
    (v.survivors v.windowSeqs).map some = v.windowSeqs.map v.recordAt := by
  refine map_some_filterMap fun seq member => ?_
  obtain ⟨_, read⟩ := full seq member
  rw [recordAt_of_read read]
  rfl

/-- A vault that passes and has no empty slot in the window holds the whole window. -/
theorem Passes.windowHolds (passes : v.Passes)
    (full : ∀ seq ∈ v.windowSeqs, v.readChainSlotAtSeq (UInt64.ofNat seq) ≠ .ok none) :
    v.WindowHolds := by
  have present : ∀ seq ∈ v.windowSeqs, ∃ record,
      v.readChainSlotAtSeq (UInt64.ofNat seq) = .ok (some record) := by
    intro seq member
    obtain ⟨slot, read⟩ := passes.decodes seq member
    cases slot with
    | none => exact absurd read (full seq member)
    | some record => exact ⟨record, read⟩
  have mapped := map_some_survivors present
  have positions : ∀ seq ∈ v.windowSeqs, ∀ record,
      v.readChainSlotAtSeq (UInt64.ofNat seq) = .ok (some record) →
      (v.survivors v.windowSeqs)[seq - v.oldestSeq]? = some record := by
    intro seq member record read
    have here := congrArg (fun found => found[seq - v.oldestSeq]?) mapped
    simp only [List.getElem?_map, getElem?_windowSeqs member, Option.map_some,
      recordAt_of_read read, Option.map_eq_some_iff, Option.some.injEq, exists_eq_right] at here
    exact here
  refine ⟨fun seq member => ?_, ?_, ?_⟩
  · obtain ⟨record, read⟩ := present seq member
    exact ⟨record, read, passes.genuine seq member record (recordAt_of_read read)⟩
  · intro seq member member' record next read read'
    have here := positions seq member record read
    have there := positions (seq + 1) member' next read'
    have low := ((mem_windowSeqs seq).mp member).1
    rw [show seq + 1 - v.oldestSeq = seq - v.oldestSeq + 1 by omega] at there
    obtain ⟨inside, hereIs⟩ := List.getElem?_eq_some_iff.mp here
    obtain ⟨inside', thereIs⟩ := List.getElem?_eq_some_iff.mp there
    have follows := List.isChain_iff_getElem.mp passes.linked _ inside'
    rw [hereIs, thereIs] at follows
    exact follows
  · intro record read
    have newest : v.newestSeq ∈ v.windowSeqs :=
      (mem_windowSeqs _).mpr ⟨Nat.sub_le _ _, Nat.le_refl _⟩
    refine passes.anchored record ?_
    have last := positions _ newest record read
    have length := congrArg List.length mapped
    rw [List.length_map, List.length_map] at length
    rw [List.getLast?_eq_getElem?, length, length_windowSeqs, Nat.add_sub_cancel]
    exact last

/-- **Chain soundness.** That an accepted vault holds its whole window is true of exactly
the vaults without an empty slot in the window, and of those that do not pass. -/
theorem window_sound_iff (v : Vault) : (v.verifyIntegrity = .ok () → v.WindowHolds) ↔
    (∀ seq ∈ v.windowSeqs, v.readChainSlotAtSeq (UInt64.ofNat seq) ≠ .ok none) ∨ ¬ v.Passes := by
  rw [verifyIntegrity_eq_ok_iff]
  constructor
  · intro sound
    by_cases passes : v.Passes
    · refine Or.inl fun seq member empty => ?_
      obtain ⟨record, read, _⟩ := (sound passes).records seq member
      rw [empty] at read
      cases read
    · exact Or.inr passes
  · rintro (full | fails) passes
    · exact passes.windowHolds full
    · exact absurd passes fails

end Vault

end ReVault
