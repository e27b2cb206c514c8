import ReVault.Serving.Unlocked

/-!
# Positions of the chain

A peer reports the next sequence number and the hash of the last record of its replica.
Only the number is looked at: whether a patch is sent depends on the entries of the
journal alone, so a peer that is ahead of the chain, or on another one, can be sent a patch.
-/

namespace ReVault

open Foundation Primitives

section

variable [Primitives]

/-- A position of the chain of a run: how many records it had at some point, and the hash of the
last of them. -/
def AtPosition (password : String) (origin : Vault) (trace : List Step) (nextSeq : UInt64)
    (lastHash : ByteArr 32) : Prop :=
  ∃ earlier v, earlier <+: trace ∧ Run password origin earlier v ∧
    recordsAfter earlier = nextSeq.toNat ∧ v.chainState.2 = lastHash

variable [Lawful] {password : String} {origin v : Vault} {trace : List Step}
  {name description : String} {capacityBytes : UInt64} {admin : Identity} {draws : Draws}

namespace AtPosition

variable {nextSeq : UInt64} {lastHash lastHash' : ByteArr 32}

/-- Positions are what the handle reports at some point, as long as sequence numbers have not
wrapped. -/
theorem iff_chainState
    (created : Vault.create name description capacityBytes password admin draws = .ok origin)
    (short : recordsAfter trace < 2 ^ 64) :
    AtPosition password origin trace nextSeq lastHash ↔ ∃ earlier v, earlier <+: trace ∧
      Run password origin earlier v ∧ v.chainState = (nextSeq, lastHash) := by
  have numbers : ∀ {earlier w}, earlier <+: trace → Run password origin earlier w →
      w.chainState.1.toNat = recordsAfter earlier := fun isPrefix reached =>
    reached.chainNextSeq_eq created ((recordsAfter_isPrefix isPrefix).trans_lt short)
  constructor
  · rintro ⟨earlier, w, isPrefix, reached, counted, shown⟩
    have number := (numbers isPrefix reached).trans counted
    exact ⟨earlier, w, isPrefix, reached, Prod.ext (UInt64.toNat_inj.mp number) shown⟩
  · rintro ⟨earlier, w, isPrefix, reached, shown⟩
    have number := numbers isPrefix reached
    rw [shown] at number
    exact ⟨earlier, w, isPrefix, reached, number.symm, by rw [shown]⟩

/-- A position shows the number and the hash of a record that the admin signed. -/
theorem exists_record
    (created : Vault.create name description capacityBytes password admin draws = .ok origin)
    (position : AtPosition password origin trace nextSeq lastHash) :
    ∃ record : ChainRecord, record.seq + 1 = nextSeq ∧ record.recordHash = lastHash ∧
      record.verifySelf = true ∧
      record.verifySignature origin.header.adminSigningPubkey = .ok () := by
  obtain ⟨earlier, w, _, reached, counted, shown⟩ := position
  obtain ⟨d, files, history, healthy, ring, length⟩ := reached.ring created
  obtain ⟨record, isLast, hash⟩ := ring.last
  have member := List.mem_of_getLast? isLast
  have place : history[history.length - 1]? = some record := by
    rw [← List.getLast?_eq_getElem?]
    exact isLast
  have positive : 0 < history.length := List.length_pos_of_mem member
  refine ⟨record, ?_, hash.trans shown, ring.chained.hashed record member, ?_⟩
  · rw [ring.chained.seq _ record place, ← UInt64.ofNat_one, ← UInt64.ofNat_add,
      Nat.sub_add_cancel positive, length, counted, UInt64.ofNat_toNat]
  · rw [← healthy.shape.ring_eq.1]
    exact ring.chained.signed record member

/-- A number has one hash. -/
theorem unique
    (created : Vault.create name description capacityBytes password admin draws = .ok origin)
    (position : AtPosition password origin trace nextSeq lastHash)
    (position' : AtPosition password origin trace nextSeq lastHash') : lastHash = lastHash' := by
  obtain ⟨earlier, w, isPrefix, reached, counted, rfl⟩ := position
  obtain ⟨earlier', w', isPrefix', reached', counted', rfl⟩ := position'
  have same : w.file = w'.file := by
    rcases List.prefix_or_prefix_of_prefix isPrefix isPrefix' with first | second
    · exact reached'.past_now created
        ⟨earlier, w, first, reached, counted.trans counted'.symm, rfl⟩
    · exact (reached.past_now created
        ⟨earlier', w', second, reached', counted'.trans counted.symm, rfl⟩).symm
  exact congrArg Header.chainLastHash (reached.header_eq_of_file created reached' same)

/-- No number goes with every hash. -/
theorem exists_not
    (created : Vault.create name description capacityBytes password admin draws = .ok origin)
    (trace : List Step) (nextSeq : UInt64) :
    ∃ lastHash, ¬ AtPosition password origin trace nextSeq lastHash := by
  by_contra all
  rw [not_exists_not] at all
  have same := (all (zeroArr 32)).unique created (all (List.Vector.replicate 32 1))
  exact absurd same (by decide)

end AtPosition

omit [Primitives] [Lawful] in
/-- A journal with an entry reaches back to some number. -/
theorem PatchJournal.exists_covers {journal : PatchJournal} (recorded : journal.entries ≠ []) :
    ∃ nextSeq, journal.Covers nextSeq := by
  obtain ⟨oldest, newer, entries⟩ := List.exists_cons_of_ne_nil recorded
  have isHead : journal.entries.head? = some oldest := by rw [entries, List.head?_cons]
  by_cases zero : oldest.1 = 0
  · exact ⟨1, by decide, oldest, isHead, by rw [zero]; decide⟩
  · exact ⟨oldest.1, zero, oldest, isHead, UInt64.le_refl _⟩

/-- **Patches and positions.** A granted peer that reports a number and a hash is sent the whole
container whenever they are no position of the chain, if and only if there is no journal or it
has no entry. -/
theorem patch_at_position_iff {peer : PeerId}
    (created : Vault.create name description capacityBytes password admin draws = .ok origin)
    (run : Run password origin trace v) (granted : peer ∈ grantedAfter trace)
    (journal : Option PatchJournal) :
    (∀ nextSeq lastHash message, (answer v journal peer nextSeq = .ok message ∨
        ∃ kept, journal = some kept ∧ pollNetwork v kept peer nextSeq = .message message) →
      message = .fullSync v.file ∨ AtPosition password origin trace nextSeq lastHash) ↔
    ∀ kept, journal = some kept → kept.entries = [] := by
  have isGranted := (run.isGranted_iff created peer).mpr granted
  have answered : ∀ nextSeq, answer v journal peer nextSeq = .ok (catchUp v journal nextSeq) :=
    fun nextSeq => (except_bind_of_ok isGranted).trans (if_pos rfl)
  constructor
  · rintro only kept rfl
    by_contra recorded
    obtain ⟨nextSeq, covers⟩ := PatchJournal.exists_covers recorded
    obtain ⟨lastHash, nowhere⟩ := AtPosition.exists_not created trace nextSeq
    rcases only nextSeq lastHash _ (Or.inl (answered nextSeq)) with full | position
    · rw [catchUp_covered v covers] at full
      cases full
    · exact nowhere position
  · intro unrecorded nextSeq lastHash message sent
    have full : catchUp v journal nextSeq = .fullSync v.file := by
      cases journal with
      | none => rfl
      | some kept =>
          refine catchUp_uncovered v fun covers => ?_
          obtain ⟨_, oldest, isHead, _⟩ := covers
          rw [unrecorded kept rfl] at isHead
          cases isHead
    rcases sent with served | ⟨kept, rfl, polled⟩
    · rw [answered] at served
      cases served
      exact Or.inl full
    · unfold pollNetwork at polled
      rw [isGranted] at polled
      cases polled
      exact Or.inl full

end

namespace Transparent

open Unlocked

/-- A peer that is far ahead of the chain is sent an empty patch. -/
theorem patch_ahead_of_chain : ∃ origin v s journal,
    Vault.create "v" "" 65536 "p" (identity 1) (draws 1) = .ok origin ∧
    Run "p" origin (sharedTrace 0 ++ [opening]) v ∧
    Serves ⟨v, none⟩ [starting, rewriting] s ∧ s.network = some journal ∧
    (identity 2).peerId ∈
      grantedAfter (sharedTrace 0 ++ [opening] ++ stepsOf [starting, rewriting]) ∧
    pollNetwork s.vault journal (identity 2).peerId 100 = .message (.patch 100 []) ∧
    ∀ lastHash, ¬ AtPosition "p" origin
      (sharedTrace 0 ++ [opening] ++ stepsOf [starting, rewriting]) 100 lastHash := by
  obtain ⟨origin, v, v₁, created, opened, _, run, _, ranges, serves⟩ := exists_rewritten_session
  have granted : (identity 2).peerId ∈ grantedAfter (sharedTrace 0 ++ [opening] ++ updateSteps) :=
    show _ ∈ [(identity 2).peerId] from List.mem_singleton.mpr rfl
  let journal := (PatchJournal.empty journalCapacity).record 3 ranges
  have covers : journal.Covers 100 := ⟨by decide, (3, ranges), rfl,
    show (3 : UInt64) ≤ 100 by decide⟩
  refine ⟨origin, v, _, journal, created, opened, serves, rfl, granted, ?_, ?_⟩
  · rw [isGranted_sample created run granted, catchUp_covered v₁ covers]
    rfl
  · rintro lastHash ⟨earlier, w, isPrefix, reached, counted, _⟩
    have bound : recordsAfter earlier ≤ 4 := recordsAfter_isPrefix isPrefix
    change recordsAfter earlier = 100 at counted
    omega

/-- It is so of the sample vault, whatever the journal. -/
theorem patch_at_position_iff_opened : ∃ origin v,
    Vault.create "v" "" 65536 "p" (identity 1) (draws 1) = .ok origin ∧
    Run "p" origin (sharedTrace 0 ++ [opening]) v ∧ ∀ journal : Option PatchJournal,
    ((∀ nextSeq lastHash message, (answer v journal (identity 2).peerId nextSeq = .ok message ∨
        ∃ kept, journal = some kept ∧
          pollNetwork v kept (identity 2).peerId nextSeq = .message message) →
      message = .fullSync v.file ∨
        AtPosition "p" origin (sharedTrace 0 ++ [opening]) nextSeq lastHash) ↔
    ∀ kept, journal = some kept → kept.entries = []) := by
  obtain ⟨origin, v, created, _, opened, _, _⟩ := exists_opened 0
  exact ⟨origin, v, created, opened, fun journal => patch_at_position_iff created opened
    (show _ ∈ [(identity 2).peerId] from List.mem_singleton.mpr rfl) journal⟩

end Transparent

end ReVault
