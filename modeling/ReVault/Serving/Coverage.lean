import ReVault.Net.Sync
import ReVault.Serving.Past
import ReVault.Sync.Replay

/-!
# What a journal covers

A handle drains its change log into the journal of its session. `Journaled` says what the
entries of the journal and the rest of the change log are good for: from every past
container that the journal reaches back to, the entries from there on lead to the
container of the last drain, and the change log leads on to the present one.
-/

namespace ReVault

open Foundation Primitives

/-- The ranges of the entries from a sequence number on. -/
def rangesFrom (count : Nat) (entries : List (UInt64 × Piece)) : Piece :=
  (entries.filter fun entry => count ≤ entry.1.toNat).flatMap fun entry => entry.2

/-- The ranges from a position on, in two parts. -/
theorem rangesFrom_append (count : Nat) (older newer : List (UInt64 × Piece)) :
    rangesFrom count (older ++ newer) = rangesFrom count older ++ rangesFrom count newer := by
  simp only [rangesFrom, List.filter_append, List.flatMap_append]

/-- Older entries have none. -/
theorem rangesFrom_of_lt {count : Nat} {entries : List (UInt64 × Piece)}
    (older : ∀ entry ∈ entries, entry.1.toNat < count) : rangesFrom count entries = [] := by
  have none : (entries.filter fun entry => count ≤ entry.1.toNat) = [] := by
    simp only [List.filter_eq_nil_iff, decide_eq_true_eq, Nat.not_le]
    exact older
  simp only [rangesFrom, none, List.flatMap_nil]

/-- A newer entry has its own. -/
theorem rangesFrom_singleton {count : Nat} {entry : UInt64 × Piece}
    (newer : count ≤ entry.1.toNat) : rangesFrom count [entry] = entry.2 := by
  simp only [rangesFrom, List.filter_singleton, decide_eq_true newer, List.flatMap_singleton,
    cond_true]

/-- What a peer is sent from a journal. -/
theorem PatchJournal.rangesSince_eq {journal : PatchJournal} {nextSeq : UInt64}
    {ranges : Piece} : journal.rangesSince nextSeq = some ranges ↔
      journal.Covers nextSeq ∧ ranges = rangesFrom nextSeq.toNat journal.entries :=
  PatchJournal.rangesSince_eq_some_iff

/-- Containers by the number of records written; the one with the most is the present. -/
structure History (past : Nat → Bytes → Prop) (count : Nat) (file : Bytes) : Prop where
  present : past count file
  below : ∀ at' other, past at' other → at' ≤ count
  only : ∀ other, past count other → other = file

/-- A handle at `count` records whose change log was last drained at `mark` records, when
the container was `drained`, and the journal of its drained pieces. -/
structure Journaled (past : Nat → Bytes → Prop) (count : Nat) (v : Vault)
    (journal : PatchJournal) (mark : Nat) (drained : Bytes) : Prop where
  reached : past mark drained
  replayed : v.file = replay (Piece.patch v.changeLog) drained
  bounded : Piece.Bounded v.changeLog
  pending : ∀ at' file, past at' file → mark ≤ at' →
    ∃ done, done <+: v.changeLog ∧ file = replay (Piece.patch done) drained
  settled : mark = count → v.changeLog = []
  unused : journal.capacity = 0 → journal.entries = []
  older : ∀ entry ∈ journal.entries, entry.1.toNat < mark
  entries : ∀ entry ∈ journal.entries, Piece.Bounded entry.2
  increasing : journal.entries.Pairwise fun first second => first.1.toNat < second.1.toNat
  caught : ∀ at' file, past at' file → at' < mark → ∀ oldest,
    journal.entries.head? = some oldest → oldest.1.toNat ≤ at' →
    replay (Piece.patch (rangesFrom at' journal.entries)) file = drained

/-- The history grows by the container after a change. -/
theorem History.grow {past past' : Nat → Bytes → Prop} {count : Nat} {file file' : Bytes}
    (history : History past count file)
    (grown : ∀ at' other, past' at' other ↔ past at' other ∨ at' = count + 1 ∧ other = file') :
    History past' (count + 1) file' where
  present := (grown _ _).mpr (Or.inr ⟨rfl, rfl⟩)
  below := by
    intro at' other shown
    rcases (grown _ _).mp shown with old | ⟨rfl, _⟩
    · exact (history.below at' other old).trans (Nat.le_succ count)
    · exact Nat.le_refl _
  only := by
    intro other shown
    rcases (grown _ _).mp shown with old | ⟨_, same⟩
    · exact absurd (history.below _ other old) (Nat.not_succ_le_self count)
    · exact same

namespace Journaled

variable {past past' : Nat → Bytes → Prop} {count mark : Nat} {v v' : Vault}
  {journal : PatchJournal} {drained : Bytes} {piece : Piece}

/-- A handle with an empty change log and an empty journal. -/
theorem start (history : History past count v.file) (drained : v.changeLog = [])
    (capacity : Nat) : Journaled past count v (PatchJournal.empty capacity) count v.file where
  reached := history.present
  replayed := by
    rw [drained]
    rfl
  bounded := by
    rw [drained]
    exact fun _ member => absurd member List.not_mem_nil
  pending := by
    intro at' file shown high
    rw [Nat.le_antisymm (history.below at' file shown) high] at shown
    exact ⟨[], List.nil_prefix, history.only file shown⟩
  settled := fun _ => drained
  unused := fun _ => rfl
  older := fun _ member => absurd member List.not_mem_nil
  entries := fun _ member => absurd member List.not_mem_nil
  increasing := List.Pairwise.nil
  caught := by
    intro _ _ _ _ oldest isHead
    cases isHead

/-- A session ends or begins: the journal is empty again. -/
theorem restart (journaled : Journaled past count v journal mark drained) (capacity : Nat) :
    Journaled past count v (PatchJournal.empty capacity) mark drained where
  reached := journaled.reached
  replayed := journaled.replayed
  bounded := journaled.bounded
  pending := journaled.pending
  settled := journaled.settled
  unused := fun _ => rfl
  older := fun _ member => absurd member List.not_mem_nil
  entries := fun _ member => absurd member List.not_mem_nil
  increasing := List.Pairwise.nil
  caught := by
    intro _ _ _ _ oldest isHead
    cases isHead

/-- The invariant speaks of the container, the change log and the past only. -/
theorem congr (journaled : Journaled past count v journal mark drained)
    (sameFile : v'.file = v.file) (sameLog : v'.changeLog = v.changeLog)
    (same : ∀ at' file, past' at' file ↔ past at' file) :
    Journaled past' count v' journal mark drained where
  reached := (same _ _).mpr journaled.reached
  replayed := by
    rw [sameFile, sameLog]
    exact journaled.replayed
  bounded := by
    rw [sameLog]
    exact journaled.bounded
  pending := by
    rw [sameLog]
    exact fun at' file shown => journaled.pending at' file ((same _ _).mp shown)
  settled := by
    rw [sameLog]
    exact journaled.settled
  unused := journaled.unused
  older := journaled.older
  entries := journaled.entries
  increasing := journaled.increasing
  caught := fun at' file shown => journaled.caught at' file ((same _ _).mp shown)

section Change

variable (journaled : Journaled past count v journal mark drained)
  (history : History past count v.file) (logged : Logged v v' piece)
  (grown : ∀ at' file, past' at' file ↔
    past at' file ∨ at' = count + 1 ∧ file = v'.file)

include journaled logged

/-- The change log of a changed handle leads on from the last drain. -/
theorem replayed_logged : v'.file = replay (Piece.patch v'.changeLog) drained := by
  rw [logged.replayed, journaled.replayed, logged.recorded, Piece.patch_append, replay_append]

/-- What was logged is bounded. -/
theorem bounded_logged : Piece.Bounded v'.changeLog := by
  rw [logged.recorded]
  exact fun range member =>
    (List.mem_append.mp member).elim (journaled.bounded range) (logged.bounded range)

include history grown

/-- A change that is not drained stays in the change log. -/
theorem change : Journaled past' (count + 1) v' journal mark drained where
  reached := (grown _ _).mpr (Or.inl journaled.reached)
  replayed := journaled.replayed_logged logged
  bounded := journaled.bounded_logged logged
  pending := by
    intro at' file shown high
    rcases (grown _ _).mp shown with old | ⟨_, rfl⟩
    · obtain ⟨done, isPrefix, rfl⟩ := journaled.pending at' file old high
      refine ⟨done, ?_, rfl⟩
      rw [logged.recorded]
      exact isPrefix.trans (List.prefix_append _ _)
    · exact ⟨_, List.prefix_refl _, journaled.replayed_logged logged⟩
  settled := by
    intro same
    have bound := history.below mark drained journaled.reached
    omega
  unused := journaled.unused
  older := journaled.older
  entries := journaled.entries
  increasing := journaled.increasing
  caught := by
    intro at' file shown low
    rcases (grown _ _).mp shown with old | ⟨rfl, _⟩
    · exact journaled.caught at' file old low
    · have bound := history.below mark drained journaled.reached
      omega

/-- From a past container, the kept entries and the drained piece lead to the present. -/
theorem caught_published {kept : List (UInt64 × Piece)} (suffix : kept <:+ journal.entries)
    {seq : UInt64} (numbered : seq.toNat = count) {at' : Nat} {file : Bytes}
    (shown : past' at' file) (low : at' < count + 1) {oldest : UInt64 × Piece}
    (isHead : (kept ++ [(seq, v'.changeLog)]).head? = some oldest)
    (reaches : oldest.1.toNat ≤ at') :
    replay (Piece.patch (rangesFrom at' (kept ++ [(seq, v'.changeLog)]))) file = v'.file := by
  have old : past at' file := by
    rcases (grown _ _).mp shown with old | ⟨rfl, _⟩
    · exact old
    · omega
  have newest : rangesFrom at' [(seq, v'.changeLog)] = v'.changeLog :=
    rangesFrom_singleton (by change at' ≤ seq.toNat; omega)
  rw [rangesFrom_append, newest, Piece.patch_append, replay_append,
    journaled.replayed_logged logged]
  by_cases before : at' < mark
  · -- the kept entries lead to the container of the last drain
    obtain ⟨dropped, split⟩ := suffix
    have bound := history.below mark drained journaled.reached
    cases kept with
    | nil =>
        cases isHead
        change seq.toNat ≤ at' at reaches
        omega
    | cons first rest =>
        cases isHead
        have increasing := journaled.increasing
        rw [← split] at increasing
        have evicted : ∀ entry ∈ dropped, entry.1.toNat < at' := fun entry member =>
          ((List.pairwise_append.mp increasing).2.2 entry member oldest
            List.mem_cons_self).trans_le reaches
        have whole : rangesFrom at' journal.entries = rangesFrom at' (oldest :: rest) := by
          rw [← split, rangesFrom_append, rangesFrom_of_lt evicted, List.nil_append]
        obtain ⟨head, headIs⟩ : ∃ head, journal.entries.head? = some head := by
          rw [← split]
          cases dropped with
          | nil => exact ⟨_, rfl⟩
          | cons head _ => exact ⟨head, rfl⟩
        have headReaches : head.1.toNat ≤ at' := by
          rw [← split] at headIs
          cases dropped with
          | nil =>
              cases headIs
              exact reaches
          | cons head' _ =>
              cases headIs
              exact (evicted head List.mem_cons_self).le
        rw [← whole, journaled.caught at' file old before head headIs headReaches]
  · -- the kept entries are older than the container, which is on the way of the piece
    have nothing : rangesFrom at' kept = [] :=
      rangesFrom_of_lt fun entry member =>
        (journaled.older entry (suffix.mem member)).trans_le (Nat.le_of_not_lt before)
    obtain ⟨done, isPrefix, rfl⟩ := journaled.pending at' file old (Nat.le_of_not_lt before)
    obtain ⟨later, whole⟩ : done <+: v'.changeLog := by
      rw [logged.recorded]
      exact isPrefix.trans (List.prefix_append _ _)
    rw [nothing, ← whole, Piece.patch_append]
    exact replay_again _ _ _

/-- A change whose patch is recorded leaves nothing undrained. -/
theorem publish {seq : UInt64} (numbered : seq.toNat = count) :
    Journaled past' (count + 1) v'.takeChangeLog.2 (journal.record seq v'.takeChangeLog.1)
      (count + 1) v'.file := by
  have history' : History past' (count + 1) v'.takeChangeLog.2.file :=
    History.grow history grown
  have empty : Journaled past' (count + 1) v'.takeChangeLog.2
      (PatchJournal.empty (journal.record seq v'.takeChangeLog.1).capacity) (count + 1) v'.file :=
    start history' rfl _
  rcases journal.record_entries seq v'.takeChangeLog.1 with ⟨zero, same⟩ | ⟨kept, suffix, entries⟩
  · -- a journal without capacity stays empty
    have unused := journaled.unused zero
    rw [same] at empty ⊢
    exact { empty with
      unused := fun _ => unused
      older := by
        rw [unused]
        exact fun _ member => absurd member List.not_mem_nil
      entries := by
        rw [unused]
        exact fun _ member => absurd member List.not_mem_nil
      increasing := by
        rw [unused]
        exact List.Pairwise.nil
      caught := by
        intro _ _ _ _ oldest isHead
        rw [unused] at isHead
        cases isHead }
  · have bound := history.below mark drained journaled.reached
    exact { empty with
      unused := by
        intro zero
        have whole : journal.capacity = 0 := by
          by_contra positive
          simp only [PatchJournal.record, if_neg positive] at zero
          exact positive zero
        have same : journal.record seq v'.takeChangeLog.1 = journal := if_pos whole
        rw [same]
        exact journaled.unused whole
      older := by
        rw [entries]
        intro entry member
        rcases List.mem_append.mp member with old | new
        · have lower := journaled.older entry (suffix.mem old)
          omega
        · rw [List.mem_singleton.mp new]
          change seq.toNat < count + 1
          omega
      entries := by
        rw [entries]
        intro entry member
        rcases List.mem_append.mp member with old | new
        · exact journaled.entries entry (suffix.mem old)
        · rw [List.mem_singleton.mp new]
          exact journaled.bounded_logged logged
      increasing := by
        rw [entries]
        refine List.pairwise_append.mpr
          ⟨journaled.increasing.sublist suffix.sublist, List.pairwise_singleton _ _, ?_⟩
        intro entry member other isNew
        rw [List.mem_singleton.mp isNew]
        have lower := journaled.older entry (suffix.mem member)
        change entry.1.toNat < seq.toNat
        omega
      caught := by
        rw [entries]
        intro at' file shown low oldest isHead reaches
        exact journaled.caught_published history logged grown suffix numbered shown low isHead
          reaches }

end Change

end Journaled

section

variable [Primitives]

/-- What a message makes of a replica is the container of a handle. -/
def Converges (message : SyncMessage) (replica v : Vault) : Prop :=
  match message with
  | .patch _ ranges => ∃ replica', Vault.applyRemotePatch ranges replica = .ok () replica' ∧
      replica'.file = v.file
  | .fullSync bytes => bytes = v.file
  | _ => False

omit [Primitives] in
/-- A peer that the journal does not reach back to is sent the whole container. -/
theorem catchUp_uncovered {journal : PatchJournal} {nextSeq : UInt64} (v : Vault)
    (uncovered : ¬ journal.Covers nextSeq) :
    catchUp v (some journal) nextSeq = .fullSync v.file := by
  simp only [catchUp, Option.bind_some, PatchJournal.rangesSince_eq_none_iff.mpr uncovered,
    Vault.exportFull]

omit [Primitives] in
/-- What is answered when the journal reaches back. -/
theorem catchUp_covered {journal : PatchJournal} {nextSeq : UInt64} (v : Vault)
    (covers : journal.Covers nextSeq) : catchUp v (some journal) nextSeq =
      .patch nextSeq (rangesFrom nextSeq.toNat journal.entries) := by
  simp only [catchUp, Option.bind_some, PatchJournal.rangesSince_eq.mpr ⟨covers, rfl⟩]

namespace Journaled

variable {past : Nat → Bytes → Prop} {count mark : Nat} {v replica : Vault}
  {journal : PatchJournal} {drained : Bytes} {nextSeq : UInt64}
  (journaled : Journaled past count v journal mark drained)
  (loads : ∀ at' file, past at' file → Loads file)
  (shown : past nextSeq.toNat replica.file)

include journaled

omit [Primitives] in
/-- The ranges of a journal are bounded. -/
theorem bounded_rangesFrom (at' : Nat) :
    Piece.Bounded (rangesFrom at' journal.entries) := by
  intro range member
  obtain ⟨entry, kept, inEntry⟩ := List.mem_flatMap.mp member
  exact journaled.entries entry (List.mem_filter.mp kept).1 range inEntry

include shown

omit [Primitives] in
/-- A covered peer that is behind the last drain is led there; a later one stays where
it is. -/
theorem replay_covered (covers : journal.Covers nextSeq) :
    replay (Piece.patch (rangesFrom nextSeq.toNat journal.entries)) replica.file =
      if nextSeq.toNat < mark then drained else replica.file := by
  obtain ⟨_, oldest, isHead, reaches⟩ := covers
  split
  · rename_i behind
    exact journaled.caught _ _ shown behind oldest isHead (UInt64.le_iff_toNat_le.mp reaches)
  · rename_i ahead
    rw [rangesFrom_of_lt fun entry member =>
      (journaled.older entry member).trans_le (Nat.le_of_not_lt ahead)]
    rfl

include loads

/-- The patch for a covered peer is applied. -/
theorem exists_caught (covers : journal.Covers nextSeq) : ∃ replica',
    Vault.applyRemotePatch (rangesFrom nextSeq.toNat journal.entries) replica = .ok () replica' ∧
      replica'.file = if nextSeq.toNat < mark then drained else replica.file := by
  have ends := journaled.replay_covered shown covers
  have loaded : Loads (replay (Piece.patch (rangesFrom nextSeq.toNat journal.entries))
      replica.file) := by
    rw [ends]
    split
    · exact loads _ _ journaled.reached
    · exact loads _ _ shown
  obtain ⟨replica', applied, file, _⟩ :=
    Vault.exists_applied (journaled.bounded_rangesFrom _) loaded
  exact ⟨replica', applied, file.trans ends⟩

/-- **Coverage.** The answer to a peer makes its replica the present container exactly when
the journal does not reach back to the peer, the peer is up to date, or no change is
waiting in the change log. -/
theorem converges_iff (history : History past count v.file)
    (distinct : ∀ at' at'' file, past at' file → past at'' file → at' = at'') :
    Converges (catchUp v (some journal) nextSeq) replica v ↔
      ¬ journal.Covers nextSeq ∨ nextSeq.toNat = count ∨ v.changeLog = [] := by
  by_cases covers : journal.Covers nextSeq
  · obtain ⟨replica', applied, file⟩ := journaled.exists_caught loads shown covers
    have converges : Converges (catchUp v (some journal) nextSeq) replica v ↔
        replica'.file = v.file := by
      rw [catchUp_covered v covers]
      constructor
      · rintro ⟨other, applied', same⟩
        rw [applied] at applied'
        cases applied'
        exact same
      · exact fun same => ⟨replica', applied, same⟩
    rw [converges, file]
    constructor
    · intro same
      by_cases behind : nextSeq.toNat < mark
      · rw [if_pos behind] at same
        refine Or.inr (Or.inr (journaled.settled (distinct mark count v.file ?_ history.present)))
        rw [← same]
        exact journaled.reached
      · rw [if_neg behind] at same
        refine Or.inr (Or.inl (distinct _ count v.file ?_ history.present))
        rw [← same]
        exact shown
    · have ahead : ¬ nextSeq.toNat < mark → v.changeLog = [] → replica.file = v.file := by
        intro ahead empty
        obtain ⟨done, isPrefix, same⟩ :=
          journaled.pending _ _ shown (Nat.le_of_not_lt ahead)
        rw [empty] at isPrefix
        rw [same, List.prefix_nil.mp isPrefix, journaled.replayed, empty]
      rintro (uncovered | current | empty)
      · exact absurd covers uncovered
      · have bound := history.below mark drained journaled.reached
        rw [current] at shown
        rw [if_neg (by omega)]
        exact history.only _ shown
      · split
        · rw [journaled.replayed, empty]
          rfl
        · rename_i notBehind
          exact ahead notBehind empty
  · rw [catchUp_uncovered v covers]
    exact ⟨fun _ => Or.inl covers, fun _ => rfl⟩

end Journaled

end

end ReVault
