import Mathlib.Data.List.DropRight
import ReVault.Core.Error
import ReVault.Foundation.Bytes

/-!
# The journal of recent patches

A serving session keeps the patches of the last changes, each with the sequence number
of the record that the change appended. A peer that is not further behind than the oldest
entry is caught up with the entries from its own position on.
-/

namespace ReVault

open Foundation

/-- A bounded history of patches, oldest first. -/
structure PatchJournal where
  entries : List (UInt64 × List (UInt64 × Bytes))
  capacity : Nat
  deriving DecidableEq

namespace PatchJournal

/-- A journal with no entries. -/
def empty (capacity : Nat) : PatchJournal where
  entries := []
  capacity := capacity

/-- The most entries that a journal can be given room for: a queue takes at most 2^63 - 1 bytes,
and a sequence number with the vector of its ranges takes 32. -/
def maxCapacity : Nat := (2 ^ 63 - 1) / 32

/-- Makes room for all the entries at once. -/
def new (capacity : Nat) : Except Fault PatchJournal :=
  if capacity > maxCapacity then .error .panic else .ok (empty capacity)

/-- Drops entries from the front until no more than the capacity are left. -/
def evict (capacity : Nat) :
    List (UInt64 × List (UInt64 × Bytes)) → List (UInt64 × List (UInt64 × Bytes))
  | [] => []
  | entry :: rest =>
      if (entry :: rest).length > capacity then evict capacity rest else entry :: rest

/-- Records the patch of the change that appended the record with this number. -/
def record (journal : PatchJournal) (seq : UInt64) (ranges : List (UInt64 × Bytes)) :
    PatchJournal :=
  if journal.capacity = 0 then journal
  else { journal with entries := evict journal.capacity (journal.entries ++ [(seq, ranges)]) }

/-- The ranges that bring a peer up to date, when the journal reaches back to its
position. A peer without a replica is never covered. -/
def rangesSince (journal : PatchJournal) (peerNextSeq : UInt64) :
    Option (List (UInt64 × Bytes)) :=
  if peerNextSeq = 0 then none
  else
    match journal.entries with
    | [] => none
    | (oldestSeq, _) :: _ =>
        if peerNextSeq < oldestSeq then none
        else some ((journal.entries.filter fun entry => peerNextSeq ≤ entry.1).flatMap
          fun entry => entry.2)

/-! ## Entries that are kept -/

/-- Eviction keeps the newest entries, as many as the capacity. -/
theorem evict_eq (capacity : Nat) (entries : List (UInt64 × List (UInt64 × Bytes))) :
    evict capacity entries = entries.rtake capacity := by
  induction entries with
  | nil => rw [List.rtake_nil]; rfl
  | cons first rest ih =>
      unfold evict
      split
      · rename_i tooMany
        rw [List.length_cons] at tooMany
        rw [ih, List.rtake, List.rtake, List.length_cons, Nat.succ_sub (Nat.le_of_lt_succ tooMany),
          List.drop_succ_cons]
      · rename_i fits
        rw [List.rtake, Nat.sub_eq_zero_of_le (Nat.le_of_not_gt fits), List.drop_zero]

/-- The newest entry stays in a journal that can hold one. -/
theorem evict_concat {capacity : Nat} (positive : capacity ≠ 0)
    (entries : List (UInt64 × List (UInt64 × Bytes)))
    (entry : UInt64 × List (UInt64 × Bytes)) :
    ∃ kept, kept <:+ entries ∧ evict capacity (entries ++ [entry]) = kept ++ [entry] := by
  obtain ⟨rest, rfl⟩ := Nat.exists_eq_succ_of_ne_zero positive
  refine ⟨entries.rtake rest, List.drop_suffix _ _, ?_⟩
  rw [evict_eq, List.rtake_concat_succ]

/-- A recorded patch becomes the newest entry of a journal that can hold one. -/
theorem record_entries (journal : PatchJournal) (seq : UInt64)
    (ranges : List (UInt64 × Bytes)) : journal.capacity = 0 ∧ journal.record seq ranges = journal ∨
      ∃ kept, kept <:+ journal.entries ∧
        (journal.record seq ranges).entries = kept ++ [(seq, ranges)] := by
  by_cases empty : journal.capacity = 0
  · exact Or.inl ⟨empty, if_pos empty⟩
  · obtain ⟨kept, suffix, evicted⟩ := evict_concat empty journal.entries (seq, ranges)
    refine Or.inr ⟨kept, suffix, ?_⟩
    simp only [record, if_neg empty, evicted]

/-! ## Coverage -/

/-- The journal reaches back to a position: the oldest entry is not newer. -/
def Covers (journal : PatchJournal) (nextSeq : UInt64) : Prop :=
  nextSeq ≠ 0 ∧ ∃ oldest, journal.entries.head? = some oldest ∧ oldest.1 ≤ nextSeq

/-- Whether the journal reaches back to a position can be computed. -/
instance (journal : PatchJournal) (nextSeq : UInt64) : Decidable (journal.Covers nextSeq) :=
  match entriesAre : journal.entries with
  | [] => isFalse fun covers => by
      obtain ⟨_, oldest, isHead, _⟩ := covers
      rw [entriesAre] at isHead
      cases isHead
  | entry :: _ => decidable_of_iff (nextSeq ≠ 0 ∧ entry.1 ≤ nextSeq) (by
      simp only [Covers, entriesAre, List.head?_cons, Option.some.injEq, exists_eq_left'])

/-- A peer is sent a patch exactly when the journal reaches back to its position. -/
theorem rangesSince_eq_some_iff {journal : PatchJournal} {nextSeq : UInt64}
    {ranges : List (UInt64 × Bytes)} : journal.rangesSince nextSeq = some ranges ↔
      journal.Covers nextSeq ∧
        ranges = (journal.entries.filter fun entry => nextSeq ≤ entry.1).flatMap
          fun entry => entry.2 := by
  unfold rangesSince Covers
  by_cases fresh : nextSeq = 0
  · simp [fresh]
  · cases entriesAre : journal.entries with
    | nil => simp [fresh]
    | cons oldest rest =>
        by_cases behind : nextSeq < oldest.1
        · simp [fresh, behind]
        · simp [fresh, behind, UInt64.not_lt.mp behind, eq_comm]

/-- There is no patch exactly when the journal does not reach back. -/
theorem rangesSince_eq_none_iff {journal : PatchJournal} {nextSeq : UInt64} :
    journal.rangesSince nextSeq = none ↔ ¬ journal.Covers nextSeq := by
  constructor
  · intro missing covers
    have found := rangesSince_eq_some_iff.mpr ⟨covers, rfl⟩
    rw [missing] at found
    cases found
  · intro uncovered
    cases found : journal.rangesSince nextSeq with
    | none => rfl
    | some ranges => exact absurd (rangesSince_eq_some_iff.mp found).1 uncovered

/-! ## A history of patches -/

/-- Records several patches, oldest first. -/
def recordAll (journal : PatchJournal) (history : List (UInt64 × List (UInt64 × Bytes))) :
    PatchJournal :=
  history.foldl (fun current entry => current.record entry.1 entry.2) journal

/-- Recording keeps the capacity. -/
@[simp] theorem capacity_record (journal : PatchJournal) (seq : UInt64)
    (ranges : List (UInt64 × Bytes)) : (journal.record seq ranges).capacity = journal.capacity := by
  unfold record
  split <;> rfl

/-- The journal of a history has the newest entries of it, as many as the capacity. -/
theorem recordAll_empty (capacity : Nat) (history : List (UInt64 × List (UInt64 × Bytes))) :
    ((empty capacity).recordAll history).capacity = capacity ∧
      ((empty capacity).recordAll history).entries = history.rtake capacity := by
  induction history using List.reverseRecOn with
  | nil => exact ⟨rfl, (List.rtake_nil capacity).symm⟩
  | append_singleton history entry ih =>
      obtain ⟨sized, kept⟩ := ih
      have recorded : (empty capacity).recordAll (history ++ [entry]) =
          ((empty capacity).recordAll history).record entry.1 entry.2 := List.foldl_concat ..
      rw [recorded]
      refine ⟨(capacity_record _ _ _).trans sized, ?_⟩
      cases capacity with
      | zero =>
          rw [List.rtake_zero] at kept ⊢
          simp only [record, sized, if_true, kept]
      | succ rest =>
          simp only [record, sized, Nat.succ_ne_zero, if_false, kept]
          rw [evict_eq, List.rtake_concat_succ, List.rtake_concat_succ, List.rtake, List.rtake,
            List.length_drop, List.drop_drop]
          congr 2
          omega

/-- A peer that needs nothing older than the oldest entry needs no evicted entry. -/
theorem filter_rtake {history : List (UInt64 × List (UInt64 × Bytes))} {capacity : Nat}
    {nextSeq : UInt64} {oldest : UInt64 × List (UInt64 × Bytes)}
    (increasing : history.Pairwise fun first second => first.1 < second.1)
    (isOldest : (history.rtake capacity).head? = some oldest) (reaches : oldest.1 ≤ nextSeq) :
    (history.rtake capacity).filter (fun entry => nextSeq ≤ entry.1) =
      history.filter fun entry => nextSeq ≤ entry.1 := by
  obtain ⟨evicted, split⟩ : history.rtake capacity <:+ history := List.drop_suffix _ _
  generalize history.rtake capacity = kept at isOldest split
  subst split
  have unneeded : evicted.filter (fun entry => decide (nextSeq ≤ entry.1)) = [] := by
    rw [List.filter_eq_nil_iff]
    intro entry member needed
    have older := (List.pairwise_append.mp increasing).2.2 entry member oldest
      (List.mem_of_head? isOldest)
    exact UInt64.not_le.mpr (UInt64.lt_of_lt_of_le older reaches) (of_decide_eq_true needed)
  rw [List.filter_append, unneeded, List.nil_append]

/-- What the journal of a history answers: it has the last of its patches, as many as the
capacity; a position is covered exactly when it is not zero and the journal reaches back to it,
and is then sent every patch ever recorded from there on. -/
structure Exact (capacity : Nat) (history : List (UInt64 × List (UInt64 × Bytes)))
    (journal : PatchJournal) : Prop where
  entries : journal.entries = history.rtake (min history.length capacity)
  uncovered : ∀ nextSeq, journal.rangesSince nextSeq = none ↔
    nextSeq = 0 ∨ journal.entries = [] ∨
      ∃ oldest, journal.entries.head? = some oldest ∧ nextSeq < oldest.1
  covered : ∀ nextSeq ranges, journal.rangesSince nextSeq = some ranges →
    ranges = (history.filter fun entry => nextSeq ≤ entry.1).flatMap fun entry => entry.2

/-- A journal that starts empty answers exactly. -/
theorem exact_recordAll (capacity : Nat) {history : List (UInt64 × List (UInt64 × Bytes))}
    (increasing : history.Pairwise fun first second => first.1 < second.1) :
    Exact capacity history ((empty capacity).recordAll history) := by
  obtain ⟨_, kept⟩ := recordAll_empty capacity history
  refine ⟨?_, fun nextSeq => ?_, fun nextSeq ranges found => ?_⟩
  · rw [kept, List.rtake, List.rtake]
    congr 1
    omega
  · rw [rangesSince_eq_none_iff]
    unfold Covers
    cases entriesAre : ((empty capacity).recordAll history).entries with
    | nil => simp
    | cons oldest newer =>
        simp only [List.head?_cons, Option.some.injEq, exists_eq_left', reduceCtorEq, false_or,
          not_and_or, not_not, UInt64.not_le]
  · obtain ⟨⟨_, oldest, isOldest, reaches⟩, rfl⟩ := rangesSince_eq_some_iff.mp found
    rw [kept] at isOldest ⊢
    rw [filter_rtake increasing isOldest reaches]

/-- A journal can be made with a capacity, and after patches with increasing sequence numbers
answers exactly. -/
def CoverageExact (capacity : Nat) : Prop :=
  ∃ journal, new capacity = .ok journal ∧
    ∀ history : List (UInt64 × List (UInt64 × Bytes)),
      (history.Pairwise fun first second => first.1 < second.1) →
        Exact capacity history (journal.recordAll history)

/-- **Coverage.** The coverage of a journal is exact for every capacity below 2^58; for every
other one no journal can be made. -/
theorem coverage_exact_iff (capacity : Nat) : CoverageExact capacity ↔ capacity < 2 ^ 58 := by
  constructor
  · rintro ⟨journal, made, _⟩
    by_contra large
    have panicked : new capacity = .error .panic := if_pos (by unfold maxCapacity; omega)
    rw [panicked] at made
    cases made
  · intro small
    refine ⟨empty capacity, if_neg (by unfold maxCapacity; omega), fun history increasing => ?_⟩
    exact exact_recordAll capacity increasing

/-- No journal can be made for 2^58 entries. -/
theorem coverage_not_exact : new (2 ^ 58) = .error .panic ∧ ¬ CoverageExact (2 ^ 58) := by
  refine ⟨rfl, ?_⟩
  rintro ⟨journal, made, _⟩
  cases made

end PatchJournal

end ReVault
