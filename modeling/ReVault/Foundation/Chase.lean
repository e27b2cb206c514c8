import Mathlib.Data.Fintype.Pigeonhole
import Mathlib.Tactic.Common

/-!
# Chasing pointers

Following pointers from node to node until the last one, with fuel. When the nodes can be
numbered below the fuel, the fuel decides whether the chase ever ends: it is lost exactly
when it meets a node twice, and then it is lost with any fuel.
-/

namespace ReVault.Foundation

variable {ε Node α : Type} [DecidableEq Node]

/-- Reads node after node, from the first one to the last; out of fuel it is lost. -/
def chase (read : Node → Except ε (Node × α)) (last : Node) (lost : ε) :
    (fuel : Nat) → (next : Node) → Except ε (List (Node × α))
  | 0, next => if next = last then .ok [] else .error lost
  | fuel + 1, next =>
      if next = last then .ok []
      else do
        let (following, found) ← read next
        let rest ← chase read last lost fuel following
        .ok ((next, found) :: rest)

/-- The node that one leads to. -/
def follow (read : Node → Except ε (Node × α)) (last node : Node) : Option Node :=
  if node = last then none
  else
    match read node with
    | .ok (following, _) => some following
    | .error _ => none

/-- The node reached after so many pointers. -/
def pointer (read : Node → Except ε (Node × α)) (last start : Node) : Nat → Option Node
  | 0 => some start
  | count + 1 => (pointer read last start count).bind (follow read last)

section

variable {read : Node → Except ε (Node × α)} {last start node following : Node} {lost : ε}

/-- The walk does not go on from the last node. -/
theorem ne_last_of_follow (followed : follow read last node = some following) : node ≠ last := by
  rintro rfl
  unfold follow at followed
  rw [if_pos rfl] at followed
  cases followed

/-- From any other that can be read it does. -/
theorem follow_of_ok {found : α} (live : node ≠ last)
    (readable : read node = .ok (following, found)) :
    follow read last node = some following := by
  unfold follow
  rw [if_neg live, readable]

/-- It goes on from what has been read. -/
theorem exists_of_follow (followed : follow read last node = some following) :
    ∃ found, read node = .ok (following, found) := by
  unfold follow at followed
  split at followed
  · cases followed
  split at followed
  · rename_i found readable
    cases followed
    exact ⟨found, readable⟩
  · cases followed

/-- One step. -/
theorem pointer_one : pointer read last start 1 = follow read last start := Option.bind_some ..

/-- Steps after steps. -/
theorem pointer_add (first count : Nat) : pointer read last start (first + count) =
    (pointer read last start first).bind fun node => pointer read last node count := by
  induction count with
  | zero => exact (Option.bind_fun_some _).symm
  | succ count ih =>
      change (pointer read last start (first + count)).bind (follow read last) = _
      rw [ih, Option.bind_assoc]
      rfl

/-- The first pointer, and then the others. -/
theorem pointer_succ (count : Nat) : pointer read last start (count + 1) =
    (follow read last start).bind fun node => pointer read last node count := by
  rw [Nat.add_comm, pointer_add]
  rfl

/-- Every pointer before one that was reached was reached, and was not the last node. -/
theorem exists_pointer_of_lt {count earlier : Nat}
    (reached : pointer read last start count = some node) (before : earlier < count) :
    ∃ other, pointer read last start earlier = some other ∧ other ≠ last := by
  obtain ⟨more, rfl⟩ := Nat.exists_eq_add_of_lt before
  rw [Nat.add_assoc, pointer_add] at reached
  obtain ⟨other, found, reached⟩ := Option.bind_eq_some_iff.mp reached
  refine ⟨other, found, ?_⟩
  rw [Nat.add_comm more 1, pointer_add] at reached
  obtain ⟨next, followed, _⟩ := Option.bind_eq_some_iff.mp reached
  exact ne_last_of_follow followed

/-- The chase is lost when its fuel ends before the pointers do. -/
theorem chase_eq_lost_iff (readable : ∀ node, read node ≠ .error lost) (fuel : Nat) :
    chase read last lost fuel start = .error lost ↔
      ∃ node, pointer read last start fuel = some node ∧ node ≠ last := by
  induction fuel generalizing start with
  | zero =>
      by_cases ends : start = last
      · simp only [chase, ends, if_pos, reduceCtorEq, pointer, Option.some.injEq, false_iff,
          not_exists, not_and, not_not]
        exact fun node same => same.symm
      · simp only [chase, ends, if_false, pointer, Option.some.injEq, true_iff]
        exact ⟨start, rfl, ends⟩
  | succ fuel ih =>
      rw [pointer_succ]
      unfold chase follow
      by_cases ends : start = last
      · simp only [ends, if_pos, reduceCtorEq, Option.bind_none, false_and, exists_false]
      · rw [if_neg ends, if_neg ends]
        cases found : read start with
        | error error =>
            have other : error ≠ lost := by
              rintro rfl
              exact readable start found
            simp only [Option.bind_none, reduceCtorEq, false_and, exists_false, iff_false]
            exact fun same => other (Except.error.inj same)
        | ok pair =>
            rw [Option.bind_some, ← ih]
            change (chase read last lost fuel pair.1 >>= fun rest =>
              .ok ((start, pair.2) :: rest)) = .error lost ↔ _
            cases chase read last lost fuel pair.1 with
            | ok rest =>
                constructor <;> intro impossible <;> cases impossible
            | error error =>
                constructor <;> exact fun same => congrArg Except.error (Except.error.inj same)

/-- A chase fails in any other way when a node that it reaches cannot be read. -/
theorem chase_eq_error {error : ε} (other : error ≠ lost) {fuel : Nat}
    (failed : chase read last lost fuel start = .error error) :
    ∃ count node, pointer read last start count = some node ∧ node ≠ last ∧
      read node = .error error := by
  induction fuel generalizing start with
  | zero =>
      unfold chase at failed
      split at failed
      · cases failed
      · exact absurd (Except.error.inj failed).symm other
  | succ fuel ih =>
      unfold chase at failed
      split at failed
      · cases failed
      rename_i live
      cases found : read start with
      | error error' =>
          rw [found] at failed
          cases failed
          exact ⟨0, start, rfl, live, found⟩
      | ok pair =>
          rw [found] at failed
          have deeper : chase read last lost fuel pair.1 = .error error := by
            change (chase read last lost fuel pair.1 >>= fun rest =>
              .ok ((start, pair.2) :: rest)) = .error error at failed
            cases rest : chase read last lost fuel pair.1 with
            | ok nodes =>
                rw [rest] at failed
                cases failed
            | error error' =>
                rw [rest] at failed
                exact congrArg Except.error (Except.error.inj failed)
          obtain ⟨count, node, reached, rest⟩ := ih deeper
          have followed : follow read last start = some pair.1 := follow_of_ok live found
          refine ⟨1 + count, node, ?_, rest⟩
          rw [pointer_add]
          exact (congrArg (Option.bind · _) followed).trans reached

/-- A chase that meets a node twice goes on for ever. -/
theorem exists_pointer_of_repeats {early late : Nat} (ordered : early < late)
    (first : pointer read last start early = some node)
    (again : pointer read last start late = some node) (count : Nat) :
    ∃ other, pointer read last start count = some other ∧ other ≠ last := by
  obtain ⟨more, rfl⟩ := Nat.exists_eq_add_of_lt ordered
  rw [Nat.add_assoc, pointer_add, first, Option.bind_some] at again
  have returns : ∀ rounds,
      pointer read last start (early + rounds * (more + 1)) = some node := by
    intro rounds
    induction rounds with
    | zero => rw [Nat.zero_mul]; exact first
    | succ rounds ih =>
        rw [Nat.succ_mul, ← Nat.add_assoc, pointer_add, ih, Option.bind_some]
        exact again
  refine exists_pointer_of_lt (returns (count + 1)) ?_
  have scaled : count + 1 ≤ (count + 1) * (more + 1) :=
    Nat.le_mul_of_pos_right (count + 1) (Nat.succ_pos more)
  omega

/-- Among nodes numbered below the number of pointers followed, two are the same. -/
theorem exists_repeats {bound : Nat} {number : Node → Fin bound}
    (numbered : Function.Injective number) (reached : pointer read last start bound = some node) :
    ∃ early late again, early < late ∧ late ≤ bound ∧
      pointer read last start early = some again ∧ pointer read last start late = some again := by
  have all : ∀ count : Fin (bound + 1), ∃ node, pointer read last start count = some node := by
    intro count
    rcases Nat.lt_or_ge count bound with before | after
    · obtain ⟨node, found, _⟩ := exists_pointer_of_lt reached before
      exact ⟨node, found⟩
    · have same : (count : Nat) = bound := Nat.le_antisymm (Nat.le_of_lt_succ count.isLt) after
      exact ⟨node, by rw [same]; exact reached⟩
  choose visited found using all
  obtain ⟨first, second, different, same⟩ :=
    Fintype.exists_ne_map_eq_of_card_lt (number ∘ visited)
      (by rw [Fintype.card_fin, Fintype.card_fin]; exact Nat.lt_succ_self bound)
  have same : visited first = visited second := numbered same
  rcases Nat.lt_or_gt_of_ne (Fin.val_ne_of_ne different) with ordered | ordered
  · exact ⟨first, second, visited first, ordered, Nat.le_of_lt_succ second.isLt, found first,
      same ▸ found second⟩
  · exact ⟨second, first, visited second, ordered, Nat.le_of_lt_succ first.isLt, found second,
      same ▸ found first⟩

/-- Every node that is reached is reached by fewer pointers than there are numbers. -/
theorem exists_pointer_below {bound count : Nat} {number : Node → Fin bound}
    (numbered : Function.Injective number) (reached : pointer read last start count = some node) :
    ∃ fewer < bound, pointer read last start fewer = some node := by
  induction count using Nat.strong_induction_on with
  | _ count ih =>
      rcases Nat.lt_or_ge count bound with before | after
      · exact ⟨count, before, reached⟩
      · have long : ∃ other, pointer read last start bound = some other := by
          rcases Nat.eq_or_lt_of_le after with same | before
          · exact ⟨node, same ▸ reached⟩
          · obtain ⟨other, found, _⟩ := exists_pointer_of_lt reached before
            exact ⟨other, found⟩
        obtain ⟨early, late, again, ordered, within, first, second⟩ :=
          exists_repeats numbered long.choose_spec
        -- the pointers between the two visits can be left out
        have shorter : pointer read last start (early + (count - late)) = some node := by
          rw [show count = late + (count - late) by omega, pointer_add, second,
            Option.bind_some] at reached
          rw [pointer_add, first, Option.bind_some]
          exact reached
        exact ih _ (by omega) shorter

/-- **Lost.** A chase among nodes numbered below its fuel is lost exactly when it meets a node
twice. -/
theorem chase_eq_lost_iff_repeats (readable : ∀ node, read node ≠ .error lost) {fuel : Nat}
    {number : Node → Fin fuel} (numbered : Function.Injective number) :
    chase read last lost fuel start = .error lost ↔ ∃ early late node, early < late ∧
      pointer read last start early = some node ∧ pointer read last start late = some node := by
  rw [chase_eq_lost_iff readable]
  constructor
  · rintro ⟨final, reached, _⟩
    obtain ⟨early, late, again, ordered, _, first, second⟩ := exists_repeats numbered reached
    exact ⟨early, late, again, ordered, first, second⟩
  · rintro ⟨early, late, node, ordered, first, again⟩
    exact exists_pointer_of_repeats ordered first again fuel

end

end ReVault.Foundation
