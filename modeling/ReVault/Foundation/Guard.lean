import ReVault.Foundation.Chase
import ReVault.Foundation.Fallible
import ReVault.Foundation.Scan

/-!
# Guarded programs

A program with more checks than another does what the other does, or halts at the first check
that fails. Whether it halts is decided at each step that the other comes to: for a sequence, at
its first part and at what follows the value that the other returns; for a loop, at each item
that the other gets to.
-/

namespace ReVault.Foundation

variable {ε α β ι : Type} {halt : ε}

/-- A program that does what another one does, or halts. -/
def Guards (halt : ε) (guarded program : Except ε α) : Prop :=
  guarded = .error halt ∨ guarded = program

/-- All checks pass: the guarded program does what the other does, and that does not halt. -/
def Passes (halt : ε) (guarded program : Except ε α) : Prop :=
  guarded = program ∧ program ≠ .error halt

/-- A check that halts. -/
def assure (halt : ε) (condition : Prop) [Decidable condition] : Except ε Unit :=
  if condition then .ok () else .error halt

/-- An assurance halts exactly when its condition fails. -/
theorem assure_ne_iff {condition : Prop} [Decidable condition] :
    assure halt condition ≠ .error halt ↔ condition := by
  unfold assure
  by_cases holds : condition
  · rw [if_pos holds]
    exact iff_of_true (fun same => by cases same) holds
  · rw [if_neg holds]
    exact iff_of_false (fun differs => differs rfl) holds

/-- An assurance guards the program that does nothing. -/
theorem assure_guards (condition : Prop) [Decidable condition] :
    Guards halt (assure halt condition) (.ok ()) := by
  unfold assure
  split
  · exact Or.inr rfl
  · exact Or.inl rfl

namespace Guards

variable {guarded program : Except ε α}

/-- A program guards itself. -/
theorem refl (program : Except ε α) : Guards halt program program := Or.inr rfl

/-- A guarded program passes exactly when it does not halt. -/
theorem passes_iff (guards : Guards halt guarded program) :
    Passes halt guarded program ↔ guarded ≠ .error halt := by
  constructor
  · rintro ⟨rfl, goes⟩
    exact goes
  · intro goes
    have same := guards.resolve_left goes
    exact ⟨same, same ▸ goes⟩

/-- One program after another. -/
theorem bind (guards : Guards halt guarded program) {next' next : α → Except ε β}
    (rest : ∀ value, program = .ok value → Guards halt (next' value) (next value)) :
    Guards halt (guarded >>= next') (program >>= next) := by
  rcases guards with halts | same
  · rw [halts]
    exact Or.inl rfl
  · rw [same]
    cases outcome : program with
    | ok value => exact rest value outcome
    | error error => exact Or.inr rfl

/-- A guarded sequence goes on where its first part does and its rest does. -/
theorem bind_ne_iff (guards : Guards halt guarded program) {next : α → Except ε β} :
    (guarded >>= next) ≠ .error halt ↔
      guarded ≠ .error halt ∧ ∀ value, program = .ok value → next value ≠ .error halt := by
  rcases guards with halts | same
  · rw [halts]
    exact iff_of_false (fun differs => differs rfl) fun both => both.1 rfl
  · rw [same]
    cases program with
    | ok value =>
        have goes : ((.ok value : Except ε α) >>= next) = next value := rfl
        rw [goes]
        simp only [ne_eq, reduceCtorEq, not_false_eq_true, Except.ok.injEq, forall_eq', true_and]
    | error error =>
        have stops : ((.error error : Except ε α) >>= next) = .error error := rfl
        rw [stops]
        simp only [ne_eq, Except.error.injEq, reduceCtorEq, false_implies, implies_true, and_true]

/-- A check before a program is one more guard. -/
theorem assure_bind (guards : Guards halt guarded program) (condition : Prop)
    [Decidable condition] :
    Guards halt (assure halt condition >>= fun _ => guarded) program := by
  unfold assure
  split
  · exact guards
  · exact Or.inl rfl

end Guards

/-- Whether a program halts that begins with an assurance. -/
theorem assure_bind_ne_iff {condition : Prop} [Decidable condition] {program : Except ε α} :
    (assure halt condition >>= fun _ => program) ≠ .error halt ↔
      condition ∧ program ≠ .error halt := by
  rw [(assure_guards condition).bind_ne_iff, assure_ne_iff]
  exact and_congr_right fun _ => ⟨fun all => all () rfl, fun goes _ _ => goes⟩

/-! ## Items with those before them -/

/-- A relation between every item of a list and the items before it. -/
def AtEach (holds : List ι → ι → Prop) (items : List ι) : Prop :=
  ∀ earlier item later, items = earlier ++ item :: later → holds earlier item

/-- Nothing to hold at no items. -/
theorem atEach_nil (holds : List ι → ι → Prop) : AtEach holds [] :=
  fun _ _ _ split => absurd split (List.append_ne_nil_of_right_ne_nil _
    (List.cons_ne_nil _ _)).symm

/-- What holds at the first item and at the others after it. -/
theorem atEach_cons {holds : List ι → ι → Prop} {first : ι} {rest : List ι} :
    AtEach holds (first :: rest) ↔
      holds [] first ∧ AtEach (fun earlier => holds (first :: earlier)) rest := by
  constructor
  · intro all
    exact ⟨all [] first rest rfl, fun earlier item later split =>
      all (first :: earlier) item later (congrArg (first :: ·) split)⟩
  · rintro ⟨head, tail⟩ earlier item later split
    cases earlier with
    | nil =>
        cases split
        exact head
    | cons other earlier =>
        cases split
        exact tail earlier item later rfl

/-- The same condition at each item. -/
theorem atEach_congr {holds holds' : List ι → ι → Prop} {items : List ι}
    (same : ∀ earlier item, item ∈ items → (holds earlier item ↔ holds' earlier item)) :
    AtEach holds items ↔ AtEach holds' items := by
  have member : ∀ {earlier item later}, items = earlier ++ item :: later → item ∈ items := by
    rintro earlier item later rfl
    exact List.mem_append_right earlier List.mem_cons_self
  constructor
  · exact fun all earlier item later split =>
      (same earlier item (member split)).mp (all earlier item later split)
  · exact fun all earlier item later split =>
      (same earlier item (member split)).mpr (all earlier item later split)

/-- A range up to an index, and from it on. -/
theorem range_split {count index : Nat} (below : index < count) :
    ∃ later, List.range count = List.range index ++ index :: later := by
  obtain ⟨more, rfl⟩ := Nat.exists_eq_add_of_lt below
  refine ⟨((List.range more).map Nat.succ).map (index + ·), ?_⟩
  rw [Nat.add_assoc, List.range_add, List.range_succ_eq_map, List.map_cons, Nat.add_zero]

/-- The numbers before one in a range are the range up to it. -/
theorem atEach_range {holds : List Nat → Nat → Prop} {count : Nat} :
    AtEach holds (List.range count) ↔ ∀ index < count, holds (List.range index) index := by
  constructor
  · intro all index below
    obtain ⟨later, split⟩ := range_split below
    exact all _ index later split
  · intro all earlier index later split
    have length : earlier.length < count := by
      have lengths := congrArg List.length split
      rw [List.length_range, List.length_append, List.length_cons] at lengths
      omega
    have place : (List.range count)[earlier.length]? = some index := by
      rw [split, List.getElem?_append_right (Nat.le_refl _), Nat.sub_self]
      rfl
    rw [List.getElem?_range length] at place
    obtain rfl := Option.some.inj place
    have before : earlier = List.range earlier.length := by
      have taken := congrArg (List.take earlier.length) split
      rw [List.take_range, Nat.min_eq_left length.le, List.take_left] at taken
      exact taken.symm
    rw [before, List.length_range]
    exact all _ length

/-! ## Scans -/

section Scan

variable {read' read : Nat → Except ε α} (guards : ∀ index, Guards halt (read' index) (read index))
  (wanted : α → Bool)

include guards

/-- A search through slots that may halt. -/
theorem findSlot_guards (indices : List Nat) :
    Guards halt (findSlot read' wanted indices) (findSlot read wanted indices) := by
  induction indices with
  | nil => exact Guards.refl _
  | cons index rest ih =>
      refine (guards index).bind fun slot _ => ?_
      split
      · exact Guards.refl _
      · exact ih

/-- A guarded scan goes on where it does at each slot before which none is wanted. -/
theorem findSlot_ne_iff (indices : List Nat) :
    findSlot read' wanted indices ≠ .error halt ↔
      AtEach (fun earlier index =>
        (∀ other ∈ earlier, ∃ slot, read other = .ok slot ∧ wanted slot = false) →
          read' index ≠ .error halt) indices := by
  induction indices with
  | nil => exact iff_of_true (fun same => by cases same) (atEach_nil _)
  | cons index rest ih =>
      rw [findSlot, (guards index).bind_ne_iff, atEach_cons]
      simp only [List.not_mem_nil, false_implies, implies_true, true_implies,
        List.forall_mem_cons, and_imp]
      refine and_congr_right fun _ => ?_
      cases outcome : read index with
      | error error =>
          simp only [reduceCtorEq, false_implies, implies_true, false_and, exists_false]
          exact iff_of_true trivial fun _ _ _ _ => trivial
      | ok slot =>
          simp only [Except.ok.injEq, forall_eq', exists_eq_left']
          cases wanted slot
          · simp only [Bool.false_eq_true, if_false, true_implies]
            exact ih
          · simp only [if_true, reduceCtorEq, false_implies]
            exact iff_of_true (fun same => by cases same) fun _ _ _ _ => trivial

/-- A listing of slots that may halt. -/
theorem keepSlots_guards (indices : List Nat) :
    Guards halt (keepSlots read' wanted indices) (keepSlots read wanted indices) := by
  induction indices with
  | nil => exact Guards.refl _
  | cons index rest ih =>
      exact (guards index).bind fun slot _ => ih.bind fun later _ => Guards.refl _

/-- A guarded reading of all slots goes on where it does at each slot before which all can be
read. -/
theorem keepSlots_ne_iff (indices : List Nat) :
    keepSlots read' wanted indices ≠ .error halt ↔
      AtEach (fun earlier index => (∀ other ∈ earlier, ∃ slot, read other = .ok slot) →
        read' index ≠ .error halt) indices := by
  induction indices with
  | nil => exact iff_of_true (fun same => by cases same) (atEach_nil _)
  | cons index rest ih =>
      rw [keepSlots, (guards index).bind_ne_iff, atEach_cons]
      simp only [List.not_mem_nil, false_implies, implies_true, true_implies,
        List.forall_mem_cons, and_imp]
      refine and_congr_right fun _ => ?_
      cases outcome : read index with
      | error error =>
          simp only [reduceCtorEq, false_implies, implies_true, exists_false]
          exact iff_of_true trivial fun _ _ _ _ => trivial
      | ok slot =>
          have rest' : ∀ slot : α, (keepSlots read' wanted rest >>= fun later =>
              .ok (if wanted slot then (index, slot) :: later else later)) ≠ .error halt ↔
                keepSlots read' wanted rest ≠ .error halt := by
            intro slot
            rw [(keepSlots_guards guards wanted rest).bind_ne_iff]
            exact and_iff_left fun _ _ same => by cases same
          simp only [Except.ok.injEq, forall_eq', exists_eq', true_implies, rest']
          exact ih

end Scan

/-! ## Chases -/

section Chase

variable {Node : Type} [DecidableEq Node] {read' read : Node → Except ε (Node × α)}
  (guards : ∀ node, Guards halt (read' node) (read node)) {last : Node} {lost : ε}

include guards

/-- A walk that may halt. -/
theorem chase_guards (fuel : Nat) (start : Node) :
    Guards halt (chase read' last lost fuel start) (chase read last lost fuel start) := by
  induction fuel generalizing start with
  | zero => exact Guards.refl _
  | succ fuel ih =>
      unfold chase
      split
      · exact Guards.refl _
      · exact (guards start).bind fun found _ => (ih found.1).bind fun _ _ => Guards.refl _

/-- A guarded chase goes on where it does at each node that is reached before its fuel ends. -/
theorem chase_ne_iff (different : lost ≠ halt) (fuel : Nat) (start : Node) :
    chase read' last lost fuel start ≠ .error halt ↔ ∀ count < fuel, ∀ node,
      pointer read last start count = some node → node ≠ last → read' node ≠ .error halt := by
  induction fuel generalizing start with
  | zero =>
      refine iff_of_true ?_ fun _ impossible => absurd impossible (Nat.not_lt_zero _)
      unfold chase
      split
      · exact fun same => by cases same
      · exact fun same => different (Except.error.inj same)
  | succ fuel ih =>
      unfold chase
      by_cases ends : start = last
      · rw [if_pos ends]
        refine iff_of_true (fun same => by cases same) fun count _ node reached live => ?_
        cases count with
        | zero =>
            cases reached
            exact absurd ends live
        | succ count =>
            rw [pointer_succ, follow, if_pos ends] at reached
            cases reached
      · rw [if_neg ends, (guards start).bind_ne_iff]
        have onward : ∀ found : Node × α, (chase read' last lost fuel found.1 >>= fun rest =>
            .ok ((start, found.2) :: rest)) ≠ .error halt ↔
              chase read' last lost fuel found.1 ≠ .error halt := by
          intro found
          rw [(chase_guards guards fuel found.1).bind_ne_iff]
          exact and_iff_left fun _ _ same => by cases same
        constructor
        · rintro ⟨here, rest⟩ count below node reached live
          cases count with
          | zero =>
              cases reached
              exact here
          | succ count =>
              rw [pointer_succ] at reached
              obtain ⟨following, followed, reached⟩ := Option.bind_eq_some_iff.mp reached
              obtain ⟨found, readable⟩ := exists_of_follow followed
              exact (ih following).mp ((onward _).mp (rest _ readable)) count
                (Nat.lt_of_succ_lt_succ below) node reached live
        · intro all
          refine ⟨all 0 (Nat.succ_pos fuel) start rfl ends, fun found readable => ?_⟩
          refine (onward found).mpr ((ih found.1).mpr fun count below node reached live => ?_)
          refine all (count + 1) (Nat.succ_lt_succ below) node ?_ live
          rw [pointer_succ, follow_of_ok ends readable]
          exact reached

/-- Where there are as many numbers as there is fuel, that is each node that is reached. -/
theorem chase_ne_iff_of_numbered (different : lost ≠ halt) {fuel : Nat} {number : Node → Fin fuel}
    (numbered : Function.Injective number) (start : Node) :
    chase read' last lost fuel start ≠ .error halt ↔ ∀ count node,
      pointer read last start count = some node → node ≠ last → read' node ≠ .error halt := by
  rw [chase_ne_iff guards different]
  constructor
  · intro all count node reached live
    obtain ⟨fewer, below, found⟩ := exists_pointer_below numbered reached
    exact all fewer below node found live
  · exact fun all count _ => all count

end Chase

end ReVault.Foundation
