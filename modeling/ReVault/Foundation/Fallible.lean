import Mathlib.Tactic.Common

/-!
# Fallible programs over a state

Programs that update a state and may stop with an error, keeping the state
reached so far (`EStateM`). Read-only computations are plain functions into
`Except`, run inside a program by `observe`. The rules below evaluate a program
forward, invert a run that succeeded, and carry a relation between start and end
states, or an invariant of a loop, through a whole program.
-/

namespace ReVault.Foundation

variable {ε σ α β ι : Type}

/-- The state a run ends in, whether it succeeded or not. -/
def finalState : EStateM.Result ε σ α → σ
  | .ok _ state => state
  | .error _ state => state

/-- Where a success ends. -/
@[simp] theorem finalState_ok (value : α) (state : σ) :
    finalState (.ok value state : EStateM.Result ε σ α) = state := rfl

/-- A read-only computation as a program that leaves the state alone. -/
def observe (read : σ → Except ε α) : EStateM ε σ α := fun state =>
  match read state with
  | .ok value => .ok value state
  | .error error => .error error state

/-- What is read is returned, and the state stays. -/
theorem observe_of_ok {read : σ → Except ε α} {state : σ} {value : α}
    (found : read state = .ok value) : observe read state = .ok value state := by
  simp only [observe, found]

/-- An error of the reading is an error, and the state stays. -/
theorem observe_of_error {read : σ → Except ε α} {state : σ} {error : ε}
    (failed : read state = .error error) : observe read state = .error error state := by
  simp only [observe, failed]

/-! ## Evaluating forward -/

/-- What follows a success. -/
theorem bind_of_ok {first : EStateM ε σ α} {next : α → EStateM ε σ β} {state middle : σ}
    {value : α} (succeeded : first state = .ok value middle) :
    (first >>= next) state = next value middle := by
  change EStateM.bind first next state = _
  simp only [EStateM.bind, succeeded]

/-- Nothing follows a failure. -/
theorem bind_of_error {first : EStateM ε σ α} {next : α → EStateM ε σ β} {state final : σ}
    {error : ε} (failed : first state = .error error final) :
    (first >>= next) state = .error error final := by
  change EStateM.bind first next state = _
  simp only [EStateM.bind, failed]

/-- What follows a program depends only on the run of the program. -/
theorem bind_congr_run {first second : EStateM ε σ α} {next : α → EStateM ε σ β}
    {state state' : σ} (same : first state = second state') :
    (first >>= next) state = (second >>= next) state' := by
  change EStateM.bind first next state = EStateM.bind second next state'
  unfold EStateM.bind
  rw [same]

/-- A check that fails stops the program where it stands. -/
theorem observe_bind_of_error {read : σ → Except ε α} {next : α → EStateM ε σ β} {state : σ}
    {error : ε} (failed : read state = .error error) :
    (observe read >>= next) state = .error error state :=
  bind_of_error (observe_of_error failed)

/-- A sequence succeeds when its parts do, one after the other. -/
theorem bind_eq_ok_iff {first : EStateM ε σ α} {next : α → EStateM ε σ β} {state final : σ}
    {result : β} : (first >>= next) state = .ok result final ↔
      ∃ value middle, first state = .ok value middle ∧ next value middle = .ok result final := by
  cases ran : first state with
  | ok value middle =>
      rw [bind_of_ok ran]
      constructor
      · exact fun succeeded => ⟨value, middle, rfl, succeeded⟩
      · rintro ⟨_, _, same, succeeded⟩
        cases same
        exact succeeded
  | error error middle =>
      rw [bind_of_error ran]
      simp only [reduceCtorEq, false_and, exists_false]

/-- An observation that succeeds. -/
theorem observe_eq_ok_iff {read : σ → Except ε α} {state final : σ} {value : α} :
    observe read state = .ok value final ↔ read state = .ok value ∧ final = state := by
  unfold observe
  cases read state with
  | ok found => simp only [EStateM.Result.ok.injEq, Except.ok.injEq, eq_comm]
  | error error => simp only [reduceCtorEq, false_and]

/-- The state is read. -/
@[simp] theorem get_apply (state : σ) :
    (get : EStateM ε σ σ) state = .ok state state := rfl

/-- The state is changed. -/
@[simp] theorem modify_apply (update : σ → σ) (state : σ) :
    (modify update : EStateM ε σ PUnit) state = .ok ⟨⟩ (update state) := rfl

/-! ## Parts of a state -/

section Within

variable {τ ε' : Type}

/-- A program over a part of the state, with its errors as errors of the whole. -/
def within (part : σ → τ) (put : τ → σ → σ) (wrap : ε → ε') (program : EStateM ε τ α) :
    EStateM ε' σ α := fun state =>
  match program (part state) with
  | .ok value final => .ok value (put final state)
  | .error error final => .error (wrap error) (put final state)

variable {part : σ → τ} {put : τ → σ → σ} {wrap : ε → ε'} {program : EStateM ε τ α}

/-- A program on a part of the state succeeds with it. -/
theorem within_of_ok {state : σ} {final : τ} {value : α}
    (succeeded : program (part state) = .ok value final) :
    within part put wrap program state = .ok value (put final state) := by
  simp only [within, succeeded]

/-- It fails with it. -/
theorem within_of_error {state : σ} {final : τ} {error : ε}
    (failed : program (part state) = .error error final) :
    within part put wrap program state = .error (wrap error) (put final state) := by
  simp only [within, failed]

/-- Where a program over a part leaves the whole. -/
theorem finalState_within (state : σ) :
    finalState (within part put wrap program state) =
      put (finalState (program (part state))) state := by
  unfold within
  cases program (part state) <;> rfl

/-- A program over a part succeeds exactly when it succeeds there. -/
theorem within_eq_ok_iff {state final : σ} {value : α} :
    within part put wrap program state = .ok value final ↔
      ∃ final', program (part state) = .ok value final' ∧ final = put final' state := by
  unfold within
  cases program (part state) with
  | ok value' final' =>
      simp only [EStateM.Result.ok.injEq]
      constructor
      · rintro ⟨rfl, rfl⟩
        exact ⟨final', ⟨rfl, rfl⟩, rfl⟩
      · rintro ⟨_, ⟨rfl, rfl⟩, rfl⟩
        exact ⟨rfl, rfl⟩
  | error error' final' => simp only [reduceCtorEq, false_and, exists_false]

end Within

/-- Runs a program and drops its error, if any. -/
def attempt (program : EStateM ε σ α) : EStateM ε σ Unit := fun state =>
  .ok () (finalState (program state))

/-- What is returned or thrown in the end does not change where a program leads. -/
theorem finalState_bind_pure (program : EStateM ε σ α) (value : β) (state : σ) :
    finalState ((program >>= fun _ => pure value) state) = finalState (program state) := by
  cases ran : program state with
  | ok result final =>
      rw [bind_of_ok ran]
      rfl
  | error error final =>
      rw [bind_of_error ran]
      rfl

/-- A failure at the end leaves the state alone. -/
theorem finalState_bind_throw (program : EStateM ε σ α) (error : ε) (state : σ) :
    finalState ((program >>= fun _ => (throw error : EStateM ε σ β)) state) =
      finalState (program state) := by
  cases ran : program state with
  | ok result final =>
      rw [bind_of_ok ran]
      rfl
  | error error final =>
      rw [bind_of_error ran]
      rfl

/-! ## Read-only computations -/

/-- What follows a value. -/
theorem except_bind_of_ok {first : Except ε α} {next : α → Except ε β} {value : α}
    (succeeded : first = .ok value) : (first >>= next) = next value := by
  subst succeeded
  rfl

/-- Nothing follows an error. -/
theorem except_bind_of_error {first : Except ε α} {next : α → Except ε β} {error : ε}
    (failed : first = .error error) : (first >>= next) = .error error := by
  subst failed
  rfl

/-- A result comes from two values. -/
theorem except_bind_eq_ok_iff {first : Except ε α} {next : α → Except ε β} {result : β} :
    (first >>= next) = .ok result ↔ ∃ value, first = .ok value ∧ next value = .ok result := by
  cases first with
  | ok value =>
      constructor
      · intro succeeded
        exact ⟨value, rfl, succeeded⟩
      · rintro ⟨_, same, succeeded⟩
        cases same
        exact succeeded
  | error error =>
      constructor
      · intro succeeded
        cases succeeded
      · rintro ⟨_, same, _⟩
        cases same

/-- An error that no part of a sequence raises is not raised by the sequence. -/
theorem except_bind_ne_error {first : Except ε α} {next : α → Except ε β} {error : ε}
    (head : first ≠ .error error) (tail : ∀ value, next value ≠ .error error) :
    (first >>= next) ≠ .error error := by
  cases first with
  | ok value => exact tail value
  | error other => exact fun same => head (congrArg Except.error (Except.error.inj same))

/-- Where a program ends that goes on with a value which depends on no state, if there is one:
what a part of the state comes to. -/
theorem finalState_given {τ : Type} (part : σ → τ) {result : Except ε α} {given : Bool}
    (same : result.isOk = given) {next : α → EStateM ε σ β} {state settled : σ}
    (ends : ∀ value, part (finalState (next value state)) = part settled) :
    part (finalState ((observe (fun _ => result) >>= next) state)) =
      part (if given then settled else state) := by
  subst same
  cases result with
  | error error => rfl
  | ok value => exact ends value

/-! ## Outcomes -/

/-- A run ends well with the first predicate, or stops with the second. -/
def Yields (program : EStateM ε σ α) (state : σ) (post : α → σ → Prop)
    (stopped : ε → σ → Prop) : Prop :=
  match program state with
  | .ok value final => post value final
  | .error error final => stopped error final

/-- One program after another. -/
theorem Yields.bind {first : EStateM ε σ α} {next : α → EStateM ε σ β} {state : σ}
    {middle : α → σ → Prop} {post : β → σ → Prop} {stopped : ε → σ → Prop}
    (head : Yields first state middle stopped)
    (tail : ∀ value reached, middle value reached → Yields (next value) reached post stopped) :
    Yields (first >>= next) state post stopped := by
  change match EStateM.bind first next state with
    | .ok value final => post value final
    | .error error final => stopped error final
  unfold Yields at head
  unfold EStateM.bind
  cases outcome : first state with
  | ok value reached =>
      rw [outcome] at head
      exact tail value reached head
  | error error final =>
      rw [outcome] at head
      exact head

/-- Weaker postconditions. -/
theorem Yields.mono {program : EStateM ε σ α} {state : σ} {post post' : α → σ → Prop}
    {stopped stopped' : ε → σ → Prop} (outcome : Yields program state post stopped)
    (implies : ∀ value final, post value final → post' value final)
    (implies' : ∀ error final, stopped error final → stopped' error final) :
    Yields program state post' stopped' := by
  unfold Yields at outcome ⊢
  cases result : program state with
  | ok value final =>
      rw [result] at outcome
      exact implies value final outcome
  | error error final =>
      rw [result] at outcome
      exact implies' error final outcome

/-- A success that is as it should be. -/
theorem Yields.of_ok {program : EStateM ε σ α} {state final : σ} {value : α}
    {post : α → σ → Prop} {stopped : ε → σ → Prop}
    (succeeded : program state = .ok value final) (holds : post value final) :
    Yields program state post stopped := by
  unfold Yields
  rw [succeeded]
  exact holds

/-- A failure that is as it should be. -/
theorem Yields.of_error {program : EStateM ε σ α} {state final : σ} {error : ε}
    {post : α → σ → Prop} {stopped : ε → σ → Prop}
    (failed : program state = .error error final) (holds : stopped error final) :
    Yields program state post stopped := by
  unfold Yields
  rw [failed]
  exact holds

/-- A run that cannot stop ends well. -/
theorem Yields.exists_ok {program : EStateM ε σ α} {state : σ} {post : α → σ → Prop}
    {stopped : ε → σ → Prop} (outcome : Yields program state post stopped)
    (spares : ∀ error final, ¬ stopped error final) :
    ∃ value final, program state = .ok value final ∧ post value final := by
  unfold Yields at outcome
  cases ran : program state with
  | ok value final =>
      rw [ran] at outcome
      exact ⟨value, final, rfl, outcome⟩
  | error error final =>
      rw [ran] at outcome
      exact absurd outcome (spares error final)

/-- A program that stops only outside a condition succeeds exactly on it. -/
theorem Yields.exists_ok_iff {program : EStateM ε σ Unit} {state : σ} {condition : Prop}
    {post : Unit → σ → Prop} {stopped : ε → σ → Prop}
    (outcome : Yields program state post stopped)
    (needs : ∀ value final, post value final → condition)
    (spares : ∀ error final, stopped error final → ¬ condition) :
    (∃ final, program state = .ok () final) ↔ condition := by
  unfold Yields at outcome
  split at outcome
  · rename_i final ran
    exact ⟨fun _ => needs _ _ outcome, fun _ => ⟨final, ran⟩⟩
  · rename_i error final ran
    constructor
    · rintro ⟨other, succeeded⟩
      rw [ran] at succeeded
      cases succeeded
    · exact fun holds => absurd holds (spares _ _ outcome)

/-! ## Loops -/

/-- The first item, then the others. -/
theorem forM_cons (item : ι) (rest : List ι) (body : ι → EStateM ε σ PUnit) :
    (item :: rest).forM body = (body item >>= fun _ => rest.forM body) := rfl

/-- A loop is the loop over the images of its items. -/
theorem forM_eq_forM_map {κ : Type} {body : ι → EStateM ε σ PUnit} {write : κ → EStateM ε σ PUnit}
    {convert : ι → κ} (items : List ι) (same : ∀ item ∈ items, body item = write (convert item)) :
    items.forM body = (items.map convert).forM write := by
  induction items with
  | nil => rfl
  | cons item rest ih =>
      rw [List.map_cons, forM_cons, forM_cons, same item List.mem_cons_self,
        ih fun later member => same later (List.mem_cons_of_mem item member)]

/-- The first items, then the others. -/
theorem forM_append (first second : List ι) (body : ι → EStateM ε σ PUnit) :
    (first ++ second).forM body = (first.forM body >>= fun _ => second.forM body) := by
  induction first with
  | nil => rfl
  | cons item rest ih =>
      rw [List.cons_append, forM_cons, forM_cons, ih, bind_assoc]

/-- **Loop rule.** An invariant indexed by the items already done, kept by every
iteration that does not stop, holds at the end of a loop that does not stop. -/
theorem forM_yields {body : ι → EStateM ε σ PUnit} {stopped : ε → σ → Prop}
    (invariant : List ι → σ → Prop) (items : List ι)
    (step : ∀ done item rest, items = done ++ item :: rest → ∀ state, invariant done state →
      Yields (body item) state (fun _ next => invariant (done ++ [item]) next) stopped)
    (state : σ) (start : invariant [] state) :
    Yields (items.forM body) state (fun _ final => invariant items final) stopped := by
  suffices general : ∀ todo done state, items = done ++ todo → invariant done state →
      Yields (todo.forM body) state (fun _ final => invariant items final) stopped from
    general items [] state rfl start
  intro todo
  induction todo with
  | nil =>
      intro done state split holds
      rw [List.append_nil] at split
      subst split
      exact Yields.of_ok rfl holds
  | cons item rest ih =>
      intro done state split holds
      rw [forM_cons]
      refine (step done item rest split state holds).bind fun _ next kept => ?_
      exact ih (done ++ [item]) next (by rw [split, List.append_assoc]; rfl) kept

/-! ## Relations between the two ends of a run -/

/-- Whatever the outcome, the state reached is related to the state left. -/
def Moves (relation : σ → σ → Prop) (program : EStateM ε σ α) : Prop :=
  ∀ state, relation state (finalState (program state))

section Moves

variable {relation : σ → σ → Prop} (refl : ∀ state, relation state state)
  (trans : ∀ first second third, relation first second → relation second third →
    relation first third)

include refl in
/-- Reading the state moves nothing. -/
theorem Moves.observe (read : σ → Except ε α) : Moves relation (observe read) := by
  intro state
  unfold Foundation.observe
  cases read state <;> exact refl state

include refl in
/-- A value moves nothing. -/
theorem Moves.pure (value : α) : Moves relation (Pure.pure value : EStateM ε σ α) :=
  fun state => refl state

include refl in
/-- An error moves nothing. -/
theorem Moves.throw (error : ε) :
    Moves relation (MonadExcept.throw error : EStateM ε σ α) :=
  fun state => refl state

include trans in
/-- One program after another. -/
theorem Moves.bind {first : EStateM ε σ α} {next : α → EStateM ε σ β}
    (head : Moves relation first) (tail : ∀ value, Moves relation (next value)) :
    Moves relation (first >>= next) := by
  intro state
  have moved := head state
  change relation state (finalState (EStateM.bind first next state))
  unfold EStateM.bind
  cases outcome : first state with
  | ok value middle =>
      rw [outcome] at moved
      exact trans _ _ _ moved (tail value middle)
  | error error middle =>
      rw [outcome] at moved
      exact moved

/-- Programs that change nothing, one after the other. -/
theorem Moves.bind_eq {first : EStateM ε σ α} {next : α → EStateM ε σ β}
    (head : Moves Eq first) (tail : ∀ value, Moves Eq (next value)) :
    Moves Eq (first >>= next) := by
  apply Moves.bind _ head tail
  exact fun _ _ _ => Eq.trans

/-- What follows a program moves on from where the program has led. -/
theorem Moves.from_first {first : EStateM ε σ α} {next : α → EStateM ε σ β}
    (refl : ∀ state, relation state state) (tail : ∀ value, Moves relation (next value))
    (state : σ) : relation (finalState (first state)) (finalState ((first >>= next) state)) := by
  cases outcome : first state with
  | ok value middle =>
      rw [bind_of_ok outcome]
      exact tail value middle
  | error error middle =>
      rw [bind_of_error outcome]
      exact refl middle

/-- A program over a part moves the whole when it moves the part. -/
theorem Moves.within {τ ε' : Type} {relation' : τ → τ → Prop} {program : EStateM ε τ α}
    {part : σ → τ} {put : τ → σ → σ} {wrap : ε → ε'} (moves : Moves relation' program)
    (lifts : ∀ state final, relation' (part state) final → relation state (put final state)) :
    Moves relation (Foundation.within part put wrap program) := by
  intro state
  rw [finalState_within]
  exact lifts state _ (moves (part state))

/-- A weaker relation. -/
theorem Moves.mono {relation' : σ → σ → Prop} {program : EStateM ε σ α}
    (moves : Moves relation program)
    (implies : ∀ state final, relation state final → relation' state final) :
    Moves relation' program := fun state => implies _ _ (moves state)

include refl trans in
/-- A loop moves what its steps move. -/
theorem Moves.forM {body : ι → EStateM ε σ PUnit} (items : List ι)
    (step : ∀ item ∈ items, Moves relation (body item)) : Moves relation (items.forM body) := by
  induction items with
  | nil => exact fun state => refl state
  | cons item rest ih =>
      exact Moves.bind trans (step item List.mem_cons_self) fun _ =>
        ih fun later member => step later (List.mem_cons_of_mem item member)

end Moves

end ReVault.Foundation
