import Mathlib.Tactic.Common

/-!
# Runs of a machine

A run takes one labelled step after another; what a step may do can depend on the
labels before it. An invariant with a ghost, kept by every step, holds at the end
of every run.
-/

namespace ReVault.Foundation

variable {State Label Ghost : Type}

/-- The runs from a state, with the labels of the steps, oldest first. -/
inductive Runs (step : List Label → State → Label → State → Prop) (start : State) :
    List Label → State → Prop
  | nil : Runs step start [] start
  | snoc {trace : List Label} {state next : State} {label : Label} :
      Runs step start trace state → step trace state label next →
        Runs step start (trace ++ [label]) next

namespace Runs

variable {step step' : List Label → State → Label → State → Prop} {start final : State}
  {trace : List Label}

/-- **Ghost rule.** A relation to a ghost that holds at the start and can be kept in
every step holds, for some ghost, at the end. -/
theorem ghost (run : Runs step start trace final)
    (invariant : List Label → State → Ghost → Prop)
    (holds : ∃ value, invariant [] start value)
    (kept : ∀ trace state label next value, invariant trace state value →
      step trace state label next → ∃ value', invariant (trace ++ [label]) next value') :
    ∃ value, invariant trace final value := by
  induction run with
  | nil => exact holds
  | snoc _ taken ih =>
      obtain ⟨value, before⟩ := ih
      exact kept _ _ _ _ value before taken

/-- **Invariant rule.** What holds at the start and is kept by every step holds at the end. -/
theorem invariant (run : Runs step start trace final) (holds : State → Prop)
    (begins : holds start)
    (kept : ∀ trace state label next, holds state → step trace state label next → holds next) :
    holds final := by
  induction run with
  | nil => exact begins
  | snoc _ taken ih => exact kept _ _ _ _ ih taken

/-- Runs of a machine that does less are runs of one that does more. -/
theorem mono (run : Runs step start trace final)
    (implies : ∀ trace state label next, step trace state label next →
      step' trace state label next) : Runs step' start trace final := by
  induction run with
  | nil => exact nil
  | snoc _ taken ih => exact ih.snoc (implies _ _ _ _ taken)

/-- The last step of a run. -/
theorem exists_last {label : Label} (run : Runs step start (trace ++ [label]) final) :
    ∃ state, Runs step start trace state ∧ step trace state label final := by
  generalize wholeIs : trace ++ [label] = whole at run
  cases run with
  | nil => exact absurd wholeIs (List.append_ne_nil_of_right_ne_nil _ (List.cons_ne_nil _ _))
  | snoc earlier taken =>
      obtain ⟨rfl, sameLast⟩ := List.append_inj' wholeIs rfl
      cases sameLast
      exact ⟨_, earlier, taken⟩

/-- A run without steps ends where it starts. -/
theorem eq_start (run : Runs step start [] final) : final = start := by
  generalize emptyIs : ([] : List Label) = whole at run
  cases run with
  | nil => rfl
  | snoc _ _ =>
      exact absurd emptyIs.symm
        (List.append_ne_nil_of_right_ne_nil _ (List.cons_ne_nil _ _))

/-- A machine whose steps are determined has one run for each trace. -/
theorem unique (determined : ∀ trace state label next next', step trace state label next →
    step trace state label next' → next = next') {final' : State}
    (run : Runs step start trace final) (run' : Runs step start trace final') :
    final = final' := by
  induction run generalizing final' with
  | nil => exact run'.eq_start.symm
  | snoc _ taken ih =>
      obtain ⟨state, earlier, taken'⟩ := run'.exists_last
      rw [← ih earlier] at taken'
      exact determined _ _ _ _ _ taken taken'

/-- A run of one step takes it from the start. -/
theorem single {label : Label} (run : Runs step start [label] final) :
    step [] start label final := by
  have split : Runs step start ([] ++ [label]) final := run
  obtain ⟨state, earlier, taken⟩ := split.exists_last
  rw [earlier.eq_start] at taken
  exact taken

/-- Every prefix of a trace is the trace of a run. -/
theorem exists_prefix {earlier : List Label} (run : Runs step start trace final)
    (isPrefix : earlier <+: trace) : ∃ state, Runs step start earlier state := by
  induction run with
  | nil =>
      rw [List.prefix_nil.mp isPrefix]
      exact ⟨start, nil⟩
  | snoc before taken ih =>
      rcases List.prefix_concat_iff.mp isPrefix with rfl | shorter
      · exact ⟨_, before.snoc taken⟩
      · exact ih shorter

end Runs

end ReVault.Foundation
