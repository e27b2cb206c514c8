import ReVault.Foundation.Fallible

/-!
# Programs that follow a specification

A program follows a specification from two states when both succeed or both stop with the
same error, in results and states that stand in a given relation. The rules compose such
pairs along the way the two programs are written.
-/

namespace ReVault.Foundation

variable {ε σ τ α α' β β' : Type}

/-- What a run returns, without the state it ends in. -/
def outcome : EStateM.Result ε σ α → Except ε α
  | .ok value _ => .ok value
  | .error error _ => .error error

/-- The outcome of a success. -/
@[simp] theorem outcome_ok (value : α) (state : σ) :
    outcome (.ok value state : EStateM.Result ε σ α) = .ok value := rfl

/-- The outcome of a failure. -/
@[simp] theorem outcome_error (error : ε) (state : σ) :
    outcome (.error error state : EStateM.Result ε σ α) = .error error := rfl

/-- The outcome of a program is that of a specification. -/
def Simulates (program : EStateM ε σ α) (spec : EStateM ε τ β) (state : σ) (model : τ)
    (post : α → σ → β → τ → Prop) (stopped : σ → τ → Prop) : Prop :=
  match program state, spec model with
  | .ok value state', .ok value' model' => post value state' value' model'
  | .error error state', .error error' model' => error = error' ∧ stopped state' model'
  | _, _ => False

namespace Simulates

variable {program : EStateM ε σ α} {spec : EStateM ε τ β} {state state' : σ} {model model' : τ}
  {post : α → σ → β → τ → Prop} {stopped : σ → τ → Prop}

/-- Both succeed. -/
theorem of_ok {value : α} {value' : β} (ran : program state = .ok value state')
    (ran' : spec model = .ok value' model') (holds : post value state' value' model') :
    Simulates program spec state model post stopped := by
  rw [Simulates, ran, ran']
  exact holds

/-- Both fail with the same error. -/
theorem of_error {error : ε} (failed : program state = .error error state')
    (failed' : spec model = .error error model') (holds : stopped state' model') :
    Simulates program spec state model post stopped := by
  rw [Simulates, failed, failed']
  exact ⟨rfl, holds⟩

/-- Both succeed, or both stop with one error. -/
theorem inversion (follows : Simulates program spec state model post stopped) :
    (∃ value state' value' model', program state = .ok value state' ∧
      spec model = .ok value' model' ∧ post value state' value' model') ∨
    (∃ error state' model', program state = .error error state' ∧
      spec model = .error error model' ∧ stopped state' model') := by
  rw [Simulates] at follows
  split at follows
  · rename_i ran ran'
    exact Or.inl ⟨_, _, _, _, ran, ran', follows⟩
  · rename_i failed failed'
    obtain ⟨rfl, holds⟩ := follows
    exact Or.inr ⟨_, _, _, failed, failed', holds⟩
  · exact follows.elim

/-- Values that are returned. -/
theorem pure {value : α} {value' : β} (holds : post value state value' model) :
    Simulates (Pure.pure value : EStateM ε σ α) (Pure.pure value' : EStateM ε τ β) state model
      post stopped := of_ok rfl rfl holds

/-- Errors that are thrown. -/
theorem throw (error : ε) (holds : stopped state model) :
    Simulates (MonadExcept.throw error : EStateM ε σ α)
      (MonadExcept.throw error : EStateM ε τ β) state model post stopped :=
  of_error rfl rfl holds

/-- Weaker postconditions. -/
theorem mono {post' : α → σ → β → τ → Prop} {stopped' : σ → τ → Prop}
    (follows : Simulates program spec state model post stopped)
    (implies : ∀ value state value' model, post value state value' model →
      post' value state value' model)
    (implies' : ∀ state model, stopped state model → stopped' state model) :
    Simulates program spec state model post' stopped' := by
  rcases follows.inversion with
    ⟨value, state', value', model', ran, ran', holds⟩ |
      ⟨error, state', model', failed, failed', holds⟩
  · exact of_ok ran ran' (implies _ _ _ _ holds)
  · exact of_error failed failed' (implies' _ _ holds)

/-- One program after the other. -/
theorem bind {middle : α → σ → β → τ → Prop} {next : α → EStateM ε σ α'}
    {next' : β → EStateM ε τ β'} {final : α' → σ → β' → τ → Prop}
    (head : Simulates program spec state model middle stopped)
    (tail : ∀ value state value' model, middle value state value' model →
      Simulates (next value) (next' value') state model final stopped) :
    Simulates (program >>= next) (spec >>= next') state model final stopped := by
  rcases head.inversion with
    ⟨value, reached, value', reached', ran, ran', holds⟩ | ⟨error, _, _, failed, failed', holds⟩
  · have later := tail value reached value' reached' holds
    rw [Simulates] at later ⊢
    rw [bind_of_ok ran, bind_of_ok ran']
    exact later
  · exact of_error (bind_of_error failed) (bind_of_error failed') holds

/-- Both read the same thing, which depends on no state. -/
theorem given {γ : Type} {result : Except ε γ} {next : γ → EStateM ε σ α}
    {next' : γ → EStateM ε τ β} (failed : ∀ error, result = .error error → stopped state model)
    (follows : ∀ value, result = .ok value →
      Simulates (next value) (next' value) state model post stopped) :
    Simulates (observe (fun _ => result) >>= next) (observe (fun _ => result) >>= next')
      state model post stopped := by
  cases read : result with
  | error error => exact of_error rfl rfl (failed error read)
  | ok value =>
      have later := follows value read
      rw [Simulates] at later ⊢
      exact later

/-- A program that follows its specification returns what the specification returns, and the
states it leads to are related whatever the outcome. -/
theorem final {spec : EStateM ε τ α} {related : σ → τ → Prop}
    (follows : Simulates program spec state model
      (fun value state value' model => value = value' ∧ related state model) related) :
    outcome (program state) = outcome (spec model) ∧
      related (finalState (program state)) (finalState (spec model)) := by
  rcases follows.inversion with
    ⟨value, state', value', model', ran, ran', same, holds⟩ | ⟨error, _, _, failed, failed', holds⟩
  · rw [ran, ran', same]
    exact ⟨rfl, holds⟩
  · rw [failed, failed']
    exact ⟨rfl, holds⟩

end Simulates

end ReVault.Foundation
