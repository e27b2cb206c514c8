import ReVault.Foundation.Fallible

/-!
# Programs that do not read a ghost

A part of the state that is only written for the record. A program is oblivious of it when
running it with another ghost comes to the same, but for the ghost.
-/

namespace ReVault.Foundation

variable {ε σ γ α β ι : Type}

/-- A run that ends with another ghost. -/
def withGhost (put : γ → σ → σ) (ghost : γ) : EStateM.Result ε σ α → EStateM.Result ε σ α
  | .ok value state => .ok value (put ghost state)
  | .error error state => .error error (put ghost state)

/-- A program that does not read the ghost. -/
def Oblivious (put : γ → σ → σ) (program : EStateM ε σ α) : Prop :=
  ∀ ghost state, ∃ ghost', program (put ghost state) = withGhost put ghost' (program state)

namespace Oblivious

variable {put : γ → σ → σ}

/-- A value. -/
theorem pure (value : α) : Oblivious put (Pure.pure value : EStateM ε σ α) :=
  fun ghost _ => ⟨ghost, rfl⟩

/-- An error. -/
theorem throw (error : ε) : Oblivious put (MonadExcept.throw error : EStateM ε σ α) :=
  fun ghost _ => ⟨ghost, rfl⟩

/-- What is read does not depend on the ghost. -/
theorem observe {read : σ → Except ε α}
    (same : ∀ ghost state, read (put ghost state) = read state) :
    Oblivious put (Foundation.observe read) := by
  intro ghost state
  refine ⟨ghost, ?_⟩
  cases found : read state with
  | ok value =>
      rw [observe_of_ok found, observe_of_ok ((same ghost state).trans found)]
      rfl
  | error error =>
      rw [observe_of_error found, observe_of_error ((same ghost state).trans found)]
      rfl

/-- An update leaves the ghost as it is, or writes it. -/
theorem modify {update : σ → σ}
    (same : ∀ ghost state, ∃ ghost', update (put ghost state) = put ghost' (update state)) :
    Oblivious put (modify update : EStateM ε σ PUnit) := by
  intro ghost state
  obtain ⟨ghost', updated⟩ := same ghost state
  exact ⟨ghost', congrArg (EStateM.Result.ok PUnit.unit) updated⟩

/-- One program after another. -/
theorem bind {first : EStateM ε σ α} {next : α → EStateM ε σ β} (head : Oblivious put first)
    (tail : ∀ value, Oblivious put (next value)) : Oblivious put (first >>= next) := by
  intro ghost state
  obtain ⟨ghost', ran⟩ := head ghost state
  cases reached : first state with
  | ok value middle =>
      rw [reached] at ran
      obtain ⟨ghost'', followed⟩ := tail value ghost' middle
      exact ⟨ghost'', by rw [bind_of_ok ran, bind_of_ok reached, followed]⟩
  | error error middle =>
      rw [reached] at ran
      exact ⟨ghost', by rw [bind_of_error ran, bind_of_error reached]; rfl⟩

/-- What follows a look at the state does not depend on the ghost. -/
theorem get_bind {next : σ → EStateM ε σ α}
    (same : ∀ ghost state, next (put ghost state) = next state)
    (tail : ∀ state, Oblivious put (next state)) : Oblivious put (get >>= next) := by
  intro ghost state
  obtain ⟨ghost', followed⟩ := tail state ghost state
  refine ⟨ghost', ?_⟩
  rw [bind_of_ok (get_apply (put ghost state)), bind_of_ok (get_apply state), same, followed]

/-- A loop. -/
theorem forM {body : ι → EStateM ε σ PUnit} (all : ∀ item, Oblivious put (body item))
    (items : List ι) : Oblivious put (items.forM body) := by
  induction items with
  | nil => exact pure PUnit.unit
  | cons item rest ih =>
      rw [forM_cons]
      exact (all item).bind fun _ => ih

/-- A run that succeeds, with another ghost. -/
theorem of_ok {program : EStateM ε σ α} (oblivious : Oblivious put program) (ghost : γ)
    {state state' : σ} {value : α} (ran : program state = .ok value state') :
    ∃ ghost', program (put ghost state) = .ok value (put ghost' state') := by
  obtain ⟨ghost', same⟩ := oblivious ghost state
  exact ⟨ghost', by rw [same, ran]; rfl⟩

end Oblivious

end ReVault.Foundation
