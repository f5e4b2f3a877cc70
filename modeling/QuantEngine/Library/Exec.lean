import Mathlib.Tactic.Common

/-!
# Stateful code that can fault

Rules for programs in `EStateM`: how a run proceeds through `bind`, when a run
through `bind` succeeded, and which relations between the state before and the
state after hold for every outcome. A faulting run keeps its last state, so
`finalState` is defined for both outcomes.
-/

namespace Exec

universe u

variable {ε σ : Type u} {α β : Type u}

/-- The state in which a run stopped, normally or by a fault. -/
def finalState : EStateM.Result ε σ α → σ
  | .ok _ state => state
  | .error _ state => state

@[simp]
theorem finalState_ok (value : α) (state : σ) :
    finalState (.ok value state : EStateM.Result ε σ α) = state := rfl

@[simp]
theorem finalState_error (fault : ε) (state : σ) :
    finalState (.error fault state : EStateM.Result ε σ α) = state := rfl

section Run

variable (state : σ)

@[simp]
theorem run_pure (value : α) : (pure value : EStateM ε σ α) state = .ok value state := rfl

@[simp]
theorem run_throw (fault : ε) : (throw fault : EStateM ε σ α) state = .error fault state := rfl

@[simp]
theorem run_set (new : σ) : (set new : EStateM ε σ PUnit) state = .ok ⟨⟩ new := rfl

@[simp]
theorem run_modify (change : σ → σ) :
    (modify change : EStateM ε σ PUnit) state = .ok ⟨⟩ (change state) := rfl

@[simp]
theorem run_get_bind (next : σ → EStateM ε σ β) : (get >>= next) state = next state state := rfl

@[simp]
theorem run_pure_bind (value : α) (next : α → EStateM ε σ β) :
    (pure value >>= next) state = next value state := rfl

@[simp]
theorem run_set_bind (new : σ) (next : PUnit → EStateM ε σ β) :
    ((set new : EStateM ε σ PUnit) >>= next) state = next ⟨⟩ new := rfl

@[simp]
theorem run_modify_bind (change : σ → σ) (next : PUnit → EStateM ε σ β) :
    ((modify change : EStateM ε σ PUnit) >>= next) state = next ⟨⟩ (change state) := rfl

theorem run_bind_pure {code : EStateM ε σ α} : (code >>= pure) state = code state := by
  change EStateM.bind code EStateM.pure state = _
  simp only [EStateM.bind]
  cases code state <;> rfl

/-- What becomes of the value of a run does not change its last state. -/
theorem finalState_bind_pure {code : EStateM ε σ α} {next : α → β} :
    finalState ((code >>= fun value => pure (next value)) state) = finalState (code state) := by
  change finalState (EStateM.bind code _ state) = _
  simp only [EStateM.bind]
  cases code state <;> rfl

@[simp]
theorem run_ite (condition : Prop) [Decidable condition] (thenCode elseCode : EStateM ε σ α) :
    (if condition then thenCode else elseCode) state =
      if condition then thenCode state else elseCode state := by
  split <;> rfl

end Run

theorem run_bind_of_ok {code : EStateM ε σ α} {next : α → EStateM ε σ β} {state middle : σ}
    {value : α} (ran : code state = .ok value middle) :
    (code >>= next) state = next value middle := by
  change EStateM.bind code next state = _
  simp only [EStateM.bind, ran]

theorem run_bind_of_error {code : EStateM ε σ α} {next : α → EStateM ε σ β} {state middle : σ}
    {fault : ε} (ran : code state = .error fault middle) :
    (code >>= next) state = .error fault middle := by
  change EStateM.bind code next state = _
  simp only [EStateM.bind, ran]

theorem run_bind_eq_ok_iff {code : EStateM ε σ α} {next : α → EStateM ε σ β} {state last : σ}
    {result : β} :
    (code >>= next) state = .ok result last ↔
      ∃ value middle, code state = .ok value middle ∧ next value middle = .ok result last := by
  cases ran : code state with
  | ok value middle => simp [run_bind_of_ok ran]
  | error fault middle => simp [run_bind_of_error ran]

theorem run_bind_eq_error_iff {code : EStateM ε σ α} {next : α → EStateM ε σ β} {state last : σ}
    {fault : ε} :
    (code >>= next) state = .error fault last ↔
      code state = .error fault last ∨
        ∃ value middle, code state = .ok value middle ∧ next value middle = .error fault last := by
  cases ran : code state with
  | ok value middle => simp [run_bind_of_ok ran]
  | error fault middle => simp [run_bind_of_error ran]

/-- The run ended with a value and a state that satisfy `post`, or by a fault in a state that
satisfies `fails`. -/
def Ends (post : α → σ → Prop) (fails : σ → Prop) : EStateM.Result ε σ α → Prop
  | .ok value state => post value state
  | .error _ state => fails state

section Ends

variable {post middle : α → σ → Prop} {fails : σ → Prop}

theorem Ends.finalState {result : EStateM.Result ε σ α} (ends : Ends post fails result)
    (stops : ∀ {value state}, post value state → fails state) : fails (finalState result) := by
  cases result with
  | ok value state => exact stops ends
  | error fault state => exact ends

theorem Ends.mono {post' : α → σ → Prop} {fails' : σ → Prop} {result : EStateM.Result ε σ α}
    (ends : Ends post fails result) (weaker : ∀ {value state}, post value state → post' value state)
    (fails_weaker : ∀ {state}, fails state → fails' state) : Ends post' fails' result := by
  cases result with
  | ok value state => exact weaker ends
  | error fault state => exact fails_weaker ends

theorem Ends.bind {code : EStateM ε σ α} {next : α → EStateM ε σ β} {last : β → σ → Prop}
    {state : σ} (first : Ends middle fails (code state))
    (second : ∀ {value state}, middle value state → Ends last fails (next value state)) :
    Ends last fails ((code >>= next) state) := by
  cases ran : code state with
  | ok value state =>
      rw [ran] at first
      rw [run_bind_of_ok ran]
      exact second first
  | error fault state =>
      rw [ran] at first
      rw [run_bind_of_error ran]
      exact first

end Ends

/-- Every run of the code, faulting ones included, relates its first state to its last. -/
def Keeps (relation : σ → σ → Prop) (code : EStateM ε σ α) : Prop :=
  ∀ state, relation state (finalState (code state))

section Keeps

variable {relation : σ → σ → Prop}

theorem Keeps.of_ok {code : EStateM ε σ α} (keeps : Keeps relation code) {state last : σ}
    {value : α} (ran : code state = .ok value last) : relation state last := by
  simpa [ran] using keeps state

theorem Keeps.of_unchanged {code : EStateM ε σ α} (refl : ∀ state, relation state state)
    (unchanged : ∀ state, finalState (code state) = state) : Keeps relation code := by
  intro state
  rw [unchanged]
  exact refl state

theorem Keeps.pure (refl : ∀ state, relation state state) (value : α) :
    Keeps relation (Pure.pure value : EStateM ε σ α) := fun state => refl state

theorem Keeps.throw (refl : ∀ state, relation state state) (fault : ε) :
    Keeps relation (MonadExcept.throw fault : EStateM ε σ α) := fun state => refl state

theorem Keeps.modify {change : σ → σ} (keeps : ∀ state, relation state (change state)) :
    Keeps relation (modify change : EStateM ε σ PUnit) := fun state => keeps state

theorem Keeps.bind {code : EStateM ε σ α} {next : α → EStateM ε σ β}
    (trans : ∀ {first second third}, relation first second → relation second third →
      relation first third)
    (keepsCode : Keeps relation code) (keepsNext : ∀ value, Keeps relation (next value)) :
    Keeps relation (code >>= next) := by
  intro state
  cases ran : code state with
  | ok value middle =>
      rw [run_bind_of_ok ran]
      exact trans (keepsCode.of_ok ran) (keepsNext value middle)
  | error fault middle =>
      rw [run_bind_of_error ran]
      simpa [ran] using keepsCode state

theorem Keeps.get_bind {next : σ → EStateM ε σ β}
    (keepsNext : ∀ value, Keeps relation (next value)) :
    Keeps relation (get >>= next) := fun state => keepsNext state state

theorem Keeps.ite {condition : Prop} [Decidable condition] {thenCode elseCode : EStateM ε σ α}
    (keepsThen : condition → Keeps relation thenCode)
    (keepsElse : ¬condition → Keeps relation elseCode) :
    Keeps relation (if condition then thenCode else elseCode) := by
  split
  · exact keepsThen ‹_›
  · exact keepsElse ‹_›

end Keeps

end Exec
