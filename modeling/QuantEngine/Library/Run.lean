import Mathlib.Tactic.Common

/-!
# Finite runs

Runs of a transition system whose steps carry the operation that was applied.
Runs grow at their end, so an invariant is carried along a run by what one step
preserves.
-/

namespace Runs

universe u v

variable {State : Type u} {Op : Type v}

/-- The operations, applied in order from `start`, can lead to the last state. -/
inductive Run (step : State → Op → State → Prop) (start : State) : List Op → State → Prop
  | nil : Run step start [] start
  | snoc {ops : List Op} {state next : State} {op : Op} (run : Run step start ops state)
      (stepped : step state op next) : Run step start (ops ++ [op]) next

variable {step : State → Op → State → Prop} {start last : State} {ops : List Op}

/-- What holds at the start and is preserved by every step holds at the end of every run. -/
theorem Run.invariant (inv : State → Prop) (initial : inv start)
    (preserved : ∀ {state op next}, inv state → step state op next → inv next)
    (run : Run step start ops last) : inv last := by
  induction run with
  | nil => exact initial
  | snoc _ stepped ih => exact preserved ih stepped

theorem Run.eq_start (run : Run step start [] last) : last = start := by
  generalize whole : ([] : List Op) = ops at run
  cases run with
  | nil => rfl
  | snoc _ _ => simp at whole

theorem Run.first (run : Run step start ops last) (nonempty : ops ≠ []) :
    ∃ op rest middle, ops = op :: rest ∧ step start op middle := by
  induction run with
  | nil => exact absurd rfl nonempty
  | @snoc front state next final run stepped ih =>
      by_cases frontEmpty : front = []
      · subst frontEmpty
        rw [run.eq_start] at stepped
        exact ⟨final, [], next, rfl, stepped⟩
      · rcases ih frontEmpty with ⟨op, rest, middle, rfl, first⟩
        exact ⟨op, rest ++ [final], middle, rfl, first⟩

theorem Run.cons {middle : State} {op : Op} (stepped : step start op middle)
    (run : Run step middle ops last) : Run step start (op :: ops) last := by
  induction run with
  | nil => exact Run.nil.snoc stepped
  | snoc _ final ih => exact ih.snoc final

theorem Run.append {middle : State} {more : List Op} (front : Run step start ops middle)
    (back : Run step middle more last) : Run step start (ops ++ more) last := by
  induction back with
  | nil => rwa [List.append_nil]
  | snoc _ stepped ih =>
      rw [← List.append_assoc]
      exact ih.snoc stepped

/-- The steps of a run may be asked for less. -/
theorem Run.weaken {weaker : State → Op → State → Prop}
    (weakens : ∀ {state op next}, step state op next → weaker state op next)
    (run : Run step start ops last) : Run weaker start ops last := by
  induction run with
  | nil => exact Run.nil
  | snoc _ stepped ih => exact ih.snoc (weakens stepped)

/-- Applies the operations in order as long as each of them is possible. -/
def execute (next : State → Op → Option State) : State → List Op → Option State
  | state, [] => some state
  | state, op :: ops => (next state op).bind fun following => execute next following ops

/-- An execution whose steps are steps of the system is a run. -/
theorem Run.of_execute {next : State → Op → Option State}
    (sound : ∀ {state op following}, next state op = some following → step state op following)
    (executed : execute next start ops = some last) : Run step start ops last := by
  induction ops generalizing start with
  | nil =>
      cases executed
      exact Run.nil
  | cons op ops ih =>
      rcases Option.bind_eq_some_iff.mp executed with ⟨following, stepped, rest⟩
      exact (ih rest).cons (sound stepped)

/-- A step that is allowed and possible. -/
def permitted (allowed : State → Op → Prop) [∀ state op, Decidable (allowed state op)]
    (next : State → Op → Option State) (state : State) (op : Op) : Option State :=
  if allowed state op then next state op else none

theorem Run.of_permitted {allowed : State → Op → Prop} [∀ state op, Decidable (allowed state op)]
    {next : State → Op → Option State}
    (executed : execute (permitted allowed next) start ops = some last) :
    Run (fun state op following => allowed state op ∧ next state op = some following) start ops
      last := by
  refine Run.of_execute ?_ executed
  intro state op following stepped
  rw [permitted] at stepped
  split at stepped
  case isTrue holds => exact ⟨holds, stepped⟩
  case isFalse => cases stepped

end Runs
