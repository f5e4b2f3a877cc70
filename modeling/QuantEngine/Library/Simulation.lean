import QuantEngine.Library.Run

/-!
# Simulation of an abstract system

A system whose steps show events to the outside, one or none each. When every
step is matched by abstract steps for exactly the events it shows, the events of
every run of the system are a run of the abstract system.
-/

namespace Runs

universe u v w x

variable {State : Type u} {Op : Type v} {Abstract : Type w} {Event : Type x}
  {step : State → Op → State → Prop} {shows : State → Op → Option Event}
  {abstractStep : Abstract → Event → Abstract → Prop} {related : State → Abstract → Prop}
  {start last : State} {ops : List Op} {events : List Event}

/-- Some run from `start` to the last state shows these events, in order. -/
inductive Trace (step : State → Op → State → Prop) (shows : State → Op → Option Event)
    (start : State) : List Event → State → Prop
  | nil : Trace step shows start [] start
  | snoc {events : List Event} {state next : State} {op : Op}
      (trace : Trace step shows start events state) (stepped : step state op next) :
      Trace step shows start (events ++ (shows state op).toList) next

theorem Trace.cons {middle : State} {op : Op} (stepped : step start op middle)
    (trace : Trace step shows middle events last) :
    Trace step shows start ((shows start op).toList ++ events) last := by
  induction trace with
  | nil =>
      rw [List.append_nil]
      exact Trace.nil.snoc stepped
  | snoc _ final ih =>
      rw [← List.append_assoc]
      exact ih.snoc final

/-- What an execution shows. -/
def shown (next : State → Op → Option State) (shows : State → Op → Option Event) :
    State → List Op → List Event
  | _, [] => []
  | state, op :: ops =>
      (shows state op).toList ++ ((next state op).elim [] fun following =>
        shown next shows following ops)

/-- An execution whose steps are steps of the system shows the events of a run. -/
theorem Trace.of_execute {next : State → Op → Option State}
    (sound : ∀ {state op following}, next state op = some following → step state op following)
    (executed : execute next start ops = some last) :
    Trace step shows start (shown next shows start ops) last := by
  induction ops generalizing start with
  | nil =>
      cases executed
      exact Trace.nil
  | cons op ops ih =>
      rcases Option.bind_eq_some_iff.mp executed with ⟨following, stepped, rest⟩
      rw [shown, stepped]
      exact (ih rest).cons (sound stepped)

theorem Trace.of_permitted {allowed : State → Op → Prop} [∀ state op, Decidable (allowed state op)]
    {next : State → Op → Option State}
    (executed : execute (permitted allowed next) start ops = some last) :
    Trace (fun state op following => allowed state op ∧ next state op = some following) shows start
      (shown (permitted allowed next) shows start ops) last := by
  refine Trace.of_execute ?_ executed
  intro state op following stepped
  rw [permitted] at stepped
  split at stepped
  case isTrue holds => exact ⟨holds, stepped⟩
  case isFalse => cases stepped

/-- Related states stay related when a step is matched by the events that it shows. -/
def Simulates (step : State → Op → State → Prop) (shows : State → Op → Option Event)
    (abstractStep : Abstract → Event → Abstract → Prop) (related : State → Abstract → Prop) :
    Prop :=
  ∀ {state op next abs}, related state abs → step state op next →
    ∃ abs', Run abstractStep abs (shows state op).toList abs' ∧ related next abs'

/-- The events of a simulated system are a run of the abstract one. -/
theorem Simulates.run {abs : Abstract} (simulates : Simulates step shows abstractStep related)
    (initial : related start abs) (trace : Trace step shows start events last) :
    ∃ abs', Run abstractStep abs events abs' ∧ related last abs' := by
  induction trace with
  | nil => exact ⟨abs, Run.nil, initial⟩
  | snoc _ stepped ih =>
      rcases ih with ⟨middle, run, relatedMiddle⟩
      rcases simulates relatedMiddle stepped with ⟨abs', matched, relatedLast⟩
      exact ⟨abs', run.append matched, relatedLast⟩

/-- A step that shows an event is matched by one step. -/
theorem Run.single {abs abs' : Abstract} {shown : Option Event} {event : Event}
    (shownEq : shown = some event) (stepped : abstractStep abs event abs') :
    Run abstractStep abs shown.toList abs' := by
  rw [shownEq]
  exact Run.nil.snoc stepped

end Runs
