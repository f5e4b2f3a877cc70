import QuantEngine.Library.Run

/-!
# Starting a thread

The model of `createAndStartThread`: the function that waits for the thread's
verdict, the body of the thread, and the statement that made the call. Each
access to one of the two flags is one step, in any sequentially consistent
order. Whether the affinity can be set is an argument of the step that tries to.

The body of the thread holds references: to the two flags and the parameters,
which are gone once the function has returned, and to `func` and `args`, which
the caller may have made for this one statement.
-/

namespace QuantEngine.ThreadUtils

open Runs

/-- Where `createAndStartThread` is, and then its caller. -/
inductive Starter where
  /-- In front of `new std::thread`. -/
  | starting
  /-- In the loop, in front of the test of `running`. -/
  | testingRunning
  /-- In the loop, in front of the test of `failed`. -/
  | testingFailed
  | sleeping
  /-- Behind the loop, in front of the test of `failed`. -/
  | deciding
  | joining
  /-- The result is a thread, or else null. -/
  | returned (started : Bool)
  /-- The statement of the call is over. -/
  | left (started : Bool)
  deriving DecidableEq

/-- Where the body of the thread is. -/
inductive Body where
  /-- There is no thread yet. -/
  | absent
  /-- In front of the test of `core_id`. -/
  | entering
  /-- The affinity could not be set, and `failed` is not set yet. -/
  | reporting
  /-- `failed` is set, and the thread is not over yet. -/
  | leaving
  /-- About to set `running`. -/
  | announcing
  /-- About to call `func`. -/
  | calling
  /-- In `func`. -/
  | inside
  | ended
  /-- It has used the flags or the parameters after the function had returned. -/
  | lostFrame
  /-- It has used `func` after the statement of the call was over. -/
  | lostFunc
  deriving DecidableEq

/-- The flags and the parameters are still there. -/
def Starter.hasFrame : Starter → Bool
  | .returned _ => false
  | .left _ => false
  | _ => true

/-- `func` and `args` are still there. -/
def Starter.hasFunc : Starter → Bool
  | .left _ => false
  | _ => true

structure Launch where
  coreId : Int32
  running : Bool := false
  failed : Bool := false
  starter : Starter := .starting
  body : Body := .absent
  /-- What `setThreadCore` has returned, if it was called. -/
  affinity : Option Bool := none
  /-- How often `func` was called. -/
  calls : ℕ := 0

/-- A step of the function, of the body of the thread, or the end of the caller's statement. -/
inductive LaunchAction where
  | starter
  | body (affinity : Bool)
  | leave
  deriving DecidableEq

namespace Launch

/-- Where `createAndStartThread` goes next, once there is a thread. -/
def nextStarter (launch : Launch) : Option Starter :=
  match launch.starter with
  | .starting => none
  | .testingRunning => some (if launch.running then .deciding else .testingFailed)
  | .testingFailed => some (if launch.failed then .deciding else .sleeping)
  | .sleeping => some .testingRunning
  | .deciding => some (if launch.failed then .joining else .returned true)
  | .joining => if launch.body = .ended then some (.returned false) else none
  | .returned _ => none
  | .left _ => none

def stepStarter (launch : Launch) : Option Launch :=
  if launch.starter = .starting then
    some { launch with starter := .testingRunning, body := .entering }
  else launch.nextStarter.map fun starter => { launch with starter := starter }

/-- A step of the body, where `affinity` is what `setThreadCore` returns if the step calls it. -/
def stepBody (launch : Launch) (affinity : Bool) : Option Launch :=
  match launch.body with
  | .absent => none
  | .entering => some (
      if launch.starter.hasFrame then
        if 0 ≤ launch.coreId then { launch with
          affinity := some affinity
          body := if affinity = false then .reporting else .announcing }
        else { launch with body := .announcing }
      else { launch with body := .lostFrame })
  | .reporting => some (
      if launch.starter.hasFrame then { launch with failed := true, body := .leaving }
      else { launch with body := .lostFrame })
  | .leaving => some { launch with body := .ended }
  | .announcing => some (
      if launch.starter.hasFrame then { launch with running := true, body := .calling }
      else { launch with body := .lostFrame })
  | .calling => some (
      if launch.starter.hasFunc then { launch with body := .inside, calls := launch.calls + 1 }
      else { launch with body := .lostFunc })
  | .inside => some { launch with body := .ended }
  | .ended => none
  | .lostFrame => none
  | .lostFunc => none

def step (launch : Launch) : LaunchAction → Option Launch
  | .starter => launch.stepStarter
  | .body affinity => launch.stepBody affinity
  | .leave =>
      match launch.starter with
      | .returned started => some { launch with starter := .left started }
      | _ => none

def new (coreId : Int32) : Launch where
  coreId := coreId

end Launch

variable {launch last : Launch} {action : LaunchAction} {actions : List LaunchAction}
  {coreId : Int32} {affinity : Bool}

/-- In the loop that waits for the flags. -/
def Starter.Waits : Starter → Prop
  | .testingRunning => True
  | .testingFailed => True
  | .sleeping => True
  | _ => False

/-- The function has returned, with this result. -/
def Starter.Results (started : Bool) : Starter → Prop
  | .returned result => result = started
  | .left result => result = started
  | _ => False

/-- Neither flag is set, so the function waits. -/
structure Quiet (launch : Launch) : Prop where
  running : launch.running = false
  failed : launch.failed = false
  waits : launch.starter.Waits
  calls : launch.calls = 0

/-- The affinity is as it was asked for. -/
def Granted (launch : Launch) : Prop := 0 ≤ launch.coreId → launch.affinity = some true

/-- A core was asked for, and `setThreadCore` has returned false. -/
def Refused (launch : Launch) : Prop := 0 ≤ launch.coreId ∧ launch.affinity = some false

/-- `running` is set, so the function is on its way to return a thread. -/
structure Started (launch : Launch) : Prop where
  running : launch.running = true
  failed : launch.failed = false
  granted : Granted launch
  starter : launch.starter.Waits ∨ launch.starter = .deciding ∨ launch.starter.Results true

/-- `failed` is set, so the function is on its way to return null. -/
structure Failed (launch : Launch) : Prop where
  running : launch.running = false
  failed : launch.failed = true
  refused : Refused launch
  calls : launch.calls = 0
  starter : launch.starter.Waits ∨ launch.starter = .deciding ∨ launch.starter = .joining ∨
    launch.starter.Results false

/-- What the place of the body says about the flags and the function. -/
def Body.Fits (launch : Launch) : Body → Prop
  | .absent => launch.starter = .starting ∧ launch.running = false ∧ launch.failed = false ∧
      launch.calls = 0
  | .entering => Quiet launch
  | .reporting => Quiet launch ∧ Refused launch
  | .leaving => Failed launch ∧ launch.starter.hasFrame = true
  | .announcing => Quiet launch ∧ Granted launch
  | .calling => Started launch ∧ launch.calls = 0
  | .inside => Started launch ∧ launch.calls = 1
  | .ended => Started launch ∧ launch.calls = 1 ∨ Failed launch
  | .lostFrame => False
  | .lostFunc => Started launch ∧ launch.calls = 0 ∧ launch.starter.hasFunc = false

theorem fits_new : (Launch.new coreId).body.Fits (Launch.new coreId) := ⟨rfl, rfl, rfl, rfl⟩

theorem Quiet.nextStarter {starter : Starter} (quiet : Quiet launch)
    (next : launch.nextStarter = some starter) : starter.Waits := by
  have waits := quiet.waits
  rw [Launch.nextStarter] at next
  cases place : launch.starter <;> rw [place] at waits next <;>
    first | exact waits.elim | cases next
  case testingRunning =>
      rw [quiet.running]
      trivial
  case testingFailed =>
      rw [quiet.failed]
      trivial
  case sleeping => trivial

theorem Started.nextStarter {starter : Starter} (started : Started launch)
    (next : launch.nextStarter = some starter) :
    starter.Waits ∨ starter = .deciding ∨ starter.Results true := by
  have before := started.starter
  rw [Launch.nextStarter] at next
  cases place : launch.starter <;> rw [place] at before next <;> try cases next
  case testingRunning =>
      rw [started.running]
      exact Or.inr (Or.inl rfl)
  case testingFailed =>
      rw [started.failed]
      exact Or.inl trivial
  case sleeping => exact Or.inl trivial
  case deciding =>
      rw [started.failed]
      exact Or.inr (Or.inr rfl)
  case joining => simp [Starter.Waits, Starter.Results] at before

theorem Failed.nextStarter {starter : Starter} (failed : Failed launch)
    (next : launch.nextStarter = some starter) :
    starter.Waits ∨ starter = .deciding ∨ starter = .joining ∨ starter.Results false := by
  have before := failed.starter
  rw [Launch.nextStarter] at next
  cases place : launch.starter <;> rw [place] at before next <;> try cases next
  case testingRunning =>
      rw [failed.running]
      exact Or.inl trivial
  case testingFailed =>
      rw [failed.failed]
      exact Or.inr (Or.inl rfl)
  case sleeping => exact Or.inl trivial
  case deciding =>
      rw [failed.failed]
      exact Or.inr (Or.inr (Or.inl rfl))
  case joining =>
      dsimp only at next
      split at next
      case isTrue =>
          cases next
          exact Or.inr (Or.inr (Or.inr rfl))
      case isFalse => cases next

/-- `join` does not return before the thread is over. -/
theorem Failed.hasFrame_nextStarter {starter : Starter} (failed : Failed launch)
    (goesOn : launch.body ≠ .ended) (next : launch.nextStarter = some starter) :
    starter.hasFrame = true := by
  rw [Launch.nextStarter] at next
  cases place : launch.starter <;> rw [place] at next <;> try cases next
  case testingRunning =>
      rw [failed.running]
      rfl
  case testingFailed =>
      rw [failed.failed]
      rfl
  case sleeping => rfl
  case deciding =>
      rw [failed.failed]
      rfl
  case joining =>
      rw [if_neg goesOn] at next
      cases next

/-- Once the statement of the call is over, the function makes no step. -/
theorem nextStarter_of_gone (gone : launch.starter.hasFunc = false) :
    launch.nextStarter = none := by
  rw [Launch.nextStarter]
  cases place : launch.starter <;> rw [place] at gone <;> first | rfl | cases gone

theorem Starter.Waits.not_results {starter : Starter} {started : Bool} (waits : starter.Waits) :
    ¬starter.Results started := by
  cases starter <;> first | exact id | exact waits.elim

theorem Started.eq_of_results {result : Bool} (started : Started launch)
    (results : launch.starter.Results result) : result = true := by
  rcases started.starter with waits | deciding | own
  · exact absurd results waits.not_results
  · rw [deciding] at results
    exact results.elim
  · cases place : launch.starter <;> rw [place] at results own <;> try exact results.elim
    all_goals exact results.symm.trans own

theorem Failed.eq_of_results {result : Bool} (failed : Failed launch)
    (results : launch.starter.Results result) : result = false := by
  rcases failed.starter with waits | deciding | joining | own
  · exact absurd results waits.not_results
  · rw [deciding] at results
    exact results.elim
  · rw [joining] at results
    exact results.elim
  · cases place : launch.starter <;> rw [place] at results own <;> try exact results.elim
    all_goals exact results.symm.trans own

theorem Quiet.existsThread (quiet : Quiet launch) : launch.starter ≠ .starting := by
  intro starting
  have waits := quiet.waits
  rwa [starting] at waits

theorem Started.existsThread (started : Started launch) : launch.starter ≠ .starting := by
  intro starting
  have starter := started.starter
  simp [starting, Starter.Waits, Starter.Results] at starter

theorem Failed.existsThread (failed : Failed launch) : launch.starter ≠ .starting := by
  intro starting
  have starter := failed.starter
  simp [starting, Starter.Waits, Starter.Results] at starter

/-- There is no thread yet, no flag is set, or one of them. -/
theorem Body.Fits.phase (fits : launch.body.Fits launch) :
    (launch.body = .absent ∧ launch.starter = .starting ∧ launch.running = false ∧
        launch.failed = false) ∨
      Quiet launch ∨ Started launch ∨
        Failed launch ∧ (launch.body = .leaving ∧ launch.starter.hasFrame = true ∨
          launch.body = .ended) := by
  cases place : launch.body <;> rw [place] at fits
  case absent => exact Or.inl ⟨rfl, fits.1, fits.2.1, fits.2.2.1⟩
  case entering => exact Or.inr (Or.inl fits)
  case reporting => exact Or.inr (Or.inl fits.1)
  case leaving => exact Or.inr (Or.inr (Or.inr ⟨fits.1, Or.inl ⟨rfl, fits.2⟩⟩))
  case announcing => exact Or.inr (Or.inl fits.1)
  case calling => exact Or.inr (Or.inr (Or.inl fits.1))
  case inside => exact Or.inr (Or.inr (Or.inl fits.1))
  case ended =>
      rcases fits with ⟨started, -⟩ | failed
      · exact Or.inr (Or.inr (Or.inl started))
      · exact Or.inr (Or.inr (Or.inr ⟨failed, Or.inr rfl⟩))
  case lostFrame => exact fits.elim
  case lostFunc => exact Or.inr (Or.inr (Or.inl fits.1))

theorem absent_of_starting (fits : launch.body.Fits launch)
    (starting : launch.starter = .starting) : launch.body = .absent := by
  rcases fits.phase with ⟨absent, -⟩ | quiet | started | ⟨failed, -⟩
  · exact absent
  · exact absurd starting quiet.existsThread
  · exact absurd starting started.existsThread
  · exact absurd starting failed.existsThread

theorem fits_stepStarter (fits : launch.body.Fits launch)
    (ran : launch.stepStarter = some last) : last.body.Fits last := by
  rw [Launch.stepStarter] at ran
  split at ran
  case isTrue starting =>
      cases ran
      rw [absent_of_starting fits starting] at fits
      exact ⟨fits.2.1, fits.2.2.1, trivial, fits.2.2.2⟩
  case isFalse =>
      rcases Option.map_eq_some_iff.mp ran with ⟨starter, next, rfl⟩
      cases place : launch.body <;> rw [place] at fits
      case absent =>
          rw [Launch.nextStarter, fits.1] at next
          cases next
      case entering => exact { fits with waits := Quiet.nextStarter fits next }
      case reporting => exact ⟨{ fits.1 with waits := fits.1.nextStarter next }, fits.2⟩
      case leaving =>
          exact ⟨{ fits.1 with starter := fits.1.nextStarter next },
            fits.1.hasFrame_nextStarter (by simp [place]) next⟩
      case announcing => exact ⟨{ fits.1 with waits := fits.1.nextStarter next }, fits.2⟩
      case calling => exact ⟨{ fits.1 with starter := fits.1.nextStarter next }, fits.2⟩
      case inside => exact ⟨{ fits.1 with starter := fits.1.nextStarter next }, fits.2⟩
      case ended =>
          rcases fits with ⟨started, once⟩ | failed
          · exact Or.inl ⟨{ started with starter := started.nextStarter next }, once⟩
          · exact Or.inr { failed with starter := failed.nextStarter next }
      case lostFrame => exact fits.elim
      case lostFunc =>
          rw [nextStarter_of_gone fits.2.2] at next
          cases next

theorem Quiet.hasFrame (quiet : Quiet launch) : launch.starter.hasFrame = true := by
  have waits := quiet.waits
  cases place : launch.starter <;> rw [place] at waits <;> first | rfl | exact waits.elim

theorem fits_stepBody (fits : launch.body.Fits launch)
    (ran : launch.stepBody affinity = some last) : last.body.Fits last := by
  rw [Launch.stepBody] at ran
  cases place : launch.body <;> rw [place] at fits ran
  case absent => cases ran
  case entering =>
      dsimp only at ran
      rw [if_pos (Quiet.hasFrame fits)] at ran
      split at ran
      case isTrue core =>
          cases ran
          cases affinity
          · exact ⟨{ fits with }, core, rfl⟩
          · exact ⟨{ fits with }, fun _ => rfl⟩
      case isFalse coreless =>
          cases ran
          exact ⟨{ fits with }, fun core => absurd core coreless⟩
  case reporting =>
      dsimp only at ran
      rw [if_pos fits.1.hasFrame] at ran
      cases ran
      exact ⟨⟨fits.1.running, rfl, fits.2, fits.1.calls, Or.inl fits.1.waits⟩, fits.1.hasFrame⟩
  case leaving =>
      cases ran
      exact Or.inr { fits.1 with }
  case announcing =>
      dsimp only at ran
      rw [if_pos fits.1.hasFrame] at ran
      cases ran
      exact ⟨⟨rfl, fits.1.failed, fits.2, Or.inl fits.1.waits⟩, fits.1.calls⟩
  case calling =>
      dsimp only at ran
      split at ran
      case isTrue =>
          cases ran
          exact ⟨{ fits.1 with }, congrArg (· + 1) fits.2⟩
      case isFalse gone =>
          cases ran
          exact ⟨{ fits.1 with }, fits.2, eq_false_of_ne_true gone⟩
  case inside =>
      cases ran
      exact Or.inl ⟨{ fits.1 with }, fits.2⟩
  case ended => cases ran
  case lostFrame => cases ran
  case lostFunc => cases ran

theorem fits_leave {started : Bool} (fits : launch.body.Fits launch)
    (returned : launch.starter = .returned started) :
    launch.body.Fits { launch with starter := .left started } := by
  have results : launch.starter.Results started := by
    rw [returned]
    rfl
  have notQuiet : ¬Quiet launch := fun quiet => quiet.waits.not_results results
  have starts : Started launch →
      ∀ body, Started { launch with starter := .left started, body := body } :=
    fun begun body => { begun with starter := Or.inr (Or.inr (begun.eq_of_results results)) }
  have fails : Failed launch →
      ∀ body, Failed { launch with starter := .left started, body := body } :=
    fun failed body =>
      { failed with starter := Or.inr (Or.inr (Or.inr (failed.eq_of_results results))) }
  cases place : launch.body <;> rw [place] at fits
  case absent => cases fits.1.symm.trans returned
  case entering => exact absurd fits notQuiet
  case reporting => exact absurd fits.1 notQuiet
  case leaving =>
      have hasFrame := fits.2
      rw [returned] at hasFrame
      cases hasFrame
  case announcing => exact absurd fits.1 notQuiet
  case calling => exact ⟨starts fits.1 _, fits.2⟩
  case inside => exact ⟨starts fits.1 _, fits.2⟩
  case ended =>
      rcases fits with ⟨begun, once⟩ | failed
      · exact Or.inl ⟨starts begun _, once⟩
      · exact Or.inr (fails failed _)
  case lostFrame => exact fits.elim
  case lostFunc => exact ⟨starts fits.1 _, fits.2.1, rfl⟩

theorem fits_step (fits : launch.body.Fits launch) (ran : launch.step action = some last) :
    last.body.Fits last := by
  cases action with
  | starter => exact fits_stepStarter fits ran
  | body affinity => exact fits_stepBody fits ran
  | leave =>
      rw [Launch.step] at ran
      split at ran
      case h_1 started returned =>
          cases ran
          exact fits_leave fits returned
      case h_2 => cases ran

/-- A step of the function, the body or the caller. -/
def Step (launch : Launch) (action : LaunchAction) (last : Launch) : Prop :=
  launch.step action = some last

/-- The core asked for stays the same, and a flag that is set stays set. -/
structure Advances (launch last : Launch) : Prop where
  coreId : last.coreId = launch.coreId
  running : launch.running = true → last.running = true
  failed : launch.failed = true → last.failed = true

theorem advances_of_step (ran : launch.step action = some last) : Advances launch last := by
  cases action with
  | starter =>
      rw [Launch.step, Launch.stepStarter] at ran
      split at ran
      case isTrue =>
          cases ran
          exact ⟨rfl, id, id⟩
      case isFalse =>
          rcases Option.map_eq_some_iff.mp ran with ⟨starter, -, rfl⟩
          exact ⟨rfl, id, id⟩
  | body affinity =>
      rw [Launch.step, Launch.stepBody] at ran
      cases place : launch.body <;> rw [place] at ran <;> cases ran <;> repeat' split
      all_goals
        first
        | exact ⟨rfl, id, id⟩
        | exact ⟨rfl, fun _ => rfl, id⟩
        | exact ⟨rfl, id, fun _ => rfl⟩
  | leave =>
      rw [Launch.step] at ran
      split at ran
      case h_1 =>
          cases ran
          exact ⟨rfl, id, id⟩
      case h_2 => cases ran

theorem fits_of_run (run : Run Step (Launch.new coreId) actions launch) :
    launch.body.Fits launch ∧ launch.coreId = coreId := by
  apply run.invariant (fun launch => launch.body.Fits launch ∧ launch.coreId = coreId)
    ⟨fits_new, rfl⟩
  rintro launch action last ⟨fits, same⟩ ran
  exact ⟨fits_step fits ran, (advances_of_step ran).coreId.trans same⟩

/-- What is known when the function has returned. -/
theorem Body.Fits.results {started : Bool} (fits : launch.body.Fits launch)
    (results : launch.starter.Results started) :
    started = true ∧ Started launch ∨
      started = false ∧ Failed launch ∧ launch.body = .ended := by
  rcases fits.phase with ⟨-, starting, -⟩ | quiet | begun | ⟨failed, ⟨-, hasFrame⟩ | ended⟩
  · rw [starting] at results
    exact results.elim
  · exact absurd results quiet.waits.not_results
  · exact Or.inl ⟨begun.eq_of_results results, begun⟩
  · cases place : launch.starter <;> rw [place] at results hasFrame <;>
      first | exact results.elim | cases hasFrame
  · exact Or.inr ⟨failed.eq_of_results results, failed, ended⟩

theorem Body.Fits.calls_le (fits : launch.body.Fits launch) : launch.calls ≤ 1 := by
  cases place : launch.body <;> rw [place] at fits
  case absent => rw [fits.2.2.2]; exact Nat.zero_le 1
  case entering => rw [Quiet.calls fits]; exact Nat.zero_le 1
  case reporting => rw [fits.1.calls]; exact Nat.zero_le 1
  case leaving => rw [fits.1.calls]; exact Nat.zero_le 1
  case announcing => rw [fits.1.calls]; exact Nat.zero_le 1
  case calling => rw [fits.2]; exact Nat.zero_le 1
  case inside => exact Nat.le_of_eq fits.2
  case ended =>
      rcases fits with ⟨-, once⟩ | failed
      · exact Nat.le_of_eq once
      · rw [failed.calls]; exact Nat.zero_le 1
  case lostFrame => exact fits.elim
  case lostFunc => rw [fits.2.1]; exact Nat.zero_le 1

/-- In every interleaving, the body uses the flags and the parameters only while the function has
not returned. A null result means that a core was asked for and `setThreadCore` returned false,
that the thread is over, and that `func` was not called; any other result, that `running` was set,
and that the affinity was if one was asked for. `func` is called once at most, and can be gone by
then only when the statement of the call is over. -/
theorem launched_of_run (run : Run Step (Launch.new coreId) actions launch) :
    launch.body ≠ .lostFrame ∧ launch.calls ≤ 1 ∧
      (launch.starter.Results false → 0 ≤ coreId ∧ launch.affinity = some false ∧
        launch.body = .ended ∧ launch.calls = 0) ∧
      (launch.starter.Results true → launch.running = true ∧ launch.failed = false ∧
        (0 ≤ coreId → launch.affinity = some true)) ∧
      (launch.body = .lostFunc → launch.starter = .left true) := by
  rcases fits_of_run run with ⟨fits, rfl⟩
  refine ⟨?_, fits.calls_le, ?_, ?_, ?_⟩
  · intro lost
    rwa [lost] at fits
  · intro results
    rcases fits.results results with ⟨⟨⟩, -⟩ | ⟨-, failed, ended⟩
    exact ⟨failed.refused.1, failed.refused.2, ended, failed.calls⟩
  · intro results
    rcases fits.results results with ⟨-, started⟩ | ⟨⟨⟩, -⟩
    exact ⟨started.running, started.failed, started.granted⟩
  · intro lost
    rw [lost] at fits
    rcases fits with ⟨started, -, gone⟩
    have starter := started.starter
    cases place : launch.starter <;> rw [place] at gone starter <;> try cases gone
    simp only [Starter.Waits, Starter.Results, reduceCtorEq, false_or] at starter
    rw [starter]

/-- The affinity is refused, and the function joins the thread. -/
def sampleRefusal : List LaunchAction :=
  [.starter, .starter, .body false, .starter, .body true, .starter, .starter, .starter, .starter,
    .body true, .starter]

/-- The thread starts and is in `func` when the function returns. -/
def sampleLaunch : List LaunchAction :=
  [.starter, .body true, .starter, .body true, .starter, .starter, .starter, .body true, .starter]

theorem launched_of_run_sample :
    (∃ launch : Launch, launch.starter = .returned false ∧ launch.affinity = some false ∧
      launch.body = .ended ∧ launch.calls = 0) ∧
    ∃ launch : Launch, launch.starter = .returned true ∧ launch.body = .inside ∧
      launch.running = true ∧ launch.failed = false ∧ launch.affinity = some true := by
  have refused : (execute Launch.step (Launch.new 1) sampleRefusal).any
      (fun launch => launch.starter = .returned false) = true := by decide +kernel
  have launched : (execute Launch.step (Launch.new 1) sampleLaunch).any
      (fun launch => launch.starter = .returned true ∧ launch.body = .inside) = true := by
    decide +kernel
  constructor
  · rcases (Option.any_eq_true _ _).mp refused with ⟨launch, reached, facts⟩
    have returned := of_decide_eq_true facts
    have run : Run Step (Launch.new 1) _ launch := Run.of_execute id reached
    have results : launch.starter.Results false := by rw [returned]; rfl
    exact ⟨launch, returned, ((launched_of_run run).2.2.1 results).2⟩
  · rcases (Option.any_eq_true _ _).mp launched with ⟨launch, reached, facts⟩
    rcases of_decide_eq_true facts with ⟨returned, inside⟩
    have run : Run Step (Launch.new 1) _ launch := Run.of_execute id reached
    have results : launch.starter.Results true := by rw [returned]; rfl
    rcases (launched_of_run run).2.2.2.1 results with ⟨running, notFailed, granted⟩
    exact ⟨launch, returned, inside, running, notFailed, granted (by decide)⟩

/-- How far the function is from its return, when `running` is set. -/
def Starter.startedDistance : Starter → ℕ
  | .testingFailed => 4
  | .sleeping => 3
  | .testingRunning => 2
  | .deciding => 1
  | _ => 0

/-- How far the function is from its return, when `failed` is set. -/
def Starter.failedDistance : Starter → ℕ
  | .sleeping => 5
  | .testingRunning => 4
  | .testingFailed => 3
  | .deciding => 2
  | .joining => 1
  | _ => 0

theorem Starter.startedDistance_le (starter : Starter) : starter.startedDistance ≤ 5 := by
  cases starter <;> simp [startedDistance]

theorem Starter.failedDistance_le (starter : Starter) : starter.failedDistance ≤ 5 := by
  cases starter <;> simp [failedDistance]

theorem Started.closer {starter : Starter} (started : Started launch)
    (next : launch.nextStarter = some starter) :
    starter.startedDistance + 1 = launch.starter.startedDistance := by
  have before := started.starter
  rw [Launch.nextStarter] at next
  cases place : launch.starter <;> rw [place] at before next <;> try cases next
  case testingRunning =>
      rw [started.running]
      rfl
  case testingFailed =>
      rw [started.failed]
      rfl
  case sleeping => rfl
  case deciding =>
      rw [started.failed]
      rfl
  case joining => simp [Starter.Waits, Starter.Results] at before

theorem Failed.closer {starter : Starter} (failed : Failed launch)
    (next : launch.nextStarter = some starter) :
    starter.failedDistance + 1 = launch.starter.failedDistance := by
  rw [Launch.nextStarter] at next
  cases place : launch.starter <;> rw [place] at next <;> try cases next
  case testingRunning =>
      rw [failed.running]
      rfl
  case testingFailed =>
      rw [failed.failed]
      rfl
  case sleeping => rfl
  case deciding =>
      rw [failed.failed]
      rfl
  case joining =>
      dsimp only at next
      split at next <;> cases next
      rfl

/-- The body and the caller leave the function where it is, or returned. -/
theorem distance_of_step (ran : launch.step action = some last) (other : action ≠ .starter) :
    last.starter.startedDistance = launch.starter.startedDistance ∧
      last.starter.failedDistance = launch.starter.failedDistance := by
  cases action with
  | starter => exact absurd rfl other
  | body affinity =>
      have same : last.starter = launch.starter := by
        rw [Launch.step, Launch.stepBody] at ran
        cases place : launch.body <;> rw [place] at ran <;> cases ran <;>
          repeat' first | rfl | split
      rw [same]
      exact ⟨rfl, rfl⟩
  | leave =>
      rw [Launch.step] at ran
      split at ran
      case h_1 started returned =>
          cases ran
          rw [returned]
          exact ⟨rfl, rfl⟩
      case h_2 => cases ran

theorem Body.Fits.started (fits : launch.body.Fits launch) (running : launch.running = true) :
    Started launch := by
  rcases fits.phase with ⟨-, -, idle, -⟩ | quiet | started | ⟨failed, -⟩
  · cases idle.symm.trans running
  · cases quiet.running.symm.trans running
  · exact started
  · cases failed.running.symm.trans running

theorem Body.Fits.failed (fits : launch.body.Fits launch) (failed : launch.failed = true) :
    Failed launch ∧ (launch.body = .leaving ∨ launch.body = .ended) := by
  rcases fits.phase with ⟨-, -, -, idle⟩ | quiet | started | ⟨fails, leaves⟩
  · cases idle.symm.trans failed
  · cases quiet.failed.symm.trans failed
  · cases started.failed.symm.trans failed
  · exact ⟨fails, leaves.imp_left And.left⟩

theorem nextStarter_of_step (ran : launch.step .starter = some last)
    (existsThread : launch.starter ≠ .starting) : launch.nextStarter = some last.starter := by
  rw [Launch.step, Launch.stepStarter, if_neg existsThread] at ran
  rcases Option.map_eq_some_iff.mp ran with ⟨starter, next, rfl⟩
  exact next

theorem Started.distance_of_step (started : Started launch)
    (ran : launch.step action = some last) :
    [action].count .starter + last.starter.startedDistance = launch.starter.startedDistance := by
  by_cases own : action = .starter
  · subst own
    rw [← started.closer (nextStarter_of_step ran started.existsThread), List.count_singleton_self,
      Nat.add_comm]
  · rw [List.count_singleton, beq_eq_false_iff_ne.mpr own, (ThreadUtils.distance_of_step ran own).1]
    exact Nat.zero_add _

theorem Failed.distance_of_step (failed : Failed launch)
    (ran : launch.step action = some last) :
    [action].count .starter + last.starter.failedDistance = launch.starter.failedDistance := by
  by_cases own : action = .starter
  · subst own
    rw [← failed.closer (nextStarter_of_step ran failed.existsThread), List.count_singleton_self,
      Nat.add_comm]
  · rw [List.count_singleton, beq_eq_false_iff_ne.mpr own, (ThreadUtils.distance_of_step ran own).2]
    exact Nat.zero_add _

/-- Once a flag is set, every step of the function brings it closer to its return, and no step of
the body or the caller takes it away. -/
theorem distance_of_run {later : List LaunchAction} (fits : launch.body.Fits launch)
    (run : Run Step launch later last) :
    last.body.Fits last ∧
      (launch.running = true → last.running = true ∧
        later.count .starter + last.starter.startedDistance = launch.starter.startedDistance) ∧
      (launch.failed = true → last.failed = true ∧
        later.count .starter + last.starter.failedDistance = launch.starter.failedDistance) := by
  induction run with
  | nil => exact ⟨fits, fun running => ⟨running, by simp⟩, fun failed => ⟨failed, by simp⟩⟩
  | @snoc front state next action _ stepped ih =>
      rcases ih with ⟨fitsState, whenRunning, whenFailed⟩
      have advances := advances_of_step stepped
      refine ⟨fits_step fitsState stepped, ?_, ?_⟩
      · intro running
        rcases whenRunning running with ⟨runs, distance⟩
        have closer := (fitsState.started runs).distance_of_step stepped
        refine ⟨advances.running runs, ?_⟩
        rw [List.count_append]
        omega
      · intro failed
        rcases whenFailed failed with ⟨fails, distance⟩
        have closer := (fitsState.failed fails).1.distance_of_step stepped
        refine ⟨advances.failed fails, ?_⟩
        rw [List.count_append]
        omega

/-- The function has returned this result, or can make a step, or waits in `join` for the one
step that the thread has left. -/
def Proceeds (launch : Launch) (started : Bool) : Prop :=
  launch.starter.Results started ∨ (∃ next, launch.step .starter = some next) ∨
    launch.starter = .joining ∧ ∀ affinity, ∃ next,
      launch.step (.body affinity) = some next ∧ next.body = .ended

theorem step_of_nextStarter {starter : Starter} (existsThread : launch.starter ≠ .starting)
    (next : launch.nextStarter = some starter) : ∃ last, launch.step .starter = some last := by
  rw [Launch.step, Launch.stepStarter, if_neg existsThread, next]
  exact ⟨_, rfl⟩

theorem Started.proceeds (started : Started launch) : Proceeds launch true := by
  have goes : ∀ starter, launch.nextStarter = some starter → Proceeds launch true :=
    fun _ next => Or.inr (Or.inl (step_of_nextStarter started.existsThread next))
  have starter := started.starter
  cases place : launch.starter <;> rw [place] at starter
  case starting => exact absurd place started.existsThread
  case testingRunning => exact goes _ (by rw [Launch.nextStarter, place])
  case testingFailed => exact goes _ (by rw [Launch.nextStarter, place])
  case sleeping => exact goes _ (by rw [Launch.nextStarter, place])
  case deciding => exact goes _ (by rw [Launch.nextStarter, place])
  case joining => simp [Starter.Waits, Starter.Results] at starter
  case returned result =>
      simp only [Starter.Waits, Starter.Results, reduceCtorEq, false_or] at starter
      exact Or.inl (by rw [place, starter]; rfl)
  case left result =>
      simp only [Starter.Waits, Starter.Results, reduceCtorEq, false_or] at starter
      exact Or.inl (by rw [place, starter]; rfl)

theorem Failed.proceeds (failed : Failed launch)
    (leaves : launch.body = .leaving ∨ launch.body = .ended) : Proceeds launch false := by
  have goes : ∀ starter, launch.nextStarter = some starter → Proceeds launch false :=
    fun _ next => Or.inr (Or.inl (step_of_nextStarter failed.existsThread next))
  have starter := failed.starter
  cases place : launch.starter <;> rw [place] at starter
  case starting => exact absurd place failed.existsThread
  case testingRunning => exact goes _ (by rw [Launch.nextStarter, place])
  case testingFailed => exact goes _ (by rw [Launch.nextStarter, place])
  case sleeping => exact goes _ (by rw [Launch.nextStarter, place])
  case deciding => exact goes _ (by rw [Launch.nextStarter, place])
  case joining =>
      rcases leaves with leaving | ended
      · refine Or.inr (Or.inr ⟨place, fun affinity => ?_⟩)
        rw [Launch.step, Launch.stepBody, leaving]
        exact ⟨_, rfl, rfl⟩
      · exact goes (.returned false) (by rw [Launch.nextStarter, place]; exact if_pos ended)
  case returned result =>
      simp only [Starter.Waits, Starter.Results, reduceCtorEq, false_or] at starter
      exact Or.inl (by rw [place, starter]; rfl)
  case left result =>
      simp only [Starter.Waits, Starter.Results, reduceCtorEq, false_or] at starter
      exact Or.inl (by rw [place, starter]; rfl)

/-- Once the body has set a flag, the function makes at most five more steps of its own, however
the steps of the body and the caller fall between them, and it is not stuck before it has returned
the result that the flag decides: it waits only for a thread that is about to end. Without a core
the body never sets `failed`. -/
theorem returns_of_run {later : List LaunchAction}
    (run : Run Step (Launch.new coreId) actions launch) (rest : Run Step launch later last) :
    (launch.running = true → later.count .starter ≤ 5 ∧ Proceeds last true) ∧
      (launch.failed = true → 0 ≤ coreId ∧ later.count .starter ≤ 5 ∧ Proceeds last false) := by
  rcases fits_of_run run with ⟨fits, rfl⟩
  rcases distance_of_run fits rest with ⟨fitsLast, whenRunning, whenFailed⟩
  constructor
  · intro running
    rcases whenRunning running with ⟨runs, distance⟩
    have bound := Starter.startedDistance_le launch.starter
    exact ⟨by omega, (fitsLast.started runs).proceeds⟩
  · intro failed
    rcases whenFailed failed with ⟨fails, distance⟩
    have bound := Starter.failedDistance_le launch.starter
    have failing := fitsLast.failed fails
    exact ⟨(fits.failed failed).1.refused.1, by omega, failing.1.proceeds failing.2⟩

/-- The body has set `failed` while the function sleeps; the function joins the thread while it is
not over. -/
theorem returns_of_run_sample : ∃ launch last : Launch, launch.failed = true ∧
    launch.starter = .sleeping ∧ last.starter = .joining ∧ last.body = .leaving ∧
      Run Step launch [.starter, .starter, .starter, .starter] last ∧ Proceeds last false := by
  have executed : (execute Launch.step (Launch.new 1)
      [.starter, .starter, .body false, .starter, .body true]).any
      (fun launch => (launch.failed = true ∧ launch.starter = .sleeping) ∧
        (execute Launch.step launch [.starter, .starter, .starter, .starter]).any
          (fun last => last.starter = .joining ∧ last.body = .leaving) = true) = true := by
    decide +kernel
  rcases (Option.any_eq_true _ _).mp executed with ⟨launch, reached, facts⟩
  rcases of_decide_eq_true facts with ⟨⟨failed, sleeping⟩, executed⟩
  rcases (Option.any_eq_true _ _).mp executed with ⟨last, joined, facts⟩
  rcases of_decide_eq_true facts with ⟨joining, leaving⟩
  have run : Run Step (Launch.new 1) _ launch := Run.of_execute id reached
  have rest : Run Step launch _ last := Run.of_execute id joined
  exact ⟨launch, last, failed, sleeping, joining, leaving, rest,
    ((returns_of_run run rest).2 failed).2.2⟩

/-- The statement of the call can be over before the body calls `func`, as `running` is set
first. -/
theorem lostFunc_of_early_leave : ∃ launch : Launch,
    Run Step (Launch.new (-1)) [.starter, .body true, .body true, .starter, .starter, .leave,
      .body true] launch ∧ launch.body = .lostFunc ∧ launch.calls = 0 := by
  have executed : (execute Launch.step (Launch.new (-1))
      [.starter, .body true, .body true, .starter, .starter, .leave, .body true]).any
      (fun launch => launch.body = .lostFunc ∧ launch.calls = 0) = true := by
    decide +kernel
  rcases (Option.any_eq_true _ _).mp executed with ⟨launch, reached, facts⟩
  exact ⟨launch, Run.of_execute id reached, of_decide_eq_true facts⟩

end QuantEngine.ThreadUtils
