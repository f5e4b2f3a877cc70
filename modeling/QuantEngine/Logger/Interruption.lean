import QuantEngine.Queue.Shutdown

/-!
# The logger destroyed by a signal handler

The handler that `main` installs deletes the logger, and the signal may arrive in
the middle of a `pushValue` of the thread that it interrupts, between any two
accesses. The handler exits the process, so that call is never finished.

The counter of the queue is the last thing a push changes, and both threads rely
on it alone. What is lost is therefore the interrupted element, even when it is
in the queue already, and nothing else.
-/

namespace QuantEngine.Logger

open LFQueue LFQueue.Threads Runs

variable {numElem : ℕ} {threads following : Threads LogElement numElem}
  {session last : Session numElem} {format : FloatFormat}

/-- A step of the two threads, or the signal. -/
inductive Signalled where
  | step (action : Action)
  | interrupt
  deriving DecidableEq

/-- The handler starts the destructor wherever the thread is that uses the logger. -/
def stepSignalled (format : FloatFormat) (session : Session numElem) :
    Signalled → Option (Session numElem)
  | .step action => step format session action
  | .interrupt =>
      if session.caller = .logging then some { session with caller := .waiting } else none

/-- A push leaves a place free in the queue; the signal publishes nothing. -/
def Signalled.KeepsRoom (session : Session numElem) : Signalled → Prop
  | .step action => Logger.KeepsRoom session action
  | .interrupt => True

instance (session : Session numElem) (signalled : Signalled) :
    Decidable (signalled.KeepsRoom session) :=
  match signalled with
  | .step action => inferInstanceAs (Decidable (Logger.KeepsRoom session action))
  | .interrupt => inferInstanceAs (Decidable True)

def SignalledStep (format : FloatFormat) (session : Session numElem) (signalled : Signalled)
    (last : Session numElem) : Prop :=
  signalled.KeepsRoom session ∧ stepSignalled format session signalled = some last

/-- The logger thread makes no step in the queue, or one that is not the producer's. -/
theorem threads_of_stepFlusher (ran : stepFlusher format session = some last) :
    last.threads = session.threads ∨ ∃ access, ¬IsProducing access ∧
      session.threads.step access = some last.threads := by
  rw [stepFlusher] at ran
  split at ran
  case h_1 =>
      cases ran
      exact Or.inl rfl
  case h_5 =>
      split at ran
      case h_1 => cases ran
      case h_2 =>
          rcases Option.map_eq_some_iff.mp ran with ⟨following, stepped, rfl⟩
          exact Or.inr ⟨_, id, stepped⟩
  case h_8 => cases ran
  all_goals
    rcases Option.map_eq_some_iff.mp ran with ⟨following, stepped, rfl⟩
    exact Or.inr ⟨_, id, stepped⟩

/-- What the logger thread leaves alone. -/
theorem caller_of_stepFlusher (ran : stepFlusher format session = some last) :
    last.caller = session.caller ∧ last.pushed = session.pushed := by
  rw [stepFlusher] at ran
  split at ran
  case h_1 =>
      cases ran
      exact ⟨rfl, rfl⟩
  case h_5 =>
      split at ran
      case h_1 => cases ran
      case h_2 =>
          rcases Option.map_eq_some_iff.mp ran with ⟨following, stepped, rfl⟩
          exact ⟨rfl, rfl⟩
  case h_8 => cases ran
  all_goals
    rcases Option.map_eq_some_iff.mp ran with ⟨following, stepped, rfl⟩
    exact ⟨rfl, rfl⟩

/-- The logger thread sees of the caller only `running_`. -/
theorem stepFlusher_caller {caller : Caller} (ran : stepFlusher format session = some last) :
    stepFlusher format { session with caller := caller } = some { last with caller := caller } := by
  rw [stepFlusher] at ran ⊢
  dsimp only
  cases place : session.flusher <;> rw [place] at ran <;> dsimp only at ran ⊢
  case testing =>
      cases ran
      rfl
  case writing =>
      cases next : session.threads.next <;> rw [next] at ran <;> dsimp only at ran ⊢
      case none => cases ran
      case some slot =>
          rcases Option.map_eq_some_iff.mp ran with ⟨following, stepped, rfl⟩
          rw [stepped]
          rfl
  case finished => cases ran
  all_goals
    rcases Option.map_eq_some_iff.mp ran with ⟨following, stepped, rfl⟩
    rw [stepped]
    rfl

/-- The session as if the first thread were still using the logger. -/
def whileLogging (session : Session numElem) : Session numElem :=
  { session with caller := .logging }

/-- The destructor has seen the logger thread finished. -/
def Caller.SawFinished : Caller → Prop
  | .closing => True
  | .closed => True
  | _ => False

/-- What an interruption leaves of the invariant of the two threads. -/
structure Interrupted (format : FloatFormat) (session : Session numElem) : Prop where
  flushes : Flushes format (whileLogging session)
  drained : session.caller.SawEmpty → session.threads.counted = session.threads.discounted
  finished : session.caller.SawFinished → session.flusher = .finished

theorem interrupted_new [NeZero numElem] : Interrupted format (new numElem) where
  flushes := flushes_new
  drained empty := empty.elim
  finished saw := saw.elim

namespace Interrupted

/-- The logger thread decrements nothing once everything counted is released. -/
theorem drained_stepFlusher (interrupted : Interrupted format session)
    (drained : session.threads.counted = session.threads.discounted)
    (ran : stepFlusher format session = some last) :
    last.threads.counted = last.threads.discounted := by
  rcases threads_of_stepFlusher ran with same | ⟨access, consuming, stepped⟩
  · rw [same]
    exact drained
  · have nothing := interrupted.flushes.released_of_drained drained
    rw [(keepsProducer_of_step consuming stepped).counted, drained]
    generalize last.threads = following at stepped
    cases access_of_step stepped with
    | subElement place => exact absurd place nothing.2.1
    | _ => rfl

theorem stepFlusher (fits : numElem < 2 ^ 64) (interrupted : Interrupted format session)
    (ran : Logger.stepFlusher format session = some last) : Interrupted format last where
  flushes := interrupted.flushes.stepFlusher fits (stepFlusher_caller ran)
  drained empty := by
    rw [(caller_of_stepFlusher ran).1] at empty
    exact interrupted.drained_stepFlusher (interrupted.drained empty) ran
  finished saw := by
    rw [(caller_of_stepFlusher ran).1] at saw
    rw [Logger.stepFlusher, interrupted.finished saw] at ran
    cases ran

theorem stepCaller (fits : numElem < 2 ^ 64) (interrupted : Interrupted format session)
    (room : session.threads.KeepsRoom .producer)
    (ran : Logger.stepCaller session = some last) : Interrupted format last := by
  have flushes := interrupted.flushes
  have drained := interrupted.drained
  have finished := interrupted.finished
  rw [Logger.stepCaller] at ran
  split at ran
  case h_1 place =>
      rcases Option.map_eq_some_iff.mp ran with ⟨following, stepped, rfl⟩
      have pushed : session.pushed = following.written ++ pending following := by
        rw [← written_of_producer stepped]
        exact flushes.pushed
      refine ⟨flushes.producing fits stepped rfl trivial room pushed, ?_, ?_⟩
      · dsimp only
        rw [place]
        exact fun empty => empty.elim
      · dsimp only
        rw [place]
        exact fun saw => saw.elim
  case h_2 place =>
      cases ran
      refine ⟨flushes, ?_, ?_⟩
      · intro empty
        dsimp only at empty ⊢
        split at empty
        case isTrue zero =>
            have counter := (flushes.guarded.toNat_numElements fits).1
            have ahead := flushes.guarded.released
            have behind := flushes.guarded.coherent.consumer.discounted_le
            change session.threads.queue.numElements.toNat =
              session.threads.counted - session.threads.discounted at counter
            rw [zero, UInt64.toNat_zero] at counter
            change session.threads.released ≤ session.threads.counted at ahead
            change session.threads.discounted ≤ session.threads.released ∧ _ at behind
            omega
        case isFalse => exact empty.elim
      · intro saw
        dsimp only at saw
        split at saw <;> exact saw.elim
  case h_3 place =>
      cases ran
      rw [place] at drained
      exact ⟨{ flushes with }, fun _ => drained trivial, fun saw => saw.elim⟩
  case h_4 place =>
      rw [place] at drained
      split at ran
      case isTrue isFinished =>
          cases ran
          exact ⟨flushes, fun _ => drained trivial, fun _ => isFinished⟩
      case isFalse => cases ran
  case h_5 place =>
      cases ran
      rw [place] at drained finished
      exact ⟨flushes, fun _ => drained trivial, fun _ => finished trivial⟩
  case h_6 => cases ran

theorem pushValue {logElement : LogElement} (fits : numElem < 2 ^ 64)
    (interrupted : Interrupted format session)
    (ran : Logger.step format session (.pushValue logElement) = some last) :
    Interrupted format last := by
  have flushes := interrupted.flushes
  rw [Logger.step] at ran
  split at ran
  case isTrue logging =>
      rcases Option.map_eq_some_iff.mp ran with ⟨following, stepped, rfl⟩
      have pushed : session.pushed ++ [logElement] = following.written ++ pending following := by
        rw [← written_of_start stepped]
        exact congrArg (· ++ [logElement]) flushes.pushed
      refine ⟨flushes.producing fits stepped rfl trivial trivial pushed, ?_, ?_⟩
      · dsimp only
        rw [logging]
        exact fun empty => empty.elim
      · dsimp only
        rw [logging]
        exact fun saw => saw.elim
  case isFalse => cases ran

/-- The destructor starts, in a call of the interrupted thread or between two of them. -/
theorem wait (interrupted : Interrupted format session) :
    Interrupted format { session with caller := .waiting } where
  flushes := interrupted.flushes
  drained empty := empty.elim
  finished saw := saw.elim

theorem step {signalled : Signalled} (fits : numElem < 2 ^ 64)
    (interrupted : Interrupted format session)
    (stepped : SignalledStep format session signalled last) : Interrupted format last := by
  rcases stepped with ⟨room, ran⟩
  cases signalled with
  | step action =>
      have ran : Logger.step format session action = some last := ran
      cases action with
      | pushValue logElement => exact interrupted.pushValue fits ran
      | destroy =>
          rw [Logger.step] at ran
          split at ran
          case isTrue =>
              cases ran
              exact interrupted.wait
          case isFalse => cases ran
      | caller => exact interrupted.stepCaller fits room ran
      | flusher => exact interrupted.stepFlusher fits ran
  | interrupt =>
      rw [stepSignalled] at ran
      split at ran
      case isTrue =>
          cases ran
          exact interrupted.wait
      case isFalse => cases ran

/-- One element has been pushed and is not counted when the producer is in a call. -/
theorem length_pushed (interrupted : Interrupted format session) :
    session.pushed.length =
      session.threads.counted + if session.threads.producer = .idle then 0 else 1 := by
  have producing : session.threads.producer.Fits session.threads.written.length
    session.threads.published session.threads.counted :=
    interrupted.flushes.guarded.coherent.producer
  have pushed : session.pushed = session.threads.written ++ pending session.threads :=
    interrupted.flushes.pushed
  rw [pushed, List.length_append]
  cases place : session.threads.producer <;> rw [place] at producing <;>
    simp only [pending, place, Producer.Fits, List.length_nil, List.length_singleton, reduceCtorEq,
      if_true, if_false] at producing ⊢ <;> omega

/-- With the logger thread finished, the file holds what was counted. -/
theorem file_eq (interrupted : Interrupted format session) (closed : session.caller = .closed) :
    session.file =
      (session.pushed.take session.threads.counted).flatMap (LogElement.render format) := by
  have flushes := interrupted.flushes
  have producing : session.threads.producer.Fits session.threads.written.length
    session.threads.published session.threads.counted := flushes.guarded.coherent.producer
  have finished : session.flusher = .finished := by
    apply interrupted.finished
    rw [closed]
    trivial
  have drained : session.threads.counted = session.threads.discounted := by
    apply interrupted.drained
    rw [closed]
    trivial
  have released := (flushes.released_of_drained drained).1
  have unread : session.flusher.Fits session.threads := flushes.flusher
  rw [finished] at unread
  have read := flushes.inOrder.read
  have pushed : session.pushed = session.threads.written ++ pending session.threads :=
    flushes.pushed
  have written : session.threads.counted ≤ session.threads.written.length := by
    have behind := producing.written_le
    omega
  calc session.file = session.threads.read.flatMap (LogElement.render format) := flushes.file
    _ = (session.threads.written.take session.threads.counted).flatMap
        (LogElement.render format) := by
      have same : session.threads.read =
          session.threads.written.take session.threads.counted := by
        change session.threads.read = session.threads.written.take session.threads.readCount at read
        change session.threads.released = session.threads.counted at released
        rw [read, readCount, unread.2, released]
        rfl
      rw [same]
    _ = _ := by rw [pushed, List.take_append_of_le_length written]

end Interrupted

/-- When the file is closed it holds, once and in order, every element whose push had returned
before the signal, and not the one whose push the signal interrupted. -/
theorem interrupted_of_run [NeZero numElem] {signals : List Signalled} (fits : numElem < 2 ^ 64)
    (run : Run (SignalledStep format) (new numElem) signals session)
    (closed : session.caller = .closed) :
    session.file =
        (session.pushed.take session.threads.counted).flatMap (LogElement.render format) ∧
      session.pushed.length =
        session.threads.counted + if session.threads.producer = .idle then 0 else 1 := by
  have interrupted : Interrupted format session :=
    run.invariant (Interrupted format) interrupted_new
      fun interrupted stepped => interrupted.step fits stepped
  exact ⟨interrupted.file_eq closed, interrupted.length_pushed⟩

/-- The second push is interrupted with its element published, and the element is lost. -/
theorem interrupted_of_run_sample : ∃ session : Session 3,
    session.pushed = [.char 'a', .char 'b'] ∧ session.threads.published = 2 ∧
      session.file = ['a'] := by
  have executed : (execute (permitted (fun session signalled => signalled.KeepsRoom session)
      (stepSignalled ⟨fun _ => [], fun _ => []⟩)) (new 3 : Session 3)
      ([.step (.pushValue (.char 'a'))] ++ List.replicate 4 (.step .caller) ++
        [.step (.pushValue (.char 'b'))] ++ List.replicate 3 (.step .caller) ++ [.interrupt] ++
        List.replicate 13 (.step .flusher) ++ List.replicate 2 (.step .caller) ++
        [.step .flusher] ++ List.replicate 2 (.step .caller))).any
      (fun (session : Session 3) => session.caller = .closed ∧ session.threads.counted = 1 ∧
        session.pushed = [.char 'a', .char 'b'] ∧ session.threads.published = 2) = true := by
    decide +kernel
  rcases (Option.any_eq_true _ _).mp executed with ⟨session, reached, facts⟩
  rcases of_decide_eq_true facts with ⟨closed, counted, pushed, published⟩
  have run : Run (SignalledStep _) (new 3) _ session := Run.of_permitted reached
  have kept := (interrupted_of_run (by decide) run closed).1
  rw [counted, pushed] at kept
  exact ⟨session, pushed, published, kept⟩

end QuantEngine.Logger
