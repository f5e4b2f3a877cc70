import Mathlib.Data.List.Induction
import QuantEngine.Logger
import QuantEngine.Queue.Rules

/-!
# The file when the logger is gone

`flushQueue` reads each element once and releases it only after it has seen a
positive size, so the queue's counter counts exactly the elements that have not
been released. The destructor therefore leaves its loop only when everything
pushed is in the file, and from then on the logger thread finds nothing to do.
-/

namespace QuantEngine.Logger

open LFQueue LFQueue.Threads Runs

variable {numElem : ℕ} {threads following : Threads LogElement numElem}
  {session last : Session numElem} {format : FloatFormat} {action : Action} {actions : List Action}

/-- The steps of the producer. -/
def IsProducing : LFQueue.Action LogElement → Prop
  | .getNextToWriteTo _ => True
  | .producer => True
  | _ => False

/-- What a step of the producer leaves alone. -/
structure KeepsConsumer (threads following : Threads LogElement numElem) : Prop where
  consumer : following.consumer = threads.consumer
  sawSome : following.sawSome = threads.sawSome
  hasRead : following.hasRead = threads.hasRead
  read : following.read = threads.read

theorem keepsConsumer_of_step {access : LFQueue.Action LogElement} (producing : IsProducing access)
    (ran : threads.step access = some following) : KeepsConsumer threads following := by
  cases access_of_step ran <;> first | exact ⟨rfl, rfl, rfl, rfl⟩ | exact producing.elim

/-- What a step of the consumer leaves alone. -/
structure KeepsProducer (threads following : Threads LogElement numElem) : Prop where
  producer : following.producer = threads.producer
  written : following.written = threads.written
  counted : following.counted = threads.counted

theorem keepsProducer_of_step {access : LFQueue.Action LogElement}
    (consuming : ¬IsProducing access) (ran : threads.step access = some following) :
    KeepsProducer threads following := by
  cases access_of_step ran <;> first | exact ⟨rfl, rfl, rfl⟩ | exact absurd trivial consuming

/-- What the place of the logger thread says about its use of the queue. -/
def Flusher.Fits (threads : Threads LogElement numElem) : Flusher → Prop
  | .comparing => ((∃ index, threads.consumer = .comparing index) ∨
      threads.consumer = .differing) ∧ threads.hasRead = false
  | .writing => threads.consumer = .idle ∧ threads.sawSome = true ∧ threads.hasRead = false
  | .releasing => threads.consumer = .idle ∧ threads.sawSome = true ∧ threads.hasRead = true
  | .advancing => (∃ index, threads.consumer = .loaded index) ∨
      threads.consumer = .advanced ∧ threads.hasRead = false
  | _ => threads.consumer = .idle ∧ threads.hasRead = false

theorem Flusher.Fits.of_keepsConsumer {flusher : Flusher} (fits : flusher.Fits threads)
    (keeps : KeepsConsumer threads following) : flusher.Fits following := by
  cases flusher <;>
    simp only [Flusher.Fits, keeps.consumer, keeps.sawSome, keeps.hasRead] at fits ⊢ <;>
    exact fits

/-- The element of a `pushValue` that has not reached the store. -/
def pending (threads : Threads LogElement numElem) : List LogElement :=
  match threads.producer with
  | .holding _ logElement => [logElement]
  | _ => []

/-- The destructor has seen an empty queue. -/
def Caller.SawEmpty : Caller → Prop
  | .logging => False
  | .waiting => False
  | _ => True

structure Flushes (format : FloatFormat) (session : Session numElem) : Prop where
  guarded : session.threads.Guarded
  inOrder : session.threads.ReadsInOrder
  flusher : session.flusher.Fits session.threads
  file : session.file = session.threads.read.flatMap (LogElement.render format)
  pushed : session.pushed = session.threads.written ++ pending session.threads
  caller : session.caller ≠ .logging → session.threads.producer = .idle
  drained : session.caller.SawEmpty → session.threads.counted = session.threads.discounted

theorem flushes_new [NeZero numElem] : Flushes format (new numElem) where
  guarded := guarded_new
  inOrder := readsInOrder_new
  flusher := ⟨rfl, rfl⟩
  file := rfl
  pushed := rfl
  caller isNot := absurd rfl isNot
  drained empty := empty.elim

namespace Flushes

/-- Once the destructor has seen an empty queue, nothing is left to be released. -/
theorem released_of_drained (flushes : Flushes format session)
    (drained : session.threads.counted = session.threads.discounted) :
    session.threads.released = session.threads.counted ∧ session.threads.consumer ≠ .advanced ∧
      ∀ index, session.threads.consumer ≠ .loaded index := by
  have ahead := flushes.guarded.released
  have consuming := flushes.guarded.coherent.consumer
  have behind := consuming.discounted_le
  refine ⟨by omega, ?_, ?_⟩
  · intro place
    rw [place] at consuming
    have late : session.threads.discounted + 1 = session.threads.released := consuming
    omega
  · intro index place
    have less := flushes.guarded.releasing index place
    omega

/-- A step of the queue that its caller takes in a call of `pushValue`. -/
theorem producing {access : LFQueue.Action LogElement} {pushed : List LogElement}
    (fits : numElem < 2 ^ 64) (flushes : Flushes format session)
    (ran : session.threads.step access = some following) (logging : session.caller = .logging)
    (isProducing : IsProducing access) (room : session.threads.KeepsRoom access)
    (pushedEq : pushed = following.written ++ pending following) :
    Flushes format { session with threads := following, pushed := pushed } := by
  have keeps := keepsConsumer_of_step isProducing ran
  have allowed : session.threads.SizeGuarded access := by
    cases access <;> first | exact room | exact isProducing.elim
  have once : session.threads.ReadsOnce access := by
    cases access <;> trivial
  exact {
    guarded := flushes.guarded.step fits allowed ran
    inOrder := flushes.inOrder.step room once ran
    flusher := flushes.flusher.of_keepsConsumer keeps
    file := flushes.file.trans (by rw [keeps.read])
    pushed := pushedEq
    caller := fun isNot => absurd logging isNot
    drained := fun empty => by
      rw [logging] at empty
      exact empty.elim }

/-- A step of the queue that the logger thread takes. -/
theorem consuming {access : LFQueue.Action LogElement} {flusher : Flusher} {file : List Char}
    (fits : numElem < 2 ^ 64) (flushes : Flushes format session)
    (ran : session.threads.step access = some following) (isConsuming : ¬IsProducing access)
    (allowed : session.threads.SizeGuarded access) (once : session.threads.ReadsOnce access)
    (flusherFits : flusher.Fits following)
    (fileEq : file = following.read.flatMap (LogElement.render format)) :
    Flushes format
      { session with threads := following, flusher := flusher, file := file } := by
  have keeps := keepsProducer_of_step isConsuming ran
  refine {
    guarded := flushes.guarded.step fits allowed ran
    inOrder := flushes.inOrder.step allowed.keepsRoom once ran
    flusher := flusherFits
    file := fileEq
    pushed := ?_
    caller := fun isNot => keeps.producer.trans (flushes.caller isNot)
    drained := ?_ }
  · simp only [pending, keeps.written, keeps.producer]
    exact flushes.pushed
  · intro empty
    have drained := flushes.drained empty
    have nothing := flushes.released_of_drained drained
    rw [keeps.counted, drained]
    cases access_of_step ran with
    | subElement place => exact absurd place nothing.2.1
    | _ => rfl

end Flushes

/-- Fewer elements than the queue has are published and not released. -/
def KeepsRoom (session : Session numElem) : Action → Prop
  | .caller => session.threads.KeepsRoom .producer
  | _ => True

instance (session : Session numElem) (action : Action) : Decidable (KeepsRoom session action) :=
  match action with
  | .caller => inferInstanceAs (Decidable (session.threads.KeepsRoom .producer))
  | .pushValue _ => inferInstanceAs (Decidable True)
  | .destroy => inferInstanceAs (Decidable True)
  | .flusher => inferInstanceAs (Decidable True)

/-- A step of the two threads that leaves a place free in the queue. -/
def Step (format : FloatFormat) (session : Session numElem) (action : Action)
    (last : Session numElem) : Prop :=
  KeepsRoom session action ∧ step format session action = some last

theorem written_of_start {logElement : LogElement}
    (ran : threads.step (.getNextToWriteTo logElement) = some following) :
    (threads.written ++ pending threads) ++ [logElement] =
      following.written ++ pending following := by
  cases access_of_step ran with
  | getNextToWriteTo idle => simp [pending, idle]

theorem written_of_producer (ran : threads.step .producer = some following) :
    threads.written ++ pending threads = following.written ++ pending following := by
  cases access_of_step ran with
  | storeElement place => simp [pending, place]
  | loadWriteIndex place => simp [pending, place]
  | storeWriteIndex place => simp [pending, place]
  | addElement place => simp [pending, place]

namespace Flushes

theorem pushValue {logElement : LogElement} (fits : numElem < 2 ^ 64)
    (flushes : Flushes format session)
    (ran : Logger.step format session (.pushValue logElement) = some last) :
    Flushes format last := by
  rw [Logger.step] at ran
  split at ran
  case isTrue logging =>
      rcases Option.map_eq_some_iff.mp ran with ⟨following, stepped, rfl⟩
      refine flushes.producing fits stepped logging trivial trivial ?_
      rw [← written_of_start stepped, ← flushes.pushed]
  case isFalse => cases ran

theorem destroy (flushes : Flushes format session)
    (ran : Logger.step format session .destroy = some last) : Flushes format last := by
  rw [Logger.step] at ran
  split at ran
  case isTrue ready =>
      cases ran
      exact { flushes with caller := fun _ => ready.2, drained := fun empty => empty.elim }
  case isFalse => cases ran

/-- The size that the destructor reads is zero only when everything is released. -/
theorem stepCaller (fits : numElem < 2 ^ 64) (flushes : Flushes format session)
    (room : session.threads.KeepsRoom .producer)
    (ran : Logger.stepCaller session = some last) : Flushes format last := by
  have idle := flushes.caller
  have drained := flushes.drained
  rw [Logger.stepCaller] at ran
  split at ran
  case h_1 place =>
      rcases Option.map_eq_some_iff.mp ran with ⟨following, stepped, rfl⟩
      refine flushes.producing fits stepped place trivial room ?_
      rw [← written_of_producer stepped, ← flushes.pushed]
  case h_2 place =>
      cases ran
      rw [place] at idle
      refine { flushes with caller := fun _ => idle (by simp), drained := ?_ }
      intro empty
      dsimp only at empty
      split at empty
      case isTrue zero =>
          have counter := (flushes.guarded.toNat_numElements fits).1
          have ahead := flushes.guarded.released
          have behind := flushes.guarded.coherent.consumer.discounted_le
          rw [zero, UInt64.toNat_zero] at counter
          dsimp only
          omega
      case isFalse => exact empty.elim
  case h_3 place =>
      cases ran
      rw [place] at idle drained
      exact { flushes with
        caller := fun _ => idle (by simp)
        drained := fun _ => drained trivial }
  case h_4 place =>
      rw [place] at idle drained
      split at ran
      case isTrue finished =>
          cases ran
          exact { flushes with
            caller := fun _ => idle (by simp)
            drained := fun _ => drained trivial }
      case isFalse => cases ran
  case h_5 place =>
      cases ran
      rw [place] at idle drained
      exact { flushes with
        caller := fun _ => idle (by simp)
        drained := fun _ => drained trivial }
  case h_6 => cases ran

theorem stepFlusher (fits : numElem < 2 ^ 64) (flushes : Flushes format session)
    (ran : Logger.stepFlusher format session = some last) : Flushes format last := by
  have place := flushes.flusher
  rw [Logger.stepFlusher] at ran
  split at ran
  case h_1 testing =>
      cases ran
      rw [testing] at place
      refine { flushes with flusher := ?_ }
      dsimp only
      split <;> exact place
  case h_2 fetching =>
      rcases Option.map_eq_some_iff.mp ran with ⟨following, stepped, rfl⟩
      rw [fetching] at place
      cases access_of_step stepped with
      | getNextToRead idle =>
          exact flushes.consuming fits stepped id trivial trivial
            ⟨Or.inl ⟨_, rfl⟩, place.2⟩ flushes.file
  case h_3 comparing =>
      rcases Option.map_eq_some_iff.mp ran with ⟨following, stepped, rfl⟩
      rw [comparing] at place
      cases access_of_step stepped with
      | findEmpty inCall same =>
          exact flushes.consuming fits stepped id trivial trivial ⟨rfl, place.2⟩ flushes.file
      | findElement inCall differ =>
          exact flushes.consuming fits stepped id trivial trivial ⟨Or.inr rfl, place.2⟩ flushes.file
      | returnElement inCall =>
          exact flushes.consuming fits stepped id trivial trivial ⟨rfl, place.2⟩ flushes.file
      | storeReadIndex inCall =>
          rcases place.1 with ⟨_, other⟩ | other <;> cases inCall.symm.trans other
      | subElement inCall =>
          rcases place.1 with ⟨_, other⟩ | other <;> cases inCall.symm.trans other
  case h_4 sizing =>
      rcases Option.map_eq_some_iff.mp ran with ⟨following, stepped, rfl⟩
      rw [sizing] at place
      cases access_of_step stepped with
      | size idle =>
          refine flushes.consuming fits stepped id trivial trivial ?_ flushes.file
          split
          case isTrue found =>
              refine ⟨place.1, ?_, place.2⟩
              simp [found.1]
          case isFalse => exact place
  case h_5 writing =>
      split at ran
      case h_1 => cases ran
      case h_2 next isNext =>
          rcases Option.map_eq_some_iff.mp ran with ⟨following, stepped, rfl⟩
          rw [writing] at place
          cases access_of_step stepped with
          | read idle isNext' =>
              cases isNext.symm.trans isNext'
              refine flushes.consuming fits stepped id place.2.1 place.2.2 ⟨idle, place.2.1, rfl⟩ ?_
              rw [flushes.file]
              simp
  case h_6 releasing =>
      rcases Option.map_eq_some_iff.mp ran with ⟨following, stepped, rfl⟩
      rw [releasing] at place
      cases access_of_step stepped with
      | updataReadIndex idle =>
          exact flushes.consuming fits stepped id place.2.1 place.2.2 (Or.inl ⟨_, rfl⟩) flushes.file
  case h_7 advancing =>
      rcases Option.map_eq_some_iff.mp ran with ⟨following, stepped, rfl⟩
      rw [advancing] at place
      cases access_of_step stepped with
      | storeReadIndex inCall =>
          exact flushes.consuming fits stepped id trivial trivial (Or.inr ⟨rfl, rfl⟩) flushes.file
      | subElement inCall =>
          rcases place with ⟨_, other⟩ | ⟨-, unread⟩
          · cases inCall.symm.trans other
          · exact flushes.consuming fits stepped id trivial trivial ⟨rfl, unread⟩ flushes.file
      | findEmpty inCall same =>
          rcases place with ⟨_, other⟩ | ⟨other, -⟩ <;> cases inCall.symm.trans other
      | findElement inCall differ =>
          rcases place with ⟨_, other⟩ | ⟨other, -⟩ <;> cases inCall.symm.trans other
      | returnElement inCall =>
          rcases place with ⟨_, other⟩ | ⟨other, -⟩ <;> cases inCall.symm.trans other
  case h_8 => cases ran

theorem step (fits : numElem < 2 ^ 64) (flushes : Flushes format session)
    (room : KeepsRoom session action) (ran : Logger.step format session action = some last) :
    Flushes format last := by
  cases action with
  | pushValue logElement => exact flushes.pushValue fits ran
  | destroy => exact flushes.destroy ran
  | caller => exact flushes.stepCaller fits room ran
  | flusher => exact flushes.stepFlusher fits ran

/-- With nothing left to be released, everything pushed is in the file. -/
theorem file_eq (flushes : Flushes format session) (empty : session.caller.SawEmpty) :
    session.file = session.pushed.flatMap (LogElement.render format) := by
  have idle : session.threads.producer = .idle := by
    apply flushes.caller
    intro logging
    rw [logging] at empty
    exact empty.elim
  have producing := flushes.guarded.coherent.producer
  rw [idle] at producing
  have released := (flushes.released_of_drained (flushes.drained empty)).1
  have all : session.threads.released = session.threads.written.length := by
    rw [released, producing.1, producing.2]
  have unread : session.threads.hasRead = false := by
    apply eq_false_of_ne_true
    intro has
    have behind := flushes.inOrder.hasRead has
    rw [all, producing.1] at behind
    exact Nat.lt_irrefl _ behind
  rw [flushes.file, flushes.inOrder.read, readCount, unread, all, Bool.toNat_false, Nat.add_zero,
    List.take_length, flushes.pushed, pending, idle, List.append_nil]

end Flushes

/-- When the destructor has closed the file, it holds every element pushed, once and in order. -/
theorem file_of_run [NeZero numElem] (fits : numElem < 2 ^ 64)
    (run : Run (Step format) (new numElem) actions session) (closed : session.caller = .closed) :
    session.file = session.pushed.flatMap (LogElement.render format) := by
  have flushes : Flushes format session :=
    run.invariant (Flushes format) flushes_new fun flushes ⟨room, ran⟩ => flushes.step fits room ran
  apply flushes.file_eq
  rw [closed]
  trivial

/-- The second character is pushed while the logger thread serves the first. -/
theorem file_of_run_sample : ∃ actions, ∃ session : Session 3,
    Run (Step ⟨fun _ => [], fun _ => []⟩) (new 3) actions session ∧ session.caller = .closed ∧
      session.file = ['a', 'b'] := by
  have executed : (execute (permitted KeepsRoom (step ⟨fun _ => [], fun _ => []⟩))
      (new 3 : Session 3) ([.pushValue (.char 'a'), .caller, .flusher, .caller, .caller, .flusher,
        .caller, .flusher, .pushValue (.char 'b'), .caller, .flusher, .caller] ++
        List.replicate 3 .flusher ++ [.caller, .caller, .destroy] ++
        List.replicate 10 .flusher ++ [.caller, .caller] ++ List.replicate 4 .flusher ++
        [.caller, .caller])).any (fun (session : Session 3) =>
        session.caller = .closed ∧ session.pushed = [.char 'a', .char 'b']) = true := by
    decide +kernel
  rcases (Option.any_eq_true _ _).mp executed with ⟨session, reached, facts⟩
  rcases of_decide_eq_true facts with ⟨closed, pushed⟩
  have run : Run (Step _) (new 3) _ session := Run.of_permitted reached
  have lines := file_of_run (by decide) run closed
  rw [pushed] at lines
  exact ⟨_, session, run, closed, lines⟩

/-- The queue is empty, and the logger thread is about to look for an element. -/
structure AtRest (session : Session numElem) : Prop where
  caller : session.caller = .logging
  flusher : session.flusher = .fetching
  running : session.running = true
  producer : session.threads.producer = .idle
  consumer : session.threads.consumer = .idle
  indices : session.threads.queue.nextReadIndex = session.threads.queue.nextWriteIndex
  numElements : session.threads.queue.numElements = 0
  released : session.threads.released = session.threads.published

/-- A call of `pushValue` that is not interrupted. -/
theorem execute_pushValue (format : FloatFormat) (logging : session.caller = .logging)
    (idle : session.threads.producer = .idle)
    (room : session.threads.published + 1 < session.threads.released + numElem)
    (logElement : LogElement) :
    execute (permitted KeepsRoom (step format)) session
        [.pushValue logElement, .caller, .caller, .caller, .caller] =
      some { session with
        threads := { session.threads with
          queue := session.threads.queue.write logElement
          written := session.threads.written ++ [logElement]
          published := session.threads.published + 1
          counted := session.threads.counted + 1 }
        pushed := session.pushed ++ [logElement] } := by
  simp [execute, permitted, KeepsRoom, Threads.KeepsRoom, step, Logger.stepCaller, Threads.step,
    stepProducer, write, storeNextToWriteTo, updateWriteIndex, logging, idle, room]

/-- A round of the inner loop of `flushQueue` that is not interrupted. -/
theorem execute_flushQueue (format : FloatFormat) (session : Session numElem)
    (fetching : session.flusher = .fetching)
    (idle : session.threads.consumer = .idle)
    (differ : session.threads.queue.nextReadIndex ≠ session.threads.queue.nextWriteIndex)
    (positive : session.threads.queue.numElements ≠ 0) :
    execute (permitted KeepsRoom (step format)) session (List.replicate 8 .flusher) =
      some { session with
        threads := { session.threads with
          queue := session.threads.queue.updataReadIndex
          next := none
          sawSome := false
          hasRead := false
          read := session.threads.read ++
            [session.threads.queue.store session.threads.queue.nextReadIndex]
          released := session.threads.released + 1
          discounted := session.threads.discounted + 1 }
        file := session.file ++
          (session.threads.queue.store session.threads.queue.nextReadIndex).render format } := by
  simp [execute, permitted, KeepsRoom, step, Logger.stepFlusher, Threads.step, stepConsumer,
    updataReadIndex, fetching, idle, differ, positive, List.replicate]

theorem indexAfter_one_ne (several : 1 < numElem) (index : Fin numElem) :
    indexAfter index 1 ≠ index := by
  intro same
  have values : (index.val + 1) % numElem = index.val := congrArg Fin.val same
  rcases Nat.lt_or_ge (index.val + 1) numElem with less | more
  · rw [Nat.mod_eq_of_lt less] at values
    omega
  · have last : index.val + 1 = numElem := Nat.le_antisymm index.isLt more
    rw [last, Nat.mod_self] at values
    omega

/-- One element is pushed and written, and the threads are where they were. -/
theorem AtRest.push (several : 1 < numElem) (atRest : AtRest session) (logElement : LogElement) :
    ∃ actions last, Run (Step format) session actions last ∧ AtRest last ∧
      last.pushed = session.pushed ++ [logElement] := by
  have room : session.threads.published + 1 < session.threads.released + numElem := by
    rw [atRest.released]
    omega
  have stored := execute_pushValue format atRest.caller atRest.producer room logElement
  have differ : session.threads.queue.nextReadIndex ≠
      (session.threads.queue.write logElement).nextWriteIndex := by
    rw [atRest.indices, nextWriteIndex_write]
    exact (indexAfter_one_ne several _).symm
  have positive : (session.threads.queue.write logElement).numElements ≠ 0 := by
    rw [numElements_write, atRest.numElements]
    decide
  have flushed := execute_flushQueue format { session with
      threads := { session.threads with
        queue := session.threads.queue.write logElement
        written := session.threads.written ++ [logElement]
        published := session.threads.published + 1
        counted := session.threads.counted + 1 }
      pushed := session.pushed ++ [logElement] }
    atRest.flusher atRest.consumer differ positive
  have pushes : Run (Step format) session _ _ := Run.of_permitted stored
  have writes : Run (Step format) _ _ _ := Run.of_permitted flushed
  refine ⟨_, _, pushes.append writes, ?_, rfl⟩
  exact {
    caller := atRest.caller
    flusher := atRest.flusher
    running := atRest.running
    producer := atRest.producer
    consumer := atRest.consumer
    indices := congrArg (indexAfter · 1) atRest.indices
    numElements := by
      rw [numElements_updataReadIndex, numElements_write, atRest.numElements]
      decide
    released := congrArg (· + 1) atRest.released }

/-- The destructor runs to its end. -/
theorem AtRest.close (atRest : AtRest session) :
    ∃ actions last, Run (Step format) session actions last ∧ last.caller = .closed ∧
      last.pushed = session.pushed := by
  have closed : execute (permitted KeepsRoom (step format)) session
      ([.destroy, .caller, .caller] ++ List.replicate 4 .flusher ++ [.caller, .caller]) =
        some { session with
          threads := { session.threads with next := none }
          caller := .closed
          flusher := .finished
          running := false } := by
    simp [execute, permitted, KeepsRoom, Threads.KeepsRoom, step, Logger.stepCaller,
      Logger.stepFlusher, Threads.step, stepConsumer, atRest.caller, atRest.flusher,
      atRest.producer, atRest.consumer, atRest.indices, atRest.numElements, List.replicate]
  exact ⟨_, _, Run.of_permitted closed, rfl, rfl⟩

/-- Any elements can be logged before the logger is destroyed. -/
theorem exists_run_of_elements [NeZero numElem] (several : 1 < numElem)
    (elements : List LogElement) :
    ∃ actions session, Run (Step format) (new numElem) actions session ∧
      session.caller = .closed ∧ session.pushed = elements := by
  have rested : ∃ actions session, Run (Step format) (new numElem) actions session ∧
      AtRest session ∧ session.pushed = elements := by
    induction elements using List.reverseRecOn with
    | nil =>
        have started : execute (permitted KeepsRoom (step format)) (new numElem) [.flusher] =
            some { (new numElem : Session numElem) with flusher := .fetching } := rfl
        exact ⟨_, _, Run.of_permitted started, ⟨rfl, rfl, rfl, rfl, rfl, rfl, rfl, rfl⟩, rfl⟩
    | append_singleton elements logElement ih =>
        rcases ih with ⟨actions, session, run, atRest, pushed⟩
        rcases atRest.push several logElement with ⟨more, last, round, atRest', pushed'⟩
        exact ⟨_, last, run.append round, atRest', by rw [pushed', pushed]⟩
  rcases rested with ⟨actions, session, run, atRest, pushed⟩
  rcases atRest.close with ⟨more, last, ended, closed, pushed'⟩
  exact ⟨_, last, run.append ended, closed, pushed'.trans pushed⟩

end QuantEngine.Logger
