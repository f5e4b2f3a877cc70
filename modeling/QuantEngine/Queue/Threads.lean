import QuantEngine.Library.Counter
import QuantEngine.Library.Run
import QuantEngine.LFQueue

/-!
# Two threads on one queue

A producer and a consumer of an `LFQueue`, interleaved at every access to an
atomic and to an element, in any sequentially consistent order. Either thread
may call its operations in any order here; the rules a caller follows are
conditions on the steps of a run.

The threads also record what happened: the elements written and read, how often
each index was stored, and how often `num_elements_` went up and down. No step
depends on the record.
-/

namespace QuantEngine

universe u

namespace LFQueue

open Runs

/-- Where the producer is in a write. -/
inductive Producer (T : Type u) (numElem : ℕ) where
  | idle
  /-- `getNextToWriteTo` returned the address of this element. -/
  | holding (slot : Fin numElem) (value : T)
  /-- The element is written and `updateWriteIndex` called. -/
  | stored
  /-- `next_write_index_` is loaded. -/
  | loaded (index : Fin numElem)
  /-- `next_write_index_` is stored, and `num_elements_ += 1` is left to do. -/
  | advanced
  deriving DecidableEq

/-- Where the consumer is in one of its operations. -/
inductive Consumer (numElem : ℕ) where
  | idle
  /-- In `getNextToRead`, with `next_read_index_` loaded. -/
  | comparing (index : Fin numElem)
  /-- In `getNextToRead`, after it found the indices to differ. -/
  | differing
  /-- In `updataReadIndex`, with `next_read_index_` loaded. -/
  | loaded (index : Fin numElem)
  /-- In `updataReadIndex`, with `next_read_index_` stored and `num_elements_ -= 1` left to do. -/
  | advanced
  deriving DecidableEq

structure Threads (T : Type u) (numElem : ℕ) where
  queue : LFQueue T numElem
  producer : Producer T numElem := .idle
  consumer : Consumer numElem := .idle
  /-- What `getNextToRead` returned, until the element is released. -/
  next : Option (Fin numElem) := none
  /-- The consumer has seen `size()` positive since it last released an element. -/
  sawSome : Bool := false
  /-- The consumer has read the element since it last released one. -/
  hasRead : Bool := false
  written : List T := []
  read : List T := []
  published : ℕ := 0
  released : ℕ := 0
  counted : ℕ := 0
  discounted : ℕ := 0

/-- A step of one of the threads: the first access of an operation, or the next access of the
operation that the thread is in. -/
inductive Action (T : Type u) where
  | getNextToWriteTo (value : T)
  | producer
  | size
  | getNextToRead
  | read
  | updataReadIndex
  | consumer
  deriving DecidableEq

namespace Threads

variable {T : Type u} {numElem : ℕ} {threads last : Threads T numElem} {action : Action T}
  {actions : List (Action T)}

/-- The producer's next access. -/
def stepProducer (threads : Threads T numElem) : Option (Threads T numElem) :=
  match threads.producer with
  | .idle => none
  | .holding slot value => some { threads with
      queue := { threads.queue with store := Function.update threads.queue.store slot value }
      producer := .stored
      written := threads.written ++ [value] }
  | .stored => some { threads with producer := .loaded threads.queue.nextWriteIndex }
  | .loaded index => some { threads with
      queue := { threads.queue with nextWriteIndex := indexAfter index 1 }
      producer := .advanced
      published := threads.published + 1 }
  | .advanced => some { threads with
      queue := { threads.queue with numElements := threads.queue.numElements + 1 }
      producer := .idle
      counted := threads.counted + 1 }

/-- The consumer's next access in the operation it is in. -/
def stepConsumer (threads : Threads T numElem) : Option (Threads T numElem) :=
  match threads.consumer with
  | .idle => none
  | .comparing index => some (
      if index = threads.queue.nextWriteIndex then { threads with consumer := .idle, next := none }
      else { threads with consumer := .differing })
  | .differing => some { threads with
      consumer := .idle
      next := some threads.queue.nextReadIndex }
  | .loaded index => some { threads with
      queue := { threads.queue with nextReadIndex := indexAfter index 1 }
      consumer := .advanced
      next := none
      sawSome := false
      hasRead := false
      released := threads.released + 1 }
  | .advanced => some { threads with
      queue := { threads.queue with numElements := threads.queue.numElements - 1 }
      consumer := .idle
      discounted := threads.discounted + 1 }

def step (threads : Threads T numElem) : Action T → Option (Threads T numElem)
  | .getNextToWriteTo value =>
      match threads.producer with
      | .idle => some { threads with producer := .holding threads.queue.nextWriteIndex value }
      | _ => none
  | .producer => threads.stepProducer
  | .size =>
      if threads.consumer = .idle then
        some { threads with sawSome := threads.sawSome || threads.queue.numElements ≠ 0 }
      else none
  | .getNextToRead =>
      if threads.consumer = .idle then
        some { threads with consumer := .comparing threads.queue.nextReadIndex }
      else none
  | .read =>
      match threads.consumer, threads.next with
      | .idle, some slot => some { threads with
          read := threads.read ++ [threads.queue.store slot]
          hasRead := true }
      | _, _ => none
  | .updataReadIndex =>
      if threads.consumer = .idle then
        some { threads with consumer := .loaded threads.queue.nextReadIndex }
      else none
  | .consumer => threads.stepConsumer

/-- What each step does, and when it is possible. -/
inductive Access (threads : Threads T numElem) : Action T → Threads T numElem → Prop
  | getNextToWriteTo {value : T} (idle : threads.producer = .idle) :
      Access threads (.getNextToWriteTo value)
        { threads with producer := .holding threads.queue.nextWriteIndex value }
  | storeElement {slot : Fin numElem} {value : T} (place : threads.producer = .holding slot value) :
      Access threads .producer { threads with
        queue := { threads.queue with store := Function.update threads.queue.store slot value }
        producer := .stored
        written := threads.written ++ [value] }
  | loadWriteIndex (place : threads.producer = .stored) :
      Access threads .producer { threads with producer := .loaded threads.queue.nextWriteIndex }
  | storeWriteIndex {index : Fin numElem} (place : threads.producer = .loaded index) :
      Access threads .producer { threads with
        queue := { threads.queue with nextWriteIndex := indexAfter index 1 }
        producer := .advanced
        published := threads.published + 1 }
  | addElement (place : threads.producer = .advanced) :
      Access threads .producer { threads with
        queue := { threads.queue with numElements := threads.queue.numElements + 1 }
        producer := .idle
        counted := threads.counted + 1 }
  | size (idle : threads.consumer = .idle) :
      Access threads .size
        { threads with sawSome := threads.sawSome || threads.queue.numElements ≠ 0 }
  | getNextToRead (idle : threads.consumer = .idle) :
      Access threads .getNextToRead
        { threads with consumer := .comparing threads.queue.nextReadIndex }
  | findEmpty {index : Fin numElem} (place : threads.consumer = .comparing index)
      (same : index = threads.queue.nextWriteIndex) :
      Access threads .consumer { threads with consumer := .idle, next := none }
  | findElement {index : Fin numElem} (place : threads.consumer = .comparing index)
      (differ : index ≠ threads.queue.nextWriteIndex) :
      Access threads .consumer { threads with consumer := .differing }
  | returnElement (place : threads.consumer = .differing) :
      Access threads .consumer
        { threads with consumer := .idle, next := some threads.queue.nextReadIndex }
  | read {slot : Fin numElem} (idle : threads.consumer = .idle)
      (isNext : threads.next = some slot) :
      Access threads .read { threads with
        read := threads.read ++ [threads.queue.store slot]
        hasRead := true }
  | updataReadIndex (idle : threads.consumer = .idle) :
      Access threads .updataReadIndex
        { threads with consumer := .loaded threads.queue.nextReadIndex }
  | storeReadIndex {index : Fin numElem} (place : threads.consumer = .loaded index) :
      Access threads .consumer { threads with
        queue := { threads.queue with nextReadIndex := indexAfter index 1 }
        consumer := .advanced
        next := none
        sawSome := false
        hasRead := false
        released := threads.released + 1 }
  | subElement (place : threads.consumer = .advanced) :
      Access threads .consumer { threads with
        queue := { threads.queue with numElements := threads.queue.numElements - 1 }
        consumer := .idle
        discounted := threads.discounted + 1 }

theorem access_of_step (ran : threads.step action = some last) : Access threads action last := by
  cases action with
  | getNextToWriteTo value =>
      rw [step] at ran
      split at ran
      case h_1 idle =>
          cases ran
          exact Access.getNextToWriteTo idle
      case h_2 => cases ran
  | producer =>
      rw [step, stepProducer] at ran
      split at ran
      case h_1 => cases ran
      case h_2 place =>
          cases ran
          exact Access.storeElement place
      case h_3 place =>
          cases ran
          exact Access.loadWriteIndex place
      case h_4 place =>
          cases ran
          exact Access.storeWriteIndex place
      case h_5 place =>
          cases ran
          exact Access.addElement place
  | size =>
      rw [step] at ran
      split at ran
      case isTrue idle =>
          cases ran
          exact Access.size idle
      case isFalse => cases ran
  | getNextToRead =>
      rw [step] at ran
      split at ran
      case isTrue idle =>
          cases ran
          exact Access.getNextToRead idle
      case isFalse => cases ran
  | read =>
      rw [step] at ran
      split at ran
      case h_1 idle isNext =>
          cases ran
          exact Access.read idle isNext
      case h_2 => cases ran
  | updataReadIndex =>
      rw [step] at ran
      split at ran
      case isTrue idle =>
          cases ran
          exact Access.updataReadIndex idle
      case isFalse => cases ran
  | consumer =>
      rw [step, stepConsumer] at ran
      split at ran
      case h_1 => cases ran
      case h_2 place =>
          split at ran
          case isTrue same =>
              cases ran
              exact Access.findEmpty place same
          case isFalse differ =>
              cases ran
              exact Access.findElement place differ
      case h_3 place =>
          cases ran
          exact Access.returnElement place
      case h_4 place =>
          cases ran
          exact Access.storeReadIndex place
      case h_5 place =>
          cases ran
          exact Access.subElement place

/-- Two idle threads on a constructed queue. -/
def new [Inhabited T] (numElem : ℕ) [NeZero numElem] : Threads T numElem where
  queue := LFQueue.new numElem

/-- A step that the callers' rules allow. -/
def Step (allowed : Threads T numElem → Action T → Prop) (threads : Threads T numElem)
    (action : Action T) (last : Threads T numElem) : Prop :=
  allowed threads action ∧ threads.step action = some last

/-- The accesses of a write, one after the other, are a completed write. -/
theorem execute_write (idle : threads.producer = .idle) (value : T) :
    execute step threads [.getNextToWriteTo value, .producer, .producer, .producer, .producer] =
      some { threads with
        queue := threads.queue.write value
        written := threads.written ++ [value]
        published := threads.published + 1
        counted := threads.counted + 1 } := by
  simp [execute, step, stepProducer, idle, write, storeNextToWriteTo, updateWriteIndex]

theorem execute_updataReadIndex (idle : threads.consumer = .idle) :
    execute step threads [.updataReadIndex, .consumer, .consumer] =
      some { threads with
        queue := threads.queue.updataReadIndex
        next := none
        sawSome := false
        hasRead := false
        released := threads.released + 1
        discounted := threads.discounted + 1 } := by
  simp [execute, step, stepConsumer, idle, updataReadIndex]

end Threads

end LFQueue

end QuantEngine
