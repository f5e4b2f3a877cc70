import QuantEngine.Library.Simulation
import QuantEngine.Queue.Rules

/-!
# The queue as an atomic one

Each operation of the two threads takes effect at one of its accesses: a write
when it stores `next_write_index_`, a call of `getNextToRead` when it loads
`next_write_index_` and finds the indices equal or else when it loads
`next_read_index_` again, and a release when it stores `next_read_index_`. Seen
at these accesses the queue is a list to which elements are appended at one end
and from which they are taken at the other.
-/

namespace QuantEngine

universe u

namespace LFQueue

open Runs

/-- What an operation does when it takes effect. -/
inductive Event (T : Type u) where
  | wrote (value : T)
  /-- `getNextToRead` returned null. -/
  | foundEmpty
  /-- `getNextToRead` returned a pointer to this element. -/
  | found (value : T)
  | read (value : T)
  | released
  deriving DecidableEq

namespace Threads

variable {T : Type u} {numElem : ℕ} {threads last : Threads T numElem} {action : Action T}
  {events : List (Event T)}

/-- What a step shows: the accesses at which the operations take effect. -/
def shows (threads : Threads T numElem) : Action T → Option (Event T)
  | .producer =>
      match threads.producer with
      | .loaded _ => threads.written[threads.published]?.map .wrote
      | _ => none
  | .consumer =>
      match threads.consumer with
      | .comparing index => if index = threads.queue.nextWriteIndex then some .foundEmpty else none
      | .differing => some (.found (threads.queue.store threads.queue.nextReadIndex))
      | .loaded _ => some .released
      | _ => none
  | .read => threads.next.map fun slot => .read (threads.queue.store slot)
  | _ => none

/-- The elements published and not released. -/
def unreleased (threads : Threads T numElem) : List T :=
  (threads.written.take threads.published).drop threads.released

namespace Coherent

variable (coherent : threads.Coherent)

include coherent

end Coherent

end Threads

end LFQueue

end QuantEngine
