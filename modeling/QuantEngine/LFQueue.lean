import Mathlib.Data.Nat.ModEq
import Mathlib.Data.Fin.Basic

/-!
# The lock-free queue

The model of `LFQueue<T>` used by one thread at a time. The two indices are
kept below the size of `store_` by their type, as the reduction in the source
keeps them; `num_elements_` is a `size_t` and wraps.

`Holds` relates a queue to the list of its unread elements. The queue never
tells a full store from an empty one, so it can hold fewer elements than its
store has.
-/

namespace QuantEngine

universe u

/-- `LFQueue`, whose `store_` has `numElem` elements. -/
structure LFQueue (T : Type u) (numElem : ℕ) where
  store : Fin numElem → T
  nextReadIndex : Fin numElem
  nextWriteIndex : Fin numElem
  numElements : UInt64 := 0

namespace LFQueue

variable {T : Type u} {numElem : ℕ}

/-- The index `offset` elements after `start` in the circular store. -/
def indexAfter (start : Fin numElem) (offset : ℕ) : Fin numElem :=
  ⟨(start + offset) % numElem, Nat.mod_lt _ start.pos⟩

/-- The constructor, with every element equal to `T()`. -/
def new [Inhabited T] (numElem : ℕ) [NeZero numElem] : LFQueue T numElem where
  store := fun _ => default
  nextReadIndex := 0
  nextWriteIndex := 0

/-- `*getNextToWriteTo() = value`. -/
def storeNextToWriteTo (queue : LFQueue T numElem) (value : T) : LFQueue T numElem :=
  { queue with store := Function.update queue.store queue.nextWriteIndex value }

def updateWriteIndex (queue : LFQueue T numElem) : LFQueue T numElem :=
  { queue with
    nextWriteIndex := indexAfter queue.nextWriteIndex 1
    numElements := queue.numElements + 1 }

/-- The element `getNextToRead` points to, if it is not null. -/
def getNextToRead (queue : LFQueue T numElem) : Option T :=
  if queue.nextReadIndex = queue.nextWriteIndex then none
  else some (queue.store queue.nextReadIndex)

def updataReadIndex (queue : LFQueue T numElem) : LFQueue T numElem :=
  { queue with
    nextReadIndex := indexAfter queue.nextReadIndex 1
    numElements := queue.numElements - 1 }

/-- One completed write: the element is stored and the write index advanced. -/
def write (queue : LFQueue T numElem) (value : T) : LFQueue T numElem :=
  (queue.storeNextToWriteTo value).updateWriteIndex

@[simp]
theorem numElements_write (queue : LFQueue T numElem) (value : T) :
    (queue.write value).numElements = queue.numElements + 1 := rfl

@[simp]
theorem nextWriteIndex_write (queue : LFQueue T numElem) (value : T) :
    (queue.write value).nextWriteIndex = indexAfter queue.nextWriteIndex 1 := rfl

@[simp]
theorem numElements_updataReadIndex (queue : LFQueue T numElem) :
    queue.updataReadIndex.numElements = queue.numElements - 1 := rfl

@[simp]
theorem nextReadIndex_updataReadIndex (queue : LFQueue T numElem) :
    queue.updataReadIndex.nextReadIndex = indexAfter queue.nextReadIndex 1 := rfl

/-- An index that counts something modulo the size of the store goes on counting. -/
theorem val_indexAfter {index : Fin numElem} {count : ℕ} (counts : (index : ℕ) = count % numElem) :
    (indexAfter index 1 : ℕ) = (count + 1) % numElem := by
  simp [indexAfter, counts]

@[simp]
theorem indexAfter_zero {start : Fin numElem} : indexAfter start 0 = start :=
  Fin.ext (by simp [indexAfter, Nat.mod_eq_of_lt start.isLt])

@[simp]
theorem indexAfter_indexAfter {start : Fin numElem} {first second : ℕ} :
    indexAfter (indexAfter start first) second = indexAfter start (first + second) :=
  Fin.ext (by simp [indexAfter, Nat.add_assoc])

theorem indexAfter_injective {start : Fin numElem} {first second : ℕ}
    (firstLt : first < numElem) (secondLt : second < numElem)
    (same : indexAfter start first = indexAfter start second) : first = second := by
  have congruent : (start + first) % numElem = (start + second) % numElem :=
    congrArg Fin.val same
  have reduced : first % numElem = second % numElem := Nat.ModEq.add_left_cancel' _ congruent
  rwa [Nat.mod_eq_of_lt firstLt, Nat.mod_eq_of_lt secondLt] at reduced

/-- The unread elements of the queue, in the order in which they were written. -/
structure Holds (queue : LFQueue T numElem) (items : List T) : Prop where
  room : items.length < numElem
  nextWriteIndex : queue.nextWriteIndex = indexAfter queue.nextReadIndex items.length
  stored : ∀ offset (inRange : offset < items.length),
    queue.store (indexAfter queue.nextReadIndex offset) = items[offset]

theorem new_holds [Inhabited T] [NeZero numElem] : (new numElem : LFQueue T numElem).Holds [] where
  room := Nat.pos_of_neZero numElem
  nextWriteIndex := indexAfter_zero.symm
  stored := by simp

namespace Holds

variable {queue : LFQueue T numElem} {items : List T}

theorem getNextToRead (holds : queue.Holds items) : queue.getNextToRead = items.head? := by
  cases items with
  | nil =>
      have same : queue.nextReadIndex = queue.nextWriteIndex := by simp [holds.nextWriteIndex]
      simp [LFQueue.getNextToRead, same]
  | cons item rest =>
      have differ : queue.nextReadIndex ≠ queue.nextWriteIndex := by
        intro same
        have wrapped : indexAfter queue.nextReadIndex 0 =
            indexAfter queue.nextReadIndex (item :: rest).length := by
          rw [← holds.nextWriteIndex, indexAfter_zero, same]
        have empty := indexAfter_injective queue.nextReadIndex.pos holds.room wrapped
        simp at empty
      have front : queue.store queue.nextReadIndex = item := by
        have stored := holds.stored 0 (Nat.zero_lt_succ rest.length)
        rwa [indexAfter_zero] at stored
      simp [LFQueue.getNextToRead, differ, front]

theorem updataReadIndex {item : T} (holds : queue.Holds (item :: items)) :
    queue.updataReadIndex.Holds items where
  room := by
    have := holds.room
    simp at this
    omega
  nextWriteIndex := by
    rw [LFQueue.updataReadIndex, indexAfter_indexAfter, Nat.add_comm]
    exact holds.nextWriteIndex
  stored := by
    intro offset inRange
    rw [LFQueue.updataReadIndex, indexAfter_indexAfter, Nat.add_comm]
    exact holds.stored (offset + 1) (by simpa using inRange)

theorem write {value : T} (holds : queue.Holds items) (room : items.length + 1 < numElem) :
    (queue.write value).Holds (items ++ [value]) where
  room := by simpa using room
  nextWriteIndex := by
    simp [LFQueue.write, updateWriteIndex, storeNextToWriteTo, holds.nextWriteIndex]
  stored := by
    intro offset inRange
    simp only [LFQueue.write, updateWriteIndex, storeNextToWriteTo, holds.nextWriteIndex]
    by_cases last : offset = items.length
    · subst last
      simp
    · have inItems : offset < items.length := by
        simp at inRange
        omega
      have differ : indexAfter queue.nextReadIndex offset ≠
          indexAfter queue.nextReadIndex items.length := fun same =>
        last (indexAfter_injective (by omega) holds.room same)
      rw [Function.update_of_ne differ, List.getElem_append_left inItems]
      exact holds.stored offset inItems

theorem foldl_write {values : List T} (holds : queue.Holds items)
    (room : items.length + values.length < numElem) :
    (values.foldl LFQueue.write queue).Holds (items ++ values) := by
  induction values generalizing queue items with
  | nil => simpa using holds
  | cons value values ih =>
      have written : (queue.write value).Holds (items ++ [value]) :=
        holds.write (by simp at room; omega)
      simpa using ih written (by simp at room ⊢; omega)

end Holds

end LFQueue

end QuantEngine
