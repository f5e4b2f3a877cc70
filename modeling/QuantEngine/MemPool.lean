import QuantEngine.Types
import Mathlib.Algebra.Group.Int.Defs
import Mathlib.Logic.Function.Basic

/-!
# Memory pools

The model of `MemPool<T>`. A pointer handed out by the pool is the index of its
block in `store_`; a freed block keeps the object it last held, so a stale
pointer still reads the old contents, as it does in the source.
-/

namespace QuantEngine

universe u

/-- `MemPool::Object`: a stored object and its free flag. -/
structure MemPool.Object (T : Type u) where
  object : T
  isFree : Bool := true

/-- `MemPool`; entries of `store` from `numElems` on are outside the vector and never read. -/
structure MemPool (T : Type u) where
  numElems : ℕ
  store : ℕ → MemPool.Object T
  nextFreeIndex : ℕ := 0

namespace MemPool

variable {T : Type u}

/-- The constructor: every element default-constructed and free. -/
def new [Inhabited T] (numElems : ℕ) : MemPool T where
  numElems := numElems
  store := fun _ => { object := default, isFree := true }

/-- Overwrites one block. -/
def setBlock (pool : MemPool T) (index : ℕ) (block : Object T) : MemPool T :=
  { pool with store := Function.update pool.store index block }

/-- The loop of `updateNextFreeIndex`, with a bound on its iterations. -/
def updateNextFreeIndexLoop (pool : MemPool T) (initialFreeIndex : ℕ) : ℕ → ℕ → Except Fault ℕ
  | 0, _ => .error .diverged
  | bound + 1, nextFreeIndex =>
      if (pool.store nextFreeIndex).isFree = false then
        let advanced := nextFreeIndex + 1
        let wrapped := if advanced = pool.numElems then 0 else advanced
        if wrapped = initialFreeIndex then .error (.fatal "MemPool out of space")
        else updateNextFreeIndexLoop pool initialFreeIndex bound wrapped
      else .ok nextFreeIndex

def updateNextFreeIndex (pool : MemPool T) : Except Fault (MemPool T) :=
  match updateNextFreeIndexLoop pool pool.nextFreeIndex (pool.numElems + 1)
    pool.nextFreeIndex with
  | .ok nextFreeIndex => .ok { pool with nextFreeIndex := nextFreeIndex }
  | .error fault => .error fault

/-- `allocate`: constructs `value` in the next free block and returns its index. -/
def allocate (pool : MemPool T) (value : T) : Except Fault (ℕ × MemPool T) :=
  if (pool.store pool.nextFreeIndex).isFree = true then
    let taken := pool.setBlock pool.nextFreeIndex { object := value, isFree := false }
    match taken.updateNextFreeIndex with
    | .ok advanced => .ok (pool.nextFreeIndex, advanced)
    | .error fault => .error fault
  else
    .error (.assertFailed s!"Expect free Object Block at index: {pool.nextFreeIndex}")

/-- `deallocate`: marks the block free and leaves the object in place. -/
def deallocate (pool : MemPool T) (elem : ℕ) : Except Fault (MemPool T) :=
  if elem < pool.numElems then
    if (pool.store elem).isFree = false then
      .ok (pool.setBlock elem { pool.store elem with isFree := true })
    else
      .error (.assertFailed s!"Expect in-use Object Block at index {elem}")
  else
    .error (.assertFailed "Deallocate element does not belong to the MemPool")

/-- Applies `change` to the object in one block. -/
def modifyObject (pool : MemPool T) (elem : ℕ) (change : T → T) : MemPool T :=
  pool.setBlock elem { pool.store elem with object := change (pool.store elem).object }

/-- The block lies in the store and is not free. -/
def InUse (pool : MemPool T) (elem : ℕ) : Prop :=
  elem < pool.numElems ∧ (pool.store elem).isFree = false

instance (pool : MemPool T) (elem : ℕ) : Decidable (pool.InUse elem) :=
  inferInstanceAs (Decidable (_ ∧ _))

end MemPool

end QuantEngine
