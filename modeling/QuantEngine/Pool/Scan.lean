import QuantEngine.MemPool
import Mathlib.Tactic.Common
import Mathlib.Data.List.Nodup
import Mathlib.Data.Nat.ModEq

/-!
# Looking for a free block

The search of `updateNextFreeIndex` goes once around the store and gives up
when it is back where it started. It therefore fails only when every block is
busy, and as it runs after the block under the cursor has been taken, it fails
as soon as that was the last free one.
-/

namespace QuantEngine

universe u

namespace MemPool

variable {T : Type u} {pool pool' : MemPool T} {elem other initial offset bound result : ℕ}
  {value : T} {fault : Fault}

@[simp]
theorem numElems_setBlock (block : Object T) :
    (pool.setBlock elem block).numElems = pool.numElems :=
  rfl

theorem deallocate_eq_ok (inUse : pool.InUse elem) :
    pool.deallocate elem = .ok (pool.setBlock elem { pool.store elem with isFree := true }) := by
  simp [deallocate, inUse.1, inUse.2]

theorem inUse_of_deallocate (ran : pool.deallocate elem = .ok pool') :
    pool.InUse elem ∧ pool' = pool.setBlock elem { pool.store elem with isFree := true } := by
  unfold deallocate at ran
  split at ran
  · split at ran
    · rename_i bound inUse
      exact ⟨⟨bound, inUse⟩, (Except.ok.inj ran).symm⟩
    · cases ran
  · cases ran

/-- The index the loop moves on to. -/
def wrapped (pool : MemPool T) (index : ℕ) : ℕ :=
  if index + 1 = pool.numElems then 0 else index + 1

theorem wrapped_lt {index : ℕ} (inRange : index < pool.numElems) :
    pool.wrapped index < pool.numElems := by
  unfold wrapped
  split <;> omega

theorem wrapped_mod (inRange : initial < pool.numElems) :
    pool.wrapped ((initial + offset) % pool.numElems) =
      (initial + (offset + 1)) % pool.numElems := by
  have reduced : (initial + offset) % pool.numElems < pool.numElems := Nat.mod_lt _ (by omega)
  have onward : (initial + (offset + 1)) % pool.numElems =
      ((initial + offset) % pool.numElems + 1) % pool.numElems := by
    rw [Nat.mod_add_mod, Nat.add_assoc]
  rw [onward, wrapped]
  split
  case isTrue last => rw [last, Nat.mod_self]
  case isFalse inside => exact (Nat.mod_eq_of_lt (by omega)).symm

/-- The indices at which the loop of `updateNextFreeIndex` reads `store_`, in order. -/
def scanned (pool : MemPool T) (initialFreeIndex : ℕ) : ℕ → ℕ → List ℕ
  | 0, _ => []
  | bound + 1, nextFreeIndex =>
      nextFreeIndex ::
        if (pool.store nextFreeIndex).isFree = false then
          if pool.wrapped nextFreeIndex = initialFreeIndex then []
          else scanned pool initialFreeIndex bound (pool.wrapped nextFreeIndex)
        else []

theorem updateNextFreeIndexLoop_succ {start : ℕ} :
    pool.updateNextFreeIndexLoop initial (bound + 1) start =
      if (pool.store start).isFree = false then
        if pool.wrapped start = initial then .error (.fatal "MemPool out of space")
        else pool.updateNextFreeIndexLoop initial bound (pool.wrapped start)
      else .ok start := rfl

/-- The loop reads nothing else: where the flags are the same there, it comes to the same end. -/
theorem updateNextFreeIndexLoop_congr {start : ℕ} (size : pool'.numElems = pool.numElems)
    (flags : ∀ index ∈ pool.scanned initial bound start,
      (pool'.store index).isFree = (pool.store index).isFree) :
    pool'.updateNextFreeIndexLoop initial bound start =
      pool.updateNextFreeIndexLoop initial bound start := by
  have wraps : ∀ index, pool'.wrapped index = pool.wrapped index := by
    intro index
    rw [wrapped, wrapped, size]
  induction bound generalizing start with
  | zero => rfl
  | succ bound ih =>
      simp only [scanned, List.mem_cons, forall_eq_or_imp] at flags
      rw [updateNextFreeIndexLoop_succ, updateNextFreeIndexLoop_succ, flags.1, wraps]
      split
      case isFalse => rfl
      case isTrue busy =>
          split
          case isTrue => rfl
          case isFalse onward =>
              apply ih
              simpa only [if_pos busy, if_neg onward] using flags.2

/-- The loop reads all of it: it moves on from busy blocks only, and ends on the last one. -/
theorem isFree_of_mem_scanned {start index : ℕ}
    (member : index ∈ (pool.scanned initial bound start).dropLast) :
    (pool.store index).isFree = false := by
  induction bound generalizing start with
  | zero => cases member
  | succ bound ih =>
      rw [scanned] at member
      split at member
      case isFalse => cases member
      case isTrue busy =>
          split at member
          case isTrue => cases member
          case isFalse =>
              by_cases empty : pool.scanned initial bound (pool.wrapped start) = []
              · rw [empty] at member
                cases member
              · rw [List.dropLast_cons_of_ne_nil empty] at member
                rcases List.mem_cons.mp member with rfl | member
                · exact busy
                · exact ih member

theorem scanned_lt {start : ℕ} (inRange : start < pool.numElems) :
    ∀ index ∈ pool.scanned initial bound start, index < pool.numElems := by
  induction bound generalizing start with
  | zero => simp [scanned]
  | succ bound ih =>
      intro index member
      rw [scanned, List.mem_cons] at member
      rcases member with rfl | member
      · exact inRange
      · split at member
        · split at member
          · cases member
          · exact ih (wrapped_lt inRange) index member
        · cases member

theorem updateNextFreeIndexLoop_ok {start : ℕ} (inRange : start < pool.numElems)
    (ran : pool.updateNextFreeIndexLoop initial bound start = .ok result) :
    result < pool.numElems ∧ (pool.store result).isFree = true := by
  induction bound generalizing start with
  | zero => cases ran
  | succ bound ih =>
      rw [updateNextFreeIndexLoop_succ] at ran
      split at ran
      case isTrue busy =>
          split at ran
          · cases ran
          · exact ih (wrapped_lt inRange) ran
      case isFalse notBusy =>
          cases ran
          exact ⟨inRange, by simpa using notBusy⟩

/-- A loop that has not come round yet fails only where all blocks ahead of it are busy. -/
theorem busy_of_error (inRange : initial < pool.numElems) (offsetLt : offset < pool.numElems)
    (enough : pool.numElems ≤ offset + bound)
    (failed : pool.updateNextFreeIndexLoop initial bound ((initial + offset) % pool.numElems) =
      .error fault) :
    ∀ ahead, offset ≤ ahead → ahead < pool.numElems →
      (pool.store ((initial + ahead) % pool.numElems)).isFree = false := by
  induction bound generalizing offset with
  | zero => omega
  | succ bound ih =>
      intro ahead later inStore
      rw [updateNextFreeIndexLoop_succ] at failed
      split at failed
      case isFalse free => cases failed
      case isTrue busy =>
          rcases Nat.eq_or_lt_of_le later with rfl | beyond
          · exact busy
          · rw [wrapped_mod inRange] at failed
            split at failed
            case isTrue back =>
                have none : (initial + (offset + 1)) % pool.numElems =
                    (initial + 0) % pool.numElems := by
                  rw [back, Nat.add_zero, Nat.mod_eq_of_lt inRange]
                have same := Nat.ModEq.add_left_cancel' _ none
                rw [Nat.ModEq, Nat.mod_eq_of_lt (by omega), Nat.zero_mod] at same
                omega
            case isFalse onward =>
                exact ih (by omega) (by omega) failed ahead beyond inStore

/-- Where all blocks ahead of it are busy, the loop comes round and fails. -/
theorem updateNextFreeIndexLoop_full (inRange : initial < pool.numElems)
    (offsetLt : offset < pool.numElems) (enough : pool.numElems ≤ offset + bound)
    (busy : ∀ index < pool.numElems, (pool.store index).isFree = false) :
    pool.updateNextFreeIndexLoop initial bound ((initial + offset) % pool.numElems) =
      .error (.fatal "MemPool out of space") := by
  induction bound generalizing offset with
  | zero => omega
  | succ bound ih =>
      have here := busy ((initial + offset) % pool.numElems) (Nat.mod_lt _ (by omega))
      rw [updateNextFreeIndexLoop_succ, if_pos here, wrapped_mod inRange]
      by_cases last : offset + 1 = pool.numElems
      · rw [last, Nat.add_mod_right, Nat.mod_eq_of_lt inRange, if_pos rfl]
      · split
        · rfl
        · exact ih (by omega) (by omega)

theorem exists_offset (inRange : initial < pool.numElems) (elemLt : elem < pool.numElems) :
    ∃ ahead < pool.numElems, (initial + ahead) % pool.numElems = elem := by
  by_cases behind : initial ≤ elem
  · refine ⟨elem - initial, by omega, ?_⟩
    rw [Nat.add_sub_cancel' behind, Nat.mod_eq_of_lt elemLt]
  · refine ⟨elem + pool.numElems - initial, by omega, ?_⟩
    rw [Nat.add_sub_cancel' (by omega), Nat.add_mod_right, Nat.mod_eq_of_lt elemLt]

/-- The search succeeds if and only if some block is free. -/
theorem updateNextFreeIndex_ok_iff (inRange : pool.nextFreeIndex < pool.numElems) :
    (∃ advanced, pool.updateNextFreeIndex = .ok advanced) ↔
      ∃ index < pool.numElems, (pool.store index).isFree = true := by
  have start : (pool.nextFreeIndex + 0) % pool.numElems = pool.nextFreeIndex :=
    Nat.mod_eq_of_lt inRange
  cases found : pool.updateNextFreeIndexLoop pool.nextFreeIndex (pool.numElems + 1)
      pool.nextFreeIndex with
  | ok next =>
      have free := updateNextFreeIndexLoop_ok inRange found
      simp only [updateNextFreeIndex, found]
      exact ⟨fun _ => ⟨next, free⟩, fun _ => ⟨_, rfl⟩⟩
  | error fault =>
      have failed : pool.updateNextFreeIndexLoop pool.nextFreeIndex (pool.numElems + 1)
          ((pool.nextFreeIndex + 0) % pool.numElems) = .error fault := by
        rwa [start]
      simp only [updateNextFreeIndex, found, reduceCtorEq, exists_false, false_iff]
      rintro ⟨index, indexLt, free⟩
      rcases exists_offset inRange indexLt with ⟨ahead, aheadLt, rfl⟩
      have busy := busy_of_error inRange (by omega) (by omega) failed ahead (Nat.zero_le _) aheadLt
      rw [free] at busy
      cases busy

theorem updateNextFreeIndex_full (inRange : pool.nextFreeIndex < pool.numElems)
    (busy : ∀ index < pool.numElems, (pool.store index).isFree = false) :
    pool.updateNextFreeIndex = .error (.fatal "MemPool out of space") := by
  have start : (pool.nextFreeIndex + 0) % pool.numElems = pool.nextFreeIndex :=
    Nat.mod_eq_of_lt inRange
  have full : pool.updateNextFreeIndexLoop pool.nextFreeIndex (pool.numElems + 1)
      ((pool.nextFreeIndex + 0) % pool.numElems) = .error (.fatal "MemPool out of space") :=
    updateNextFreeIndexLoop_full inRange (by omega) (by omega) busy
  rw [start] at full
  rw [updateNextFreeIndex, full]

/-- A successful allocation took the block under the cursor, which was free. -/
theorem allocate_ok (inRange : pool.nextFreeIndex < pool.numElems)
    (ran : pool.allocate value = .ok (elem, pool')) :
    elem = pool.nextFreeIndex ∧ (pool.store elem).isFree = true ∧
      pool'.numElems = pool.numElems ∧ pool'.nextFreeIndex < pool.numElems ∧
      pool'.store = Function.update pool.store elem { object := value, isFree := false } := by
  unfold allocate at ran
  split at ran
  case isTrue free =>
      dsimp only [updateNextFreeIndex] at ran
      generalize found : updateNextFreeIndexLoop _ _ _ _ = next at ran
      cases next with
      | error fault => cases ran
      | ok next =>
          cases ran
          exact ⟨rfl, free, rfl, (updateNextFreeIndexLoop_ok (by exact inRange) found).1, rfl⟩
  case isFalse busy => cases ran

theorem isFree_of_allocate (inRange : pool.nextFreeIndex < pool.numElems)
    (ran : pool.allocate value = .ok (elem, pool')) :
    (pool'.store pool'.nextFreeIndex).isFree = true := by
  unfold allocate at ran
  split at ran
  case isTrue free =>
      dsimp only [updateNextFreeIndex] at ran
      generalize found : updateNextFreeIndexLoop _ _ _ _ = next at ran
      cases next with
      | error fault => cases ran
      | ok next =>
          cases ran
          exact (updateNextFreeIndexLoop_ok (by exact inRange) found).2
  case isFalse busy => cases ran

/-- The pool when `allocate` has constructed the object and not yet moved the cursor. -/
def taken (pool : MemPool T) (value : T) : MemPool T :=
  pool.setBlock pool.nextFreeIndex { object := value, isFree := false }

theorem isFree_taken : ((pool.taken value).store elem).isFree = true ↔
    elem ≠ pool.nextFreeIndex ∧ (pool.store elem).isFree = true := by
  by_cases same : elem = pool.nextFreeIndex <;> simp [taken, setBlock, same]

theorem allocate_eq (free : (pool.store pool.nextFreeIndex).isFree = true) :
    pool.allocate value = match (pool.taken value).updateNextFreeIndex with
      | .ok advanced => .ok (pool.nextFreeIndex, advanced)
      | .error fault => .error fault := by
  rw [allocate, if_pos free]
  rfl

/-- With a free block under the cursor, `allocate` returns if and only if another one is free. -/
theorem allocate_ok_iff (inRange : pool.nextFreeIndex < pool.numElems)
    (free : (pool.store pool.nextFreeIndex).isFree = true) :
    (∃ elem pool', pool.allocate value = .ok (elem, pool')) ↔
      ∃ other < pool.numElems, other ≠ pool.nextFreeIndex ∧ (pool.store other).isFree = true := by
  have search : (∃ advanced, (pool.taken value).updateNextFreeIndex = .ok advanced) ↔
      ∃ other < pool.numElems, ((pool.taken value).store other).isFree = true :=
    updateNextFreeIndex_ok_iff inRange
  simp only [isFree_taken] at search
  rw [← search, allocate_eq free]
  cases (pool.taken value).updateNextFreeIndex with
  | ok advanced => exact ⟨fun _ => ⟨advanced, rfl⟩, fun _ => ⟨_, _, rfl⟩⟩
  | error fault => simp

/-- The last free block cannot be had: the search that follows ends the process. -/
theorem allocate_full (inRange : pool.nextFreeIndex < pool.numElems)
    (free : (pool.store pool.nextFreeIndex).isFree = true)
    (busy : ∀ other < pool.numElems, other ≠ pool.nextFreeIndex →
      (pool.store other).isFree = false) :
    pool.allocate value = .error (.fatal "MemPool out of space") := by
  have full : (pool.taken value).updateNextFreeIndex = .error (.fatal "MemPool out of space") := by
    apply updateNextFreeIndex_full
    · exact inRange
    · intro other otherLt
      rw [← Bool.not_eq_true, isFree_taken]
      rintro ⟨different, otherFree⟩
      rw [busy other otherLt different] at otherFree
      cases otherFree
  rw [allocate_eq free, full]

end MemPool

end QuantEngine
