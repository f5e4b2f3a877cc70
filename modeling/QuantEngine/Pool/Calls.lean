import QuantEngine.Pool.Scan
import QuantEngine.Library.Run
import Mathlib.Data.List.Perm.Subperm

/-!
# Pools in use

Sequences of `allocate` and `deallocate` calls on one pool, with the list of
the elements that are live: those handed out and not yet taken back. A pool of
`numElems` elements serves them soundly as long as one block stays free, and
ends the process when the last one is taken.
-/

namespace QuantEngine

universe u

namespace MemPool

open Runs

/-- A call on a pool. -/
inductive Call (T : Type u) where
  | allocate (value : T)
  | deallocate (elem : ℕ)

/-- A pool and its live elements. -/
structure Lending (T : Type u) where
  pool : MemPool T
  live : List ℕ := []

variable {T : Type u} {numElems : ℕ} {lending next : Lending T} {call : Call T}
  {calls : List (Call T)}
  {value : T} {elem : ℕ}

/-- The pool and its live elements after a call. -/
def Lending.perform (lending : Lending T) : Call T → Except Fault (Lending T)
  | .allocate value => do
      let (elem, pool) ← lending.pool.allocate value
      pure { pool := pool, live := elem :: lending.live }
  | .deallocate elem => do
      let pool ← lending.pool.deallocate elem
      pure { pool := pool, live := lending.live.erase elem }

theorem Lending.perform_allocate : lending.perform (.allocate value) = .ok next ↔
    ∃ elem pool, lending.pool.allocate value = .ok (elem, pool) ∧
      next = { pool := pool, live := elem :: lending.live } := by
  rw [perform]
  cases lending.pool.allocate value with
  | error fault => exact ⟨fun ran => (nomatch ran), fun ⟨_, _, ran, _⟩ => (nomatch ran)⟩
  | ok result =>
      constructor
      · rintro ⟨⟩
        exact ⟨_, _, rfl, rfl⟩
      · rintro ⟨elem, pool, ran, rfl⟩
        cases ran
        rfl

theorem Lending.perform_deallocate : lending.perform (.deallocate elem) = .ok next ↔
    ∃ pool, lending.pool.deallocate elem = .ok pool ∧
      next = { pool := pool, live := lending.live.erase elem } := by
  rw [perform]
  cases lending.pool.deallocate elem with
  | error fault => exact ⟨fun ran => (nomatch ran), fun ⟨_, ran, _⟩ => (nomatch ran)⟩
  | ok result =>
      constructor
      · rintro ⟨⟩
        exact ⟨_, rfl, rfl⟩
      · rintro ⟨pool, ran, rfl⟩
        cases ran
        rfl

/-- A constructed pool, of which nothing has been handed out. -/
def Lending.new [Inhabited T] (numElems : ℕ) : Lending T where
  pool := MemPool.new numElems

/-- A call that is allowed and returns. -/
def Call.Step (allowed : Lending T → Call T → Prop) (lending : Lending T) (call : Call T)
    (next : Lending T) : Prop :=
  allowed lending call ∧ lending.perform call = .ok next

/-- The indices at which a call accesses `store_`. -/
def Call.indexed (lending : Lending T) : Call T → List ℕ
  | .allocate value =>
      lending.pool.nextFreeIndex ::
        (lending.pool.taken value).scanned lending.pool.nextFreeIndex
          (lending.pool.numElems + 1) lending.pool.nextFreeIndex
  | .deallocate elem => [elem]

/-- The cursor is inside the store, on a free block. -/
structure CursorFree (numElems : ℕ) (pool : MemPool T) : Prop where
  inRange : pool.nextFreeIndex < numElems
  isFree : (pool.store pool.nextFreeIndex).isFree = true

/-- A block is free beside the one under the cursor. -/
def Spare (pool : MemPool T) : Prop :=
  ∃ other < pool.numElems, other ≠ pool.nextFreeIndex ∧ (pool.store other).isFree = true

instance (pool : MemPool T) : Decidable pool.Spare :=
  inferInstanceAs (Decidable (∃ other < pool.numElems,
    other ≠ pool.nextFreeIndex ∧ (pool.store other).isFree = true))

theorem CursorFree.allocate_returns {pool : MemPool T} (cursor : CursorFree pool.numElems pool)
    (spare : pool.Spare) (value : T) : ∃ elem pool', pool.allocate value = .ok (elem, pool') :=
  (allocate_ok_iff cursor.inRange cursor.isFree).mpr spare

theorem CursorFree.allocate_fatal {pool : MemPool T} (cursor : CursorFree pool.numElems pool)
    (exhausted : ¬pool.Spare) (value : T) :
    pool.allocate value = .error (.fatal "MemPool out of space") := by
  apply allocate_full cursor.inRange cursor.isFree
  intro other otherLt different
  apply eq_false_of_ne_true
  intro free
  exact exhausted ⟨other, otherLt, different, free⟩

/-- The live elements are the blocks in use, and the cursor is on none of them. -/
structure Lending.Sound (numElems : ℕ) (lending : Lending T) : Prop where
  size : lending.pool.numElems = numElems
  cursor : CursorFree numElems lending.pool
  nodup : lending.live.Nodup
  live : ∀ elem, elem ∈ lending.live ↔ lending.pool.InUse elem

namespace Lending.Sound

theorem new [Inhabited T] (nonempty : 1 ≤ numElems) :
    (Lending.new numElems : Lending T).Sound numElems where
  size := rfl
  cursor := ⟨nonempty, rfl⟩
  nodup := List.nodup_nil
  live _ := iff_of_false List.not_mem_nil fun used => Bool.noConfusion used.2

variable (sound : lending.Sound numElems)

include sound

theorem cursor_notMem : lending.pool.nextFreeIndex ∉ lending.live := by
  intro member
  have used := ((sound.live _).mp member).2
  simp [sound.cursor.isFree] at used

theorem lt_of_mem (member : elem ∈ lending.live) : elem < numElems := by
  rw [← sound.size]
  exact ((sound.live elem).mp member).1

/-- The blocks that are known to be taken or about to be. -/
theorem nodup_cursor : (lending.pool.nextFreeIndex :: lending.live).Nodup :=
  List.nodup_cons.mpr ⟨sound.cursor_notMem, sound.nodup⟩

theorem cursor_subset : lending.pool.nextFreeIndex :: lending.live ⊆ List.range numElems := by
  intro elem member
  rw [List.mem_range]
  rcases List.mem_cons.mp member with rfl | member
  · exact sound.cursor.inRange
  · exact sound.lt_of_mem member

/-- As long as two blocks are not live, one is free beside the block under the cursor. -/
theorem exists_free (room : lending.live.length + 2 ≤ numElems) :
    ∃ other < numElems, other ≠ lending.pool.nextFreeIndex ∧
      (lending.pool.store other).isFree = true := by
  by_contra none
  have all : List.range numElems ⊆ lending.pool.nextFreeIndex :: lending.live := by
    intro other otherLt
    rw [List.mem_range] at otherLt
    rw [List.mem_cons]
    by_cases same : other = lending.pool.nextFreeIndex
    · exact Or.inl same
    · right
      apply (sound.live other).mpr
      refine ⟨by rwa [sound.size], ?_⟩
      exact eq_false_of_ne_true fun free => none ⟨other, otherLt, same, free⟩
  have short := (List.nodup_range.subperm all).length_le
  simp at short
  omega

/-- When all blocks but one are live, no block is free beside the one under the cursor. -/
theorem busy_of_full (full : lending.live.length + 1 = numElems) :
    ∀ other < numElems, other ≠ lending.pool.nextFreeIndex →
      (lending.pool.store other).isFree = false := by
  have same : (lending.pool.nextFreeIndex :: lending.live).Perm (List.range numElems) := by
    apply (sound.nodup_cursor.subperm sound.cursor_subset).perm_of_length_le
    simp [full]
  intro other otherLt different
  have member := same.mem_iff.mpr (List.mem_range.mpr otherLt)
  rcases List.mem_cons.mp member with rfl | member
  · exact absurd rfl different
  · exact ((sound.live other).mp member).2

/-- An allocation returns if and only if it leaves a block free. -/
theorem allocate_iff (room : lending.live.length < numElems) :
    (∃ next, lending.perform (.allocate value) = .ok next) ↔
      lending.live.length + 1 ≠ numElems := by
  have inRange : lending.pool.nextFreeIndex < lending.pool.numElems := by
    rw [sound.size]
    exact sound.cursor.inRange
  have returns := @allocate_ok_iff T lending.pool value inRange sound.cursor.isFree
  rw [sound.size] at returns
  have called : (∃ next, lending.perform (.allocate value) = .ok next) ↔
      ∃ elem pool', lending.pool.allocate value = .ok (elem, pool') := by
    simp only [Lending.perform_allocate]
    exact ⟨fun ⟨_, elem, pool', ran, _⟩ => ⟨elem, pool', ran⟩,
      fun ⟨elem, pool', ran⟩ => ⟨_, elem, pool', ran, rfl⟩⟩
  rw [called, returns]
  constructor
  · rintro ⟨other, otherLt, different, free⟩ full
    rw [sound.busy_of_full full other otherLt different] at free
    cases free
  · intro notFull
    exact sound.exists_free (by omega)

omit sound in
theorem inRange (sound : lending.Sound numElems) :
    lending.pool.nextFreeIndex < lending.pool.numElems := by
  rw [sound.size]
  exact sound.cursor.inRange

theorem allocated (ran : lending.perform (.allocate value) = .ok next) :
    next.Sound numElems ∧ ∃ elem, elem ∉ lending.live ∧ next.live = elem :: lending.live ∧
      next.pool.store =
        Function.update lending.pool.store elem { object := value, isFree := false } := by
  rcases Lending.perform_allocate.mp ran with ⟨elem, pool', allocated, rfl⟩
  rcases allocate_ok sound.inRange allocated with ⟨rfl, -, sameSize, advanced, store⟩
  refine ⟨⟨sameSize.trans sound.size, ⟨?_, ?_⟩, sound.nodup_cursor, ?_⟩,
    _, sound.cursor_notMem, rfl, store⟩
  · rw [← sound.size]
    exact advanced
  · exact isFree_of_allocate sound.inRange allocated
  · intro elem
    rw [InUse, sameSize, store, List.mem_cons, sound.live]
    by_cases same : elem = lending.pool.nextFreeIndex
    · simp [same, sound.inRange]
    · simp [same, InUse]

theorem deallocate_ok (member : elem ∈ lending.live) :
    lending.perform (.deallocate elem) = .ok {
      pool := lending.pool.setBlock elem { lending.pool.store elem with isFree := true }
      live := lending.live.erase elem } :=
  Lending.perform_deallocate.mpr ⟨_, deallocate_eq_ok ((sound.live elem).mp member), rfl⟩

theorem deallocated (ran : lending.perform (.deallocate elem) = .ok next) :
    next.Sound numElems ∧ elem ∈ lending.live ∧ next.live = lending.live.erase elem ∧
      next.pool.store = Function.update lending.pool.store elem
        { lending.pool.store elem with isFree := true } := by
  rcases Lending.perform_deallocate.mp ran with ⟨pool', freed, rfl⟩
  rcases inUse_of_deallocate freed with ⟨used, rfl⟩
  refine ⟨⟨sound.size, ⟨sound.cursor.inRange, ?_⟩, sound.nodup.erase elem, ?_⟩,
    (sound.live elem).mpr used, rfl, rfl⟩
  · have different : lending.pool.nextFreeIndex ≠ elem := by
      rintro rfl
      exact sound.cursor_notMem ((sound.live _).mpr used)
    simpa [setBlock, different] using sound.cursor.isFree
  · intro other
    rw [sound.nodup.mem_erase_iff, sound.live]
    by_cases same : other = elem
    · simp [same, InUse, setBlock]
    · simp [same, InUse, setBlock]

theorem perform (ran : lending.perform call = .ok next) : next.Sound numElems := by
  cases call with
  | allocate value => exact (sound.allocated ran).1
  | deallocate elem => exact (sound.deallocated ran).1

end Lending.Sound

theorem Lending.Sound.of_run [Inhabited T] {allowed : Lending T → Call T → Prop}
    (nonempty : 1 ≤ numElems)
    (run : Run (Call.Step allowed) (Lending.new numElems) calls lending) :
    lending.Sound numElems :=
  run.invariant (Lending.Sound numElems) (Lending.Sound.new nonempty) fun sound ⟨_, ran⟩ =>
    sound.perform ran

/-- Only live elements are taken back, and allocations leave a block free. -/
def Call.Roomy (numElems : ℕ) (lending : Lending T) : Call T → Prop
  | .allocate _ => lending.live.length + 2 ≤ numElems
  | .deallocate elem => elem ∈ lending.live

instance (lending : Lending T) (call : Call T) : Decidable (call.Roomy numElems lending) :=
  match call with
  | .allocate _ => inferInstanceAs (Decidable (lending.live.length + 2 ≤ numElems))
  | .deallocate elem => inferInstanceAs (Decidable (elem ∈ lending.live))

/-- What a call is meant to do to the live elements and their values. -/
structure Call.Serves (numElems : ℕ) (lending : Lending T) (call : Call T) (next : Lending T) :
    Prop where
  indexed : ∀ index ∈ call.indexed lending, index < numElems
  cursor : CursorFree numElems next.pool
  fresh : ∀ value, call = .allocate value → ∃ elem, elem ∉ lending.live ∧
    next.live = elem :: lending.live ∧ (next.pool.store elem).object = value
  unchanged : ∀ elem ∈ lending.live, call ≠ .deallocate elem →
    elem ∈ next.live ∧ (next.pool.store elem).object = (lending.pool.store elem).object

theorem Lending.Sound.serves (sound : lending.Sound numElems)
    (roomy : call.Roomy numElems lending) :
    ∃ next, lending.perform call = .ok next ∧ call.Serves numElems lending next := by
  cases call with
  | allocate value =>
      have room : lending.live.length + 2 ≤ numElems := roomy
      rcases (sound.allocate_iff (by omega)).mpr (by omega) with ⟨next, ran⟩
      rcases sound.allocated ran with ⟨sound', elem, fresh, live, store⟩
      have inTaken : lending.pool.nextFreeIndex < (lending.pool.taken value).numElems :=
        sound.inRange
      refine ⟨next, ran, ?_, sound'.cursor, ?_, ?_⟩
      · intro index member
        rw [← sound.size]
        rcases List.mem_cons.mp member with rfl | member
        · exact sound.inRange
        · exact scanned_lt inTaken index member
      · rintro value' ⟨⟩
        exact ⟨elem, fresh, live, by rw [store, Function.update_self]⟩
      · intro other member _
        have different : other ≠ elem := ne_of_mem_of_not_mem member fresh
        rw [live, store, Function.update_of_ne different]
        exact ⟨List.mem_cons_of_mem _ member, rfl⟩
  | deallocate elem =>
      have ran := sound.deallocate_ok roomy
      rcases sound.deallocated ran with ⟨sound', member, live, store⟩
      refine ⟨_, ran, ?_, sound'.cursor, fun value called => (nomatch called), ?_⟩
      · intro index indexed
        rw [List.mem_singleton.mp indexed]
        exact sound.lt_of_mem member
      · intro other otherMem called
        have different : other ≠ elem := fun same => called (by rw [same])
        rw [live, store, Function.update_of_ne different, sound.nodup.mem_erase_iff]
        exact ⟨⟨different, otherMem⟩, rfl⟩

/-- A pool that always keeps a block free serves every sequence of calls. -/
theorem serves_of_calls [Inhabited T] (enough : 2 ≤ numElems)
    (run : Run (Call.Step (Call.Roomy numElems)) (Lending.new numElems) calls lending) :
    CursorFree numElems lending.pool ∧ ∀ call, call.Roomy numElems lending →
      ∃ next, lending.perform call = .ok next ∧ call.Serves numElems lending next := by
  have sound := Lending.Sound.of_run (by omega) run
  exact ⟨sound.cursor, fun call roomy => sound.serves roomy⟩

/-- Two elements are live, and a third is handed out between them. -/
theorem serves_of_calls_sample : ∃ lending next : Lending ℕ, lending.live = [2, 0] ∧
    CursorFree 4 lending.pool ∧ lending.perform (.allocate 10) = .ok next ∧
    (Call.allocate 10).Serves 4 lending next ∧ (next.pool.store 2).object = 9 ∧
    (next.pool.store 0).object = 7 := by
  have run : Run (Call.Step (Call.Roomy 4)) (Lending.new 4 : Lending ℕ)
      [.allocate 7, .allocate 8, .allocate 9, .deallocate 1] _ :=
    (((Run.nil.snoc ⟨by decide, rfl⟩).snoc ⟨by decide, rfl⟩).snoc ⟨by decide, rfl⟩).snoc
      ⟨by decide, rfl⟩
  rcases serves_of_calls (by decide) run with ⟨cursor, serves⟩
  rcases serves (.allocate 10) (by decide) with ⟨next, ran, served⟩
  have keeps := fun elem member => (served.unchanged elem member (by simp)).2
  exact ⟨_, next, rfl, cursor, ran, served, keeps 2 (by decide), keeps 0 (by decide)⟩

/-- Only live elements are taken back, and there are fewer of them than the pool has blocks. -/
def Call.Proper (numElems : ℕ) (lending : Lending T) : Call T → Prop
  | .allocate _ => lending.live.length < numElems
  | .deallocate elem => elem ∈ lending.live

instance (lending : Lending T) (call : Call T) : Decidable (call.Proper numElems lending) :=
  match call with
  | .allocate _ => inferInstanceAs (Decidable (lending.live.length < numElems))
  | .deallocate elem => inferInstanceAs (Decidable (elem ∈ lending.live))

/-- An allocation returns if and only if it does not take the last free block. -/
theorem allocates_iff_of_calls [Inhabited T] (nonempty : 1 ≤ numElems)
    (run : Run (Call.Step (Call.Proper numElems)) (Lending.new numElems) calls lending)
    (proper : (Call.allocate value).Proper numElems lending) :
    (∃ next, lending.perform (.allocate value) = .ok next) ↔
      lending.live.length + 1 ≠ numElems :=
  (Lending.Sound.of_run nonempty run).allocate_iff proper

/-- After four calls, one block of three is not live and cannot be had. -/
theorem allocates_iff_of_calls_sample : ∃ lending : Lending ℕ,
    Run (Call.Step (Call.Proper 3)) (Lending.new 3)
        [.allocate 7, .allocate 8, .deallocate 0, .allocate 9] lending ∧
      lending.live = [2, 1] ∧
      ¬∃ next, lending.perform (.allocate 10) = .ok next := by
  have run : Run (Call.Step (Call.Proper 3)) (Lending.new 3 : Lending ℕ)
      [.allocate 7, .allocate 8, .deallocate 0, .allocate 9] _ :=
    (((Run.nil.snoc ⟨by decide, rfl⟩).snoc ⟨by decide, rfl⟩).snoc ⟨by decide, rfl⟩).snoc
      ⟨by decide, rfl⟩
  refine ⟨_, run, rfl, fun allocated => ?_⟩
  exact (allocates_iff_of_calls (by decide) run (by decide)).mp allocated rfl

/-- A pool of two elements cannot hold two. -/
theorem not_allocates_second : ∃ lending : Lending ℕ,
    Run (Call.Step (Call.Proper 2)) (Lending.new 2) [.allocate 7] lending ∧
      (Call.allocate 8).Proper 2 lending ∧
      lending.perform (.allocate 8) = .error (.fatal "MemPool out of space") :=
  ⟨_, Run.nil.snoc ⟨Nat.succ_pos 1, rfl⟩, Nat.lt_succ_self 1, rfl⟩

end MemPool

end QuantEngine
