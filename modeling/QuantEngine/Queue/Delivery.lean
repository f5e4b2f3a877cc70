import QuantEngine.Library.Counter
import QuantEngine.LFQueue
import Mathlib.Data.List.Infix

/-!
# What reaches the reader of a queue

Sequences of completed writes and of reads on one queue. The messages are
counted: `next_write_index_` is the number of messages sent and
`next_read_index_` the number of messages obtained, both reduced by the size of
the store. So a queue with as many unread messages as its store has elements
looks empty, and from then on that many messages are never obtained.
-/

namespace QuantEngine

universe u

namespace LFQueue

/-- A completed write, or a read: `getNextToRead` and, if that is not null, `updataReadIndex`. -/
inductive Call (T : Type u) where
  | write (value : T)
  | read

/-- A queue with everything written to it and everything read from it. -/
structure Delivery (T : Type u) (numElem : ℕ) where
  queue : LFQueue T numElem
  sent : List T := []
  obtained : List T := []

variable {T : Type u} {numElem : ℕ} {delivery : Delivery T numElem} {value : T}
  {calls front : List (Call T)} {next : Call T} {count : ℕ}

namespace Delivery

def write (delivery : Delivery T numElem) (value : T) : Delivery T numElem :=
  { delivery with queue := delivery.queue.write value, sent := delivery.sent ++ [value] }

def read (delivery : Delivery T numElem) : Delivery T numElem :=
  match delivery.queue.getNextToRead with
  | none => delivery
  | some value => { delivery with
      queue := delivery.queue.updataReadIndex, obtained := delivery.obtained ++ [value] }

def call (delivery : Delivery T numElem) : Call T → Delivery T numElem
  | .write value => delivery.write value
  | .read => delivery.read

def new [Inhabited T] (numElem : ℕ) [NeZero numElem] : Delivery T numElem where
  queue := LFQueue.new numElem

/-- A constructed queue after these calls. -/
def after [Inhabited T] (numElem : ℕ) [NeZero numElem] (calls : List (Call T)) :
    Delivery T numElem :=
  calls.foldl call (new numElem)

/-- So many reads in a row. -/
def reads : ℕ → Delivery T numElem → Delivery T numElem
  | 0, delivery => delivery
  | count + 1, delivery => reads count delivery.read

/-- What was sent and not obtained. -/
def unread (delivery : Delivery T numElem) : List T := delivery.sent.drop delivery.obtained.length

theorem read_eq_of_none (none : delivery.queue.getNextToRead = none) :
    delivery.read = delivery := by
  rw [read, none]

theorem read_eq_of_some (some : delivery.queue.getNextToRead = some value) :
    delivery.read = { delivery with
      queue := delivery.queue.updataReadIndex, obtained := delivery.obtained ++ [value] } := by
  rw [read, some]

@[simp]
theorem sent_read : delivery.read.sent = delivery.sent := by
  unfold read
  split <;> rfl

@[simp]
theorem sent_reads : (reads count delivery).sent = delivery.sent := by
  induction count generalizing delivery with
  | zero => rfl
  | succ count ih => rw [reads, ih, sent_read]

theorem after_concat [Inhabited T] [NeZero numElem] :
    after numElem (calls ++ [next]) = (after numElem calls).call next := by
  simp [after]

/-- The indices and the counter are determined by how much was sent and obtained. -/
structure Counted (delivery : Delivery T numElem) : Prop where
  order : delivery.obtained.length ≤ delivery.sent.length
  nextReadIndex : (delivery.queue.nextReadIndex : ℕ) = delivery.obtained.length % numElem
  nextWriteIndex : (delivery.queue.nextWriteIndex : ℕ) = delivery.sent.length % numElem
  numElements : Counter.Counts delivery.queue.numElements delivery.sent.length
    delivery.obtained.length

theorem counted_new [Inhabited T] [NeZero numElem] :
    (new numElem : Delivery T numElem).Counted where
  order := Nat.le_refl 0
  nextReadIndex := (Nat.zero_mod numElem).symm
  nextWriteIndex := (Nat.zero_mod numElem).symm
  numElements := Counter.counts_zero

namespace Counted

theorem write (counted : delivery.Counted) : (delivery.write value).Counted where
  order := by
    have := counted.order
    simp only [Delivery.write, List.length_append]
    omega
  nextReadIndex := counted.nextReadIndex
  nextWriteIndex := by
    simpa [Delivery.write] using val_indexAfter counted.nextWriteIndex
  numElements := by
    have added := counted.numElements.add
    simpa [Delivery.write] using added

theorem lt_of_some (counted : delivery.Counted)
    (some : delivery.queue.getNextToRead = some value) :
    delivery.obtained.length < delivery.sent.length := by
  apply Nat.lt_of_le_of_ne counted.order
  intro same
  have indices : delivery.queue.nextReadIndex = delivery.queue.nextWriteIndex := by
    apply Fin.ext
    rw [counted.nextReadIndex, counted.nextWriteIndex, same]
  rw [getNextToRead, if_pos indices] at some
  cases some

theorem read (counted : delivery.Counted) : delivery.read.Counted := by
  cases found : delivery.queue.getNextToRead with
  | none => rwa [read_eq_of_none found]
  | some value =>
      have behind := counted.lt_of_some found
      rw [read_eq_of_some found]
      refine ⟨by simpa using Nat.succ_le_of_lt behind, ?_, counted.nextWriteIndex, ?_⟩
      · simpa using val_indexAfter counted.nextReadIndex
      · have removed := counted.numElements.sub
        simpa using removed

theorem call (counted : delivery.Counted) : (delivery.call next).Counted := by
  cases next with
  | write value => exact counted.write
  | read => exact counted.read

theorem after [Inhabited T] [NeZero numElem] :
    (after numElem calls : Delivery T numElem).Counted := by
  induction calls using List.reverseRecOn with
  | nil => exact counted_new
  | append_singleton calls next ih =>
      rw [after_concat]
      exact ih.call

theorem reads (counted : delivery.Counted) : (Delivery.reads count delivery).Counted := by
  induction count generalizing delivery with
  | zero => exact counted
  | succ count ih => exact ih counted.read

/-- The counter of a queue with few enough unread messages is their number. -/
theorem toNat_numElements (counted : delivery.Counted) (fits : delivery.unread.length < 2 ^ 64) :
    delivery.queue.numElements.toNat = delivery.unread.length := by
  rw [unread, List.length_drop] at fits ⊢
  exact counted.numElements.toNat counted.order fits

/-- Once as many messages are unread as the store has elements, so many remain unread. -/
theorem lapped_call (counted : delivery.Counted) (lapped : numElem ≤ delivery.unread.length)
    (next : Call T) :
    numElem ≤ (delivery.call next).unread.length := by
  rw [unread, List.length_drop] at lapped ⊢
  cases next with
  | write value =>
      simp only [Delivery.call, Delivery.write, List.length_append, List.length_singleton]
      omega
  | read =>
      change numElem ≤ delivery.read.sent.length - delivery.read.obtained.length
      cases found : delivery.queue.getNextToRead with
      | none => rwa [read_eq_of_none found]
      | some value =>
          have differ : delivery.obtained.length + numElem ≠ delivery.sent.length := by
            intro full
            have indices : delivery.queue.nextReadIndex = delivery.queue.nextWriteIndex := by
              apply Fin.ext
              rw [counted.nextReadIndex, counted.nextWriteIndex, ← full, Nat.add_mod_right]
            rw [getNextToRead, if_pos indices] at found
            cases found
          rw [read_eq_of_some found]
          simp only [List.length_append, List.length_singleton]
          omega

end Counted

/-- The queue holds what is unread, and everything before it was obtained in order. -/
structure InOrder (delivery : Delivery T numElem) : Prop where
  holds : delivery.queue.Holds delivery.unread
  obtained : delivery.obtained <+: delivery.sent

theorem inOrder_new [Inhabited T] [NeZero numElem] :
    (new numElem : Delivery T numElem).InOrder where
  holds := new_holds
  obtained := List.nil_prefix

theorem unread_write (order : delivery.obtained.length ≤ delivery.sent.length) :
    (delivery.write value).unread = delivery.unread ++ [value] :=
  List.drop_append_of_le_length order

namespace InOrder

theorem write (inOrder : delivery.InOrder) (room : delivery.unread.length + 1 < numElem) :
    (delivery.write value).InOrder where
  holds := by
    rw [unread_write inOrder.obtained.length_le]
    exact inOrder.holds.write room
  obtained := inOrder.obtained.trans (List.prefix_append _ _)

theorem read (inOrder : delivery.InOrder) : delivery.read.InOrder := by
  have front := inOrder.holds.getNextToRead
  cases found : delivery.queue.getNextToRead with
  | none => rwa [read_eq_of_none found]
  | some value =>
      rw [found] at front
      rcases List.head?_eq_some_iff.mp front.symm with ⟨rest, unreadEq⟩
      have whole : delivery.sent = delivery.obtained ++ value :: rest := by
        rw [← unreadEq]
        exact List.prefix_iff_eq_append.mp inOrder.obtained |>.symm
      have remaining : delivery.read.unread = rest := by
        rw [read_eq_of_some found, unread]
        simp [whole]
      refine ⟨?_, ?_⟩
      · rw [remaining, read_eq_of_some found]
        have holds := inOrder.holds
        rw [unreadEq] at holds
        exact holds.updataReadIndex
      · rw [sent_read, read_eq_of_some found, whole]
        exact ⟨rest, by simp⟩

theorem reads (inOrder : delivery.InOrder) : (Delivery.reads count delivery).InOrder := by
  induction count generalizing delivery with
  | zero => exact inOrder
  | succ count ih => exact ih inOrder.read

theorem obtained_of_none (inOrder : delivery.InOrder)
    (none : delivery.queue.getNextToRead = none) : delivery.obtained = delivery.sent := by
  have front := inOrder.holds.getNextToRead
  rw [none] at front
  have whole := List.prefix_iff_eq_append.mp inOrder.obtained
  have empty : delivery.unread = [] := List.head?_eq_none_iff.mp front.symm
  rw [unread] at empty
  rwa [empty, List.append_nil] at whole

end InOrder

/-- With fewer unread messages than elements at every moment, all goes in order. -/
theorem inOrder_after [Inhabited T] [NeZero numElem]
    (room : ∀ front, front <+: calls →
      (after numElem front : Delivery T numElem).unread.length < numElem) :
    (after numElem calls : Delivery T numElem).InOrder := by
  induction calls using List.reverseRecOn with
  | nil => exact inOrder_new
  | append_singleton calls next ih =>
      have inOrder := ih fun front isPrefix => room front (isPrefix.trans (List.prefix_append _ _))
      have last := room (calls ++ [next]) (List.prefix_refl _)
      rw [after_concat] at last ⊢
      cases next with
      | read => exact inOrder.read
      | write value =>
          refine inOrder.write ?_
          rw [call, unread_write inOrder.obtained.length_le] at last
          simpa using last

theorem lapped_after [Inhabited T] [NeZero numElem] (isPrefix : front <+: calls)
    (lapped : numElem ≤ (after numElem front : Delivery T numElem).unread.length) :
    numElem ≤ (after numElem calls : Delivery T numElem).unread.length := by
  rcases isPrefix with ⟨back, rfl⟩
  induction back using List.reverseRecOn with
  | nil => rwa [List.append_nil]
  | append_singleton back next ih =>
      rw [← List.append_assoc, after_concat]
      exact Counted.after.lapped_call ih next

theorem lapped_reads (counted : delivery.Counted) (lapped : numElem ≤ delivery.unread.length)
    (count : ℕ) : numElem ≤ (reads count delivery).unread.length := by
  induction count generalizing delivery with
  | zero => exact lapped
  | succ count ih => exact ih counted.read (counted.lapped_call lapped .read)

/-- The messages obtained are the first that were sent, and a reader that reads on until the
queue looks empty obtains all of them. -/
structure Delivered (delivery : Delivery T numElem) : Prop where
  inOrder : delivery.obtained <+: delivery.sent
  drains : ∃ count, (reads count delivery).queue.getNextToRead = none
  complete : ∀ count, (reads count delivery).queue.getNextToRead = none →
    (reads count delivery).obtained = delivery.sent

theorem InOrder.drains (inOrder : delivery.InOrder) :
    ∃ count, (Delivery.reads count delivery).queue.getNextToRead = none := by
  generalize size : delivery.unread.length = length
  induction length generalizing delivery with
  | zero =>
      refine ⟨0, ?_⟩
      rw [Delivery.reads, inOrder.holds.getNextToRead, List.head?_eq_none_iff]
      exact List.length_eq_zero_iff.mp size
  | succ length ih =>
      cases found : delivery.queue.getNextToRead with
      | none => exact ⟨0, found⟩
      | some value =>
          have fewer : delivery.read.unread.length = length := by
            rw [read_eq_of_some found]
            simp only [unread, List.length_drop, List.length_append, List.length_singleton]
              at size ⊢
            omega
          rcases ih inOrder.read fewer with ⟨count, empty⟩
          exact ⟨count + 1, empty⟩

theorem InOrder.delivered (inOrder : delivery.InOrder) : delivery.Delivered where
  inOrder := inOrder.obtained
  drains := inOrder.drains
  complete count none := by
    rw [inOrder.reads.obtained_of_none none, sent_reads]

/-- Whatever the calls, everything is delivered in order if and only if at every moment fewer
messages were unread than the store has elements. -/
theorem deliveredAll_iff [Inhabited T] [NeZero numElem] (calls : List (Call T)) :
    (after numElem calls : Delivery T numElem).Delivered ↔ ∀ front, front <+: calls →
      (after numElem front : Delivery T numElem).unread.length < numElem := by
  constructor
  · intro delivered front isPrefix
    by_contra notLess
    have lapped := lapped_after isPrefix (Nat.le_of_not_lt notLess)
    rcases delivered.drains with ⟨count, empty⟩
    have all := delivered.complete count empty
    have unread : (reads count (after numElem calls) : Delivery T numElem).unread = [] := by
      rw [Delivery.unread, sent_reads, all, List.drop_length]
    have still := lapped_reads Counted.after lapped count
    rw [unread, List.length_nil] at still
    exact NeZero.ne numElem (Nat.le_zero.mp still)
  · exact fun room => (inOrder_after room).delivered

/-- `size()` is the number of unread elements, and `getNextToRead` gives the oldest of them, or
null exactly when `size()` is zero. -/
structure Agrees (delivery : Delivery T numElem) : Prop where
  size : delivery.queue.numElements.toNat = delivery.unread.length
  oldest : delivery.queue.getNextToRead = delivery.unread.head?
  empty : delivery.queue.getNextToRead = none ↔ delivery.queue.numElements = 0

theorem InOrder.agrees (inOrder : delivery.InOrder) (counted : delivery.Counted)
    (fits : numElem < 2 ^ 64) : delivery.Agrees := by
  have size := counted.toNat_numElements (inOrder.holds.room.trans fits)
  refine ⟨size, inOrder.holds.getNextToRead, ?_⟩
  rw [inOrder.holds.getNextToRead, List.head?_eq_none_iff, ← List.length_eq_zero_iff, ← size,
    ← UInt64.toNat_inj]
  rfl

/-- With at most `numElem` elements unread, the size, the counter and the indices agree at every
moment if and only if the store is never full. -/
theorem agrees_iff [Inhabited T] [NeZero numElem] (fits : numElem < 2 ^ 64) (calls : List (Call T))
    (capacity : ∀ front, front <+: calls →
      (after numElem front : Delivery T numElem).unread.length ≤ numElem) :
    (∀ front, front <+: calls → (after numElem front : Delivery T numElem).Agrees) ↔
      ∀ front, front <+: calls →
        (after numElem front : Delivery T numElem).unread.length ≠ numElem := by
  constructor
  · intro agrees front isPrefix full
    have counted : (after numElem front : Delivery T numElem).Counted := Counted.after
    have indices : (after numElem front : Delivery T numElem).queue.nextReadIndex =
        (after numElem front : Delivery T numElem).queue.nextWriteIndex := by
      have order := counted.order
      rw [unread, List.length_drop] at full
      apply Fin.ext
      rw [counted.nextReadIndex, counted.nextWriteIndex, ← Nat.add_mod_right]
      congr 1
      omega
    have empty : (after numElem front : Delivery T numElem).queue.getNextToRead = none :=
      if_pos indices
    have oldest := (agrees front isPrefix).oldest
    rw [empty] at oldest
    rw [List.head?_eq_none_iff.mp oldest.symm, List.length_nil] at full
    exact NeZero.ne numElem full.symm
  · intro notFull front isPrefix
    refine (inOrder_after fun earlier earlierPrefix => ?_).agrees Counted.after fits
    have inCalls := earlierPrefix.trans isPrefix
    exact Nat.lt_of_le_of_ne (capacity earlier inCalls) (notFull earlier inCalls)

theorem unread_le [Inhabited T] [NeZero numElem] (calls : List (Call T)) :
    (after numElem calls : Delivery T numElem).unread.length ≤ calls.length := by
  rw [unread, List.length_drop]
  refine (Nat.sub_le _ _).trans ?_
  induction calls using List.reverseRecOn with
  | nil => exact Nat.le_refl 0
  | append_singleton calls next ih =>
      rw [after_concat, List.length_append, List.length_singleton]
      cases next with
      | read =>
          rw [call, sent_read]
          omega
      | write value => simpa [call, write] using ih

theorem agrees_iff_sample :
    (∀ front, front <+: [Call.write 7, .read] → (after 2 front : Delivery ℕ 2).Agrees) ↔
      ∀ front, front <+: [Call.write 7, .read] →
        (after 2 front : Delivery ℕ 2).unread.length ≠ 2 :=
  agrees_iff (by decide) _ fun front isPrefix => (unread_le front).trans isPrefix.length_le

/-- A queue of one element has a size and looks empty as soon as it is written to. -/
theorem not_agrees_of_full :
    (∀ front, front <+: [Call.write 7] → (after 1 front : Delivery ℕ 1).unread.length ≤ 1) ∧
      ¬(after 1 [.write 7] : Delivery ℕ 1).Agrees := by
  refine ⟨fun front isPrefix => (unread_le front).trans isPrefix.length_le, fun agrees => ?_⟩
  have nonzero : (after 1 [.write 7] : Delivery ℕ 1).queue.numElements ≠ 0 := by decide
  exact nonzero (agrees.empty.mp rfl)

end Delivery

end LFQueue

end QuantEngine
