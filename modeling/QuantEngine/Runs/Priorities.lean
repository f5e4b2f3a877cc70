import QuantEngine.Book.Adding
import QuantEngine.Runs.Operation

/-!
# Priorities within a level

The orders of one price are filled in the order of their level's ring. A new
order takes the priority that `getNextPriority` returns for its price, which is
that of the level's last order and not one more. So the priorities of a level
are all the same, and they increase along the ring only while it is one order.
-/

namespace QuantEngine.MEOrderBook

open Exec LinkedRing Runs

/-- The calls that rest and remove the orders of one level. -/
inductive QueueCall where
  | rest (order : RestingOrder)
  | removeOrder (elem : ℕ)
  deriving DecidableEq, Repr

namespace QueueCall

/-- Runs the call; a new order gets the next priority of its price. -/
def exec : QueueCall → BookM Unit
  | .rest order => do
      let priority ← getNextPriority order.price
      restOrder { order with priority := priority }
  | .removeOrder elem => MEOrderBook.removeOrder (some elem)

/-- A new order has the level's price; an order that is removed is not the only one of the level. -/
def Allowed (atPrice : ℕ) (book : MEOrderBook) : QueueCall → Prop
  | .rest order => order.price = book.levelPrice atPrice
  | .removeOrder elem =>
      RestsIn book atPrice elem ∧ ∃ other, RestsIn book atPrice other ∧ other ≠ elem

/-- The call is allowed in the state it is made in, and it returns. -/
def Step (atPrice : ℕ) (book : MEOrderBook) (call : QueueCall) (last : MEOrderBook) : Prop :=
  call.Allowed atPrice book ∧ call.exec book = .ok ⟨⟩ last

/-- The call brings an order into the level. -/
def arrives : QueueCall → Bool
  | .rest _ => true
  | .removeOrder _ => false

end QueueCall

/-- The number of orders that are rested. -/
def arrivals (calls : List QueueCall) : ℕ := calls.countP QueueCall.arrives

/-- The number of orders that are removed. -/
def departures (calls : List QueueCall) : ℕ := calls.countP fun call => !call.arrives

/-- The priorities strictly increase along the level's ring, from its first order to its last. -/
def PrioritiesIncrease (book : MEOrderBook) (atPrice : ℕ) : Prop :=
  ∃ orders, book.firstMeOrder atPrice = orders.head? ∧
    IsRing book.nextOrder book.prevOrder orders ∧
    orders.Pairwise fun first second =>
      (book.orderData first).priority < (book.orderData second).priority

variable {book last : MEOrderBook} {atPrice elem : ℕ} {orders : List ℕ} {calls : List QueueCall}
  {order : RestingOrder}

theorem arrivals_rest : arrivals (calls ++ [.rest order]) = arrivals calls + 1 := by
  simp [arrivals, QueueCall.arrives]

theorem departures_rest : departures (calls ++ [.rest order]) = departures calls := by
  simp [departures, QueueCall.arrives]

theorem arrivals_removeOrder : arrivals (calls ++ [.removeOrder elem]) = arrivals calls := by
  simp [arrivals, QueueCall.arrives]

theorem departures_removeOrder :
    departures (calls ++ [.removeOrder elem]) = departures calls + 1 := by
  simp [departures, QueueCall.arrives]

/-- A level whose orders all have priority 1. -/
structure Evenly (book : MEOrderBook) (atPrice : ℕ) (orders : List ℕ) : Prop where
  cursors : CursorsInRange book
  queue : LevelQueue book atPrice orders
  priority : ∀ elem ∈ orders, (book.orderData elem).priority = 1

namespace Evenly

variable (even : Evenly book atPrice orders)

include even

/-- A new order gets the last order's priority. -/
theorem rest (stepped : QueueCall.Step atPrice book (.rest order) last) :
    ∃ elem, Evenly last atPrice (orders ++ [elem]) := by
  rcases stepped with ⟨samePrice, ran⟩
  change order.price = book.levelPrice atPrice at samePrice
  have slot : book.priceOrdersAtPrice (priceToIndex order.price) = some atPrice := by
    rw [samePrice]
    exact even.queue.slot
  rcases even.queue.run_getNextPriority slot with ⟨tail, getLast, returned⟩
  have tailOne := even.priority tail (List.mem_of_getLast? getLast)
  rw [tailOne] at returned
  let granted : RestingOrder := { order with priority := 1 }
  have grantedPrice : granted.price = book.levelPrice atPrice := samePrice
  have rested : restOrder granted book = .ok ⟨⟩ last := (run_bind_of_ok returned).symm.trans ran
  rcases even.queue.rest even.cursors grantedPrice rested with ⟨elem, fresh, queue, data⟩
  rcases rests_of_run even.cursors rested with ⟨_, rests⟩
  refine ⟨elem, rests.cursors, queue, ?_⟩
  intro other member
  rw [data]
  split
  · rfl
  · rename_i different
    simp only [List.mem_append, List.mem_singleton, different, or_false] at member
    exact even.priority other member

theorem removeOrder (stepped : QueueCall.Step atPrice book (.removeOrder elem) last) :
    ∃ before after, orders = before ++ elem :: after ∧ Evenly last atPrice (before ++ after) := by
  rcases stepped with ⟨⟨rests, others⟩, ran⟩
  rcases even.queue.split rests others with ⟨before, after, rfl, some⟩
  have removes := removesOrder_of_run ran
  refine ⟨before, after, rfl, even.cursors.of_outside removes.outside,
    even.queue.remove some ran, ?_⟩
  intro another member
  rw [removes.orderData]
  apply even.priority
  simp only [List.mem_append, List.mem_cons] at member ⊢
  tauto

/-- Priorities that are all the same increase along one order and no more. -/
theorem increase_iff : PrioritiesIncrease book atPrice ↔ orders.length = 1 := by
  have heads : HeadsRing book.nextOrder book.prevOrder (book.firstMeOrder atPrice) orders :=
    ⟨even.queue.first, fun _ => even.queue.ring⟩
  constructor
  · rintro ⟨orders', first, ring, increase⟩
    have same : orders = orders' := HeadsRing.unique ⟨first, fun _ => ring⟩ heads
    subst same
    rcases orders with _ | ⟨head, _ | ⟨second, rest⟩⟩
    · exact absurd rfl ring.ne_nil
    · rfl
    · have less := (List.pairwise_cons.mp increase).1 second List.mem_cons_self
      rw [even.priority head (by simp), even.priority second (by simp)] at less
      exact absurd less (UInt64.lt_irrefl 1)
  · intro one
    rcases List.length_eq_one_iff.mp one with ⟨elem, rfl⟩
    exact ⟨[elem], even.queue.first, even.queue.ring, List.pairwise_singleton _ _⟩

/-- The level keeps one priority along every run, and the calls account for its length. -/
theorem of_run (run : Run (QueueCall.Step atPrice) book calls last) :
    ∃ remaining, Evenly last atPrice remaining ∧
      remaining.length + departures calls = orders.length + arrivals calls := by
  induction run with
  | nil => exact ⟨orders, even, rfl⟩
  | @snoc calls state next call _ stepped ih =>
      rcases ih with ⟨remaining, kept, lengths⟩
      cases call with
      | rest order =>
          rcases kept.rest stepped with ⟨elem, kept'⟩
          refine ⟨_, kept', ?_⟩
          rw [arrivals_rest, departures_rest, List.length_append, List.length_singleton]
          omega
      | removeOrder elem =>
          rcases kept.removeOrder stepped with ⟨before, after, rfl, kept'⟩
          refine ⟨_, kept', ?_⟩
          rw [arrivals_removeOrder, departures_removeOrder]
          simp only [List.length_append, List.length_cons] at lengths ⊢
          omega

end Evenly

/-- From a level with one order of priority 1 on, the priorities increase along the level exactly
when as many orders were removed as were rested, which leaves one order. -/
theorem prioritiesIncrease_iff_of_run (cursors : CursorsInRange book)
    (queue : LevelQueue book atPrice [elem]) (one : (book.orderData elem).priority = 1)
    (run : Run (QueueCall.Step atPrice) book calls last) :
    PrioritiesIncrease last atPrice ↔ arrivals calls = departures calls := by
  have even : Evenly book atPrice [elem] := ⟨cursors, queue, by simpa using one⟩
  rcases even.of_run run with ⟨remaining, kept, lengths⟩
  rw [kept.increase_iff]
  simp only [List.length_singleton] at lengths
  omega

/-- A BUY order that joins the sample book's level at 9. -/
def sampleBuy : RestingOrder where
  tickerId := 0
  clientId := 3
  clientOrderId := 1
  marketOrderId := 4
  side := .buy
  price := 9
  quantity := 2
  priority := 0

theorem sampleRoomyBook_evenly : Evenly sampleRoomyBook 1 [2] :=
  ⟨sampleRoomyBook_stocked.cursors,
    sampleRoomyBook_wellFormed.directory.levelQueue (by decide), by decide⟩

/-- A second order joins the level, and the first one leaves it. -/
theorem prioritiesIncrease_sample : ∃ last,
    Run (QueueCall.Step 1) sampleRoomyBook [.rest sampleBuy, .removeOrder 2] last ∧
      PrioritiesIncrease last 1 := by
  have returns : ∃ middle last, QueueCall.Step 1 sampleRoomyBook (.rest sampleBuy) middle ∧
      removeOrder (some 2) middle = .ok ⟨⟩ last := ⟨_, _, ⟨rfl, rfl⟩, rfl⟩
  rcases returns with ⟨middle, last, rested, removed⟩
  rcases sampleRoomyBook_evenly.rest rested with ⟨elem, even⟩
  have different : elem ≠ 2 := by
    rintro rfl
    exact absurd even.queue.ring.nodup (by decide)
  have stepped : QueueCall.Step 1 middle (.removeOrder 2) last := by
    refine ⟨⟨even.queue.restsIn_iff.mpr (by simp), elem, ?_, different⟩, removed⟩
    exact even.queue.restsIn_iff.mpr (by simp)
  have run : Run (QueueCall.Step 1) sampleRoomyBook [.rest sampleBuy, .removeOrder 2] last :=
    (Run.nil.snoc rested).snoc stepped
  exact ⟨last, run, (prioritiesIncrease_iff_of_run sampleRoomyBook_evenly.cursors
    sampleRoomyBook_evenly.queue (by decide) run).mpr (by decide)⟩

/-- A second order gets the priority of the first. -/
theorem not_prioritiesIncrease_rested : CursorsInRange sampleRoomyBook ∧
    LevelQueue sampleRoomyBook 1 [2] ∧ (sampleRoomyBook.orderData 2).priority = 1 ∧
      ∃ last, Run (QueueCall.Step 1) sampleRoomyBook [.rest sampleBuy] last ∧
        ¬PrioritiesIncrease last 1 := by
  refine ⟨sampleRoomyBook_evenly.cursors, sampleRoomyBook_evenly.queue, by decide, ?_⟩
  have returns : ∃ last, QueueCall.Step 1 sampleRoomyBook (.rest sampleBuy) last := ⟨_, rfl, rfl⟩
  rcases returns with ⟨last, rested⟩
  rcases sampleRoomyBook_evenly.rest rested with ⟨elem, even⟩
  refine ⟨last, Run.nil.snoc rested, ?_⟩
  rw [even.increase_iff]
  simp

end QuantEngine.MEOrderBook
