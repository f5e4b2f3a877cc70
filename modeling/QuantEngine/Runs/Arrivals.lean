import QuantEngine.Runs.Priorities

/-!
# Arrival order within a level

The ring of a level has one pointer, to its first order. Orders join behind the
last one and leave from any place, and the ring read from the first order on
lists the ones that have not left, in the order in which they joined. The pool
may hand a block that was released to a later order, so what joined is a block
together with the order that was written to it.
-/

namespace QuantEngine.MEOrderBook

open Exec LinkedRing Runs

/-- The calls by which orders join and leave one level. -/
inductive LevelCall where
  | allocate (order : RestingOrder)
  | addOrder (elem : ℕ) (order : RestingOrder)
  | removeOrder (elem : ℕ)
  deriving DecidableEq, Repr

namespace LevelCall

/-- Runs the call; `addOrder` reads the order from its block. -/
def exec : LevelCall → BookM Unit
  | .allocate order => do
      let _ ← allocateOrder { toRestingOrder := order }
      pure ⟨⟩
  | .addOrder elem _ => MEOrderBook.addOrder (some elem)
  | .removeOrder elem => MEOrderBook.removeOrder (some elem)

/-- An order that joins was allocated, rests nowhere in the level and has the level's price; one
that leaves is not the only order of the level. -/
def Allowed (atPrice : ℕ) (book : MEOrderBook) : LevelCall → Prop
  | .allocate _ => True
  | .addOrder elem order =>
      book.OrderInUse elem ∧ ¬RestsIn book atPrice elem ∧ book.orderData elem = order ∧
        order.price = book.levelPrice atPrice
  | .removeOrder elem =>
      RestsIn book atPrice elem ∧ ∃ other, RestsIn book atPrice other ∧ other ≠ elem

/-- The call is allowed in the state it is made in, and it returns. -/
def Step (atPrice : ℕ) (book : MEOrderBook) (call : LevelCall) (last : MEOrderBook) : Prop :=
  call.Allowed atPrice book ∧ call.exec book = .ok ⟨⟩ last

/-- The effect of the call on a queue. -/
def apply (queue : List (ℕ × RestingOrder)) : LevelCall → List (ℕ × RestingOrder)
  | .allocate _ => queue
  | .addOrder elem order => queue ++ [(elem, order)]
  | .removeOrder elem => queue.filter fun entry => entry.1 ≠ elem

end LevelCall

/-- The orders that joined and did not leave, in the order of their arrival. -/
def waiting (calls : List LevelCall) (queue : List (ℕ × RestingOrder)) :
    List (ℕ × RestingOrder) :=
  calls.foldl LevelCall.apply queue

/-- The blocks with the orders they hold. -/
def contents (book : MEOrderBook) (orders : List ℕ) : List (ℕ × RestingOrder) :=
  orders.map fun elem => (elem, book.orderData elem)

variable {book last : MEOrderBook} {atPrice elem : ℕ} {orders before after : List ℕ}
  {calls : List LevelCall} {call : LevelCall} {order : RestingOrder}
  {queue : List (ℕ × RestingOrder)}

theorem contents_congr (same : ∀ elem ∈ orders, last.orderData elem = book.orderData elem) :
    contents last orders = contents book orders := by
  apply List.map_congr_left
  intro elem elemMem
  rw [same elem elemMem]

theorem contents_concat :
    contents book (orders ++ [elem]) = contents book orders ++ [(elem, book.orderData elem)] := by
  simp [contents]

/-- A listed block occurs once, so the filter takes out its entry and no other. -/
theorem filter_contents (nodup : (before ++ elem :: after).Nodup) :
    ((contents book (before ++ elem :: after)).filter fun entry => entry.1 ≠ elem) =
      contents book (before ++ after) := by
  have fresh : elem ∉ before ++ after :=
    (List.nodup_cons.mp (List.perm_middle.nodup_iff.mp nodup)).1
  have kept : (before ++ after).filter (fun other => other ≠ elem) = before ++ after := by
    apply List.filter_eq_self.mpr
    intro other member
    simpa using ne_of_mem_of_not_mem member fresh
  rw [contents, contents, List.filter_map]
  congr 1
  rw [← kept]
  simp [List.filter_append, Function.comp_def]

namespace LevelQueue

variable (listed : LevelQueue book atPrice orders)

include listed

/-- An order that joins is the last one. -/
theorem arrives (stepped : LevelCall.Step atPrice book (.addOrder elem order) last) :
    LevelQueue last atPrice (orders ++ [elem]) ∧
      contents last (orders ++ [elem]) = contents book orders ++ [(elem, order)] := by
  rcases stepped with ⟨⟨used, elsewhere, data, samePrice⟩, ran⟩
  have fresh : elem ∉ orders := fun member => elsewhere (listed.restsIn_iff.mpr member)
  rcases listed.add used fresh (by rw [data, samePrice]) ran with ⟨queued, sameData⟩
  refine ⟨queued, ?_⟩
  rw [contents_concat, sameData, data, contents_congr fun other _ => congrFun sameData other]

/-- An order that leaves is cut out, and the others keep their places. -/
theorem departs (stepped : LevelCall.Step atPrice book (.removeOrder elem) last) :
    ∃ before after, orders = before ++ elem :: after ∧ LevelQueue last atPrice (before ++ after) ∧
      contents last (before ++ after) = contents book (before ++ after) := by
  rcases stepped with ⟨⟨rests, others⟩, ran⟩
  rcases listed.split rests others with ⟨before, after, rfl, some⟩
  have sameData := (removesOrder_of_run ran).orderData
  exact ⟨before, after, rfl, listed.remove some ran,
    contents_congr fun other _ => congrFun sameData other⟩

end LevelQueue

/-- The level is a queue that holds these orders. -/
structure Holds (book : MEOrderBook) (atPrice : ℕ) (queue : List (ℕ × RestingOrder)) : Prop where
  cursors : CursorsInRange book
  listed : ∃ orders, LevelQueue book atPrice orders ∧ contents book orders = queue

/-- Every call has the effect on the level that it has on the queue. -/
theorem Holds.step (holds : Holds book atPrice queue)
    (stepped : LevelCall.Step atPrice book call last) : Holds last atPrice (call.apply queue) := by
  rcases holds with ⟨cursors, orders, listed, rfl⟩
  cases call with
  | allocate order =>
      rcases run_bind_eq_ok_iff.mp stepped.2 with ⟨pointer, middle, allocated, done⟩
      cases done
      rcases allocateOrder_ok cursors.order allocated with ⟨elem, -, allocates⟩
      have cursors' : CursorsInRange last :=
        ⟨allocates.cursor, by simpa only [allocates.ordersAtPricePool] using cursors.level⟩
      refine ⟨cursors', orders, listed.of_allocates allocates, ?_⟩
      refine contents_congr fun other member => ?_
      rw [allocates.orderData_eq, if_neg]
      rintro rfl
      exact allocates.free (listed.orderInUse other member)
  | addOrder elem order =>
      rcases listed.arrives stepped with ⟨listed', contents'⟩
      exact ⟨(addsOrder_of_run cursors stepped.2).cursors cursors, _, listed', contents'⟩
  | removeOrder elem =>
      rcases listed.departs stepped with ⟨before, after, rfl, listed', contents'⟩
      refine ⟨cursors.of_outside (removesOrder_of_run stepped.2).outside, _, listed', ?_⟩
      rw [contents']
      exact (filter_contents listed.ring.nodup).symm

end QuantEngine.MEOrderBook
