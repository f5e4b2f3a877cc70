import QuantEngine.Book.Submitting

/-!
# A level as a queue

A level holds its orders in a ring with one pointer to the first. `LevelQueue`
says that the ring lists some orders, and asks nothing of the keys, of other
levels or of the ring of levels. `addOrder` puts an order behind the last one,
and `removeOrder` takes one out wherever it stands, as long as another one
stays.
-/

namespace QuantEngine.MEOrderBook

open Exec LinkedRing

variable {book last : MEOrderBook} {levels : List Entry} {orders before after : List ℕ}
  {elem atPrice : ℕ} {price : Price} {done : PUnit} {order : RestingOrder}

/-- The order is linked behind the level's last one, and then its key is stored. -/
theorem run_addOrder_joins {first tail : ℕ} (bound : elem < book.orderPool.numElems)
    (slot : book.priceOrdersAtPrice (priceToIndex (book.orderData elem).price) = some atPrice)
    (atPriceBound : atPrice < book.ordersAtPricePool.numElems)
    (firstEq : book.firstMeOrder atPrice = some first)
    (firstBound : first < book.orderPool.numElems) (tailEq : book.prevOrder first = some tail)
    (tailBound : tail < book.orderPool.numElems) :
    addOrder (some elem) book =
      storeKey (book.orderData elem).clientId (book.orderData elem).clientOrderId (some elem)
        (book.appendOrder elem first tail) := by
  have tailKept : ((book.setOrder tail fun o => { o with nextOrder := some elem }).order
      first).prevOrder = some tail := by
    rw [← tailEq]
    exact field_setOrder MEOrder.prevOrder fun _ => rfl
  have slot' : book.priceOrdersAtPrice (priceToIndex (book.order elem).price) = some atPrice :=
    slot
  change (book.level atPrice).firstMeOrder = _ at firstEq
  change (book.order first).prevOrder = _ at tailEq
  rw [addOrder, run_loadOrder_bind bound, run_getOrdersAtPrice_bind, slot',
    if_neg (Option.some_ne_none atPrice), run_loadLevel_bind atPriceBound, firstEq,
    run_loadOrder_bind firstBound, tailEq,
    run_storeOrder_bind tailBound, run_loadOrder_bind (by simpa using firstBound), tailKept,
    run_storeOrder_bind (by simpa using bound), run_storeOrder_bind (by simpa using bound),
    run_storeOrder_bind (by simpa using firstBound)]
  apply (run_loadOrder_bind (by simpa using bound)).trans
  change storeKey ((book.appendOrder elem first tail).orderData elem).clientId
    ((book.appendOrder elem first tail).orderData elem).clientOrderId (some elem)
      (book.appendOrder elem first tail) = _
  rw [orderData_appendOrder]

/-- The level is in use, and its ring lists the orders, first order first. -/
structure LevelQueue (book : MEOrderBook) (atPrice : ℕ) (orders : List ℕ) : Prop where
  levelInUse : book.LevelInUse atPrice
  slot : book.priceOrdersAtPrice (priceToIndex (book.levelPrice atPrice)) = some atPrice
  first : book.firstMeOrder atPrice = orders.head?
  ring : IsRing book.nextOrder book.prevOrder orders
  orderInUse : ∀ elem ∈ orders, book.OrderInUse elem
  price : ∀ elem ∈ orders, (book.orderData elem).price = book.levelPrice atPrice

/-- The levels of a directory are queues. -/
theorem Directory.levelQueue (dir : Directory book levels) (listed : (atPrice, orders) ∈ levels) :
    LevelQueue book atPrice orders where
  levelInUse := (dir.levelInUse atPrice).mpr (List.mem_map_of_mem listed)
  slot := dir.slot _ listed
  first := dir.first _ listed
  ring := dir.ring _ listed
  orderInUse elem elemMem := dir.orderInUse elem (List.mem_flatMap.mpr ⟨_, listed, elemMem⟩)
  price := dir.price _ listed

namespace LevelQueue

/-- A queue speaks of its level and of the listed orders' links and prices only. -/
theorem congr (queue : LevelQueue book atPrice orders)
    (links : ∀ elem ∈ orders,
      last.nextOrder elem = book.nextOrder elem ∧ last.prevOrder elem = book.prevOrder elem)
    (price : ∀ elem ∈ orders, (last.orderData elem).price = (book.orderData elem).price)
    (orderInUse : ∀ elem ∈ orders, last.OrderInUse elem)
    (level : last.level = book.level) (levelInUse : last.LevelInUse = book.LevelInUse)
    (slots : last.priceOrdersAtPrice = book.priceOrdersAtPrice) :
    LevelQueue last atPrice orders := by
  rcases levelViews_eq level with ⟨-, prices, firsts, -, -⟩
  refine ⟨?_, ?_, ?_, ?_, orderInUse, ?_⟩
  · rw [levelInUse]
    exact queue.levelInUse
  · rw [slots, prices]
    exact queue.slot
  · rw [firsts]
    exact queue.first
  · exact queue.ring.congr (fun elem elemMem => (links elem elemMem).1)
      fun elem elemMem => (links elem elemMem).2
  · rw [prices]
    intro elem elemMem
    rw [price elem elemMem]
    exact queue.price elem elemMem

section Adding

variable (queue : LevelQueue book atPrice orders)

include queue

/-- The pointers that lead from the level to its last order. -/
theorem pointers : ∃ first others tail, orders = first :: others ∧ tail ∈ orders ∧
    orders.getLast? = some tail ∧ book.firstMeOrder atPrice = some first ∧
    book.prevOrder first = some tail := by
  have ring := queue.ring
  have firstEq := queue.first
  rcases orders with _ | ⟨first, others⟩
  · exact absurd rfl ring.ne_nil
  rcases ring.linked_of_mem List.mem_cons_self with ⟨-, tail, tailMem, linked⟩
  exact ⟨first, others, tail, rfl, tailMem, ring.getLast?_eq linked.2, firstEq, linked.2⟩

/-- `getNextPriority` returns the priority of the last order as it is. -/
theorem run_getNextPriority (slot : book.priceOrdersAtPrice (priceToIndex price) = some atPrice) :
    ∃ tail, orders.getLast? = some tail ∧
      getNextPriority price book = .ok (book.orderData tail).priority book := by
  rcases queue.pointers with ⟨first, others, tail, rfl, tailMem, getLast, firstEq, tailEq⟩
  have firstBound := (queue.orderInUse first List.mem_cons_self).1
  have tailBound := (queue.orderInUse tail tailMem).1
  refine ⟨tail, getLast, ?_⟩
  change (book.level atPrice).firstMeOrder = _ at firstEq
  change (book.order first).prevOrder = _ at tailEq
  rw [getNextPriority, run_getOrdersAtPrice_bind, slot, run_loadLevel_bind queue.levelInUse.1,
    firstEq, if_neg (Option.some_ne_none first), run_loadOrder_bind firstBound, tailEq,
    run_loadOrder_bind tailBound]
  rfl

theorem run_addOrder (bound : elem < book.orderPool.numElems)
    (slot : book.priceOrdersAtPrice (priceToIndex (book.orderData elem).price) = some atPrice) :
    ∃ first others tail, orders = first :: others ∧ book.prevOrder first = some tail ∧
      addOrder (some elem) book =
        storeKey (book.orderData elem).clientId (book.orderData elem).clientOrderId (some elem)
          (book.appendOrder elem first tail) := by
  rcases queue.pointers with ⟨first, others, tail, rfl, tailMem, -, firstEq, tailEq⟩
  refine ⟨first, others, tail, rfl, tailEq, ?_⟩
  exact run_addOrder_joins bound slot queue.levelInUse.1 firstEq
    (queue.orderInUse first List.mem_cons_self).1 tailEq (queue.orderInUse tail tailMem).1

/-- The new block is not listed, so the queue is unchanged. -/
theorem of_allocates {allocated : MEOrderBook}
    (allocates : AllocatesOrder book allocated elem { toRestingOrder := order }) :
    LevelQueue allocated atPrice orders := by
  have apart : ∀ other ∈ orders, allocated.order other = book.order other :=
    fun other listed => allocates.order_of_used (queue.orderInUse other listed)
  refine queue.congr ?_ ?_ ?_ allocates.level_eq allocates.levelInUse_eq
    allocates.priceOrdersAtPrice
  · intro other listed
    simp only [nextOrder, prevOrder, apart other listed, and_self]
  · intro other listed
    simp only [orderData, apart other listed]
  · intro other listed
    exact (allocates.inUse other).mpr (Or.inr (queue.orderInUse other listed))

/-- A block in use that is not listed goes behind the last order. -/
theorem add (used : book.OrderInUse elem) (fresh : elem ∉ orders)
    (samePrice : (book.orderData elem).price = book.levelPrice atPrice)
    (ran : addOrder (some elem) book = .ok done last) :
    LevelQueue last atPrice (orders ++ [elem]) ∧ last.orderData = book.orderData := by
  have slot : book.priceOrdersAtPrice (priceToIndex (book.orderData elem).price) =
      some atPrice := by
    rw [samePrice]
    exact queue.slot
  rcases queue.run_addOrder used.1 slot with ⟨first, others, tail, rfl, tailEq, joins⟩
  rw [joins] at ran
  rcases storeKey_eq_ok_iff.mp ran with ⟨-, rfl⟩
  have data := orderData_appendOrder book elem first tail
  rcases levelViews_eq (level_appendOrder book elem first tail) with ⟨-, prices, firsts, -, -⟩
  have oneOf : ∀ {other}, other ∈ (first :: others) ++ [elem] →
      other ∈ first :: others ∨ other = elem := by
    intro other member
    simpa using List.mem_append.mp member
  refine ⟨⟨?_, ?_, ?_, ?_, ?_, ?_⟩, data⟩
  · rw [levelInUse_setKey, levelInUse_appendOrder]
    exact queue.levelInUse
  · change (book.appendOrder elem first tail).priceOrdersAtPrice
      (priceToIndex ((book.appendOrder elem first tail).levelPrice atPrice)) = _
    rw [priceOrdersAtPrice_appendOrder, prices]
    exact queue.slot
  · change (book.appendOrder elem first tail).firstMeOrder atPrice = _
    rw [firsts]
    exact queue.first
  · change IsRing (book.appendOrder elem first tail).nextOrder
      (book.appendOrder elem first tail).prevOrder (first :: (others ++ [elem]))
    exact isRing_appendOrder queue.ring fresh tailEq
  · rw [orderInUse_setKey, orderInUse_appendOrder]
    intro other member
    rcases oneOf member with listed | rfl
    · exact queue.orderInUse other listed
    · exact used
  · intro other member
    change ((book.appendOrder elem first tail).orderData other).price =
      (book.appendOrder elem first tail).levelPrice atPrice
    rw [data, prices]
    rcases oneOf member with listed | rfl
    · exact queue.price other listed
    · exact samePrice

/-- An order that is rested at the level's price goes behind the last order. -/
theorem rest (cursors : CursorsInRange book) (samePrice : order.price = book.levelPrice atPrice)
    (ran : restOrder order book = .ok done last) :
    ∃ elem, elem ∉ orders ∧ LevelQueue last atPrice (orders ++ [elem]) ∧
      ∀ other, last.orderData other = if other = elem then order else book.orderData other := by
  rcases restOrder_cases cursors ran with ⟨elem, allocated, allocates, -, added⟩
  have fresh : elem ∉ orders := fun listed => allocates.free (queue.orderInUse elem listed)
  have prices := (levelViews_eq allocates.level_eq).2.1
  have used : allocated.OrderInUse elem := (allocates.inUse elem).mpr (Or.inl rfl)
  have elemPrice : (allocated.orderData elem).price = allocated.levelPrice atPrice := by
    rw [allocates.orderData_eq, if_pos rfl, prices]
    exact samePrice
  rcases (queue.of_allocates allocates).add used fresh elemPrice added with ⟨queued, data⟩
  refine ⟨elem, fresh, queued, ?_⟩
  rw [data]
  exact allocates.orderData_eq

end Adding

/-- An order that is not alone is taken out, wherever it stands. -/
theorem remove (queue : LevelQueue book atPrice (before ++ elem :: after))
    (others : before ++ after ≠ []) (ran : removeOrder (some elem) book = .ok done last) :
    LevelQueue last atPrice (before ++ after) := by
  have elemMem : elem ∈ before ++ elem :: after := List.mem_append_right _ List.mem_cons_self
  have elemFresh : elem ∉ before ++ after :=
    (List.nodup_cons.mp (List.perm_middle.nodup_iff.mp queue.ring.nodup)).1
  have wider : ∀ other ∈ before ++ after, other ∈ before ++ elem :: after ∧ other ≠ elem := by
    intro other member
    refine ⟨?_, ne_of_mem_of_not_mem member elemFresh⟩
    simp only [List.mem_append, List.mem_cons] at member ⊢
    tauto
  have removes := removesOrder_of_run ran
  rcases removeOrder_cases ran with ⟨-, -, ⟨alone, -⟩ |
    ⟨holder, prior, following, held, prevElem, nextElem, -, rfl⟩⟩
  · have only := (queue.ring.prev_eq_self_iff elemMem).mp alone
    have lengths := congrArg List.length only
    simp only [List.length_append, List.length_cons, List.length_nil] at lengths
    have none : before ++ after = [] :=
      List.eq_nil_of_length_eq_zero (by simp only [List.length_append]; omega)
    exact absurd none others
  · rw [queue.price elem elemMem, queue.slot] at held
    cases held
    rcases levelViews_eq (level_release (book.unlinkOrder atPrice elem prior following) elem) with
      ⟨-, prices, firsts, -, -⟩
    rw [levelPrice_unlinkOrder] at prices
    refine ⟨?_, ?_, ?_, ?_, ?_, ?_⟩
    · rw [levelInUse_release, levelInUse_unlinkOrder]
      exact queue.levelInUse
    · rw [priceOrdersAtPrice_release, priceOrdersAtPrice_unlinkOrder, prices]
      exact queue.slot
    · rw [firsts]
      exact firstMeOrder_unlinkOrder_eq queue.ring others nextElem queue.first
    · rw [nextOrder_release, prevOrder_release]
      exact isRing_unlinkOrder queue.ring others prevElem nextElem
    · intro other member
      rw [removes.orderInUse]
      exact ⟨queue.orderInUse other (wider other member).1, (wider other member).2⟩
    · intro other member
      rw [removes.orderData, removes.levelPrice]
      exact queue.price other (wider other member).1

end LevelQueue

end QuantEngine.MEOrderBook
