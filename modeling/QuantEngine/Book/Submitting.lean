import QuantEngine.Book.Operations

/-!
# Resting and submitting orders

Resting an order allocates a block and links it; `submit` matches first and
rests what is left. As in the module before, nothing is assumed of the level
rings, but a directory of the book is kept.
-/

namespace QuantEngine.MEOrderBook

open Exec LinkedRing

variable {book last : MEOrderBook} {done : PUnit} {elem : ℕ} {levels : List Entry}
  {order : RestingOrder}

/-- `rest` with the fields of the order taken together. -/
abbrev restOrder (order : RestingOrder) : BookM Unit :=
  rest order.clientId order.clientOrderId order.tickerId order.side order.price order.quantity
    order.marketOrderId order.priority

/-- What resting an order does, whatever the state of the rings. -/
structure Rests (book last : MEOrderBook) (order : RestingOrder) (elem : ℕ) : Prop where
  range : KeyInRange order.clientId order.clientOrderId
  fresh : ¬book.OrderInUse elem
  orderInUse : ∀ other, last.OrderInUse other ↔ other = elem ∨ book.OrderInUse other
  orderData : ∀ other, last.orderData other = if other = elem then order else book.orderData other
  session : last.session = book.session
  cursors : CursorsInRange last
  slot : ∀ index, index ≠ priceToIndex order.price →
    last.priceOrdersAtPrice index = book.priceOrdersAtPrice index
  opens : book.priceOrdersAtPrice (priceToIndex order.price) = none →
    ∃ atPrice, ¬book.LevelInUse atPrice ∧ last.LevelInUse atPrice ∧
      last.priceOrdersAtPrice (priceToIndex order.price) = some atPrice ∧
      last.firstMeOrder atPrice = some elem
  cidOidToOrder : ∀ clientId orderId, last.cidOidToOrder clientId orderId =
    if clientId = order.clientId ∧ orderId = order.clientOrderId then some elem
    else book.cidOidToOrder clientId orderId

theorem restOrder_cases (cursors : CursorsInRange book)
    (ran : restOrder order book = .ok done last) :
    ∃ elem allocated, AllocatesOrder book allocated elem { toRestingOrder := order } ∧
      CursorsInRange allocated ∧ addOrder (some elem) allocated = .ok ⟨⟩ last := by
  rcases run_bind_eq_ok_iff.mp ran with ⟨pointer, allocated, allocation, added⟩
  rcases allocateOrder_ok cursors.order allocation with ⟨elem, rfl, allocates⟩
  refine ⟨elem, allocated, allocates, ⟨allocates.cursor, ?_⟩, added⟩
  rw [allocates.ordersAtPricePool]
  exact cursors.level

namespace AllocatesOrder

variable {allocated : MEOrderBook}
  (allocates : AllocatesOrder book allocated elem { toRestingOrder := order })

include allocates

theorem orderData_eq (other : ℕ) :
    allocated.orderData other = if other = elem then order else book.orderData other := by
  simp only [orderData, allocates.order]
  split <;> rfl

theorem level_eq : allocated.level = book.level := by
  funext other
  rw [level, allocates.ordersAtPricePool, level]

theorem levelInUse_eq : allocated.LevelInUse = book.LevelInUse := by
  funext other
  rw [LevelInUse, allocates.ordersAtPricePool, LevelInUse]

theorem order_of_used {other : ℕ} (used : book.OrderInUse other) :
    allocated.order other = book.order other := by
  rw [allocates.order, if_neg]
  rintro rfl
  exact allocates.free used

/-- The new block is in no listed level, so the directory is unchanged. -/
theorem directory (dir : Directory book levels) : Directory allocated levels := by
  have apart : ∀ other ∈ ordersOf levels, allocated.order other = book.order other :=
    fun other listed => allocates.order_of_used (dir.orderInUse other listed)
  refine dir.congr ?_ ?_ ?_ allocates.level_eq allocates.levelInUse_eq
    allocates.priceOrdersAtPrice allocates.cidOidToOrder
  · intro other listed
    simp only [nextOrder, prevOrder, apart other listed, and_self]
  · intro other listed
    simp only [orderData, apart other listed, and_self]
  · intro other listed
    exact (allocates.inUse other).mpr (Or.inr (dir.orderInUse other listed))

end AllocatesOrder

theorem rests_of_run (cursors : CursorsInRange book)
    (ran : restOrder order book = .ok done last) : ∃ elem, Rests book last order elem := by
  rcases restOrder_cases cursors ran with ⟨elem, allocated, allocates, cursors', added⟩
  have adds := addsOrder_of_run cursors' added
  have data : allocated.orderData elem = order := by
    rw [allocates.orderData_eq, if_pos rfl]
  refine ⟨elem, ⟨?_, allocates.free, ?_, ?_, ?_, adds.cursors cursors', ?_, ?_, ?_⟩⟩
  · simpa only [data] using adds.range
  · rw [adds.orderInUse]
    exact allocates.inUse
  · rw [adds.orderData]
    exact allocates.orderData_eq
  · exact adds.session.trans allocates.session
  · intro index different
    rw [adds.slot index (by rwa [data]), allocates.priceOrdersAtPrice]
  · intro free
    have opened := adds.opens
    rw [data, allocates.priceOrdersAtPrice, allocates.levelInUse_eq] at opened
    exact opened free
  · rw [← data, ← allocates.cidOidToOrder]
    exact adds.cidOidToOrder

/-- The order may be rested: its key is not in use and its slot holds no other price. -/
structure Restable (book : MEOrderBook) (order : RestingOrder) : Prop where
  unused : ∀ elem, book.OrderInUse elem →
    ¬((book.orderData elem).clientId = order.clientId ∧
      (book.orderData elem).clientOrderId = order.clientOrderId)
  samePrice : ∀ elem, book.OrderInUse elem →
    priceToIndex order.price = priceToIndex (book.orderData elem).price →
      order.price = (book.orderData elem).price

theorem Directory.rest (dir : Directory book levels) (only : OrdersOnly book levels)
    (cursors : CursorsInRange book) (restable : Restable book order)
    (ran : restOrder order book = .ok done last) :
    ∃ elem levels', Rests book last order elem ∧ Extends levels elem levels' ∧
      Directory last levels' ∧ OrdersOnly last levels' := by
  rcases restOrder_cases cursors ran with ⟨elem, allocated, allocates, cursors', added⟩
  have data : allocated.orderData elem = order := by
    rw [allocates.orderData_eq, if_pos rfl]
  have fresh : elem ∉ ordersOf levels := fun listed => allocates.free (dir.orderInUse elem listed)
  have dataOld : ∀ other ∈ ordersOf levels, allocated.orderData other = book.orderData other := by
    intro other listed
    rw [allocates.orderData_eq, if_neg (ne_of_mem_of_not_mem listed fresh)]
  have linkable : Linkable allocated levels elem := by
    refine ⟨fresh, (allocates.inUse elem).mpr (Or.inl rfl), ?_, ?_⟩
    · intro other listed
      rw [data, dataOld other listed]
      exact restable.unused other (dir.orderInUse other listed)
    · intro entry entryMem sameIndex
      rcases List.exists_mem_of_ne_nil entry.2 (dir.ne_nil entryMem) with ⟨other, otherMem⟩
      have otherUsed := dir.orderInUse other (List.mem_flatMap.mpr ⟨entry, entryMem, otherMem⟩)
      have prices := (levelViews_eq allocates.level_eq).2.1
      rw [data, prices, ← dir.price entry entryMem other otherMem] at sameIndex ⊢
      exact restable.samePrice other otherUsed sameIndex
  rcases (allocates.directory dir).addOrder cursors' linkable added with
    ⟨levels', extended, dir'⟩
  have adds := addsOrder_of_run cursors' added
  rcases rests_of_run cursors ran with ⟨elem', rests⟩
  have sameElem : elem' = elem := by
    have used : last.OrderInUse elem' := (rests.orderInUse elem').mpr (Or.inl rfl)
    rw [adds.orderInUse] at used
    exact ((allocates.inUse elem').mp used).resolve_right rests.fresh
  subst sameElem
  refine ⟨elem', levels', rests, extended, dir', ?_⟩
  intro other used
  rw [extended.orders_perm.mem_iff, List.mem_cons]
  exact ((rests.orderInUse other).mp used).imp_right (only other)

/-- The arguments of a call of `submit`. -/
structure Submission where
  priority : Priority
  clientId : ClientId
  orderId : OrderId
  tickerId : TickerId
  side : Side
  price : Price
  qty : Quantity
  deriving DecidableEq, Repr

namespace Submission

/-- The submitted order as an aggressor with its market order id. -/
def aggressor (submission : Submission) (marketOrderId : OrderId) : Aggressor where
  clientId := submission.clientId
  clientOrderId := submission.orderId
  tickerId := submission.tickerId
  side := submission.side
  marketOrderId := marketOrderId

/-- The order that is rested when `leftQuantity` is left of the submitted one. -/
def leftover (submission : Submission) (marketOrderId : OrderId) (leftQuantity : Quantity) :
    RestingOrder where
  tickerId := submission.tickerId
  clientId := submission.clientId
  clientOrderId := submission.orderId
  marketOrderId := marketOrderId
  side := submission.side
  price := submission.price
  quantity := leftQuantity
  priority := submission.priority

/-- The ACCEPTED response. -/
def acceptedResponse (submission : Submission) (marketOrderId : OrderId) : MEClientResponse where
  type := .accepted
  clientId := submission.clientId
  tickerId := submission.tickerId
  clientOrderId := submission.orderId
  marketOrderId := marketOrderId
  side := submission.side
  price := submission.price
  execQty := 0
  leftQty := submission.qty

/-- The ADD update about a leftover. -/
def addUpdate (submission : Submission) (marketOrderId : OrderId) (leftQuantity : Quantity) :
    MEMarketUpdate where
  type := .add
  orderId := marketOrderId
  tickerId := submission.tickerId
  side := submission.side
  price := submission.price
  quantity := leftQuantity
  priority := submission.priority

end Submission

variable {submission : Submission} {marketOrderId : OrderId} {leftQuantity : Quantity}

/-- `submit` with its arguments taken together. -/
abbrev submitBy (submission : Submission) : BookM Unit :=
  submit submission.priority submission.clientId submission.orderId submission.tickerId
    submission.side submission.price submission.qty

/-- `checkForMatch` as `submit` calls it. -/
abbrev matchSubmission (submission : Submission) (marketOrderId : OrderId) : BookM Quantity :=
  checkForMatch submission.clientId submission.orderId submission.tickerId submission.side
    submission.price submission.qty marketOrderId

/-- The book when `submit` has taken a market order id and accepted the order. -/
def accepting (book : MEOrderBook) (submission : Submission) : MEOrderBook :=
  { book with
    nextMarketOrderId := book.nextMarketOrderId + 1
    responses := book.responses ++ [submission.acceptedResponse book.nextMarketOrderId] }

/-- The part of `submit` after matching. -/
def settle (submission : Submission) (marketOrderId : OrderId) (leftQuantity : Quantity) :
    BookM Unit := do
  if leftQuantity ≠ 0 then
    restOrder (submission.leftover marketOrderId leftQuantity)
    sendMarketUpdate (submission.addUpdate marketOrderId leftQuantity)

theorem run_submitBy : submitBy submission book =
    (matchSubmission submission book.nextMarketOrderId >>=
      settle submission book.nextMarketOrderId) (book.accepting submission) := rfl

/-- The book with one more update sent. -/
def announcing (book : MEOrderBook) (update : MEMarketUpdate) : MEOrderBook :=
  { book with updates := book.updates ++ [update] }

theorem settle_cases
    (ran : settle submission marketOrderId leftQuantity book = .ok done last) :
    (leftQuantity = 0 ∧ last = book) ∨
      ∃ rested, leftQuantity ≠ 0 ∧
        restOrder (submission.leftover marketOrderId leftQuantity) book = .ok ⟨⟩ rested ∧
        last = rested.announcing (submission.addUpdate marketOrderId leftQuantity) := by
  by_cases nothing : leftQuantity = 0
  · rw [settle, if_neg (by simpa using nothing)] at ran
    cases ran
    exact Or.inl ⟨nothing, rfl⟩
  · rw [settle, if_pos nothing] at ran
    rcases run_bind_eq_ok_iff.mp ran with ⟨_, rested, linked, sent⟩
    cases sent
    exact Or.inr ⟨rested, nothing, linked, rfl⟩

theorem submitBy_cases (ran : submitBy submission book = .ok done last) :
    ∃ leftQuantity middle,
      matchSubmission submission book.nextMarketOrderId (book.accepting submission) =
        .ok leftQuantity middle ∧
      settle submission book.nextMarketOrderId leftQuantity middle = .ok ⟨⟩ last := by
  rw [run_submitBy] at ran
  exact run_bind_eq_ok_iff.mp ran

/-- After matching, `submit` sends no response, and no update but one ADD. -/
theorem settle_messages :
    (finalState (settle submission marketOrderId leftQuantity book)).responses = book.responses ∧
      ((finalState (settle submission marketOrderId leftQuantity book)).updates = book.updates ∨
        (finalState (settle submission marketOrderId leftQuantity book)).updates =
          book.updates ++ [submission.addUpdate marketOrderId leftQuantity]) := by
  by_cases nothing : leftQuantity = 0
  · rw [settle, if_neg (by simpa using nothing)]
    exact ⟨rfl, Or.inl rfl⟩
  · rw [settle, if_pos nothing]
    have kept : (finalState (restOrder (submission.leftover marketOrderId leftQuantity)
        book)).session = book.session := keepsSession_rest book
    cases ran : restOrder (submission.leftover marketOrderId leftQuantity) book with
    | ok done rested =>
        rw [ran] at kept
        rw [run_bind_of_ok ran]
        have sent : rested.updates = book.updates := congrArg Session.updates kept
        refine ⟨congrArg Session.responses kept, Or.inr ?_⟩
        change rested.updates ++ _ = _
        rw [sent]
    | error fault rested =>
        rw [ran] at kept
        rw [run_bind_of_error ran]
        exact ⟨congrArg Session.responses kept, Or.inl (congrArg Session.updates kept)⟩

/-- The responses of `submit` are its ACCEPTED and those of matching; of its updates at most one
ADD is not a match's. -/
theorem submitBy_messages :
    let matched := finalState
      (matchSubmission submission book.nextMarketOrderId (book.accepting submission))
    (finalState (submitBy submission book)).responses = matched.responses ∧
      ∃ updates, (finalState (submitBy submission book)).updates = matched.updates ++ updates ∧
        ∀ update ∈ updates, update.type = .add := by
  rw [run_submitBy]
  cases ran : matchSubmission submission book.nextMarketOrderId (book.accepting submission) with
  | ok leftQuantity middle =>
      rw [run_bind_of_ok ran]
      refine ⟨settle_messages.1, ?_⟩
      rcases settle_messages.2 with same | announced
      · exact ⟨[], same.trans (List.append_nil _).symm, by simp⟩
      · exact ⟨[_], announced, by simp [Submission.addUpdate]⟩
  | error fault middle =>
      rw [run_bind_of_error ran]
      exact ⟨rfl, [], (List.append_nil _).symm, by simp⟩

end QuantEngine.MEOrderBook
