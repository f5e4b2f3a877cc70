import QuantEngine.MemPool

/-!
# The order book

The model of `me_order.h` and of `MEOrderBook`. A pointer is null or the index
of a pool block; the pools keep freed objects, so following a stale pointer
reads what the block held last. Every dereference of a null pointer and every
access outside an array or a pool stops the run with a `Fault`.

`matchingEngine->sendClientResponse` and `sendMarketUpdate` append to the two
lists `responses` and `updates`, the streams handed to the outgoing queues.
-/

namespace QuantEngine

/-- A pointer into one of the book's pools. -/
abbrev Pointer := Option ℕ

/-- The data fields of an `MEOrder`, without its links. -/
structure RestingOrder where
  tickerId : TickerId := tickerIdInvalid
  clientId : ClientId := clientIdInvalid
  clientOrderId : OrderId := orderIdInvalid
  marketOrderId : OrderId := orderIdInvalid
  side : Side := .invalid
  price : Price := priceInvalid
  quantity : Quantity := quantityInvalid
  priority : Priority := priorityInvalid
  deriving DecidableEq, Repr

structure MEOrder extends RestingOrder where
  prevOrder : Pointer := none
  nextOrder : Pointer := none
  deriving DecidableEq, Repr

instance : Inhabited MEOrder := ⟨{}⟩

structure MEOrdersAtPrice where
  side : Side := .invalid
  price : Price := priceInvalid
  firstMeOrder : Pointer := none
  prevEntry : Pointer := none
  nextEntry : Pointer := none
  deriving DecidableEq, Repr

instance : Inhabited MEOrdersAtPrice := ⟨{}⟩

structure MEOrderBook where
  tickerId : TickerId := tickerIdInvalid
  cidOidToOrder : ClientId → OrderId → Pointer
  ordersAtPricePool : MemPool MEOrdersAtPrice
  bidsByPrice : Pointer := none
  asksByPrice : Pointer := none
  priceOrdersAtPrice : ℕ → Pointer
  orderPool : MemPool MEOrder
  clientResponse : MEClientResponse := {}
  marketUpdate : MEMarketUpdate := {}
  nextMarketOrderId : OrderId := 1
  responses : List MEClientResponse := []
  updates : List MEMarketUpdate := []

/-- Code that runs on a book; a fault keeps the book as it was when the code stopped. -/
abbrev BookM := EStateM Fault MEOrderBook

namespace MEOrderBook

def order (book : MEOrderBook) (elem : ℕ) : MEOrder := (book.orderPool.store elem).object

def level (book : MEOrderBook) (elem : ℕ) : MEOrdersAtPrice :=
  (book.ordersAtPricePool.store elem).object

def setOrder (book : MEOrderBook) (elem : ℕ) (change : MEOrder → MEOrder) : MEOrderBook :=
  { book with orderPool := book.orderPool.modifyObject elem change }

def setLevel (book : MEOrderBook) (elem : ℕ) (change : MEOrdersAtPrice → MEOrdersAtPrice) :
    MEOrderBook :=
  { book with ordersAtPricePool := book.ordersAtPricePool.modifyObject elem change }

/-- Reads `*pointer`. -/
def loadOrder : Pointer → BookM MEOrder
  | none => throw .nullPointer
  | some elem => do
      let book ← get
      if elem < book.orderPool.numElems then pure (book.order elem) else throw .wildPointer

/-- Writes fields of `*pointer`. -/
def storeOrder (pointer : Pointer) (change : MEOrder → MEOrder) : BookM Unit :=
  match pointer with
  | none => throw .nullPointer
  | some elem => do
      let book ← get
      if elem < book.orderPool.numElems then set (book.setOrder elem change)
      else throw .wildPointer

def loadLevel : Pointer → BookM MEOrdersAtPrice
  | none => throw .nullPointer
  | some elem => do
      let book ← get
      if elem < book.ordersAtPricePool.numElems then pure (book.level elem)
      else throw .wildPointer

def storeLevel (pointer : Pointer) (change : MEOrdersAtPrice → MEOrdersAtPrice) : BookM Unit :=
  match pointer with
  | none => throw .nullPointer
  | some elem => do
      let book ← get
      if elem < book.ordersAtPricePool.numElems then set (book.setLevel elem change)
      else throw .wildPointer

/-- `order_pool_.allocate(..)`. -/
def allocateOrder (value : MEOrder) : BookM Pointer := do
  let book ← get
  match book.orderPool.allocate value with
  | .ok (elem, pool) => do
      set { book with orderPool := pool }
      pure (some elem)
  | .error fault => throw fault

/-- `orders_at_price_pool_.allocate(..)`. -/
def allocateLevel (value : MEOrdersAtPrice) : BookM Pointer := do
  let book ← get
  match book.ordersAtPricePool.allocate value with
  | .ok (elem, pool) => do
      set { book with ordersAtPricePool := pool }
      pure (some elem)
  | .error fault => throw fault

/-- `order_pool_.deallocate(..)`. -/
def deallocateOrder : Pointer → BookM Unit
  | none => throw (.assertFailed "Deallocate element does not belong to the MemPool")
  | some elem => do
      let book ← get
      match book.orderPool.deallocate elem with
      | .ok pool => set { book with orderPool := pool }
      | .error fault => throw fault

/-- `orders_at_price_pool_.deallocate(..)`. -/
def deallocateLevel : Pointer → BookM Unit
  | none => throw (.assertFailed "Deallocate element does not belong to the MemPool")
  | some elem => do
      let book ← get
      match book.ordersAtPricePool.deallocate elem with
      | .ok pool => set { book with ordersAtPricePool := pool }
      | .error fault => throw fault

/-- The ids are inside the bounds of the two-level key map. -/
def KeyInRange (clientId : ClientId) (orderId : OrderId) : Prop :=
  clientId.toNat < meMaxNumClients ∧ orderId.toNat < meMaxOrderIds

instance (clientId : ClientId) (orderId : OrderId) : Decidable (KeyInRange clientId orderId) :=
  inferInstanceAs (Decidable (_ ∧ _))

/-- `cid_oid_to_order_` with one entry overwritten. -/
def setKey (book : MEOrderBook) (clientId : ClientId) (orderId : OrderId) (pointer : Pointer) :
    MEOrderBook :=
  { book with
    cidOidToOrder := Function.update book.cidOidToOrder clientId
      (Function.update (book.cidOidToOrder clientId) orderId pointer) }

def loadKey (clientId : ClientId) (orderId : OrderId) : BookM Pointer := do
  let book ← get
  if KeyInRange clientId orderId then pure (book.cidOidToOrder clientId orderId)
  else throw .outOfRange

def storeKey (clientId : ClientId) (orderId : OrderId) (pointer : Pointer) : BookM Unit := do
  let book ← get
  if KeyInRange clientId orderId then set (book.setKey clientId orderId pointer)
  else throw .outOfRange

def setSlot (book : MEOrderBook) (index : ℕ) (pointer : Pointer) : MEOrderBook :=
  { book with priceOrdersAtPrice := Function.update book.priceOrdersAtPrice index pointer }

/-- `side == Side::BUY ? asks_by_price_ : bids_by_price_`, as `addOrderAtPrice` has it. -/
def insertionHead (book : MEOrderBook) (side : Side) : Pointer :=
  if side = .buy then book.asksByPrice else book.bidsByPrice

def setInsertionHead (book : MEOrderBook) (side : Side) (pointer : Pointer) : MEOrderBook :=
  if side = .buy then { book with asksByPrice := pointer } else { book with bidsByPrice := pointer }

/-- `side == Side::BUY ? bids_by_price_ : asks_by_price_`, as `removeOrdersAtPrice` has it. -/
def removalHead (book : MEOrderBook) (side : Side) : Pointer :=
  if side = .buy then book.bidsByPrice else book.asksByPrice

def setRemovalHead (book : MEOrderBook) (side : Side) (pointer : Pointer) : MEOrderBook :=
  if side = .buy then { book with bidsByPrice := pointer } else { book with asksByPrice := pointer }

def sendClientResponse (response : MEClientResponse) : BookM Unit :=
  modify fun book => { book with responses := book.responses ++ [response] }

def sendMarketUpdate (update : MEMarketUpdate) : BookM Unit :=
  modify fun book => { book with updates := book.updates ++ [update] }

def generateNewMarketOrderId : BookM OrderId := do
  let book ← get
  set { book with nextMarketOrderId := book.nextMarketOrderId + 1 }
  pure book.nextMarketOrderId

/-- The price is converted to `size_t` before the reduction. -/
def priceToIndex (price : Price) : ℕ := ((price % 2 ^ 64) % meMaxPriceLevels).toNat

def getOrdersAtPrice (price : Price) : BookM Pointer := do
  let book ← get
  pure (book.priceOrdersAtPrice (priceToIndex price))

def getNextPriority (price : Price) : BookM Priority := do
  let orderAtPrice ← getOrdersAtPrice price
  let level ← loadLevel orderAtPrice
  if level.firstMeOrder = none then pure 1
  else
    let first ← loadOrder level.firstMeOrder
    let last ← loadOrder first.prevOrder
    pure last.priority

/-- The value of `add_after`; `target` is read only when the side is BUY or SELL. -/
def addAfterTest (side : Side) (price : Price) (target : Pointer) : BookM Bool :=
  match side with
  | .buy => do
      let level ← loadLevel target
      pure (price < level.price)
  | .sell => do
      let level ← loadLevel target
      pure (price > level.price)
  | .invalid => pure false

/-- The `while` loop of `addOrderAtPrice`, entered with `add_after` set: the inner `add_after`
is a new variable, so only reaching `best` again ends the loop. -/
def addOrderAtPriceLoop (side : Side) (price : Price) (best : Pointer) :
    ℕ → Pointer → BookM Pointer
  | 0, _ => throw .diverged
  | bound + 1, target =>
      if target = best then pure target
      else do
        let entry ← loadLevel target
        let _ ← addAfterTest side price entry.nextEntry
        addOrderAtPriceLoop side price best bound entry.nextEntry

def addOrderAtPrice (ordersAtPrice : Pointer) : BookM Unit := do
  let added ← loadLevel ordersAtPrice
  modify fun book => book.setSlot (priceToIndex added.price) ordersAtPrice
  let book ← get
  let best := book.insertionHead added.side
  if best = none then
    modify fun book => book.setInsertionHead added.side ordersAtPrice
    storeLevel ordersAtPrice fun level =>
      { level with prevEntry := ordersAtPrice, nextEntry := ordersAtPrice }
  else
    let addAfter ← addAfterTest added.side added.price best
    if addAfter then
      let bestLevel ← loadLevel best
      let _ ← addAfterTest added.side added.price bestLevel.nextEntry
      let target ← addOrderAtPriceLoop added.side added.price best
        (book.ordersAtPricePool.numElems + 1) bestLevel.nextEntry
      let target ← if target = best then do
          let level ← loadLevel target
          pure level.prevEntry
        else pure target
      let targetLevel ← loadLevel target
      storeLevel targetLevel.nextEntry fun level => { level with prevEntry := ordersAtPrice }
      let targetLevel ← loadLevel target
      storeLevel ordersAtPrice fun level => { level with nextEntry := targetLevel.nextEntry }
      storeLevel target fun level => { level with nextEntry := ordersAtPrice }
      storeLevel ordersAtPrice fun level => { level with prevEntry := target }
    else
      let target := best
      let targetLevel ← loadLevel target
      storeLevel targetLevel.prevEntry fun level => { level with nextEntry := ordersAtPrice }
      let targetLevel ← loadLevel target
      storeLevel ordersAtPrice fun level => { level with prevEntry := targetLevel.prevEntry }
      storeLevel ordersAtPrice fun level => { level with nextEntry := target }
      storeLevel target fun level => { level with prevEntry := ordersAtPrice }
      let bestLevel ← loadLevel best
      if added.side = .buy ∧ added.price > bestLevel.price then
        modify fun book => { book with asksByPrice := ordersAtPrice }
      if added.side = .sell ∧ added.price > bestLevel.price then
        modify fun book => { book with bidsByPrice := ordersAtPrice }

def removeOrdersAtPrice (side : Side) (price : Price) : BookM Unit := do
  let book ← get
  let bestOrdersByPrice := book.removalHead side
  let ordersAtPrice ← getOrdersAtPrice price
  let removed ← loadLevel ordersAtPrice
  if removed.nextEntry = ordersAtPrice then
    modify fun book => book.setRemovalHead side none
  else
    storeLevel removed.prevEntry fun level => { level with nextEntry := removed.nextEntry }
    let removed ← loadLevel ordersAtPrice
    storeLevel removed.nextEntry fun level => { level with prevEntry := removed.prevEntry }
    let removed ← loadLevel ordersAtPrice
    if ordersAtPrice = bestOrdersByPrice then
      modify fun book => book.setRemovalHead side removed.nextEntry
    storeLevel ordersAtPrice fun level => { level with prevEntry := none, nextEntry := none }
  modify fun book => book.setSlot (priceToIndex price) none
  deallocateLevel ordersAtPrice

def addOrder (order : Pointer) : BookM Unit := do
  let added ← loadOrder order
  let ordersAtPrice ← getOrdersAtPrice added.price
  if ordersAtPrice = none then
    storeOrder order fun o => { o with prevOrder := order, nextOrder := order }
    let newOrdersAtPrice ← allocateLevel
      { side := added.side, price := added.price, firstMeOrder := order }
    addOrderAtPrice newOrdersAtPrice
  else
    let level ← loadLevel ordersAtPrice
    let firstOrder := level.firstMeOrder
    let first ← loadOrder firstOrder
    storeOrder first.prevOrder fun o => { o with nextOrder := order }
    let first ← loadOrder firstOrder
    storeOrder order fun o => { o with prevOrder := first.prevOrder }
    storeOrder order fun o => { o with nextOrder := firstOrder }
    storeOrder firstOrder fun o => { o with prevOrder := order }
  let added ← loadOrder order
  storeKey added.clientId added.clientOrderId order

def removeOrder (order : Pointer) : BookM Unit := do
  let removed ← loadOrder order
  let ordersAtPrice ← getOrdersAtPrice removed.price
  if removed.prevOrder = order then
    removeOrdersAtPrice removed.side removed.price
  else
    let orderBefore := removed.prevOrder
    let orderAfter := removed.nextOrder
    storeOrder orderBefore fun o => { o with nextOrder := orderAfter }
    storeOrder orderAfter fun o => { o with prevOrder := orderBefore }
    let level ← loadLevel ordersAtPrice
    if level.firstMeOrder = order then
      storeLevel ordersAtPrice fun level => { level with firstMeOrder := orderAfter }
    storeOrder order fun o => { o with prevOrder := none, nextOrder := none }
  let removed ← loadOrder order
  storeKey removed.clientId removed.clientOrderId none
  deallocateOrder order

def cancel (clientId : ClientId) (orderId : OrderId) (tickerId : TickerId) : BookM Unit := do
  let exchangeOrder ← if clientId.toNat < meMaxNumClients then loadKey clientId orderId
    else pure none
  if exchangeOrder = none then
    modify fun book => { book with clientResponse := {
      type := .cancelRejected, clientId := clientId, tickerId := tickerId,
      clientOrderId := orderId, marketOrderId := orderIdInvalid, side := .invalid,
      price := priceInvalid, execQty := quantityInvalid, leftQty := quantityInvalid } }
  else
    let order ← loadOrder exchangeOrder
    modify fun book => { book with clientResponse := {
      type := .canceled, clientId := clientId, tickerId := tickerId,
      clientOrderId := orderId, marketOrderId := order.marketOrderId, side := order.side,
      price := order.price, execQty := quantityInvalid, leftQty := order.quantity } }
    modify fun book => { book with marketUpdate := {
      type := .cancel, orderId := order.marketOrderId, tickerId := tickerId,
      side := order.side, price := order.price, quantity := 0, priority := order.priority } }
    removeOrder exchangeOrder
    let book ← get
    sendMarketUpdate book.marketUpdate
  let book ← get
  sendClientResponse book.clientResponse

/-- `match`; the value of `*leaves_qty` on exit is returned. -/
def matchOrder (tickerId : TickerId) (clientId : ClientId) (side : Side)
    (clientOrderId newMarketOrderId : OrderId) (itr : Pointer) (leavesQty : Quantity) :
    BookM Quantity := do
  let order ← loadOrder itr
  let orderQty := order.quantity
  let fillQty := min leavesQty orderQty
  let leavesQty := leavesQty - fillQty
  storeOrder itr fun o => { o with quantity := o.quantity - fillQty }
  let order ← loadOrder itr
  modify fun book => { book with clientResponse := {
    type := .filled, clientId := clientId, tickerId := tickerId,
    clientOrderId := clientOrderId, marketOrderId := newMarketOrderId, side := side,
    price := order.price, execQty := fillQty, leftQty := leavesQty } }
  let book ← get
  sendClientResponse book.clientResponse
  modify fun book => { book with clientResponse := {
    type := .filled, clientId := order.clientId, tickerId := tickerId,
    clientOrderId := order.clientOrderId, marketOrderId := order.marketOrderId,
    side := order.side, price := order.price, execQty := fillQty, leftQty := order.quantity } }
  let book ← get
  sendClientResponse book.clientResponse
  modify fun book => { book with marketUpdate := {
    type := .trade, orderId := orderIdInvalid, tickerId := tickerId, side := side,
    price := order.price, quantity := fillQty, priority := priorityInvalid } }
  let book ← get
  sendMarketUpdate book.marketUpdate
  if order.quantity = 0 then
    modify fun book => { book with marketUpdate := {
      type := .cancel, orderId := order.marketOrderId, tickerId := tickerId,
      side := order.side, price := order.price, quantity := orderQty,
      priority := priorityInvalid } }
    let book ← get
    sendMarketUpdate book.marketUpdate
    removeOrder itr
  else
    modify fun book => { book with marketUpdate := {
      type := .modify, orderId := order.marketOrderId, tickerId := tickerId,
      side := order.side, price := order.price, quantity := order.quantity,
      priority := order.priority } }
    let book ← get
    sendMarketUpdate book.marketUpdate
  pure leavesQty

/-- One of the two loops of `checkForMatch`: `ladder` is the head pointer it reads and `beyond`
the test that breaks it. -/
def checkForMatchLoop (ladder : MEOrderBook → Pointer) (beyond : Price → Bool)
    (clientId : ClientId) (clientOrderId : OrderId) (tickerId : TickerId) (side : Side)
    (newMarketOrderId : OrderId) : ℕ → Quantity → BookM Quantity
  | 0, _ => throw .diverged
  | bound + 1, leavesQty => do
      let book ← get
      if leavesQty = 0 ∨ ladder book = none then pure leavesQty
      else
        let best ← loadLevel (ladder book)
        let itr := best.firstMeOrder
        let order ← loadOrder itr
        if beyond order.price then pure leavesQty
        else
          let leavesQty ← matchOrder tickerId clientId side clientOrderId newMarketOrderId itr
            leavesQty
          checkForMatchLoop ladder beyond clientId clientOrderId tickerId side newMarketOrderId
            bound leavesQty

/-- The seven-argument `checkForMatch`. Each turn of a loop ends it or frees an order block, so
two turns more than there are blocks are enough. -/
def checkForMatch (clientId : ClientId) (clientOrderId : OrderId) (tickerId : TickerId)
    (side : Side) (price : Price) (qty : Quantity) (newMarketOrderId : OrderId) :
    BookM Quantity := do
  let book ← get
  let bound := book.orderPool.numElems + 2
  let leavesQty ← if side = .buy then
      checkForMatchLoop asksByPrice (fun resting => price < resting) clientId clientOrderId
        tickerId side newMarketOrderId bound qty
    else pure qty
  if side = .sell then
    checkForMatchLoop bidsByPrice (fun resting => price > resting) clientId clientOrderId
      tickerId side newMarketOrderId bound leavesQty
  else pure leavesQty

/-- The step of `add` that rests the leftover: an order is allocated and linked. -/
def rest (clientId : ClientId) (orderId : OrderId) (tickerId : TickerId) (side : Side)
    (price : Price) (quantity : Quantity) (marketOrderId : OrderId) (priority : Priority) :
    BookM Unit := do
  let order ← allocateOrder {
    tickerId := tickerId, clientId := clientId, clientOrderId := orderId,
    marketOrderId := marketOrderId, side := side, price := price, quantity := quantity,
    priority := priority }
  addOrder order

/-- `add`, with its call `checkForMatch()` read as the seven-argument overload on the same
arguments and with the priority taken from `nextPriority`. -/
def addWith (nextPriority : Price → BookM Priority) (clientId : ClientId) (orderId : OrderId)
    (tickerId : TickerId) (side : Side) (price : Price) (qty : Quantity) : BookM Unit := do
  let newMarketOrderId ← generateNewMarketOrderId
  sendClientResponse {
    type := .accepted, clientId := clientId, tickerId := tickerId, clientOrderId := orderId,
    marketOrderId := newMarketOrderId, side := side, price := price, execQty := 0,
    leftQty := qty }
  let leftQuantity ← checkForMatch clientId orderId tickerId side price qty newMarketOrderId
  if leftQuantity ≠ 0 then
    let priority ← nextPriority price
    rest clientId orderId tickerId side price leftQuantity newMarketOrderId priority
    sendMarketUpdate {
      type := .add, orderId := newMarketOrderId, tickerId := tickerId, side := side,
      price := price, quantity := leftQuantity, priority := priority }

def add : ClientId → OrderId → TickerId → Side → Price → Quantity → BookM Unit :=
  addWith getNextPriority

/-- `add` with a given priority in place of the result of `getNextPriority`. -/
def submit (priority : Priority) :
    ClientId → OrderId → TickerId → Side → Price → Quantity → BookM Unit :=
  addWith fun _ => pure priority

/-- The constructor, run on storage that held `prior`: neither the initialiser list nor a default
member initialiser sets `cid_oid_to_order_` or `price_orders_at_price_`. -/
def construct (prior : MEOrderBook) (tickerId : TickerId) : MEOrderBook where
  tickerId := tickerId
  cidOidToOrder := prior.cidOidToOrder
  ordersAtPricePool := MemPool.new meMaxPriceLevels
  bidsByPrice := none
  asksByPrice := none
  priceOrdersAtPrice := prior.priceOrdersAtPrice
  orderPool := MemPool.new meMaxOrderIds

/-- The empty book: a constructed book whose two lookup maps are all null. -/
def empty (tickerId : TickerId) : MEOrderBook where
  tickerId := tickerId
  cidOidToOrder := fun _ _ => none
  ordersAtPricePool := MemPool.new meMaxPriceLevels
  priceOrdersAtPrice := fun _ => none
  orderPool := MemPool.new meMaxOrderIds

end MEOrderBook

end QuantEngine
