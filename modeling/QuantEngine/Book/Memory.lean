import QuantEngine.MEOrderBook
import QuantEngine.Library.Exec
import QuantEngine.Pool.Scan

/-!
# Reading a rewritten book

What each elementary write leaves in every part of the book that the proofs
look at, and how each elementary access runs. Nothing after this module unfolds
the pools or the two maps.
-/

namespace QuantEngine

namespace MEOrderBook

/-- The data of an order block, whatever its links. -/
def orderData (book : MEOrderBook) (elem : ℕ) : RestingOrder := (book.order elem).toRestingOrder

def nextOrder (book : MEOrderBook) (elem : ℕ) : Pointer := (book.order elem).nextOrder

def prevOrder (book : MEOrderBook) (elem : ℕ) : Pointer := (book.order elem).prevOrder

def nextEntry (book : MEOrderBook) (elem : ℕ) : Pointer := (book.level elem).nextEntry

def prevEntry (book : MEOrderBook) (elem : ℕ) : Pointer := (book.level elem).prevEntry

def firstMeOrder (book : MEOrderBook) (elem : ℕ) : Pointer := (book.level elem).firstMeOrder

def levelSide (book : MEOrderBook) (elem : ℕ) : Side := (book.level elem).side

def levelPrice (book : MEOrderBook) (elem : ℕ) : Price := (book.level elem).price

def OrderInUse (book : MEOrderBook) (elem : ℕ) : Prop := book.orderPool.InUse elem

def LevelInUse (book : MEOrderBook) (elem : ℕ) : Prop := book.ordersAtPricePool.InUse elem

instance (book : MEOrderBook) (elem : ℕ) : Decidable (book.OrderInUse elem) :=
  inferInstanceAs (Decidable (book.orderPool.InUse elem))

instance (book : MEOrderBook) (elem : ℕ) : Decidable (book.LevelInUse elem) :=
  inferInstanceAs (Decidable (book.ordersAtPricePool.InUse elem))

def freeOrder (book : MEOrderBook) (elem : ℕ) : MEOrderBook :=
  { book with
    orderPool := book.orderPool.setBlock elem { book.orderPool.store elem with isFree := true } }

def freeLevel (book : MEOrderBook) (elem : ℕ) : MEOrderBook :=
  { book with
    ordersAtPricePool := book.ordersAtPricePool.setBlock elem
      { book.ordersAtPricePool.store elem with isFree := true } }

/-- The part of a book that is not memory: its messages and counters. -/
structure Session where
  tickerId : TickerId
  clientResponse : MEClientResponse
  marketUpdate : MEMarketUpdate
  nextMarketOrderId : OrderId
  responses : List MEClientResponse
  updates : List MEMarketUpdate

def session (book : MEOrderBook) : Session where
  tickerId := book.tickerId
  clientResponse := book.clientResponse
  marketUpdate := book.marketUpdate
  nextMarketOrderId := book.nextMarketOrderId
  responses := book.responses
  updates := book.updates

/-- Everything of a book but the contents of its memory: what no link surgery touches. -/
structure Outside where
  session : Session
  orderCapacity : ℕ
  orderCursor : ℕ
  levelCapacity : ℕ
  levelCursor : ℕ

def outside (book : MEOrderBook) : Outside where
  session := book.session
  orderCapacity := book.orderPool.numElems
  orderCursor := book.orderPool.nextFreeIndex
  levelCapacity := book.ordersAtPricePool.numElems
  levelCursor := book.ordersAtPricePool.nextFreeIndex

section Writes

variable (book : MEOrderBook) (elem other : ℕ) (change : MEOrder → MEOrder)
  (changeLevel : MEOrdersAtPrice → MEOrdersAtPrice) (side : Side) (pointer : Pointer)
  (clientId : ClientId) (orderId : OrderId) (index : ℕ)

theorem order_setOrder :
    (book.setOrder elem change).order other =
      if other = elem then change (book.order elem) else book.order other := by
  by_cases same : other = elem
  · subst same
    simp [setOrder, order, MemPool.modifyObject, MemPool.setBlock]
  · simp [setOrder, order, MemPool.modifyObject, MemPool.setBlock, same]

@[simp] theorem level_setOrder : (book.setOrder elem change).level = book.level := rfl

@[simp] theorem cidOidToOrder_setOrder :
    (book.setOrder elem change).cidOidToOrder = book.cidOidToOrder := rfl

@[simp] theorem priceOrdersAtPrice_setOrder :
    (book.setOrder elem change).priceOrdersAtPrice = book.priceOrdersAtPrice := rfl

@[simp] theorem asksByPrice_setOrder :
    (book.setOrder elem change).asksByPrice = book.asksByPrice := rfl

@[simp] theorem bidsByPrice_setOrder :
    (book.setOrder elem change).bidsByPrice = book.bidsByPrice := rfl

@[simp] theorem outside_setOrder : (book.setOrder elem change).outside = book.outside := rfl

@[simp] theorem levelInUse_setOrder :
    (book.setOrder elem change).LevelInUse = book.LevelInUse := rfl

@[simp] theorem orderInUse_setOrder :
    (book.setOrder elem change).OrderInUse = book.OrderInUse := by
  funext other
  by_cases same : other = elem
  · subst same
    simp [OrderInUse, MemPool.InUse, setOrder, MemPool.modifyObject, MemPool.setBlock]
  · simp [OrderInUse, MemPool.InUse, setOrder, MemPool.modifyObject, MemPool.setBlock, same]

@[simp] theorem orderPool_numElems_setOrder :
    (book.setOrder elem change).orderPool.numElems = book.orderPool.numElems := rfl

@[simp] theorem ordersAtPricePool_setOrder :
    (book.setOrder elem change).ordersAtPricePool = book.ordersAtPricePool := rfl

theorem level_setLevel :
    (book.setLevel elem changeLevel).level other =
      if other = elem then changeLevel (book.level elem) else book.level other := by
  by_cases same : other = elem
  · subst same
    simp [setLevel, level, MemPool.modifyObject, MemPool.setBlock]
  · simp [setLevel, level, MemPool.modifyObject, MemPool.setBlock, same]

@[simp] theorem order_setLevel : (book.setLevel elem changeLevel).order = book.order := rfl

@[simp] theorem cidOidToOrder_setLevel :
    (book.setLevel elem changeLevel).cidOidToOrder = book.cidOidToOrder := rfl

@[simp] theorem priceOrdersAtPrice_setLevel :
    (book.setLevel elem changeLevel).priceOrdersAtPrice = book.priceOrdersAtPrice := rfl

@[simp] theorem asksByPrice_setLevel :
    (book.setLevel elem changeLevel).asksByPrice = book.asksByPrice := rfl

@[simp] theorem bidsByPrice_setLevel :
    (book.setLevel elem changeLevel).bidsByPrice = book.bidsByPrice := rfl

@[simp] theorem outside_setLevel : (book.setLevel elem changeLevel).outside = book.outside := rfl

@[simp] theorem orderInUse_setLevel :
    (book.setLevel elem changeLevel).OrderInUse = book.OrderInUse := rfl

@[simp] theorem levelInUse_setLevel :
    (book.setLevel elem changeLevel).LevelInUse = book.LevelInUse := by
  funext other
  by_cases same : other = elem
  · subst same
    simp [LevelInUse, MemPool.InUse, setLevel, MemPool.modifyObject, MemPool.setBlock]
  · simp [LevelInUse, MemPool.InUse, setLevel, MemPool.modifyObject, MemPool.setBlock, same]

@[simp] theorem ordersAtPricePool_numElems_setLevel :
    (book.setLevel elem changeLevel).ordersAtPricePool.numElems =
      book.ordersAtPricePool.numElems := rfl

@[simp] theorem orderPool_setLevel :
    (book.setLevel elem changeLevel).orderPool = book.orderPool := rfl

theorem cidOidToOrder_setKey (otherClient : ClientId) (otherOrder : OrderId) :
    (book.setKey clientId orderId pointer).cidOidToOrder otherClient otherOrder =
      if otherClient = clientId ∧ otherOrder = orderId then pointer
      else book.cidOidToOrder otherClient otherOrder := by
  by_cases sameClient : otherClient = clientId
  · subst sameClient
    by_cases sameOrder : otherOrder = orderId
    · subst sameOrder
      simp [setKey]
    · simp [setKey, sameOrder]
  · simp [setKey, sameClient]

@[simp] theorem order_setKey : (book.setKey clientId orderId pointer).order = book.order := rfl

@[simp] theorem level_setKey : (book.setKey clientId orderId pointer).level = book.level := rfl

@[simp] theorem priceOrdersAtPrice_setKey :
    (book.setKey clientId orderId pointer).priceOrdersAtPrice = book.priceOrdersAtPrice := rfl

@[simp] theorem asksByPrice_setKey :
    (book.setKey clientId orderId pointer).asksByPrice = book.asksByPrice := rfl

@[simp] theorem bidsByPrice_setKey :
    (book.setKey clientId orderId pointer).bidsByPrice = book.bidsByPrice := rfl

@[simp] theorem outside_setKey :
    (book.setKey clientId orderId pointer).outside = book.outside := rfl

@[simp] theorem orderPool_setKey :
    (book.setKey clientId orderId pointer).orderPool = book.orderPool := rfl

@[simp] theorem ordersAtPricePool_setKey :
    (book.setKey clientId orderId pointer).ordersAtPricePool = book.ordersAtPricePool := rfl

@[simp] theorem orderInUse_setKey :
    (book.setKey clientId orderId pointer).OrderInUse = book.OrderInUse := rfl

@[simp] theorem levelInUse_setKey :
    (book.setKey clientId orderId pointer).LevelInUse = book.LevelInUse := rfl

theorem priceOrdersAtPrice_setSlot (otherIndex : ℕ) :
    (book.setSlot index pointer).priceOrdersAtPrice otherIndex =
      if otherIndex = index then pointer else book.priceOrdersAtPrice otherIndex := by
  simp [setSlot, Function.update_apply]

@[simp] theorem order_setSlot : (book.setSlot index pointer).order = book.order := rfl

@[simp] theorem level_setSlot : (book.setSlot index pointer).level = book.level := rfl

@[simp] theorem cidOidToOrder_setSlot :
    (book.setSlot index pointer).cidOidToOrder = book.cidOidToOrder := rfl

@[simp] theorem asksByPrice_setSlot :
    (book.setSlot index pointer).asksByPrice = book.asksByPrice := rfl

@[simp] theorem bidsByPrice_setSlot :
    (book.setSlot index pointer).bidsByPrice = book.bidsByPrice := rfl

@[simp] theorem outside_setSlot : (book.setSlot index pointer).outside = book.outside := rfl

@[simp] theorem orderPool_setSlot : (book.setSlot index pointer).orderPool = book.orderPool := rfl

@[simp] theorem ordersAtPricePool_setSlot :
    (book.setSlot index pointer).ordersAtPricePool = book.ordersAtPricePool := rfl

@[simp] theorem orderInUse_setSlot :
    (book.setSlot index pointer).OrderInUse = book.OrderInUse := rfl

@[simp] theorem levelInUse_setSlot :
    (book.setSlot index pointer).LevelInUse = book.LevelInUse := rfl

@[simp] theorem asksByPrice_setRemovalHead :
    (book.setRemovalHead side pointer).asksByPrice =
      if side = .buy then book.asksByPrice else pointer := by
  unfold setRemovalHead
  split <;> rfl

@[simp] theorem bidsByPrice_setRemovalHead :
    (book.setRemovalHead side pointer).bidsByPrice =
      if side = .buy then pointer else book.bidsByPrice := by
  unfold setRemovalHead
  split <;> rfl

@[simp] theorem order_setRemovalHead : (book.setRemovalHead side pointer).order = book.order := by
  unfold setRemovalHead
  split <;> rfl

@[simp] theorem level_setRemovalHead : (book.setRemovalHead side pointer).level = book.level := by
  unfold setRemovalHead
  split <;> rfl

@[simp] theorem cidOidToOrder_setRemovalHead :
    (book.setRemovalHead side pointer).cidOidToOrder = book.cidOidToOrder := by
  unfold setRemovalHead
  split <;> rfl

@[simp] theorem priceOrdersAtPrice_setRemovalHead :
    (book.setRemovalHead side pointer).priceOrdersAtPrice = book.priceOrdersAtPrice := by
  unfold setRemovalHead
  split <;> rfl

@[simp] theorem outside_setRemovalHead :
    (book.setRemovalHead side pointer).outside = book.outside := by
  unfold setRemovalHead
  split <;> rfl

@[simp] theorem orderPool_setRemovalHead :
    (book.setRemovalHead side pointer).orderPool = book.orderPool := by
  unfold setRemovalHead
  split <;> rfl

@[simp] theorem ordersAtPricePool_setRemovalHead :
    (book.setRemovalHead side pointer).ordersAtPricePool = book.ordersAtPricePool := by
  unfold setRemovalHead
  split <;> rfl

@[simp] theorem orderInUse_setRemovalHead :
    (book.setRemovalHead side pointer).OrderInUse = book.OrderInUse := by
  simp [OrderInUse, funext_iff]

@[simp] theorem levelInUse_setRemovalHead :
    (book.setRemovalHead side pointer).LevelInUse = book.LevelInUse := by
  simp [LevelInUse, funext_iff]

@[simp] theorem asksByPrice_setInsertionHead :
    (book.setInsertionHead side pointer).asksByPrice =
      if side = .buy then pointer else book.asksByPrice := by
  unfold setInsertionHead
  split <;> rfl

@[simp] theorem bidsByPrice_setInsertionHead :
    (book.setInsertionHead side pointer).bidsByPrice =
      if side = .buy then book.bidsByPrice else pointer := by
  unfold setInsertionHead
  split <;> rfl

@[simp] theorem order_setInsertionHead :
    (book.setInsertionHead side pointer).order = book.order := by
  unfold setInsertionHead
  split <;> rfl

@[simp] theorem level_setInsertionHead :
    (book.setInsertionHead side pointer).level = book.level := by
  unfold setInsertionHead
  split <;> rfl

@[simp] theorem cidOidToOrder_setInsertionHead :
    (book.setInsertionHead side pointer).cidOidToOrder = book.cidOidToOrder := by
  unfold setInsertionHead
  split <;> rfl

@[simp] theorem priceOrdersAtPrice_setInsertionHead :
    (book.setInsertionHead side pointer).priceOrdersAtPrice = book.priceOrdersAtPrice := by
  unfold setInsertionHead
  split <;> rfl

@[simp] theorem outside_setInsertionHead :
    (book.setInsertionHead side pointer).outside = book.outside := by
  unfold setInsertionHead
  split <;> rfl

@[simp] theorem orderPool_setInsertionHead :
    (book.setInsertionHead side pointer).orderPool = book.orderPool := by
  unfold setInsertionHead
  split <;> rfl

@[simp] theorem ordersAtPricePool_setInsertionHead :
    (book.setInsertionHead side pointer).ordersAtPricePool = book.ordersAtPricePool := by
  unfold setInsertionHead
  split <;> rfl

@[simp] theorem orderInUse_setInsertionHead :
    (book.setInsertionHead side pointer).OrderInUse = book.OrderInUse := by
  simp [OrderInUse, funext_iff]

@[simp] theorem levelInUse_setInsertionHead :
    (book.setInsertionHead side pointer).LevelInUse = book.LevelInUse := by
  simp [LevelInUse, funext_iff]

@[simp] theorem order_freeOrder : (book.freeOrder elem).order = book.order := by
  funext other
  by_cases same : other = elem
  · subst same
    simp [freeOrder, order, MemPool.setBlock]
  · simp [freeOrder, order, MemPool.setBlock, same]

theorem orderInUse_freeOrder :
    (book.freeOrder elem).OrderInUse other ↔ book.OrderInUse other ∧ other ≠ elem := by
  by_cases same : other = elem
  · subst same
    simp [freeOrder, OrderInUse, MemPool.InUse, MemPool.setBlock]
  · simp [freeOrder, OrderInUse, MemPool.InUse, MemPool.setBlock, same]

@[simp] theorem level_freeOrder : (book.freeOrder elem).level = book.level := rfl

@[simp] theorem cidOidToOrder_freeOrder :
    (book.freeOrder elem).cidOidToOrder = book.cidOidToOrder := rfl

@[simp] theorem priceOrdersAtPrice_freeOrder :
    (book.freeOrder elem).priceOrdersAtPrice = book.priceOrdersAtPrice := rfl

@[simp] theorem asksByPrice_freeOrder : (book.freeOrder elem).asksByPrice = book.asksByPrice := rfl

@[simp] theorem bidsByPrice_freeOrder : (book.freeOrder elem).bidsByPrice = book.bidsByPrice := rfl

@[simp] theorem outside_freeOrder : (book.freeOrder elem).outside = book.outside := rfl

@[simp] theorem levelInUse_freeOrder :
    (book.freeOrder elem).LevelInUse = book.LevelInUse := rfl

@[simp] theorem orderPool_numElems_freeOrder :
    (book.freeOrder elem).orderPool.numElems = book.orderPool.numElems := rfl

@[simp] theorem ordersAtPricePool_freeOrder :
    (book.freeOrder elem).ordersAtPricePool = book.ordersAtPricePool := rfl

@[simp] theorem level_freeLevel : (book.freeLevel elem).level = book.level := by
  funext other
  by_cases same : other = elem
  · subst same
    simp [freeLevel, level, MemPool.setBlock]
  · simp [freeLevel, level, MemPool.setBlock, same]

theorem levelInUse_freeLevel :
    (book.freeLevel elem).LevelInUse other ↔ book.LevelInUse other ∧ other ≠ elem := by
  by_cases same : other = elem
  · subst same
    simp [freeLevel, LevelInUse, MemPool.InUse, MemPool.setBlock]
  · simp [freeLevel, LevelInUse, MemPool.InUse, MemPool.setBlock, same]

@[simp] theorem order_freeLevel : (book.freeLevel elem).order = book.order := rfl

@[simp] theorem cidOidToOrder_freeLevel :
    (book.freeLevel elem).cidOidToOrder = book.cidOidToOrder := rfl

@[simp] theorem priceOrdersAtPrice_freeLevel :
    (book.freeLevel elem).priceOrdersAtPrice = book.priceOrdersAtPrice := rfl

@[simp] theorem asksByPrice_freeLevel : (book.freeLevel elem).asksByPrice = book.asksByPrice := rfl

@[simp] theorem bidsByPrice_freeLevel : (book.freeLevel elem).bidsByPrice = book.bidsByPrice := rfl

@[simp] theorem outside_freeLevel : (book.freeLevel elem).outside = book.outside := rfl

@[simp] theorem orderInUse_freeLevel :
    (book.freeLevel elem).OrderInUse = book.OrderInUse := rfl

@[simp] theorem orderPool_freeLevel : (book.freeLevel elem).orderPool = book.orderPool := rfl

@[simp] theorem ordersAtPricePool_numElems_freeLevel :
    (book.freeLevel elem).ordersAtPricePool.numElems = book.ordersAtPricePool.numElems := rfl

end Writes

section Fields

variable {α : Type} {book : MEOrderBook} {elem other : ℕ} {change : MEOrder → MEOrder}
  {changeLevel : MEOrdersAtPrice → MEOrdersAtPrice}

/-- A field that a store keeps is the same in every block. -/
theorem field_setOrder (field : MEOrder → α) (kept : ∀ o, field (change o) = field o) :
    field ((book.setOrder elem change).order other) = field (book.order other) := by
  rw [order_setOrder]
  split
  case isTrue same => rw [kept, same]
  case isFalse => rfl

theorem field_setLevel (field : MEOrdersAtPrice → α)
    (kept : ∀ level, field (changeLevel level) = field level) :
    field ((book.setLevel elem changeLevel).level other) = field (book.level other) := by
  rw [level_setLevel]
  split
  case isTrue same => rw [kept, same]
  case isFalse => rfl

/-- The store rewrites the links of an order block and nothing else of it. -/
def OrderLinksOnly (change : MEOrder → MEOrder) : Prop :=
  ∀ o, (change o).toRestingOrder = o.toRestingOrder

theorem OrderLinksOnly.orderData (linksOnly : OrderLinksOnly change) :
    (book.setOrder elem change).orderData = book.orderData :=
  funext fun _ => field_setOrder MEOrder.toRestingOrder linksOnly

/-- The store rewrites the links of a level block and nothing else of it. -/
structure LevelLinksOnly (changeLevel : MEOrdersAtPrice → MEOrdersAtPrice) : Prop where
  side : ∀ level, (changeLevel level).side = level.side
  price : ∀ level, (changeLevel level).price = level.price
  firstMeOrder : ∀ level, (changeLevel level).firstMeOrder = level.firstMeOrder

theorem LevelLinksOnly.levelSide (linksOnly : LevelLinksOnly changeLevel) :
    (book.setLevel elem changeLevel).levelSide = book.levelSide :=
  funext fun _ => field_setLevel MEOrdersAtPrice.side linksOnly.side

theorem LevelLinksOnly.levelPrice (linksOnly : LevelLinksOnly changeLevel) :
    (book.setLevel elem changeLevel).levelPrice = book.levelPrice :=
  funext fun _ => field_setLevel MEOrdersAtPrice.price linksOnly.price

theorem LevelLinksOnly.firstOrders (linksOnly : LevelLinksOnly changeLevel) :
    (book.setLevel elem changeLevel).firstMeOrder = book.firstMeOrder :=
  funext fun _ => field_setLevel MEOrdersAtPrice.firstMeOrder linksOnly.firstMeOrder

end Fields

section Views

variable {book last : MEOrderBook}

theorem orderViews_eq (same : last.order = book.order) :
    last.orderData = book.orderData ∧ last.nextOrder = book.nextOrder ∧
      last.prevOrder = book.prevOrder := by
  refine ⟨funext fun elem => ?_, funext fun elem => ?_, funext fun elem => ?_⟩
  · rw [orderData, same, orderData]
  · rw [nextOrder, same, nextOrder]
  · rw [prevOrder, same, prevOrder]

theorem levelViews_eq (same : last.level = book.level) :
    last.levelSide = book.levelSide ∧ last.levelPrice = book.levelPrice ∧
      last.firstMeOrder = book.firstMeOrder ∧ last.nextEntry = book.nextEntry ∧
      last.prevEntry = book.prevEntry := by
  refine ⟨funext fun elem => ?_, funext fun elem => ?_, funext fun elem => ?_,
    funext fun elem => ?_, funext fun elem => ?_⟩
  · rw [levelSide, same, levelSide]
  · rw [levelPrice, same, levelPrice]
  · rw [firstMeOrder, same, firstMeOrder]
  · rw [nextEntry, same, nextEntry]
  · rw [prevEntry, same, prevEntry]

variable {elem atPrice : ℕ}

theorem order_ext (data : last.orderData elem = book.orderData elem)
    (next : last.nextOrder elem = book.nextOrder elem)
    (prev : last.prevOrder elem = book.prevOrder elem) : last.order elem = book.order elem := by
  simp only [orderData, nextOrder, prevOrder] at data next prev
  cases lastOrder : last.order elem
  cases bookOrder : book.order elem
  simp_all

theorem level_ext (side : last.levelSide atPrice = book.levelSide atPrice)
    (price : last.levelPrice atPrice = book.levelPrice atPrice)
    (first : last.firstMeOrder atPrice = book.firstMeOrder atPrice)
    (next : last.nextEntry atPrice = book.nextEntry atPrice)
    (prev : last.prevEntry atPrice = book.prevEntry atPrice) :
    last.level atPrice = book.level atPrice := by
  simp only [levelSide, levelPrice, firstMeOrder, nextEntry, prevEntry] at side price first next prev
  cases lastLevel : last.level atPrice
  cases bookLevel : book.level atPrice
  simp_all

end Views

section Accesses

open Exec

variable {α : Type} {book last : MEOrderBook} {pointer : Pointer} {elem : ℕ} {entry : MEOrder}
  {atPrice : MEOrdersAtPrice} {change : MEOrder → MEOrder}
  {changeLevel : MEOrdersAtPrice → MEOrdersAtPrice} {price : Price}
  {clientId : ClientId} {orderId : OrderId} {result : Pointer} {done : PUnit}

theorem run_loadOrder (bound : elem < book.orderPool.numElems) :
    loadOrder (some elem) book = .ok (book.order elem) book := by
  simp [loadOrder, bound]

theorem run_loadOrder_bind {next : MEOrder → BookM α} (bound : elem < book.orderPool.numElems) :
    (loadOrder (some elem) >>= next) book = next (book.order elem) book :=
  run_bind_of_ok (run_loadOrder bound)

theorem run_storeOrder (bound : elem < book.orderPool.numElems) :
    storeOrder (some elem) change book = .ok ⟨⟩ (book.setOrder elem change) := by
  simp [storeOrder, bound]

theorem run_storeOrder_bind {next : PUnit → BookM α} (bound : elem < book.orderPool.numElems) :
    (storeOrder (some elem) change >>= next) book = next ⟨⟩ (book.setOrder elem change) :=
  run_bind_of_ok (run_storeOrder bound)

theorem run_loadLevel (bound : elem < book.ordersAtPricePool.numElems) :
    loadLevel (some elem) book = .ok (book.level elem) book := by
  simp [loadLevel, bound]

theorem run_loadLevel_bind {next : MEOrdersAtPrice → BookM α}
    (bound : elem < book.ordersAtPricePool.numElems) :
    (loadLevel (some elem) >>= next) book = next (book.level elem) book :=
  run_bind_of_ok (run_loadLevel bound)

theorem run_storeLevel (bound : elem < book.ordersAtPricePool.numElems) :
    storeLevel (some elem) changeLevel book = .ok ⟨⟩ (book.setLevel elem changeLevel) := by
  simp [storeLevel, bound]

theorem run_storeLevel_bind {next : PUnit → BookM α}
    (bound : elem < book.ordersAtPricePool.numElems) :
    (storeLevel (some elem) changeLevel >>= next) book =
      next ⟨⟩ (book.setLevel elem changeLevel) :=
  run_bind_of_ok (run_storeLevel bound)

theorem run_storeKey_bind {next : PUnit → BookM α} (range : KeyInRange clientId orderId) :
    (storeKey clientId orderId pointer >>= next) book =
      next ⟨⟩ (book.setKey clientId orderId pointer) :=
  run_bind_of_ok (by simp [storeKey, range])

@[simp]
theorem run_getOrdersAtPrice_bind {next : Pointer → BookM α} :
    (getOrdersAtPrice price >>= next) book =
      next (book.priceOrdersAtPrice (priceToIndex price)) book := rfl

theorem loadOrder_eq_ok_iff :
    loadOrder pointer book = .ok entry last ↔
      ∃ elem, pointer = some elem ∧ elem < book.orderPool.numElems ∧ book.order elem = entry ∧
        book = last := by
  cases pointer with
  | none => simp [loadOrder]
  | some elem =>
      by_cases bound : elem < book.orderPool.numElems <;> simp [loadOrder, bound]

theorem storeOrder_eq_ok_iff :
    storeOrder pointer change book = .ok done last ↔
      ∃ elem, pointer = some elem ∧ elem < book.orderPool.numElems ∧
        book.setOrder elem change = last := by
  cases pointer with
  | none => simp [storeOrder]
  | some elem =>
      by_cases bound : elem < book.orderPool.numElems <;> simp [storeOrder, bound]

theorem loadLevel_eq_ok_iff :
    loadLevel pointer book = .ok atPrice last ↔
      ∃ elem, pointer = some elem ∧ elem < book.ordersAtPricePool.numElems ∧
        book.level elem = atPrice ∧ book = last := by
  cases pointer with
  | none => simp [loadLevel]
  | some elem =>
      by_cases bound : elem < book.ordersAtPricePool.numElems <;> simp [loadLevel, bound]

theorem storeLevel_eq_ok_iff :
    storeLevel pointer changeLevel book = .ok done last ↔
      ∃ elem, pointer = some elem ∧ elem < book.ordersAtPricePool.numElems ∧
        book.setLevel elem changeLevel = last := by
  cases pointer with
  | none => simp [storeLevel]
  | some elem =>
      by_cases bound : elem < book.ordersAtPricePool.numElems <;> simp [storeLevel, bound]

theorem storeKey_eq_ok_iff :
    storeKey clientId orderId pointer book = .ok done last ↔
      KeyInRange clientId orderId ∧ book.setKey clientId orderId pointer = last := by
  by_cases range : KeyInRange clientId orderId <;> simp [storeKey, range]

theorem deallocateOrder_eq_ok_iff :
    deallocateOrder pointer book = .ok done last ↔
      ∃ elem, pointer = some elem ∧ book.OrderInUse elem ∧ book.freeOrder elem = last := by
  cases pointer with
  | none => simp [deallocateOrder]
  | some elem =>
      simp only [deallocateOrder, run_get_bind, Option.some.injEq, exists_eq_left']
      cases ran : book.orderPool.deallocate elem with
      | ok pool =>
          rcases MemPool.inUse_of_deallocate ran with ⟨inUse, rfl⟩
          simp [OrderInUse, inUse, freeOrder]
      | error fault =>
          have notInUse : ¬book.OrderInUse elem := by
            intro inUse
            rw [MemPool.deallocate_eq_ok inUse] at ran
            cases ran
          simp [notInUse]

theorem deallocateLevel_eq_ok_iff :
    deallocateLevel pointer book = .ok done last ↔
      ∃ elem, pointer = some elem ∧ book.LevelInUse elem ∧ book.freeLevel elem = last := by
  cases pointer with
  | none => simp [deallocateLevel]
  | some elem =>
      simp only [deallocateLevel, run_get_bind, Option.some.injEq, exists_eq_left']
      cases ran : book.ordersAtPricePool.deallocate elem with
      | ok pool =>
          rcases MemPool.inUse_of_deallocate ran with ⟨inUse, rfl⟩
          simp [LevelInUse, inUse, freeLevel]
      | error fault =>
          have notInUse : ¬book.LevelInUse elem := by
            intro inUse
            rw [MemPool.deallocate_eq_ok inUse] at ran
            cases ran
          simp [notInUse]

end Accesses

end MEOrderBook

end QuantEngine
