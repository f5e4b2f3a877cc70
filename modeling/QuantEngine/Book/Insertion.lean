import QuantEngine.Book.Directory

/-!
# What an insertion does

`addOrderAtPrice` rewires level links and head pointers and nothing else, on
any book. With that, resting an order extends the directory by one order: at
the end of the ring of its price's level, or as the only order of a new level.
-/

namespace QuantEngine.MEOrderBook

open Exec LinkedRing

variable {book last : MEOrderBook} {pointer : Pointer} {done : PUnit} {elem : ℕ}

/-- Only level links and head pointers differ. -/
structure SameButLinks (book last : MEOrderBook) : Prop where
  order : last.order = book.order
  cidOidToOrder : last.cidOidToOrder = book.cidOidToOrder
  priceOrdersAtPrice : last.priceOrdersAtPrice = book.priceOrdersAtPrice
  outside : last.outside = book.outside
  orderPool : last.orderPool = book.orderPool
  levelSide : last.levelSide = book.levelSide
  levelPrice : last.levelPrice = book.levelPrice
  firstMeOrder : last.firstMeOrder = book.firstMeOrder
  levelInUse : last.LevelInUse = book.LevelInUse

theorem SameButLinks.refl (book : MEOrderBook) : SameButLinks book book :=
  ⟨rfl, rfl, rfl, rfl, rfl, rfl, rfl, rfl, rfl⟩

theorem SameButLinks.trans {first second third : MEOrderBook} (front : SameButLinks first second)
    (back : SameButLinks second third) : SameButLinks first third :=
  ⟨back.order.trans front.order, back.cidOidToOrder.trans front.cidOidToOrder,
    back.priceOrdersAtPrice.trans front.priceOrdersAtPrice, back.outside.trans front.outside,
    back.orderPool.trans front.orderPool, back.levelSide.trans front.levelSide,
    back.levelPrice.trans front.levelPrice, back.firstMeOrder.trans front.firstMeOrder,
    back.levelInUse.trans front.levelInUse⟩

theorem keeps_loadLevel {relation : MEOrderBook → MEOrderBook → Prop}
    (refl : ∀ state, relation state state) : Keeps relation (loadLevel pointer) := by
  refine Keeps.of_unchanged refl fun state => ?_
  cases pointer with
  | none => rfl
  | some elem =>
      by_cases bound : elem < state.ordersAtPricePool.numElems <;> simp [loadLevel, bound]

theorem keeps_addAfterTest {relation : MEOrderBook → MEOrderBook → Prop} {side : Side}
    {price : Price} (refl : ∀ state, relation state state)
    (trans : ∀ {first second third}, relation first second → relation second third →
      relation first third) : Keeps relation (addAfterTest side price pointer) := by
  cases side with
  | invalid => exact Keeps.pure refl _
  | buy => exact Keeps.bind trans (keeps_loadLevel refl) fun _ => Keeps.pure refl _
  | sell => exact Keeps.bind trans (keeps_loadLevel refl) fun _ => Keeps.pure refl _

theorem keeps_addOrderAtPriceLoop {relation : MEOrderBook → MEOrderBook → Prop} {side : Side}
    {price : Price} {best : Pointer} {bound : ℕ} (refl : ∀ state, relation state state)
    (trans : ∀ {first second third}, relation first second → relation second third →
      relation first third) : Keeps relation (addOrderAtPriceLoop side price best bound pointer) := by
  induction bound generalizing pointer with
  | zero => exact Keeps.throw refl _
  | succ bound ih =>
      refine Keeps.ite (fun _ => Keeps.pure refl _) fun _ => ?_
      exact Keeps.bind trans (keeps_loadLevel refl) fun _ =>
        Keeps.bind trans (keeps_addAfterTest refl trans) fun _ => ih

/-- The code keeps everything but level links and head pointers. -/
abbrev KeepsLinks {α : Type} (code : BookM α) : Prop := Keeps SameButLinks code

theorem keepsLinks_bind {α β : Type} {code : BookM α} {next : α → BookM β}
    (keepsCode : KeepsLinks code) (keepsNext : ∀ value, KeepsLinks (next value)) :
    KeepsLinks (code >>= next) :=
  Keeps.bind SameButLinks.trans keepsCode keepsNext

theorem keepsLinks_loadLevel : KeepsLinks (loadLevel pointer) :=
  keeps_loadLevel SameButLinks.refl

theorem keepsLinks_addAfterTest {side : Side} {price : Price} :
    KeepsLinks (addAfterTest side price pointer) :=
  keeps_addAfterTest SameButLinks.refl SameButLinks.trans

theorem keepsLinks_storeLevel {change : MEOrdersAtPrice → MEOrdersAtPrice}
    (linksOnly : LevelLinksOnly change) : KeepsLinks (storeLevel pointer change) := by
  intro state
  cases pointer with
  | none => exact SameButLinks.refl state
  | some elem =>
      by_cases bound : elem < state.ordersAtPricePool.numElems
      · rw [run_storeLevel bound]
        exact ⟨rfl, rfl, rfl, rfl, rfl, linksOnly.levelSide, linksOnly.levelPrice,
          linksOnly.firstOrders, by simp⟩
      · simpa [storeLevel, bound] using SameButLinks.refl state

theorem keepsLinks_storeNextEntry {entry : Pointer} :
    KeepsLinks (storeLevel pointer fun level => { level with nextEntry := entry }) :=
  keepsLinks_storeLevel ⟨fun _ => rfl, fun _ => rfl, fun _ => rfl⟩

theorem keepsLinks_storePrevEntry {entry : Pointer} :
    KeepsLinks (storeLevel pointer fun level => { level with prevEntry := entry }) :=
  keepsLinks_storeLevel ⟨fun _ => rfl, fun _ => rfl, fun _ => rfl⟩

theorem keepsLinks_setInsertionHead (side : Side) :
    KeepsLinks (modify fun book => book.setInsertionHead side pointer) := by
  refine Keeps.modify fun state => ?_
  rcases levelViews_eq (level_setInsertionHead state side pointer) with ⟨sides, prices, firsts, -⟩
  exact ⟨by simp, by simp, by simp, by simp, by simp, sides, prices, firsts, by simp⟩

theorem keepsLinks_addOrderAtPriceLoop {side : Side} {price : Price} {best : Pointer} {bound : ℕ} :
    KeepsLinks (addOrderAtPriceLoop side price best bound pointer) :=
  keeps_addOrderAtPriceLoop SameButLinks.refl SameButLinks.trans

/-- The stores that link the new level behind `target`. -/
theorem keepsLinks_spliceAfter {target : Pointer} : KeepsLinks (do
    let targetLevel ← loadLevel target
    storeLevel targetLevel.nextEntry fun level => { level with prevEntry := pointer }
    let targetLevel ← loadLevel target
    storeLevel pointer fun level => { level with nextEntry := targetLevel.nextEntry }
    storeLevel target fun level => { level with nextEntry := pointer }
    storeLevel pointer fun level => { level with prevEntry := target }) := by
  refine keepsLinks_bind keepsLinks_loadLevel fun _ => ?_
  refine keepsLinks_bind keepsLinks_storePrevEntry fun _ => ?_
  refine keepsLinks_bind keepsLinks_loadLevel fun _ => ?_
  refine keepsLinks_bind keepsLinks_storeNextEntry fun _ => ?_
  exact keepsLinks_bind keepsLinks_storeNextEntry fun _ => keepsLinks_storePrevEntry

/-- The two tests that may move a head pointer to the new level. -/
theorem keepsLinks_moveHeads {movesBuy movesSell : Prop} [Decidable movesBuy]
    [Decidable movesSell] : KeepsLinks (do
      if movesBuy then
        modify fun book : MEOrderBook => { book with asksByPrice := pointer }
      if movesSell then
        modify fun book : MEOrderBook => { book with bidsByPrice := pointer }) := by
  have buyHead : KeepsLinks (modify fun book : MEOrderBook =>
      { book with asksByPrice := pointer }) :=
    keepsLinks_setInsertionHead .buy
  have sellHead : KeepsLinks (modify fun book : MEOrderBook =>
      { book with bidsByPrice := pointer }) :=
    keepsLinks_setInsertionHead .sell
  have lastTest : KeepsLinks (if movesSell then modify fun book : MEOrderBook =>
      { book with bidsByPrice := pointer } else pure PUnit.unit) :=
    Keeps.ite (fun _ => sellHead) fun _ => Keeps.pure SameButLinks.refl _
  exact Keeps.ite (fun _ => keepsLinks_bind buyHead fun _ => lastTest) fun _ => lastTest

/-- `addOrderAtPrice` writes one slot; the rest is link surgery, also when it faults. -/
theorem addOrderAtPrice_keeps (bound : elem < book.ordersAtPricePool.numElems) :
    SameButLinks (book.setSlot (priceToIndex (book.levelPrice elem)) (some elem))
      (finalState (addOrderAtPrice (some elem) book)) := by
  unfold addOrderAtPrice
  rw [run_loadLevel_bind bound, run_modify_bind]
  refine (?_ : KeepsLinks _) _
  refine Keeps.get_bind fun current => Keeps.ite (fun _ => ?_) fun _ => ?_
  · exact keepsLinks_bind (keepsLinks_setInsertionHead _) fun _ =>
      keepsLinks_storeLevel ⟨fun _ => rfl, fun _ => rfl, fun _ => rfl⟩
  · refine keepsLinks_bind keepsLinks_addAfterTest fun addAfter => ?_
    refine Keeps.ite (fun _ => ?_) fun _ => ?_
    · refine keepsLinks_bind keepsLinks_loadLevel fun _ => ?_
      refine keepsLinks_bind keepsLinks_addAfterTest fun _ => ?_
      refine keepsLinks_bind keepsLinks_addOrderAtPriceLoop fun target => ?_
      refine Keeps.ite (fun _ => ?_) fun _ => keepsLinks_spliceAfter
      exact keepsLinks_bind keepsLinks_loadLevel fun _ => keepsLinks_spliceAfter
    · refine keepsLinks_bind keepsLinks_loadLevel fun _ => ?_
      refine keepsLinks_bind keepsLinks_storeNextEntry fun _ => ?_
      refine keepsLinks_bind keepsLinks_loadLevel fun _ => ?_
      refine keepsLinks_bind keepsLinks_storePrevEntry fun _ => ?_
      refine keepsLinks_bind keepsLinks_storeNextEntry fun _ => ?_
      refine keepsLinks_bind keepsLinks_storePrevEntry fun _ => ?_
      exact keepsLinks_bind keepsLinks_loadLevel fun _ => keepsLinks_moveHeads

theorem addOrderAtPrice_frame (ran : addOrderAtPrice (some elem) book = .ok done last) :
    SameButLinks (book.setSlot (priceToIndex (book.levelPrice elem)) (some elem)) last := by
  rcases run_bind_eq_ok_iff.mp ran with ⟨_, _, loaded, -⟩
  rcases loadLevel_eq_ok_iff.mp loaded with ⟨_, ⟨⟩, bound, -, -⟩
  simpa [ran] using addOrderAtPrice_keeps bound

/-- Both pools' cursors lie inside their stores. -/
structure CursorsInRange (book : MEOrderBook) : Prop where
  order : book.orderPool.nextFreeIndex < book.orderPool.numElems
  level : book.ordersAtPricePool.nextFreeIndex < book.ordersAtPricePool.numElems

theorem CursorsInRange.of_outside (cursors : CursorsInRange book)
    (same : last.outside = book.outside) : CursorsInRange last := by
  have sizes := congrArg Outside.orderCapacity same
  have cursor := congrArg Outside.orderCursor same
  have levelSizes := congrArg Outside.levelCapacity same
  have levelCursor := congrArg Outside.levelCursor same
  simp only [outside] at sizes cursor levelSizes levelCursor
  refine ⟨?_, ?_⟩
  · rw [cursor, sizes]
    exact cursors.order
  · rw [levelCursor, levelSizes]
    exact cursors.level

/-- A block that was free now holds `value`; nothing else of the book differs. -/
structure AllocatesOrder (book last : MEOrderBook) (elem : ℕ) (value : MEOrder) : Prop where
  free : ¬book.OrderInUse elem
  bound : elem < book.orderPool.numElems
  cidOidToOrder : last.cidOidToOrder = book.cidOidToOrder
  priceOrdersAtPrice : last.priceOrdersAtPrice = book.priceOrdersAtPrice
  asksByPrice : last.asksByPrice = book.asksByPrice
  bidsByPrice : last.bidsByPrice = book.bidsByPrice
  session : last.session = book.session
  ordersAtPricePool : last.ordersAtPricePool = book.ordersAtPricePool
  order : ∀ other, last.order other = if other = elem then value else book.order other
  inUse : ∀ other, last.OrderInUse other ↔ other = elem ∨ book.OrderInUse other
  size : last.orderPool.numElems = book.orderPool.numElems
  cursor : last.orderPool.nextFreeIndex < last.orderPool.numElems

theorem allocateOrder_ok {value : MEOrder}
    (inRange : book.orderPool.nextFreeIndex < book.orderPool.numElems)
    (ran : allocateOrder value book = .ok pointer last) :
    ∃ elem, pointer = some elem ∧ AllocatesOrder book last elem value := by
  unfold allocateOrder at ran
  rw [run_get_bind] at ran
  cases allocated : book.orderPool.allocate value with
  | error fault => simp [allocated] at ran
  | ok result =>
      rcases result with ⟨elem, pool⟩
      simp only [allocated, run_set_bind, run_pure, EStateM.Result.ok.injEq] at ran
      rcases ran with ⟨rfl, rfl⟩
      rcases MemPool.allocate_ok inRange allocated with ⟨rfl, free, size, cursor, store⟩
      refine ⟨_, rfl, ⟨?_, inRange, rfl, rfl, rfl, rfl, rfl, rfl, ?_, ?_, size,
        by rw [size]; exact cursor⟩⟩
      · simp [OrderInUse, MemPool.InUse, free]
      · intro other
        simp only [order, store, Function.update_apply]
        split <;> rfl
      · intro other
        simp only [OrderInUse, MemPool.InUse, store, size, Function.update_apply]
        split
        · simp_all
        · simp_all

/-- A block that was free now holds `value`; nothing else of the book differs. -/
structure AllocatesLevel (book last : MEOrderBook) (elem : ℕ) (value : MEOrdersAtPrice) :
    Prop where
  free : ¬book.LevelInUse elem
  bound : elem < book.ordersAtPricePool.numElems
  cidOidToOrder : last.cidOidToOrder = book.cidOidToOrder
  priceOrdersAtPrice : last.priceOrdersAtPrice = book.priceOrdersAtPrice
  asksByPrice : last.asksByPrice = book.asksByPrice
  bidsByPrice : last.bidsByPrice = book.bidsByPrice
  session : last.session = book.session
  orderPool : last.orderPool = book.orderPool
  level : ∀ other, last.level other = if other = elem then value else book.level other
  inUse : ∀ other, last.LevelInUse other ↔ other = elem ∨ book.LevelInUse other
  size : last.ordersAtPricePool.numElems = book.ordersAtPricePool.numElems
  cursor : last.ordersAtPricePool.nextFreeIndex < last.ordersAtPricePool.numElems

theorem AllocatesLevel.order {value : MEOrdersAtPrice}
    (allocates : AllocatesLevel book last elem value) : last.order = book.order := by
  funext other
  rw [MEOrderBook.order, allocates.orderPool, MEOrderBook.order]

theorem allocateLevel_ok {value : MEOrdersAtPrice}
    (inRange : book.ordersAtPricePool.nextFreeIndex < book.ordersAtPricePool.numElems)
    (ran : allocateLevel value book = .ok pointer last) :
    ∃ elem, pointer = some elem ∧ AllocatesLevel book last elem value := by
  unfold allocateLevel at ran
  rw [run_get_bind] at ran
  cases allocated : book.ordersAtPricePool.allocate value with
  | error fault => simp [allocated] at ran
  | ok result =>
      rcases result with ⟨elem, pool⟩
      simp only [allocated, run_set_bind, run_pure, EStateM.Result.ok.injEq] at ran
      rcases ran with ⟨rfl, rfl⟩
      rcases MemPool.allocate_ok inRange allocated with ⟨rfl, free, size, cursor, store⟩
      refine ⟨_, rfl, ⟨?_, inRange, rfl, rfl, rfl, rfl, rfl, rfl, ?_, ?_, size,
        by rw [size]; exact cursor⟩⟩
      · simp [LevelInUse, MemPool.InUse, free]
      · intro other
        simp only [level, store, Function.update_apply]
        split <;> rfl
      · intro other
        simp only [LevelInUse, MemPool.InUse, store, size, Function.update_apply]
        split
        · simp_all
        · simp_all

/-- `elem` linked to itself, as the only order of its level. -/
def selfLink (book : MEOrderBook) (elem : ℕ) : MEOrderBook :=
  book.setOrder elem fun o => { o with prevOrder := some elem, nextOrder := some elem }

@[simp] theorem orderData_selfLink (book : MEOrderBook) (elem : ℕ) :
    (book.selfLink elem).orderData = book.orderData :=
  OrderLinksOnly.orderData fun _ => rfl

/-- `elem` linked between the level's last order and its first. -/
def appendOrder (book : MEOrderBook) (elem first tail : ℕ) : MEOrderBook :=
  (((book.setOrder tail fun o => { o with nextOrder := some elem }).setOrder
    elem fun o => { o with prevOrder := some tail }).setOrder
      elem fun o => { o with nextOrder := some first }).setOrder
        first fun o => { o with prevOrder := some elem }

section AppendedOrder

variable (book : MEOrderBook) (elem first tail other : ℕ)

@[simp] theorem orderData_appendOrder :
    (book.appendOrder elem first tail).orderData = book.orderData := by
  have next : ∀ {book : MEOrderBook} {cell entry}, (book.setOrder cell fun o =>
      { o with nextOrder := entry }).orderData = book.orderData :=
    OrderLinksOnly.orderData fun _ => rfl
  have prev : ∀ {book : MEOrderBook} {cell entry}, (book.setOrder cell fun o =>
      { o with prevOrder := entry }).orderData = book.orderData :=
    OrderLinksOnly.orderData fun _ => rfl
  rw [appendOrder, prev, next, prev, next]

@[simp] theorem level_appendOrder :
    (book.appendOrder elem first tail).level = book.level := by
  simp [appendOrder]

@[simp] theorem cidOidToOrder_appendOrder :
    (book.appendOrder elem first tail).cidOidToOrder = book.cidOidToOrder := by
  simp [appendOrder]

@[simp] theorem priceOrdersAtPrice_appendOrder :
    (book.appendOrder elem first tail).priceOrdersAtPrice = book.priceOrdersAtPrice := by
  simp [appendOrder]

@[simp] theorem outside_appendOrder :
    (book.appendOrder elem first tail).outside = book.outside := by
  simp [appendOrder]

@[simp] theorem orderInUse_appendOrder :
    (book.appendOrder elem first tail).OrderInUse = book.OrderInUse := by
  simp [appendOrder]

@[simp] theorem levelInUse_appendOrder :
    (book.appendOrder elem first tail).LevelInUse = book.LevelInUse := by
  simp [appendOrder]

theorem nextOrder_appendOrder (apart : elem ≠ first) :
    (book.appendOrder elem first tail).nextOrder other =
      if other = elem then some first else if other = tail then some elem
      else book.nextOrder other := by
  simp only [nextOrder, appendOrder, order_setOrder]
  split_ifs <;> simp_all

theorem prevOrder_appendOrder (apart : elem ≠ first) :
    (book.appendOrder elem first tail).prevOrder other =
      if other = first then some elem else if other = elem then some tail
      else book.prevOrder other := by
  simp only [prevOrder, appendOrder, order_setOrder]
  split_ifs <;> simp_all

end AppendedOrder

/-- The appended order is the last of the level's ring. -/
theorem isRing_appendOrder {first tail : ℕ} {others : List ℕ}
    (ring : IsRing book.nextOrder book.prevOrder (first :: others)) (fresh : elem ∉ first :: others)
    (tailEq : book.prevOrder first = some tail) :
    IsRing (book.appendOrder elem first tail).nextOrder (book.appendOrder elem first tail).prevOrder
      (first :: (others ++ [elem])) := by
  have apart : elem ≠ first := by
    rintro rfl
    exact fresh List.mem_cons_self
  have tailMem : tail ∈ first :: others := List.mem_of_getLast? (ring.getLast?_eq tailEq)
  refine ring.append fresh tailEq ?_ ?_ ?_ ?_ ?_ ?_
  · rw [nextOrder_appendOrder _ _ _ _ _ apart, if_neg (ne_of_mem_of_not_mem tailMem fresh),
      if_pos rfl]
  · rw [prevOrder_appendOrder _ _ _ _ _ apart, if_neg apart, if_pos rfl]
  · rw [nextOrder_appendOrder _ _ _ _ _ apart, if_pos rfl]
  · rw [prevOrder_appendOrder _ _ _ _ _ apart, if_pos rfl]
  · intro other otherMem different
    rw [nextOrder_appendOrder _ _ _ _ _ apart, if_neg (ne_of_mem_of_not_mem otherMem fresh),
      if_neg different]
  · intro other otherMem different
    rw [prevOrder_appendOrder _ _ _ _ _ apart, if_neg different,
      if_neg (ne_of_mem_of_not_mem otherMem fresh)]

/-- A run of `addOrder` that does not fault opened a level or joined one. -/
theorem addOrder_cases
    (inRange : book.ordersAtPricePool.nextFreeIndex < book.ordersAtPricePool.numElems)
    (ran : addOrder (some elem) book = .ok done last) :
    KeyInRange (book.orderData elem).clientId (book.orderData elem).clientOrderId ∧
      ((book.priceOrdersAtPrice (priceToIndex (book.orderData elem).price) = none ∧
          ∃ atPrice allocated middle,
            AllocatesLevel (book.selfLink elem) allocated atPrice
              { side := (book.orderData elem).side, price := (book.orderData elem).price,
                firstMeOrder := some elem } ∧
            SameButLinks
              (allocated.setSlot (priceToIndex (book.orderData elem).price) (some atPrice)) middle ∧
            addOrderAtPrice (some atPrice) allocated = .ok ⟨⟩ middle ∧
            last = middle.setKey (book.orderData elem).clientId
              (book.orderData elem).clientOrderId (some elem)) ∨
        ∃ atPrice first tail,
          book.priceOrdersAtPrice (priceToIndex (book.orderData elem).price) = some atPrice ∧
          book.firstMeOrder atPrice = some first ∧ book.prevOrder first = some tail ∧
          last = (book.appendOrder elem first tail).setKey (book.orderData elem).clientId
            (book.orderData elem).clientOrderId (some elem)) := by
  rcases run_bind_eq_ok_iff.mp ran with ⟨_, _, loaded, ran⟩
  rcases loadOrder_eq_ok_iff.mp loaded with ⟨_, ⟨⟩, bound, rfl, rfl⟩
  rw [run_getOrdersAtPrice_bind, run_ite] at ran
  split at ran
  case isTrue slot =>
      rw [run_storeOrder_bind bound] at ran
      rcases run_bind_eq_ok_iff.mp ran with ⟨_, allocated, allocation, ran⟩
      rcases allocateLevel_ok (by simpa using inRange) allocation with ⟨atPrice, rfl, allocates⟩
      rcases run_bind_eq_ok_iff.mp ran with ⟨_, middle, added, ran⟩
      have frame := addOrderAtPrice_frame added
      have priceEq : allocated.levelPrice atPrice = (book.orderData elem).price := by
        rw [levelPrice, allocates.level, if_pos rfl]
        rfl
      rw [priceEq] at frame
      have sameData : middle.orderData elem = book.orderData elem := by
        rw [(orderViews_eq frame.order).1, (orderViews_eq (order_setSlot _ _ _)).1,
          (orderViews_eq allocates.order).1]
        exact congrFun (orderData_selfLink book elem) elem
      rcases run_bind_eq_ok_iff.mp ran with ⟨_, _, loaded, ran⟩
      rcases loadOrder_eq_ok_iff.mp loaded with ⟨_, ⟨⟩, -, rfl, rfl⟩
      rcases storeKey_eq_ok_iff.mp ran with ⟨range, rfl⟩
      change KeyInRange (middle.orderData elem).clientId
        (middle.orderData elem).clientOrderId at range
      rw [sameData] at range
      refine ⟨range, Or.inl ⟨slot, atPrice, allocated, middle, allocates, frame, added, ?_⟩⟩
      rw [← sameData]
      rfl
  case isFalse slot =>
      rcases run_bind_eq_ok_iff.mp ran with ⟨_, _, loaded, ran⟩
      rcases loadLevel_eq_ok_iff.mp loaded with ⟨atPrice, held, -, rfl, rfl⟩
      rcases run_bind_eq_ok_iff.mp ran with ⟨_, _, loaded, ran⟩
      rcases loadOrder_eq_ok_iff.mp loaded with ⟨first, firstEq, firstBound, rfl, rfl⟩
      rcases run_bind_eq_ok_iff.mp ran with ⟨_, _, stored, ran⟩
      rcases storeOrder_eq_ok_iff.mp stored with ⟨tail, tailEq, -, rfl⟩
      rw [firstEq] at ran
      have tailKept : ((book.setOrder tail fun o => { o with nextOrder := some elem }).order
          first).prevOrder = some tail := by
        rw [← tailEq]
        exact field_setOrder MEOrder.prevOrder fun _ => rfl
      rw [run_loadOrder_bind (by simpa using firstBound), tailKept,
        run_storeOrder_bind (by simpa using bound), run_storeOrder_bind (by simpa using bound),
        run_storeOrder_bind (by simpa using firstBound)] at ran
      rcases run_bind_eq_ok_iff.mp ran with ⟨_, _, loaded, ran⟩
      rcases loadOrder_eq_ok_iff.mp loaded with ⟨_, ⟨⟩, -, rfl, rfl⟩
      rcases storeKey_eq_ok_iff.mp ran with ⟨range, rfl⟩
      change KeyInRange ((book.appendOrder elem first tail).orderData elem).clientId
        ((book.appendOrder elem first tail).orderData elem).clientOrderId at range
      rw [orderData_appendOrder] at range
      refine ⟨range, Or.inr ⟨atPrice, first, tail, held, firstEq, tailEq, ?_⟩⟩
      rw [← orderData_appendOrder book elem first tail]
      rfl

/-- What `addOrder` makes of a book when it opens the level `atPrice`. -/
structure OpensFor (book last : MEOrderBook) (elem atPrice : ℕ) : Prop where
  free : ¬book.LevelInUse atPrice
  orderData : last.orderData = book.orderData
  nextOrder : ∀ other, last.nextOrder other =
    if other = elem then some elem else book.nextOrder other
  prevOrder : ∀ other, last.prevOrder other =
    if other = elem then some elem else book.prevOrder other
  levelPrice : ∀ other, last.levelPrice other =
    if other = atPrice then (book.orderData elem).price else book.levelPrice other
  firstMeOrder : ∀ other, last.firstMeOrder other =
    if other = atPrice then some elem else book.firstMeOrder other
  priceOrdersAtPrice : ∀ index, last.priceOrdersAtPrice index =
    if index = priceToIndex (book.orderData elem).price then some atPrice
    else book.priceOrdersAtPrice index
  cidOidToOrder : ∀ clientId orderId, last.cidOidToOrder clientId orderId =
    if clientId = (book.orderData elem).clientId ∧ orderId = (book.orderData elem).clientOrderId
    then some elem else book.cidOidToOrder clientId orderId
  levelInUse : ∀ other, last.LevelInUse other ↔ other = atPrice ∨ book.LevelInUse other
  orderInUse : last.OrderInUse = book.OrderInUse
  session : last.session = book.session
  cursors : CursorsInRange book → CursorsInRange last

theorem nextOrder_selfLink (book : MEOrderBook) (elem other : ℕ) :
    (book.selfLink elem).nextOrder other =
      if other = elem then some elem else book.nextOrder other := by
  simp only [nextOrder, selfLink, order_setOrder]
  split <;> rfl

theorem prevOrder_selfLink (book : MEOrderBook) (elem other : ℕ) :
    (book.selfLink elem).prevOrder other =
      if other = elem then some elem else book.prevOrder other := by
  simp only [prevOrder, selfLink, order_setOrder]
  split <;> rfl

theorem opensFor_of_allocates {atPrice : ℕ} {allocated middle : MEOrderBook}
    (allocates : AllocatesLevel (book.selfLink elem) allocated atPrice
      { side := (book.orderData elem).side, price := (book.orderData elem).price,
        firstMeOrder := some elem })
    (frame : SameButLinks
      (allocated.setSlot (priceToIndex (book.orderData elem).price) (some atPrice)) middle) :
    OpensFor book (middle.setKey (book.orderData elem).clientId
      (book.orderData elem).clientOrderId (some elem)) elem atPrice := by
  set last := middle.setKey (book.orderData elem).clientId (book.orderData elem).clientOrderId
    (some elem) with lastEq
  have orderEq : last.order = (book.selfLink elem).order := by
    rw [lastEq, order_setKey, frame.order, order_setSlot, allocates.order]
  have levelViews := levelViews_eq (level_setKey middle (some elem)
    (book.orderData elem).clientId (book.orderData elem).clientOrderId)
  have slotViews := levelViews_eq (level_setSlot allocated (some atPrice)
    (priceToIndex (book.orderData elem).price))
  rcases orderViews_eq orderEq with ⟨dataEq, nextEq, prevEq⟩
  refine ⟨allocates.free, ?_, ?_, ?_, ?_, ?_, ?_, ?_, ?_, ?_, ?_, ?_⟩
  · rw [dataEq, orderData_selfLink]
  · intro other
    rw [nextEq, nextOrder_selfLink]
  · intro other
    rw [prevEq, prevOrder_selfLink]
  · intro other
    rw [lastEq, levelViews.2.1, frame.levelPrice, slotViews.2.1, levelPrice, allocates.level]
    split <;> rfl
  · intro other
    rw [lastEq, levelViews.2.2.1, frame.firstMeOrder, slotViews.2.2.1, firstMeOrder,
      allocates.level]
    split <;> rfl
  · intro index
    rw [lastEq, priceOrdersAtPrice_setKey, frame.priceOrdersAtPrice, priceOrdersAtPrice_setSlot,
      allocates.priceOrdersAtPrice]
    rfl
  · intro clientId orderId
    rw [lastEq, cidOidToOrder_setKey, frame.cidOidToOrder, cidOidToOrder_setSlot,
      allocates.cidOidToOrder]
    rfl
  · intro other
    rw [lastEq, levelInUse_setKey, frame.levelInUse, levelInUse_setSlot, allocates.inUse]
    rfl
  · funext other
    rw [lastEq, orderInUse_setKey, OrderInUse, frame.orderPool, orderPool_setSlot,
      allocates.orderPool]
    change (book.selfLink elem).OrderInUse other = _
    simp [selfLink]
  · exact (congrArg Outside.session frame.outside).trans allocates.session
  · intro cursors
    refine ⟨?_, ?_⟩
    · rw [lastEq, orderPool_setKey, frame.orderPool, orderPool_setSlot, allocates.orderPool]
      exact cursors.order
    · have sizes : middle.ordersAtPricePool.numElems = allocated.ordersAtPricePool.numElems :=
        congrArg Outside.levelCapacity frame.outside
      have cursorEq : middle.ordersAtPricePool.nextFreeIndex =
          allocated.ordersAtPricePool.nextFreeIndex :=
        congrArg Outside.levelCursor frame.outside
      change middle.ordersAtPricePool.nextFreeIndex < middle.ordersAtPricePool.numElems
      rw [sizes, cursorEq]
      exact allocates.cursor

/-- The order is listed last in its level, which may be new. -/
inductive Extends (levels : List Entry) (elem : ℕ) : List Entry → Prop
  | opened (atPrice : ℕ) : Extends levels elem ((atPrice, [elem]) :: levels)
  | joined {atPrice : ℕ} {orders : List ℕ} {rest : List Entry}
      (same : levels.Perm ((atPrice, orders) :: rest)) :
      Extends levels elem ((atPrice, orders ++ [elem]) :: rest)

theorem Extends.orders_perm {levels levels' : List Entry} (extended : Extends levels elem levels') :
    (ordersOf levels').Perm (elem :: ordersOf levels) := by
  cases extended with
  | opened atPrice => simp [ordersOf]
  | joined same =>
      refine List.Perm.trans ?_ ((same.flatMap_right Prod.snd).symm.cons elem)
      simp only [ordersOf, List.flatMap_cons, List.append_assoc, List.singleton_append]
      exact List.perm_middle

/-- The part of `Directory` that concerns the key map, after one entry was written. -/
theorem Directory.keys_add {levels : List Entry} {listed : List ℕ} (last : MEOrderBook)
    (dir : Directory book levels)
    (members : ∀ other, other ∈ listed ↔ other = elem ∨ other ∈ ordersOf levels)
    (range : KeyInRange (book.orderData elem).clientId (book.orderData elem).clientOrderId)
    (unused : ∀ other ∈ ordersOf levels,
      ¬((book.orderData other).clientId = (book.orderData elem).clientId ∧
        (book.orderData other).clientOrderId = (book.orderData elem).clientOrderId))
    (sameData : last.orderData = book.orderData)
    (written : ∀ clientId orderId, last.cidOidToOrder clientId orderId =
      if clientId = (book.orderData elem).clientId ∧ orderId = (book.orderData elem).clientOrderId
      then some elem else book.cidOidToOrder clientId orderId) :
    (∀ other ∈ listed,
      KeyInRange (last.orderData other).clientId (last.orderData other).clientOrderId ∧
        last.cidOidToOrder (last.orderData other).clientId (last.orderData other).clientOrderId =
          some other) ∧
      ∀ clientId orderId other, KeyInRange clientId orderId →
        last.cidOidToOrder clientId orderId = some other →
          other ∈ listed ∧ (last.orderData other).clientId = clientId ∧
            (last.orderData other).clientOrderId = orderId := by
  rw [sameData]
  constructor
  · intro other otherMem
    rw [written]
    rcases (members other).mp otherMem with rfl | otherListed
    · exact ⟨range, if_pos ⟨rfl, rfl⟩⟩
    · rw [if_neg (unused other otherListed)]
      exact dir.key other otherListed
  · intro clientId orderId other keyRange held
    rw [written] at held
    split at held
    · rename_i sameKey
      cases held
      exact ⟨(members elem).mpr (Or.inl rfl), sameKey.1.symm, sameKey.2.symm⟩
    · rcases dir.keyOnly clientId orderId other keyRange held with ⟨otherListed, rest⟩
      exact ⟨(members other).mpr (Or.inr otherListed), rest⟩

theorem Directory.append {levels : List Entry} {atPrice first tail : ℕ} {orders : List ℕ}
    (dir : Directory book ((atPrice, orders) :: levels))
    (fresh : elem ∉ ordersOf ((atPrice, orders) :: levels)) (inUse : book.OrderInUse elem)
    (range : KeyInRange (book.orderData elem).clientId (book.orderData elem).clientOrderId)
    (unused : ∀ other ∈ ordersOf ((atPrice, orders) :: levels),
      ¬((book.orderData other).clientId = (book.orderData elem).clientId ∧
        (book.orderData other).clientOrderId = (book.orderData elem).clientOrderId))
    (samePrice : (book.orderData elem).price = book.levelPrice atPrice)
    (firstEq : book.firstMeOrder atPrice = some first) (tailEq : book.prevOrder first = some tail) :
    Directory ((book.appendOrder elem first tail).setKey (book.orderData elem).clientId
      (book.orderData elem).clientOrderId (some elem)) ((atPrice, orders ++ [elem]) :: levels) := by
  have ring := dir.ring _ List.mem_cons_self
  have firstOld := dir.first _ List.mem_cons_self
  rcases orders with _ | ⟨head, others⟩
  · exact absurd rfl ring.ne_nil
  cases (firstOld.symm.trans firstEq)
  have members : ∀ other, other ∈ ordersOf ((atPrice, first :: others ++ [elem]) :: levels) ↔
      other = elem ∨ other ∈ ordersOf ((atPrice, first :: others) :: levels) := by
    intro other
    simp only [ordersOf, List.flatMap_cons, List.mem_append, List.mem_cons, List.not_mem_nil,
      or_false]
    tauto
  set last := (book.appendOrder elem first tail).setKey (book.orderData elem).clientId
    (book.orderData elem).clientOrderId (some elem) with lastEq
  have sameViews := orderViews_eq (order_setKey (book.appendOrder elem first tail) (some elem)
    (book.orderData elem).clientId (book.orderData elem).clientOrderId)
  rw [← lastEq] at sameViews
  have levelEq : last.level = book.level := by simp [lastEq]
  rcases levelViews_eq levelEq with ⟨-, priceEq, firstsEq, -, -⟩
  have slotEq : last.priceOrdersAtPrice = book.priceOrdersAtPrice := by simp [lastEq]
  have dataEq : last.orderData = book.orderData := by
    rw [sameViews.1, orderData_appendOrder]
  have keys := dir.keys_add last members range unused dataEq
    (by simp [lastEq, cidOidToOrder_setKey])
  have apart : elem ≠ first := by
    rintro rfl
    exact fresh (by simp [ordersOf])
  have elemFresh : elem ∉ first :: others := by
    intro member
    exact fresh (List.mem_flatMap.mpr ⟨_, List.mem_cons_self, member⟩)
  have inOld : ∀ {entry}, entry ∈ levels → entry ∈ (atPrice, first :: others) :: levels :=
    fun member => List.mem_cons_of_mem _ member
  have tailMem : tail ∈ first :: others := List.mem_of_getLast? (ring.getLast?_eq tailEq)
  refine ⟨dir.levelsNodup, ?_, ?_, ?_, ?_, ?_, ?_, ?_, ?_, keys.1, keys.2⟩
  · have same : (ordersOf ((atPrice, first :: others ++ [elem]) :: levels)).Perm
        (elem :: ordersOf ((atPrice, first :: others) :: levels)) :=
      (Extends.joined (List.Perm.refl _)).orders_perm
    exact same.nodup_iff.mpr (List.nodup_cons.mpr ⟨fresh, dir.ordersNodup⟩)
  · rw [sameViews.2.1, sameViews.2.2]
    rintro entry (_ | ⟨_, entryMem⟩)
    · exact isRing_appendOrder ring elemFresh tailEq
    · have outside : ∀ other ∈ entry.2, other ≠ elem ∧ other ∉ first :: others := by
        intro other otherMem
        refine ⟨?_, dir.order_disjoint entryMem otherMem⟩
        rintro rfl
        exact fresh (List.mem_flatMap.mpr ⟨entry, inOld entryMem, otherMem⟩)
      refine (dir.ring entry (inOld entryMem)).congr ?_ ?_
      · intro other otherMem
        rw [nextOrder_appendOrder _ _ _ _ _ apart, if_neg (outside other otherMem).1,
          if_neg (ne_of_mem_of_not_mem tailMem (outside other otherMem).2).symm]
      · intro other otherMem
        rw [prevOrder_appendOrder _ _ _ _ _ apart,
          if_neg (fun same => (outside other otherMem).2 (by simp [same])),
          if_neg (outside other otherMem).1]
  · rw [firstsEq]
    rintro entry (_ | ⟨_, entryMem⟩)
    · exact firstOld
    · exact dir.first entry (inOld entryMem)
  · rw [priceEq, dataEq]
    rintro entry (_ | ⟨_, entryMem⟩) other otherMem
    · rcases List.mem_append.mp otherMem with old | new
      · exact dir.price _ List.mem_cons_self other old
      · cases List.mem_singleton.mp new
        exact samePrice
    · exact dir.price entry (inOld entryMem) other otherMem
  · rw [priceEq, slotEq]
    rintro entry (_ | ⟨_, entryMem⟩)
    · exact dir.slot (atPrice, first :: others) List.mem_cons_self
    · exact dir.slot entry (inOld entryMem)
  · rw [priceEq, slotEq]
    exact dir.slotOnly
  · simpa [lastEq] using dir.levelInUse
  · intro other otherMem
    have usedEq : last.OrderInUse = book.OrderInUse := by simp [lastEq]
    rw [usedEq]
    rcases (members other).mp otherMem with rfl | old
    · exact inUse
    · exact dir.orderInUse other old

theorem Directory.opened {levels : List Entry} {atPrice : ℕ}
    (dir : Directory book levels) (fresh : elem ∉ ordersOf levels) (inUse : book.OrderInUse elem)
    (range : KeyInRange (book.orderData elem).clientId (book.orderData elem).clientOrderId)
    (unused : ∀ other ∈ ordersOf levels,
      ¬((book.orderData other).clientId = (book.orderData elem).clientId ∧
        (book.orderData other).clientOrderId = (book.orderData elem).clientOrderId))
    (slot : book.priceOrdersAtPrice (priceToIndex (book.orderData elem).price) = none)
    (opens : OpensFor book last elem atPrice) : Directory last ((atPrice, [elem]) :: levels) := by
  have atPriceFresh : atPrice ∉ levelsOf levels := by
    intro member
    exact opens.free ((dir.levelInUse atPrice).mpr member)
  have priceNew : last.levelPrice atPrice = (book.orderData elem).price := by
    rw [opens.levelPrice, if_pos rfl]
  have members : ∀ other, other ∈ ordersOf ((atPrice, [elem]) :: levels) ↔
      other = elem ∨ other ∈ ordersOf levels := by simp [ordersOf]
  have keys := dir.keys_add last members range unused opens.orderData opens.cidOidToOrder
  have levelNe : ∀ entry ∈ levels, entry.1 ≠ atPrice := by
    rintro entry entryMem rfl
    exact atPriceFresh (List.mem_map_of_mem entryMem)
  refine ⟨List.nodup_cons.mpr ⟨atPriceFresh, dir.levelsNodup⟩,
    List.nodup_cons.mpr ⟨fresh, dir.ordersNodup⟩, ?_, ?_, ?_, ?_, ?_, ?_, ?_, keys.1, keys.2⟩
  · rintro entry (_ | ⟨_, entryMem⟩)
    · exact isRing_singleton.mpr
        ⟨(opens.nextOrder elem).trans (if_pos rfl), (opens.prevOrder elem).trans (if_pos rfl)⟩
    · have different : ∀ other ∈ entry.2, other ≠ elem := by
        rintro other otherMem rfl
        exact fresh (List.mem_flatMap.mpr ⟨entry, entryMem, otherMem⟩)
      refine (dir.ring entry entryMem).congr ?_ ?_
      · intro other otherMem
        rw [opens.nextOrder, if_neg (different other otherMem)]
      · intro other otherMem
        rw [opens.prevOrder, if_neg (different other otherMem)]
  · rintro entry (_ | ⟨_, entryMem⟩)
    · rw [opens.firstMeOrder, if_pos rfl]
      rfl
    · rw [opens.firstMeOrder, if_neg (levelNe entry entryMem)]
      exact dir.first entry entryMem
  · rw [opens.orderData]
    rintro entry (_ | ⟨_, entryMem⟩) other otherMem
    · cases List.mem_singleton.mp otherMem
      exact priceNew.symm
    · rw [opens.levelPrice, if_neg (levelNe entry entryMem)]
      exact dir.price entry entryMem other otherMem
  · rintro entry (_ | ⟨_, entryMem⟩)
    · rw [opens.priceOrdersAtPrice, priceNew, if_pos rfl]
    · rw [opens.priceOrdersAtPrice, opens.levelPrice, if_neg (levelNe entry entryMem), if_neg]
      · exact dir.slot entry entryMem
      · intro sameIndex
        have held := dir.slot entry entryMem
        rw [sameIndex, slot] at held
        cases held
  · intro index other bound held
    rw [opens.priceOrdersAtPrice] at held
    split at held
    case isTrue sameIndex =>
        cases held
        exact ⟨List.mem_cons_self, by rw [priceNew, sameIndex]⟩
    case isFalse =>
        rcases dir.slotOnly index other bound held with ⟨member, indexEq⟩
        refine ⟨List.mem_cons_of_mem _ member, ?_⟩
        rw [opens.levelPrice, if_neg (ne_of_mem_of_not_mem member atPriceFresh)]
        exact indexEq
  · intro other
    rw [opens.levelInUse, dir.levelInUse]
    exact List.mem_cons.symm
  · intro other otherMem
    rw [opens.orderInUse]
    rcases (members other).mp otherMem with rfl | old
    · exact inUse
    · exact dir.orderInUse other old

/-- What `addOrder` leaves alone, whatever the state of the rings. -/
structure AddsOrder (book last : MEOrderBook) (elem : ℕ) : Prop where
  range : KeyInRange (book.orderData elem).clientId (book.orderData elem).clientOrderId
  orderData : last.orderData = book.orderData
  session : last.session = book.session
  orderInUse : last.OrderInUse = book.OrderInUse
  cursors : CursorsInRange book → CursorsInRange last
  slot : ∀ index, index ≠ priceToIndex (book.orderData elem).price →
    last.priceOrdersAtPrice index = book.priceOrdersAtPrice index
  opens : book.priceOrdersAtPrice (priceToIndex (book.orderData elem).price) = none →
    ∃ atPrice, ¬book.LevelInUse atPrice ∧ last.LevelInUse atPrice ∧
      last.priceOrdersAtPrice (priceToIndex (book.orderData elem).price) = some atPrice ∧
      last.firstMeOrder atPrice = some elem
  cidOidToOrder : ∀ clientId orderId, last.cidOidToOrder clientId orderId =
    if clientId = (book.orderData elem).clientId ∧ orderId = (book.orderData elem).clientOrderId
    then some elem else book.cidOidToOrder clientId orderId

theorem addsOrder_of_run (cursors : CursorsInRange book)
    (ran : addOrder (some elem) book = .ok done last) : AddsOrder book last elem := by
  rcases addOrder_cases cursors.level ran with ⟨range, ⟨slot, atPrice, allocated, middle, allocates,
    frame, -, rfl⟩ | ⟨atPrice, first, tail, held, -, -, rfl⟩⟩
  · have opens := opensFor_of_allocates allocates frame
    refine ⟨range, opens.orderData, opens.session, opens.orderInUse, opens.cursors, ?_, ?_,
      opens.cidOidToOrder⟩
    · intro index different
      rw [opens.priceOrdersAtPrice, if_neg different]
    · intro _
      refine ⟨atPrice, opens.free, (opens.levelInUse atPrice).mpr (Or.inl rfl), ?_, ?_⟩
      · rw [opens.priceOrdersAtPrice, if_pos rfl]
      · rw [opens.firstMeOrder, if_pos rfl]
  · have sameOutside : ((book.appendOrder elem first tail).setKey (book.orderData elem).clientId
        (book.orderData elem).clientOrderId (some elem)).outside = book.outside := by
      rw [outside_setKey, outside_appendOrder]
    refine ⟨range, ?_, congrArg Outside.session sameOutside, by simp, ?_, by simp, ?_,
      by simp [cidOidToOrder_setKey]⟩
    · rw [(orderViews_eq (order_setKey _ _ _ _)).1, orderData_appendOrder]
    · intro cursors
      exact cursors.of_outside sameOutside
    · intro slot
      rw [held] at slot
      cases slot

/-- The order may be linked: its block is in use, and no listed order has its key or, in its
slot, another price. -/
structure Linkable (book : MEOrderBook) (levels : List Entry) (elem : ℕ) : Prop where
  fresh : elem ∉ ordersOf levels
  inUse : book.OrderInUse elem
  unused : ∀ other ∈ ordersOf levels,
    ¬((book.orderData other).clientId = (book.orderData elem).clientId ∧
      (book.orderData other).clientOrderId = (book.orderData elem).clientOrderId)
  samePrice : ∀ entry ∈ levels,
    priceToIndex (book.orderData elem).price = priceToIndex (book.levelPrice entry.1) →
      (book.orderData elem).price = book.levelPrice entry.1

theorem Directory.addOrder {levels : List Entry} (dir : Directory book levels)
    (cursors : CursorsInRange book) (linkable : Linkable book levels elem)
    (ran : MEOrderBook.addOrder (some elem) book = .ok done last) :
    ∃ levels', Extends levels elem levels' ∧ Directory last levels' := by
  rcases addOrder_cases cursors.level ran with ⟨range, ⟨slot, atPrice, allocated, middle, allocates,
    frame, -, rfl⟩ | ⟨atPrice, first, tail, held, firstEq, tailEq, rfl⟩⟩
  · exact ⟨_, Extends.opened atPrice, dir.opened linkable.fresh linkable.inUse range
      linkable.unused slot (opensFor_of_allocates allocates frame)⟩
  · rcases dir.slotOnly _ _ (priceToIndex_lt _) held with ⟨member, indexEq⟩
    rcases List.mem_map.mp member with ⟨⟨listedAt, orders⟩, entryMem, rfl⟩
    rcases List.append_of_mem entryMem with ⟨front, back, rfl⟩
    have moved : (front ++ (listedAt, orders) :: back).Perm
      ((listedAt, orders) :: (front ++ back)) := List.perm_middle
    have same := (moved.flatMap_right Prod.snd)
    have dirFront := dir.perm moved
    refine ⟨_, Extends.joined moved, dirFront.append ?_ linkable.inUse range ?_ ?_ firstEq tailEq⟩
    · exact fun listed => linkable.fresh (same.mem_iff.mpr listed)
    · exact fun other listed => linkable.unused other (same.mem_iff.mpr listed)
    · exact linkable.samePrice _ entryMem indexEq

end QuantEngine.MEOrderBook
