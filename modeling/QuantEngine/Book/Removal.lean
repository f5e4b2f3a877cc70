import QuantEngine.Book.Memory

/-!
# What a removal does

`removeOrdersAtPrice` and `removeOrder` run without a fault exactly when the
pointers they follow lead somewhere, and then leave one explicit book. The
statements hold for every book, also for one whose level rings are broken.
-/

namespace QuantEngine.MEOrderBook

open Exec

/-- The neighbours of `elem` linked to each other, and the head moved on if it was `elem`. -/
def unlinkLevel (book : MEOrderBook) (side : Side) (elem before after : ℕ) : MEOrderBook :=
  let joined := (book.setLevel before fun level => { level with nextEntry := some after }).setLevel
    after fun level => { level with prevEntry := some before }
  let moved := if book.removalHead side = some elem then joined.setRemovalHead side (some after)
    else joined
  moved.setLevel elem fun level => { level with prevEntry := none, nextEntry := none }

/-- The neighbours of `elem` linked to each other, and the level's first order moved on. -/
def unlinkOrder (book : MEOrderBook) (atPrice elem before after : ℕ) : MEOrderBook :=
  let joined := (book.setOrder before fun o => { o with nextOrder := some after }).setOrder
    after fun o => { o with prevOrder := some before }
  let moved := if book.firstMeOrder atPrice = some elem then
      joined.setLevel atPrice fun level => { level with firstMeOrder := some after }
    else joined
  moved.setOrder elem fun o => { o with prevOrder := none, nextOrder := none }

/-- The entry of the order's key cleared and its block returned to the pool. -/
def release (book : MEOrderBook) (elem : ℕ) : MEOrderBook :=
  (book.setKey (book.orderData elem).clientId (book.orderData elem).clientOrderId none).freeOrder
    elem

variable {book last : MEOrderBook} {side : Side} {price : Price} {done : PUnit}
  {elem before after atPrice : ℕ}

section UnlinkedLevel

variable (book : MEOrderBook) (side : Side) (elem before after : ℕ)

/-- What no store to the links of a level and no head pointer changes. -/
theorem unlinkLevel_keeps {α : Type} (field : MEOrderBook → α)
    (stored : ∀ {book cell change}, LevelLinksOnly change →
      field (book.setLevel cell change) = field book)
    (moved : ∀ {book pointer}, field (book.setRemovalHead side pointer) = field book) :
    field (book.unlinkLevel side elem before after) = field book := by
  have next : ∀ {book cell entry}, field (book.setLevel cell fun level =>
      { level with nextEntry := entry }) = field book :=
    stored ⟨fun _ => rfl, fun _ => rfl, fun _ => rfl⟩
  have prev : ∀ {book cell entry}, field (book.setLevel cell fun level =>
      { level with prevEntry := entry }) = field book :=
    stored ⟨fun _ => rfl, fun _ => rfl, fun _ => rfl⟩
  have cleared : ∀ {book}, field (book.setLevel elem fun level =>
      { level with prevEntry := none, nextEntry := none }) = field book :=
    stored ⟨fun _ => rfl, fun _ => rfl, fun _ => rfl⟩
  unfold unlinkLevel
  dsimp only
  rw [cleared]
  split
  · rw [moved, prev, next]
  · rw [prev, next]

@[simp] theorem order_unlinkLevel :
    (book.unlinkLevel side elem before after).order = book.order :=
  unlinkLevel_keeps book side elem before after order (by simp) (by simp)

@[simp] theorem cidOidToOrder_unlinkLevel :
    (book.unlinkLevel side elem before after).cidOidToOrder = book.cidOidToOrder :=
  unlinkLevel_keeps book side elem before after cidOidToOrder (by simp) (by simp)

@[simp] theorem priceOrdersAtPrice_unlinkLevel :
    (book.unlinkLevel side elem before after).priceOrdersAtPrice = book.priceOrdersAtPrice :=
  unlinkLevel_keeps book side elem before after priceOrdersAtPrice (by simp) (by simp)

@[simp] theorem outside_unlinkLevel :
    (book.unlinkLevel side elem before after).outside = book.outside :=
  unlinkLevel_keeps book side elem before after outside (by simp) (by simp)

@[simp] theorem orderPool_unlinkLevel :
    (book.unlinkLevel side elem before after).orderPool = book.orderPool :=
  unlinkLevel_keeps book side elem before after orderPool (by simp) (by simp)

@[simp] theorem orderInUse_unlinkLevel :
    (book.unlinkLevel side elem before after).OrderInUse = book.OrderInUse :=
  unlinkLevel_keeps book side elem before after OrderInUse (by simp) (by simp)

@[simp] theorem levelInUse_unlinkLevel :
    (book.unlinkLevel side elem before after).LevelInUse = book.LevelInUse :=
  unlinkLevel_keeps book side elem before after LevelInUse (by simp) (by simp)

@[simp] theorem ordersAtPricePool_numElems_unlinkLevel :
    (book.unlinkLevel side elem before after).ordersAtPricePool.numElems =
      book.ordersAtPricePool.numElems :=
  unlinkLevel_keeps book side elem before after (fun book => book.ordersAtPricePool.numElems)
    (by simp) (by simp)

@[simp] theorem levelSide_unlinkLevel :
    (book.unlinkLevel side elem before after).levelSide = book.levelSide :=
  unlinkLevel_keeps book side elem before after levelSide LevelLinksOnly.levelSide
    (levelViews_eq (level_setRemovalHead _ _ _)).1

@[simp] theorem levelPrice_unlinkLevel :
    (book.unlinkLevel side elem before after).levelPrice = book.levelPrice :=
  unlinkLevel_keeps book side elem before after levelPrice LevelLinksOnly.levelPrice
    (levelViews_eq (level_setRemovalHead _ _ _)).2.1

@[simp] theorem firstMeOrder_unlinkLevel :
    (book.unlinkLevel side elem before after).firstMeOrder = book.firstMeOrder :=
  unlinkLevel_keeps book side elem before after firstMeOrder LevelLinksOnly.firstOrders
    (levelViews_eq (level_setRemovalHead _ _ _)).2.2.1

theorem nextEntry_unlinkLevel (other : ℕ) :
    (book.unlinkLevel side elem before after).nextEntry other =
      if other = elem then none else if other = before then some after
      else book.nextEntry other := by
  unfold unlinkLevel nextEntry
  dsimp only
  split <;> simp only [level_setLevel, level_setRemovalHead] <;> split_ifs <;> simp_all

theorem prevEntry_unlinkLevel (other : ℕ) :
    (book.unlinkLevel side elem before after).prevEntry other =
      if other = elem then none else if other = after then some before
      else book.prevEntry other := by
  unfold unlinkLevel prevEntry
  dsimp only
  split <;> simp only [level_setLevel, level_setRemovalHead] <;> split_ifs <;> simp_all

theorem asksByPrice_unlinkLevel :
    (book.unlinkLevel side elem before after).asksByPrice =
      if side ≠ .buy ∧ book.asksByPrice = some elem then some after else book.asksByPrice := by
  unfold unlinkLevel removalHead
  dsimp only
  by_cases buys : side = .buy
  · simp only [buys, if_true]
    split <;> simp
  · simp only [buys, if_false]
    split <;> simp [*]

theorem bidsByPrice_unlinkLevel :
    (book.unlinkLevel side elem before after).bidsByPrice =
      if side = .buy ∧ book.bidsByPrice = some elem then some after else book.bidsByPrice := by
  unfold unlinkLevel removalHead
  dsimp only
  by_cases buys : side = .buy
  · simp only [buys, if_true]
    split <;> simp [*]
  · simp only [buys, if_false]
    split <;> simp [*]

end UnlinkedLevel

theorem removeOrdersAtPrice_alone (slot : book.priceOrdersAtPrice (priceToIndex price) = some elem)
    (inUse : book.LevelInUse elem) (alone : book.nextEntry elem = some elem) :
    removeOrdersAtPrice side price book =
      .ok ⟨⟩ (((book.setRemovalHead side none).setSlot (priceToIndex price) none).freeLevel elem) := by
  have alone' : (book.level elem).nextEntry = some elem := alone
  simp only [removeOrdersAtPrice, run_get_bind, run_getOrdersAtPrice_bind, slot,
    run_loadLevel_bind inUse.1, alone', if_true, run_modify_bind, run_ite]
  exact deallocateLevel_eq_ok_iff.mpr ⟨elem, rfl, by simpa using inUse, rfl⟩

theorem removeOrdersAtPrice_linked (side : Side)
    (slot : book.priceOrdersAtPrice (priceToIndex price) = some elem)
    (inUse : book.LevelInUse elem) (prevElem : book.prevEntry elem = some before)
    (nextElem : book.nextEntry elem = some after) (others : after ≠ elem)
    (beforeBound : before < book.ordersAtPricePool.numElems)
    (afterBound : after < book.ordersAtPricePool.numElems) :
    removeOrdersAtPrice side price book =
      .ok ⟨⟩ (((book.unlinkLevel side elem before after).setSlot (priceToIndex price) none).freeLevel
        elem) := by
  have prevElem' : (book.level elem).prevEntry = some before := prevElem
  have nextElem' : (book.level elem).nextEntry = some after := nextElem
  have bound := inUse.1
  have nextKept : ((book.setLevel before fun level => { level with nextEntry := some after }).level
      elem).nextEntry = some after := by
    rw [level_setLevel]
    split <;> simp [nextElem']
  have prevKept : ((book.setLevel before fun level => { level with nextEntry := some after }).level
      elem).prevEntry = some before := by
    rw [← prevElem']
    exact field_setLevel MEOrdersAtPrice.prevEntry fun _ => rfl
  have nextLast : (((book.setLevel before fun level => { level with nextEntry := some after }).setLevel
      after fun level => { level with prevEntry := some before }).level elem).nextEntry =
        some after := by
    rw [level_setLevel, if_neg (Ne.symm others), nextKept]
  simp only [removeOrdersAtPrice, run_get_bind, run_getOrdersAtPrice_bind, slot,
    run_loadLevel_bind bound, nextElem', prevElem', run_ite, run_storeLevel_bind beforeBound,
    Option.some.injEq, others, if_false]
  rw [run_loadLevel_bind (by simpa using bound), nextKept, prevKept,
    run_storeLevel_bind (by simpa using afterBound), run_loadLevel_bind (by simpa using bound),
    nextLast]
  rw [run_ite]
  simp only [run_modify_bind, eq_comm (a := some elem)]
  unfold unlinkLevel
  split
  · rw [run_storeLevel_bind (by simpa using bound), run_modify_bind]
    exact deallocateLevel_eq_ok_iff.mpr ⟨elem, rfl, by simpa using inUse, rfl⟩
  · rw [run_storeLevel_bind (by simpa using bound), run_modify_bind]
    exact deallocateLevel_eq_ok_iff.mpr ⟨elem, rfl, by simpa using inUse, rfl⟩

theorem removeOrdersAtPrice_cases (ran : removeOrdersAtPrice side price book = .ok done last) :
    ∃ elem, book.priceOrdersAtPrice (priceToIndex price) = some elem ∧ book.LevelInUse elem ∧
      ((book.nextEntry elem = some elem ∧
          last = ((book.setRemovalHead side none).setSlot (priceToIndex price) none).freeLevel
            elem) ∨
        ∃ before after, book.prevEntry elem = some before ∧ book.nextEntry elem = some after ∧
          after ≠ elem ∧ before < book.ordersAtPricePool.numElems ∧
          after < book.ordersAtPricePool.numElems ∧
          last = ((book.unlinkLevel side elem before after).setSlot (priceToIndex price)
            none).freeLevel elem) := by
  have whole := ran
  simp only [removeOrdersAtPrice, run_get_bind, run_getOrdersAtPrice_bind] at ran
  rcases run_bind_eq_ok_iff.mp ran with ⟨removed, middle, loaded, ran⟩
  rcases loadLevel_eq_ok_iff.mp loaded with ⟨elem, slot, bound, rfl, rfl⟩
  rw [slot, run_ite] at ran
  split at ran
  case isTrue alone =>
      simp only [run_modify_bind] at ran
      rcases deallocateLevel_eq_ok_iff.mp ran with ⟨freed, sameElem, inUse, rfl⟩
      cases sameElem
      exact ⟨elem, slot, by simpa using inUse, Or.inl ⟨alone, rfl⟩⟩
  case isFalse linked =>
      rcases run_bind_eq_ok_iff.mp ran with ⟨_, _, stored, ran⟩
      rcases storeLevel_eq_ok_iff.mp stored with ⟨before, prevElem, beforeBound, rfl⟩
      rw [run_loadLevel_bind (by simpa using bound)] at ran
      rcases run_bind_eq_ok_iff.mp ran with ⟨_, _, stored, ran⟩
      rcases storeLevel_eq_ok_iff.mp stored with ⟨after, nextKept, afterBound, rfl⟩
      have nextElem : book.nextEntry elem = some after := by
        rw [level_setLevel] at nextKept
        split at nextKept
        · rename_i same
          simpa [same, nextEntry] using nextKept
        · exact nextKept
      have others : after ≠ elem := by
        rintro rfl
        exact linked nextElem
      rw [run_loadLevel_bind (by simpa using bound), run_ite] at ran
      have inUse : book.LevelInUse elem := by
        split at ran <;>
          simp only [run_modify_bind, run_bind_eq_ok_iff, storeLevel_eq_ok_iff,
            Option.some.injEq, exists_eq_left'] at ran <;>
          rcases ran with ⟨_, _, ⟨_, rfl⟩, freed⟩ <;>
          rcases deallocateLevel_eq_ok_iff.mp freed with ⟨_, ⟨⟩, inUse, -⟩ <;>
          simpa using inUse
      have explicit := removeOrdersAtPrice_linked side slot inUse prevElem nextElem others
        beforeBound (by simpa using afterBound)
      have sameLast := (EStateM.Result.ok.inj (explicit.symm.trans whole)).2
      exact ⟨elem, slot, inUse, Or.inr ⟨before, after, prevElem, nextElem, others, beforeBound,
        by simpa using afterBound, sameLast.symm⟩⟩

section Released

variable (book : MEOrderBook) (elem other : ℕ)

@[simp] theorem order_release : (book.release elem).order = book.order := by
  simp [release]

@[simp] theorem level_release : (book.release elem).level = book.level := rfl

@[simp] theorem priceOrdersAtPrice_release :
    (book.release elem).priceOrdersAtPrice = book.priceOrdersAtPrice := rfl

@[simp] theorem asksByPrice_release : (book.release elem).asksByPrice = book.asksByPrice := rfl

@[simp] theorem bidsByPrice_release : (book.release elem).bidsByPrice = book.bidsByPrice := rfl

@[simp] theorem outside_release : (book.release elem).outside = book.outside := rfl

@[simp] theorem levelInUse_release : (book.release elem).LevelInUse = book.LevelInUse := rfl

@[simp] theorem ordersAtPricePool_release :
    (book.release elem).ordersAtPricePool = book.ordersAtPricePool := rfl

@[simp] theorem orderPool_numElems_release :
    (book.release elem).orderPool.numElems = book.orderPool.numElems := rfl

theorem orderInUse_release :
    (book.release elem).OrderInUse other ↔ book.OrderInUse other ∧ other ≠ elem := by
  simp [release, orderInUse_freeOrder]

theorem cidOidToOrder_release (clientId : ClientId) (orderId : OrderId) :
    (book.release elem).cidOidToOrder clientId orderId =
      if clientId = (book.orderData elem).clientId ∧ orderId = (book.orderData elem).clientOrderId
      then none else book.cidOidToOrder clientId orderId := by
  simp [release, cidOidToOrder_setKey]

@[simp] theorem orderData_release : (book.release elem).orderData = book.orderData :=
  (orderViews_eq (order_release book elem)).1

@[simp] theorem nextOrder_release : (book.release elem).nextOrder = book.nextOrder :=
  (orderViews_eq (order_release book elem)).2.1

@[simp] theorem prevOrder_release : (book.release elem).prevOrder = book.prevOrder :=
  (orderViews_eq (order_release book elem)).2.2

end Released

section UnlinkedOrder

variable (book : MEOrderBook) (atPrice elem before after other : ℕ)

/-- What no store to the links of an order and to a level's first order changes. -/
theorem unlinkOrder_keeps {α : Type} (field : MEOrderBook → α)
    (stored : ∀ {book cell change}, OrderLinksOnly change →
      field (book.setOrder cell change) = field book)
    (moved : ∀ {book cell} {first : Pointer},
      field (book.setLevel cell fun level => { level with firstMeOrder := first }) = field book) :
    field (book.unlinkOrder atPrice elem before after) = field book := by
  have next : ∀ {book cell entry}, field (book.setOrder cell fun o =>
      { o with nextOrder := entry }) = field book := stored fun _ => rfl
  have prev : ∀ {book cell entry}, field (book.setOrder cell fun o =>
      { o with prevOrder := entry }) = field book := stored fun _ => rfl
  have cleared : ∀ {book}, field (book.setOrder elem fun o =>
      { o with prevOrder := none, nextOrder := none }) = field book := stored fun _ => rfl
  unfold unlinkOrder
  dsimp only
  rw [cleared]
  split
  · rw [moved, prev, next]
  · rw [prev, next]

@[simp] theorem orderData_unlinkOrder :
    (book.unlinkOrder atPrice elem before after).orderData = book.orderData :=
  unlinkOrder_keeps book atPrice elem before after orderData OrderLinksOnly.orderData rfl

@[simp] theorem orderInUse_unlinkOrder :
    (book.unlinkOrder atPrice elem before after).OrderInUse = book.OrderInUse :=
  unlinkOrder_keeps book atPrice elem before after OrderInUse (by simp) (by simp)

@[simp] theorem levelInUse_unlinkOrder :
    (book.unlinkOrder atPrice elem before after).LevelInUse = book.LevelInUse :=
  unlinkOrder_keeps book atPrice elem before after LevelInUse (by simp) (by simp)

@[simp] theorem orderPool_numElems_unlinkOrder :
    (book.unlinkOrder atPrice elem before after).orderPool.numElems = book.orderPool.numElems :=
  unlinkOrder_keeps book atPrice elem before after (fun book => book.orderPool.numElems)
    (by simp) (by simp)

@[simp] theorem cidOidToOrder_unlinkOrder :
    (book.unlinkOrder atPrice elem before after).cidOidToOrder = book.cidOidToOrder :=
  unlinkOrder_keeps book atPrice elem before after cidOidToOrder (by simp) (by simp)

@[simp] theorem priceOrdersAtPrice_unlinkOrder :
    (book.unlinkOrder atPrice elem before after).priceOrdersAtPrice = book.priceOrdersAtPrice :=
  unlinkOrder_keeps book atPrice elem before after priceOrdersAtPrice (by simp) (by simp)

@[simp] theorem outside_unlinkOrder :
    (book.unlinkOrder atPrice elem before after).outside = book.outside :=
  unlinkOrder_keeps book atPrice elem before after outside (by simp) (by simp)

@[simp] theorem asksByPrice_unlinkOrder :
    (book.unlinkOrder atPrice elem before after).asksByPrice = book.asksByPrice :=
  unlinkOrder_keeps book atPrice elem before after asksByPrice (by simp) (by simp)

@[simp] theorem bidsByPrice_unlinkOrder :
    (book.unlinkOrder atPrice elem before after).bidsByPrice = book.bidsByPrice :=
  unlinkOrder_keeps book atPrice elem before after bidsByPrice (by simp) (by simp)

@[simp] theorem ordersAtPricePool_numElems_unlinkOrder :
    (book.unlinkOrder atPrice elem before after).ordersAtPricePool.numElems =
      book.ordersAtPricePool.numElems :=
  unlinkOrder_keeps book atPrice elem before after (fun book => book.ordersAtPricePool.numElems)
    (by simp) (by simp)

@[simp] theorem levelSide_unlinkOrder :
    (book.unlinkOrder atPrice elem before after).levelSide = book.levelSide :=
  unlinkOrder_keeps book atPrice elem before after levelSide (fun _ => rfl)
    (funext fun _ => field_setLevel MEOrdersAtPrice.side fun _ => rfl)

@[simp] theorem levelPrice_unlinkOrder :
    (book.unlinkOrder atPrice elem before after).levelPrice = book.levelPrice :=
  unlinkOrder_keeps book atPrice elem before after levelPrice (fun _ => rfl)
    (funext fun _ => field_setLevel MEOrdersAtPrice.price fun _ => rfl)

@[simp] theorem nextEntry_unlinkOrder :
    (book.unlinkOrder atPrice elem before after).nextEntry = book.nextEntry :=
  unlinkOrder_keeps book atPrice elem before after nextEntry (fun _ => rfl)
    (funext fun _ => field_setLevel MEOrdersAtPrice.nextEntry fun _ => rfl)

@[simp] theorem prevEntry_unlinkOrder :
    (book.unlinkOrder atPrice elem before after).prevEntry = book.prevEntry :=
  unlinkOrder_keeps book atPrice elem before after prevEntry (fun _ => rfl)
    (funext fun _ => field_setLevel MEOrdersAtPrice.prevEntry fun _ => rfl)

theorem firstMeOrder_unlinkOrder :
    (book.unlinkOrder atPrice elem before after).firstMeOrder other =
      if other = atPrice ∧ book.firstMeOrder atPrice = some elem then some after
      else book.firstMeOrder other := by
  unfold unlinkOrder firstMeOrder
  dsimp only
  split <;> simp only [level_setOrder, level_setLevel] <;> split_ifs <;> simp_all

theorem nextOrder_unlinkOrder :
    (book.unlinkOrder atPrice elem before after).nextOrder other =
      if other = elem then none else if other = before then some after
      else book.nextOrder other := by
  unfold unlinkOrder nextOrder
  dsimp only
  split <;> simp only [order_setOrder, order_setLevel] <;> split_ifs <;> simp_all

theorem prevOrder_unlinkOrder :
    (book.unlinkOrder atPrice elem before after).prevOrder other =
      if other = elem then none else if other = after then some before
      else book.prevOrder other := by
  unfold unlinkOrder prevOrder
  dsimp only
  split <;> simp only [order_setOrder, order_setLevel] <;> split_ifs <;> simp_all

end UnlinkedOrder

/-- The last statements of `removeOrder`: the key's entry is cleared and the block released. -/
theorem run_release (inUse : book.OrderInUse elem)
    (range : KeyInRange (book.orderData elem).clientId (book.orderData elem).clientOrderId) :
    (do
      let removed ← loadOrder (some elem)
      storeKey removed.clientId removed.clientOrderId none
      deallocateOrder (some elem) : BookM PUnit) book =
        .ok ⟨⟩ (book.release elem) := by
  rw [run_loadOrder_bind inUse.1]
  exact (run_storeKey_bind range).trans
    (deallocateOrder_eq_ok_iff.mpr ⟨elem, rfl, by simpa using inUse, rfl⟩)

theorem removeOrder_linked
    (slot : book.priceOrdersAtPrice (priceToIndex (book.orderData elem).price) = some atPrice)
    (atPriceBound : atPrice < book.ordersAtPricePool.numElems) (inUse : book.OrderInUse elem)
    (prevElem : book.prevOrder elem = some before) (nextElem : book.nextOrder elem = some after)
    (others : before ≠ elem) (beforeBound : before < book.orderPool.numElems)
    (afterBound : after < book.orderPool.numElems)
    (range : KeyInRange (book.orderData elem).clientId (book.orderData elem).clientOrderId) :
    removeOrder (some elem) book =
      .ok ⟨⟩ ((book.unlinkOrder atPrice elem before after).release elem) := by
  have prevElem' : (book.order elem).prevOrder = some before := prevElem
  have nextElem' : (book.order elem).nextOrder = some after := nextElem
  have bound := inUse.1
  have tail : ∀ middle, middle.orderData = book.orderData → middle.OrderInUse = book.OrderInUse →
      (do
        let removed ← loadOrder (some elem)
        storeKey removed.clientId removed.clientOrderId none
        deallocateOrder (some elem) : BookM PUnit) middle = .ok ⟨⟩ (middle.release elem) := by
    intro middle sameData sameInUse
    exact run_release (by rwa [sameInUse]) (by rwa [sameData])
  have slot' : book.priceOrdersAtPrice (priceToIndex (book.order elem).price) = some atPrice := slot
  simp only [removeOrder, run_loadOrder_bind bound, run_getOrdersAtPrice_bind, slot', prevElem',
    nextElem', Option.some.injEq, others, if_false, run_storeOrder_bind beforeBound]
  rw [run_storeOrder_bind (by simpa using afterBound),
    run_loadLevel_bind (by simpa using atPriceBound), run_ite]
  have data := orderData_unlinkOrder book atPrice elem before after
  have used := orderInUse_unlinkOrder book atPrice elem before after
  unfold unlinkOrder at data used ⊢
  dsimp only at data used ⊢
  simp only [level_setOrder]
  change (if book.firstMeOrder atPrice = some elem then _ else _) = _
  split
  case isTrue first =>
      rw [if_pos first] at data used
      rw [run_storeLevel_bind (by simpa using atPriceBound),
        run_storeOrder_bind (by simpa using bound)]
      exact tail _ data used
  case isFalse notFirst =>
      rw [if_neg notFirst] at data used
      rw [run_storeOrder_bind (by simpa using bound)]
      exact tail _ data used

/-- What removing a level leaves alone, whatever the state of the level ring. -/
structure RemovesLevel (book last : MEOrderBook) (index elem : ℕ) : Prop where
  held : book.priceOrdersAtPrice index = some elem
  order : last.order = book.order
  cidOidToOrder : last.cidOidToOrder = book.cidOidToOrder
  outside : last.outside = book.outside
  orderPool : last.orderPool = book.orderPool
  levelSide : last.levelSide = book.levelSide
  levelPrice : last.levelPrice = book.levelPrice
  firstMeOrder : last.firstMeOrder = book.firstMeOrder
  slot : ∀ other, last.priceOrdersAtPrice other =
    if other = index then none else book.priceOrdersAtPrice other
  levelInUse : ∀ other, last.LevelInUse other ↔ book.LevelInUse other ∧ other ≠ elem

theorem removesLevel_of_run (ran : removeOrdersAtPrice side price book = .ok done last) :
    ∃ elem, RemovesLevel book last (priceToIndex price) elem := by
  rcases removeOrdersAtPrice_cases ran with
    ⟨elem, held, -, ⟨-, rfl⟩ | ⟨before, after, -, -, -, -, -, rfl⟩⟩
  · refine ⟨elem, ⟨held, by simp, by simp, by simp, by simp, ?_, ?_, ?_, ?_, ?_⟩⟩
    · exact (levelViews_eq (by simp)).1
    · exact (levelViews_eq (by simp)).2.1
    · exact (levelViews_eq (by simp)).2.2.1
    · simp [priceOrdersAtPrice_setSlot]
    · simp [levelInUse_freeLevel]
  · refine ⟨elem, ⟨held, by simp, by simp, by simp, by simp, ?_, ?_, ?_, ?_, ?_⟩⟩
    · rw [(levelViews_eq (by simp; rfl)).1, levelSide_unlinkLevel]
    · rw [(levelViews_eq (by simp; rfl)).2.1, levelPrice_unlinkLevel]
    · rw [(levelViews_eq (by simp; rfl)).2.2.1, firstMeOrder_unlinkLevel]
    · simp [priceOrdersAtPrice_setSlot]
    · simp [levelInUse_freeLevel]

theorem RemovesLevel.orderInUse {index : ℕ} (removes : RemovesLevel book last index elem) :
    last.OrderInUse = book.OrderInUse := by
  funext other
  rw [OrderInUse, removes.orderPool, OrderInUse]

theorem removeOrder_alone (inUse : book.OrderInUse elem)
    (alone : book.prevOrder elem = some elem)
    (range : KeyInRange (book.orderData elem).clientId (book.orderData elem).clientOrderId)
    (ran : removeOrdersAtPrice (book.orderData elem).side (book.orderData elem).price book =
      .ok done last) :
    removeOrder (some elem) book =
      .ok ⟨⟩ (last.release elem) := by
  have alone' : (book.order elem).prevOrder = some elem := alone
  rcases removesLevel_of_run ran with ⟨_, removes⟩
  have sameInUse := removes.orderInUse
  have sameData := (orderViews_eq removes.order).1
  simp only [removeOrder, run_loadOrder_bind inUse.1, run_getOrdersAtPrice_bind, alone', if_true]
  have ran' : removeOrdersAtPrice (book.order elem).side (book.order elem).price book =
      .ok done last := ran
  rw [run_bind_of_ok ran']
  exact run_release (by rwa [sameInUse]) (by rwa [sameData])

theorem release_cases
    (ran : (do
      let removed ← loadOrder (some elem)
      storeKey removed.clientId removed.clientOrderId none
      deallocateOrder (some elem) : BookM PUnit) book = .ok done last) :
    book.OrderInUse elem ∧
      KeyInRange (book.orderData elem).clientId (book.orderData elem).clientOrderId ∧
      last = book.release elem := by
  rcases run_bind_eq_ok_iff.mp ran with ⟨_, _, loaded, ran⟩
  rcases loadOrder_eq_ok_iff.mp loaded with ⟨_, ⟨⟩, -, rfl, rfl⟩
  rcases run_bind_eq_ok_iff.mp ran with ⟨_, _, stored, ran⟩
  rcases storeKey_eq_ok_iff.mp stored with ⟨range, rfl⟩
  rcases deallocateOrder_eq_ok_iff.mp ran with ⟨_, ⟨⟩, inUse, rfl⟩
  exact ⟨by simpa using inUse, range, rfl⟩

/-- A run of `removeOrder` that does not fault released a block in use and took one of the two
branches. -/
theorem removeOrder_cases (ran : removeOrder (some elem) book = .ok done last) :
    book.OrderInUse elem ∧
      KeyInRange (book.orderData elem).clientId (book.orderData elem).clientOrderId ∧
      ((book.prevOrder elem = some elem ∧ ∃ middle,
          removeOrdersAtPrice (book.orderData elem).side (book.orderData elem).price book =
            .ok ⟨⟩ middle ∧
          last = middle.release elem) ∨
        ∃ atPrice before after,
          book.priceOrdersAtPrice (priceToIndex (book.orderData elem).price) = some atPrice ∧
          book.prevOrder elem = some before ∧ book.nextOrder elem = some after ∧
          before ≠ elem ∧
          last = (book.unlinkOrder atPrice elem before after).release elem) := by
  have whole := ran
  rcases run_bind_eq_ok_iff.mp ran with ⟨_, _, loaded, ran⟩
  rcases loadOrder_eq_ok_iff.mp loaded with ⟨_, ⟨⟩, bound, rfl, rfl⟩
  rw [run_getOrdersAtPrice_bind, run_ite] at ran
  split at ran
  case isTrue alone =>
      rcases run_bind_eq_ok_iff.mp ran with ⟨_, middle, removed, ran⟩
      rcases removesLevel_of_run removed with ⟨_, removes⟩
      have sameInUse := removes.orderInUse
      have sameData := (orderViews_eq removes.order).1
      rcases release_cases ran with ⟨inUse, range, rfl⟩
      rw [sameData] at range
      exact ⟨by rwa [← sameInUse], range, Or.inl ⟨alone, middle, removed, rfl⟩⟩
  case isFalse linked =>
      rcases run_bind_eq_ok_iff.mp ran with ⟨_, _, stored, ran⟩
      rcases storeOrder_eq_ok_iff.mp stored with ⟨before, prevElem, beforeBound, rfl⟩
      rcases run_bind_eq_ok_iff.mp ran with ⟨_, _, stored, ran⟩
      rcases storeOrder_eq_ok_iff.mp stored with ⟨after, nextElem, afterBound, rfl⟩
      rcases run_bind_eq_ok_iff.mp ran with ⟨_, _, loaded, ran⟩
      rcases loadLevel_eq_ok_iff.mp loaded with ⟨atPrice, slot, atPriceBound, rfl, rfl⟩
      have others : before ≠ elem := by
        rintro rfl
        exact linked prevElem
      have released : (do
            let removed ← loadOrder (some elem)
            storeKey removed.clientId removed.clientOrderId none
            deallocateOrder (some elem) : BookM PUnit)
          (book.unlinkOrder atPrice elem before after) = .ok done last := by
        have slot' : book.priceOrdersAtPrice (priceToIndex (book.order elem).price) =
          some atPrice := slot
        simp only [run_ite, level_setOrder, prevElem, nextElem, slot'] at ran
        change (if book.firstMeOrder atPrice = some elem then _ else _) = _ at ran
        unfold unlinkOrder
        dsimp only
        split at ran
        case isTrue first =>
            rw [run_storeLevel_bind (by simpa using atPriceBound)] at ran
            rw [if_pos first]
            exact (run_storeOrder_bind (by simpa using bound)).symm.trans ran
        case isFalse notFirst =>
            rw [if_neg notFirst]
            exact (run_storeOrder_bind (by simpa using bound)).symm.trans ran
      rcases release_cases released with ⟨inUse, range, -⟩
      rw [orderInUse_unlinkOrder] at inUse
      rw [orderData_unlinkOrder] at range
      have explicit := removeOrder_linked slot (by simpa using atPriceBound) inUse prevElem nextElem
        others beforeBound (by simpa using afterBound) range
      exact ⟨inUse, range, Or.inr ⟨atPrice, before, after, slot, prevElem, nextElem, others,
        (EStateM.Result.ok.inj (explicit.symm.trans whole)).2.symm⟩⟩

/-- What `removeOrder` leaves alone, whatever the state of the rings. -/
structure RemovesOrder (book last : MEOrderBook) (elem : ℕ) : Prop where
  inUse : book.OrderInUse elem
  orderData : last.orderData = book.orderData
  levelSide : last.levelSide = book.levelSide
  levelPrice : last.levelPrice = book.levelPrice
  outside : last.outside = book.outside
  orderInUse : ∀ other, last.OrderInUse other ↔ book.OrderInUse other ∧ other ≠ elem
  slot : ∀ index other, last.priceOrdersAtPrice index = some other →
    book.priceOrdersAtPrice index = some other
  cidOidToOrder : ∀ clientId orderId, last.cidOidToOrder clientId orderId =
    if clientId = (book.orderData elem).clientId ∧ orderId = (book.orderData elem).clientOrderId
    then none else book.cidOidToOrder clientId orderId

theorem removesOrder_of_run (ran : removeOrder (some elem) book = .ok done last) :
    RemovesOrder book last elem := by
  rcases removeOrder_cases ran with ⟨inUse, -, ⟨-, middle, removed, rfl⟩ |
    ⟨atPrice, before, after, -, -, -, -, rfl⟩⟩
  · rcases removesLevel_of_run removed with ⟨level, removes⟩
    rcases levelViews_eq (level_release middle elem) with ⟨sideEq, priceEq, -, -, -⟩
    have data := (orderViews_eq removes.order).1
    refine ⟨inUse, by simp [data], by rw [sideEq, removes.levelSide],
      by rw [priceEq, removes.levelPrice], by simp [removes.outside], ?_, ?_, ?_⟩
    · intro other
      rw [orderInUse_release, removes.orderInUse]
    · intro index other held
      rw [priceOrdersAtPrice_release, removes.slot] at held
      split at held
      · cases held
      · exact held
    · simp [cidOidToOrder_release, removes.cidOidToOrder, data]
  · rcases levelViews_eq (level_release (book.unlinkOrder atPrice elem before after) elem) with
      ⟨sideEq, priceEq, -, -, -⟩
    refine ⟨inUse, by simp, by rw [sideEq, levelSide_unlinkOrder],
      by rw [priceEq, levelPrice_unlinkOrder], by simp, ?_, by simp, ?_⟩
    · simp [orderInUse_release]
    · simp [cidOidToOrder_release]

end QuantEngine.MEOrderBook
