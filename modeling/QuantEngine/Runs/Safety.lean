import QuantEngine.Book.Adding
import QuantEngine.Book.Slicing
import QuantEngine.Runs.Cancelling

/-!
# Adding and memory safety

On a well-formed book matching never faults, so `add` is in danger only with a
quantity left over. Then every level within the limit is gone, and
`getNextPriority` dereferences the pointer that the slot of the price holds,
null or not. Behind it `addOrder` stores the key without a check of the ids,
unless the order pool ends the process first.
-/

namespace QuantEngine

variable {leavesQty : Quantity} {orders : List RestingOrder} {levels : List PriceLevel}
  {beyond : Price → Bool}

/-- The quantity of some orders taken together. -/
def totalQuantity (orders : List RestingOrder) : ℕ :=
  (orders.map fun order => order.quantity.toNat).sum

/-- The quantity that rests within the limit. -/
def quantityWithin (beyond : Price → Bool) (levels : List PriceLevel) : ℕ :=
  ((levels.takeWhile fun level => !beyond level.price).map fun level =>
    totalQuantity level.orders).sum

theorem fillOrders_leavesQty_eq :
    (fillOrders leavesQty orders).leavesQty.toNat = leavesQty.toNat - totalQuantity orders := by
  induction orders generalizing leavesQty with
  | nil => rfl
  | cons resting orders ih =>
      have total : totalQuantity (resting :: orders) =
          resting.quantity.toNat + totalQuantity orders := rfl
      by_cases none : leavesQty = 0
      · rw [none, fillOrders_zero]
        simp
      by_cases used : (Trade.between leavesQty resting).remaining = 0
      · rw [fillOrders_used none used]
        simp only [ih, Trade.toNat_leavesQty, total]
        omega
      · rw [fillOrders_reduced none used]
        rw [Trade.remaining_eq_zero_iff] at used
        simp only [UInt32.toNat_zero, total]
        omega

theorem matchLevels_leavesQty_eq :
    (matchLevels beyond leavesQty levels).leavesQty.toNat =
      leavesQty.toNat - quantityWithin beyond levels := by
  induction levels generalizing leavesQty with
  | nil => rfl
  | cons level levels ih =>
      by_cases none : leavesQty = 0
      · rw [none, matchLevels_zero]
        simp
      by_cases stops : beyond level.price = true
      · rw [matchLevels_beyond level stops]
        simp [quantityWithin, stops]
      have total : quantityWithin beyond (level :: levels) =
          totalQuantity level.orders + quantityWithin beyond levels := by
        simp [quantityWithin, stops]
      have filled : (fillOrders leavesQty level.orders).leavesQty.toNat =
          leavesQty.toNat - totalQuantity level.orders := fillOrders_leavesQty_eq
      by_cases emptied : (fillOrders leavesQty level.orders).orders = []
      · rw [matchLevels_emptied level none stops emptied]
        simp only [ih, filled, total]
        omega
      · have nothing := fillOrders_leavesQty emptied
        rw [nothing] at filled
        rw [matchLevels_kept level none stops emptied]
        simp only [nothing, UInt32.toNat_zero, total] at filled ⊢
        omega

/-- With a quantity left over, only the levels from the first one beyond the limit on stay. -/
theorem matchLevels_levels_eq (left : (matchLevels beyond leavesQty levels).leavesQty ≠ 0) :
    (matchLevels beyond leavesQty levels).levels =
      levels.dropWhile fun level => !beyond level.price := by
  induction levels generalizing leavesQty with
  | nil => rfl
  | cons level levels ih =>
      by_cases none : leavesQty = 0
      · rw [none, matchLevels_zero] at left
        exact absurd rfl left
      by_cases stops : beyond level.price = true
      · rw [matchLevels_beyond level stops]
        simp [stops]
      by_cases emptied : (fillOrders leavesQty level.orders).orders = []
      · rw [matchLevels_emptied level none stops emptied] at left ⊢
        simp only [ih left, List.dropWhile_cons, stops]
        rfl
      · rw [matchLevels_kept level none stops emptied] at left
        exact absurd (fillOrders_leavesQty emptied) left

/-- Along a list in which `p` fails for good once it fails, `dropWhile` drops what satisfies `p`. -/
theorem mem_dropWhile_iff {α : Type} {p : α → Bool} {l : List α} {x : α}
    (stays : l.Pairwise fun first second => p first = false → p second = false) :
    x ∈ l.dropWhile p ↔ x ∈ l ∧ p x = false := by
  induction l with
  | nil => simp
  | cons first l ih =>
      rcases List.pairwise_cons.mp stays with ⟨firstStays, restStays⟩
      by_cases drops : p first = true
      · rw [List.dropWhile_cons_of_pos drops, ih restStays, List.mem_cons]
        constructor
        · rintro ⟨inRest, fails⟩
          exact ⟨Or.inr inRest, fails⟩
        · rintro ⟨rfl | inRest, fails⟩
          · rw [drops] at fails
            cases fails
          · exact ⟨inRest, fails⟩
      · rw [List.dropWhile_cons_of_neg drops, List.mem_cons]
        constructor
        · rintro (rfl | inRest)
          · exact ⟨Or.inl rfl, eq_false_of_ne_true drops⟩
          · exact ⟨Or.inr inRest, firstStays x inRest (eq_false_of_ne_true drops)⟩
        · rintro ⟨inList, -⟩
          exact inList

namespace MEOrderBook

open Exec LinkedRing

variable {book last : MEOrderBook} {side : Side} {own own' others asks bids levels : List Entry}
  {elem atPrice : ℕ} {price : Price} {qty left : Quantity} {clientId : ClientId}
  {orderId : OrderId} {tickerId : TickerId} {aggressor : Aggressor}

/-- Matching moves no cursor. -/
theorem matchAt_orderPool (ran : matchAt aggressor side price qty book = .ok left last) :
    last.orderPool.numElems = book.orderPool.numElems ∧
      last.orderPool.nextFreeIndex = book.orderPool.nextFreeIndex := by
  refine checkForMatch_invariant { aggressor with side := side }
    (fun state => state.orderPool.numElems = book.orderPool.numElems ∧
      state.orderPool.nextFreeIndex = book.orderPool.nextFreeIndex) ?_ ⟨rfl, rfl⟩ ran
  intro state next pointer leaves left kept matched
  rcases matchBy_cases matched with ⟨elem, rfl, -, -, ⟨-, rfl⟩ | ⟨-, removed⟩⟩
  · exact kept
  · have outside := (removesOrder_of_run removed).outside
    exact ⟨(congrArg Outside.orderCapacity outside).trans kept.1,
      (congrArg Outside.orderCursor outside).trans kept.2⟩

/-- With a quantity left over, the levels that stay are those beyond the limit. -/
theorem mem_levelsOf_left (sound : WellFormed book side.opposite own others)
    (trades : side ≠ .invalid) (shrinks : Shrinks book last side.opposite own own')
    (view : last.view own' =
      (book.view own).dropWhile fun level => !beyondLimit side price level.price) :
    atPrice ∈ levelsOf own' ↔
      atPrice ∈ levelsOf own ∧ beyondLimit side price (book.levelPrice atPrice) = true := by
  have listed : ∀ {cell}, cell ∈ levelsOf own → cell ∈ levelsOf (own ++ others) := by
    intro cell member
    simp only [levelsOf, List.map_append, List.mem_append]
    exact Or.inl member
  have same : levelsOf own' = (levelsOf own).dropWhile
      fun cell => !beyondLimit side price (book.levelPrice cell) := by
    have prices := congrArg (List.map PriceLevel.price) view
    simp only [MEOrderBook.view, List.dropWhile_map, List.map_map, Function.comp_def] at prices
    rw [shrinks.levelPrice] at prices
    rw [levelsOf, List.dropWhile_map]
    apply eq_of_map_eq (f := book.levelPrice) (g := book.levelPrice)
    · intro first firstMem second secondMem samePrice
      have secondOwn : second ∈ (levelsOf own).dropWhile fun cell =>
          !beyondLimit side price (book.levelPrice cell) := by
        rw [levelsOf, List.dropWhile_map]
        exact secondMem
      exact sound.directory.level_eq_of_price (listed (shrinks.levels.subset firstMem))
        (listed ((List.dropWhile_sublist _).subset secondOwn)) samePrice
    · simpa [Function.comp_def] using prices
  rw [same, mem_dropWhile_iff]
  · simp
  · refine sound.ladder.sorted.imp ?_
    intro first second better beyond
    simp only [Bool.not_eq_false'] at beyond ⊢
    exact beyondLimit_of_better trades beyond better

/-- The listing that an order of the side trades with. -/
def opposing (side : Side) (asks bids : List Entry) : List Entry :=
  if side = .buy then asks else bids

theorem WellFormed.exists_opposing (sound : WellFormed book .sell asks bids)
    (trades : side ≠ .invalid) :
    ∃ others, WellFormed book side.opposite (opposing side asks bids) others := by
  cases side with
  | invalid => exact absurd rfl trades
  | buy => exact ⟨bids, sound⟩
  | sell => exact ⟨asks, sound.swap⟩

/-- What matching leaves of a well-formed book when a quantity is left over. -/
structure LeftOver (book last : MEOrderBook) (side : Side) (price : Price)
    (own own' others : List Entry) : Prop where
  sound : WellFormed last side.opposite own' others
  shrinks : Shrinks book last side.opposite own own'
  view : last.view own' =
    (book.view own).dropWhile fun level => !beyondLimit side price level.price
  levels : ∀ {atPrice}, atPrice ∈ levelsOf own' ↔
    atPrice ∈ levelsOf own ∧ beyondLimit side price (book.levelPrice atPrice) = true
  size : last.orderPool.numElems = book.orderPool.numElems
  cursor : last.orderPool.nextFreeIndex = book.orderPool.nextFreeIndex

theorem WellFormed.matchAt_left (sound : WellFormed book side.opposite own others)
    (trades : side ≠ .invalid) (aggressor : Aggressor) (price : Price) (qty : Quantity) :
    ∃ left last, MEOrderBook.matchAt aggressor side price qty book = .ok left last ∧
      left.toNat = qty.toNat - quantityWithin (beyondLimit side price) (book.view own) ∧
      (left ≠ 0 → ∃ own', LeftOver book last side price own own' others) := by
  rcases sound.matchAt trades aggressor price qty with
    ⟨last, own', sound', shrinks, view, returns⟩
  refine ⟨_, last, returns.ran, matchLevels_leavesQty_eq, ?_⟩
  intro left
  rw [matchLevels_levels_eq left] at view
  have pools := matchAt_orderPool returns.ran
  exact ⟨own', sound', shrinks, view, mem_levelsOf_left sound trades shrinks view, pools.1, pools.2⟩

namespace LeftOver

variable (leftOver : LeftOver book last side price own own' others)
  (sound : WellFormed book side.opposite own others) (trades : side ≠ .invalid)

include leftOver

include sound trades in
/-- The slot of a price holds a level afterwards if the one that it held is not traded away. -/
theorem slot_iff {index : ℕ} (bound : index < meMaxPriceLevels) :
    last.priceOrdersAtPrice index = some atPrice ↔
      book.priceOrdersAtPrice index = some atPrice ∧
        (book.levelSide atPrice = side ∨
          beyondLimit side price (book.levelPrice atPrice) = true) := by
  rw [leftOver.sound.directory.slot_eq_some_iff bound, sound.directory.slot_eq_some_iff bound,
    leftOver.shrinks.levelPrice]
  simp only [levelsOf, List.map_append, List.mem_append]
  rw [← levelsOf, ← levelsOf, ← levelsOf, leftOver.levels]
  constructor
  · rintro ⟨⟨inOwn, beyond⟩ | inOthers, indexEq⟩
    · exact ⟨⟨Or.inl inOwn, indexEq⟩, Or.inr beyond⟩
    · refine ⟨⟨Or.inr inOthers, indexEq⟩, Or.inl ?_⟩
      rw [sound.otherLadder.levelSide atPrice inOthers, opposite_opposite]
  · rintro ⟨⟨inOwn | inOthers, indexEq⟩, stays⟩
    · refine ⟨Or.inl ⟨inOwn, ?_⟩, indexEq⟩
      rcases stays with sameSide | beyond
      · rw [sound.ladder.levelSide atPrice inOwn] at sameSide
        cases side <;> cases sameSide
        exact absurd rfl trades
      · exact beyond
    · exact ⟨Or.inr inOthers, indexEq⟩

/-- The blocks that were free still are. -/
theorem isFree (elemBound : elem < last.orderPool.numElems)
    (free : (book.orderPool.store elem).isFree = true) :
    (last.orderPool.store elem).isFree = true := by
  by_contra busy
  have used := leftOver.shrinks.inUse elem ⟨elemBound, eq_false_of_ne_true busy⟩
  exact absurd free (by simp [used.2])

theorem cursorFree (cursor : book.orderPool.CursorFree book.orderPool.numElems) :
    last.orderPool.CursorFree last.orderPool.numElems := by
  refine ⟨?_, ?_⟩
  · rw [leftOver.cursor, leftOver.size]
    exact cursor.inRange
  · rw [leftOver.cursor]
    apply leftOver.isFree
    · rw [leftOver.size]
      exact cursor.inRange
    · exact cursor.isFree

include sound in
/-- The orders of a level within the limit are freed. -/
theorem freed (listed : atPrice ∈ levelsOf own)
    (within : beyondLimit side price (book.levelPrice atPrice) = false) :
    ∃ elem, book.OrderInUse elem ∧ ¬last.OrderInUse elem := by
  rcases List.mem_map.mp listed with ⟨⟨listedAt, orders⟩, entryMem, rfl⟩
  have entryAll : (listedAt, orders) ∈ own ++ others := List.mem_append_left _ entryMem
  rcases orders with _ | ⟨elem, rest⟩
  · exact absurd rfl (sound.directory.ne_nil entryAll)
  have elemOwn : elem ∈ ordersOf own := List.mem_flatMap.mpr ⟨_, entryMem, List.mem_cons_self⟩
  have elemAll : elem ∈ ordersOf (own ++ others) :=
    List.mem_flatMap.mpr ⟨_, entryAll, List.mem_cons_self⟩
  refine ⟨elem, sound.directory.orderInUse elem elemAll, leftOver.shrinks.gone elem elemOwn ?_⟩
  intro stays
  rcases List.mem_flatMap.mp stays with ⟨entry, entryMem', elemMem⟩
  have beyond := (leftOver.levels.mp (List.mem_map_of_mem entryMem')).2
  have price' := leftOver.sound.directory.price entry (List.mem_append_left _ entryMem') elem
    elemMem
  have price := sound.directory.price _ entryAll elem List.mem_cons_self
  rw [leftOver.shrinks.levelPrice, leftOver.shrinks.data] at price'
  rw [← price', price, within] at beyond
  cases beyond

include sound in
/-- Where no level is within the limit, nothing is traded and no block is freed. -/
theorem used_of_beyond (none : ∀ atPrice ∈ levelsOf own,
    beyondLimit side price (book.levelPrice atPrice) = true) (used : book.OrderInUse elem) :
    last.OrderInUse elem := by
  have sameView : book.view own = last.view own' := by
    rw [leftOver.view]
    rcases own with _ | ⟨entry, rest⟩
    · rfl
    · have beyond := none entry.1 List.mem_cons_self
      simp [MEOrderBook.view, beyond]
  have same : own = own' := (Shrinks.refl book side.opposite own).listing_eq sound.directory
    leftOver.shrinks sameView
  have listed := sound.ordersOnly elem used
  rw [same] at listed
  exact leftOver.sound.directory.orderInUse elem listed

include sound in
/-- A block is spare afterwards if one was before or an order was freed. -/
theorem spare_iff (cursor : book.orderPool.CursorFree book.orderPool.numElems) :
    last.orderPool.Spare ↔ book.orderPool.Spare ∨
      ∃ atPrice ∈ levelsOf own, beyondLimit side price (book.levelPrice atPrice) = false := by
  constructor
  · rintro ⟨other, otherLt, different, free⟩
    rw [leftOver.size] at otherLt
    rw [leftOver.cursor] at different
    by_contra neither
    simp only [not_or, not_exists, not_and, Bool.not_eq_false] at neither
    by_cases used : book.OrderInUse other
    · have still := leftOver.used_of_beyond sound neither.2 used
      exact absurd free (by simp [still.2])
    · refine neither.1 ⟨other, otherLt, different, ?_⟩
      by_contra busy
      exact used ⟨otherLt, eq_false_of_ne_true busy⟩
  · rintro (⟨other, otherLt, different, free⟩ | ⟨atPrice, listed, within⟩)
    · rw [← leftOver.size] at otherLt
      rw [← leftOver.cursor] at different
      exact ⟨other, otherLt, different, leftOver.isFree otherLt free⟩
    · rcases leftOver.freed sound listed within with ⟨elem, used, gone⟩
      have elemLt : elem < last.orderPool.numElems := by
        rw [leftOver.size]
        exact used.1
      refine ⟨elem, elemLt, ?_, ?_⟩
      · rw [leftOver.cursor]
        rintro rfl
        exact absurd cursor.isFree (by simp [used.2])
      · by_contra busy
        exact gone ⟨elemLt, eq_false_of_ne_true busy⟩

end LeftOver

/-- The run does not stop at an access through a bad pointer or beyond a map. -/
def Safely {α : Type} (result : EStateM.Result Fault MEOrderBook α) : Prop :=
  ∀ fault last, result = .error fault last →
    fault ≠ .nullPointer ∧ fault ≠ .wildPointer ∧ fault ≠ .outOfRange

theorem safely_ok {α : Type} {value : α} :
    Safely (.ok value last : EStateM.Result Fault MEOrderBook α) :=
  fun _ _ none => nomatch none

theorem run_getNextPriority_null
    (slot : book.priceOrdersAtPrice (priceToIndex price) = none) :
    getNextPriority price book = .error .nullPointer book := by
  have loaded : loadLevel none book = .error .nullPointer book := rfl
  rw [getNextPriority, run_getOrdersAtPrice_bind, slot]
  exact run_bind_of_error loaded

theorem Directory.run_getNextPriority (dir : Directory book levels)
    (slot : book.priceOrdersAtPrice (priceToIndex price) = some atPrice) :
    ∃ priority, getNextPriority price book = .ok priority book := by
  rcases dir.slotOnly _ _ (priceToIndex_lt _) slot with ⟨listed, -⟩
  rcases List.mem_map.mp listed with ⟨⟨_, orders⟩, entryMem, rfl⟩
  rcases (dir.levelQueue entryMem).run_getNextPriority slot with ⟨tail, -, returned⟩
  exact ⟨_, returned⟩

/-- The part of `add` after matching. -/
def addLeftover (submission : Submission) (marketOrderId : OrderId) (leftQuantity : Quantity) :
    BookM Unit := do
  let priority ← getNextPriority submission.price
  restOrder ({ submission with priority := priority }.leftover marketOrderId leftQuantity)
  sendMarketUpdate ({ submission with priority := priority }.addUpdate marketOrderId leftQuantity)

/-- `add` with its arguments taken together; the priority among them is not one. -/
abbrev addBy (submission : Submission) : BookM Unit :=
  add submission.clientId submission.orderId submission.tickerId submission.side submission.price
    submission.qty

theorem run_addBy {submission : Submission} : addBy submission book =
    (matchAt (submission.aggressor book.nextMarketOrderId) submission.side submission.price
      submission.qty >>= fun leftQuantity =>
        if leftQuantity ≠ 0 then addLeftover submission book.nextMarketOrderId leftQuantity
        else pure ⟨⟩) (book.accepting submission) := rfl

/-- An order that is rested in a level joins it; its ids are looked at last. -/
theorem Directory.safely_restOrder_iff {order : RestingOrder} (dir : Directory book levels)
    (cursor : book.orderPool.CursorFree book.orderPool.numElems)
    (slot : book.priceOrdersAtPrice (priceToIndex order.price) = some atPrice) :
    Safely (restOrder order book) ↔
      KeyInRange order.clientId order.clientOrderId ∨ ¬book.orderPool.Spare := by
  by_cases spare : book.orderPool.Spare
  · rcases allocateOrder_returns cursor spare { toRestingOrder := order } with
      ⟨elem, fresh, allocated, allocates⟩
    have data : fresh.orderData elem = order := by rw [allocates.orderData_eq, if_pos rfl]
    have elemBound : elem < fresh.orderPool.numElems :=
      ((allocates.inUse elem).mpr (Or.inl rfl)).1
    have slot' : fresh.priceOrdersAtPrice (priceToIndex (fresh.orderData elem).price) =
        some atPrice := by
      rw [data, allocates.priceOrdersAtPrice, slot]
    rcases (allocates.directory dir).run_addOrder_joins elemBound slot' with
      ⟨first, others, tail, -, -, joins⟩
    have ran : restOrder order book = storeKey order.clientId order.clientOrderId (some elem)
        (fresh.appendOrder elem first tail) := by
      rw [← data, ← joins, data]
      exact run_bind_of_ok allocated
    rw [ran]
    by_cases range : KeyInRange order.clientId order.clientOrderId
    · have stored : storeKey order.clientId order.clientOrderId (some elem)
          (fresh.appendOrder elem first tail) = .ok ⟨⟩ _ := storeKey_eq_ok_iff.mpr ⟨range, rfl⟩
      rw [stored]
      exact iff_of_true safely_ok (Or.inl range)
    · have beyond : storeKey order.clientId order.clientOrderId (some elem)
          (fresh.appendOrder elem first tail) =
            .error .outOfRange (fresh.appendOrder elem first tail) := by
        simp [storeKey, range]
      rw [beyond]
      refine iff_of_false ?_ (by simp [range, spare])
      intro safely
      exact (safely _ _ rfl).2.2 rfl
  · have fatal := allocateOrder_fatal cursor spare { toRestingOrder := order }
    have ran : restOrder order book = .error (.fatal "MemPool out of space") book :=
      run_bind_of_error fatal
    rw [ran]
    refine iff_of_true ?_ (Or.inr spare)
    rintro fault last ⟨⟩
    simp

theorem safely_bind_iff {α β : Type} {code : BookM α} {next : α → BookM β}
    (returns : ∀ value state, Safely (next value state)) :
    Safely ((code >>= next) book) ↔ Safely (code book) := by
  cases ran : code book with
  | ok value state =>
      rw [run_bind_of_ok ran]
      exact iff_of_true (returns value state) safely_ok
  | error fault state =>
      rw [run_bind_of_error ran]
      constructor
      · rintro safely _ _ ⟨⟩
        exact safely fault state rfl
      · rintro safely _ _ ⟨⟩
        exact safely fault state rfl

theorem Directory.safely_addLeftover_iff {submission : Submission} {marketOrderId : OrderId}
    (dir : Directory book levels)
    (cursor : book.orderPool.CursorFree book.orderPool.numElems) :
    Safely (addLeftover submission marketOrderId left book) ↔
      (∃ atPrice, book.priceOrdersAtPrice (priceToIndex submission.price) = some atPrice) ∧
        (KeyInRange submission.clientId submission.orderId ∨ ¬book.orderPool.Spare) := by
  rcases slot : book.priceOrdersAtPrice (priceToIndex submission.price) with _ | atPrice
  · have faults : addLeftover submission marketOrderId left book = .error .nullPointer book :=
      run_bind_of_error (run_getNextPriority_null slot)
    rw [faults]
    refine iff_of_false ?_ (by simp)
    intro safely
    exact (safely _ _ rfl).1 rfl
  · rcases dir.run_getNextPriority slot with ⟨priority, returned⟩
    let order : RestingOrder := { submission with priority := priority }.leftover marketOrderId left
    have rests : Safely (restOrder order book) ↔
        KeyInRange submission.clientId submission.orderId ∨ ¬book.orderPool.Spare :=
      dir.safely_restOrder_iff cursor slot
    rw [addLeftover, run_bind_of_ok returned]
    apply (safely_bind_iff fun _ _ => safely_ok).trans
    apply rests.trans
    simp

theorem Arranged.accepting {submission : Submission} (arranged : Arranged book side own others) :
    Arranged (book.accepting submission) side own others :=
  arranged.of_sameMemory ⟨rfl, rfl, rfl, rfl⟩ rfl rfl

/-- `add` makes no bad access. -/
def AddsSafely (book : MEOrderBook) (clientId : ClientId) (orderId : OrderId)
    (tickerId : TickerId) (side : Side) (price : Price) (qty : Quantity) : Prop :=
  Safely (add clientId orderId tickerId side price qty book)

/-- `add` is safe if matching uses the order up. Otherwise the slot of its price has to hold a level
that is not traded away, and the ids have to be in range unless the order pool cannot serve. -/
theorem addsSafely_iff (sound : WellFormed book .sell asks bids) (stocked : Stocked book)
    (trades : side ≠ .invalid) (clientId : ClientId) (orderId : OrderId) (tickerId : TickerId)
    (price : Price) (qty : Quantity) :
    AddsSafely book clientId orderId tickerId side price qty ↔
      qty.toNat ≤ quantityWithin (beyondLimit side price) (book.view (opposing side asks bids)) ∨
      (∃ atPrice, book.priceOrdersAtPrice (priceToIndex price) = some atPrice ∧
        (book.levelSide atPrice = side ∨
          beyondLimit side price (book.levelPrice atPrice) = true)) ∧
      (KeyInRange clientId orderId ∨ ¬(book.orderPool.Spare ∨
        ∃ atPrice ∈ levelsOf (opposing side asks bids),
          beyondLimit side price (book.levelPrice atPrice) = false)) := by
  let submission : Submission := ⟨1, clientId, orderId, tickerId, side, price, qty⟩
  rcases sound.exists_opposing trades with ⟨others, opposed⟩
  have accepted : WellFormed (book.accepting submission) side.opposite (opposing side asks bids)
      others := opposed.arranged.accepting.wellFormed opposed.ids
  rcases accepted.matchAt_left trades (submission.aggressor book.nextMarketOrderId) price qty with
    ⟨left, last, matched, amount, leaves⟩
  have ran : add clientId orderId tickerId side price qty book =
      (if left ≠ 0 then addLeftover submission book.nextMarketOrderId left
        else pure ⟨⟩ : BookM PUnit) last := by
    change addBy submission book = _
    rw [run_addBy]
    exact run_bind_of_ok matched
  have sameView : (book.accepting submission).view = book.view := rfl
  rw [sameView] at amount
  rw [AddsSafely, ran]
  by_cases nothing : left = 0
  · rw [nothing] at amount
    have within : qty.toNat ≤ quantityWithin (beyondLimit side price)
        (book.view (opposing side asks bids)) := Nat.sub_eq_zero_iff_le.mp amount.symm
    rw [if_neg (not_not_intro nothing)]
    exact iff_of_true safely_ok (Or.inl within)
  · have beyond : ¬qty.toNat ≤ quantityWithin (beyondLimit side price)
        (book.view (opposing side asks bids)) := by
      intro within
      rw [Nat.sub_eq_zero_of_le within] at amount
      exact nothing (UInt32.toNat_inj.mp amount)
    rcases leaves nothing with ⟨own', leftOver⟩
    rw [if_pos nothing, leftOver.sound.directory.safely_addLeftover_iff
      (leftOver.cursorFree stocked.order), leftOver.spare_iff accepted stocked.order]
    simp only [leftOver.slot_iff accepted trades (priceToIndex_lt _), beyond, false_or]
    exact Iff.rfl

/-- A BUY order that joins the level at 9. -/
theorem addsSafely_sample : AddsSafely sampleRoomyBook 3 1 0 .buy 9 3 :=
  (addsSafely_iff sampleRoomyBook_wellFormed sampleRoomyBook_stocked (by decide) 3 1 0 9 3).mpr
    (Or.inr ⟨⟨1, rfl, Or.inl rfl⟩, Or.inl (by decide)⟩)

/-- The first order of an empty book: the slot of its price is null. -/
theorem not_addsSafely_empty : WellFormed (empty 0) .sell [] [] ∧ Stocked (empty 0) ∧
    ¬AddsSafely (empty 0) 1 1 0 .buy 10 5 := by
  refine ⟨empty_wellFormed 0, empty_stocked 0, ?_⟩
  have faults : ∃ last, add 1 1 0 .buy 10 5 (empty 0) = .error .nullPointer last := ⟨_, rfl⟩
  rcases faults with ⟨last, ran⟩
  intro safely
  exact (safely _ _ ran).1 rfl

end MEOrderBook

end QuantEngine
