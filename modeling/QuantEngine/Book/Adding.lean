import QuantEngine.Book.Splicing
import QuantEngine.Book.LevelQueue
import QuantEngine.Pool.Calls

/-!
# Adding an order

`addOrder` joins the level that it finds in the slot of the order's price, if
there is one, and opens a level otherwise. The first never faults before the
key is stored. The second needs a level block, and a spare one behind it, and
then links the new level into the ring of the other side, whose head pointer
`addOrderAtPrice` reads; `Pending` is a book of which that can be said.
-/

namespace QuantEngine.MEOrderBook

open Exec LinkedRing

variable {book fresh last : MEOrderBook} {side : Side} {own others levels : List Entry}
  {elem atPrice first tail : ℕ} {order : RestingOrder}

/-- Both pools' cursors are on free blocks. -/
structure Stocked (book : MEOrderBook) : Prop where
  order : book.orderPool.CursorFree book.orderPool.numElems
  level : book.ordersAtPricePool.CursorFree book.ordersAtPricePool.numElems

theorem Stocked.cursors (stocked : Stocked book) : CursorsInRange book :=
  ⟨stocked.order.inRange, stocked.level.inRange⟩

theorem allocateLevel_returns
    (cursor : book.ordersAtPricePool.CursorFree book.ordersAtPricePool.numElems)
    (spare : book.ordersAtPricePool.Spare) (value : MEOrdersAtPrice) :
    ∃ atPrice last, allocateLevel value book = .ok (some atPrice) last ∧
      AllocatesLevel book last atPrice value := by
  rcases cursor.allocate_returns spare value with ⟨atPrice, pool, allocated⟩
  have ran : allocateLevel value book =
      .ok (some atPrice) { book with ordersAtPricePool := pool } := by
    simp only [allocateLevel, run_get_bind, allocated]
    rfl
  rcases allocateLevel_ok cursor.inRange ran with ⟨_, ⟨⟩, allocates⟩
  exact ⟨atPrice, _, ran, allocates⟩

theorem allocateLevel_fatal
    (cursor : book.ordersAtPricePool.CursorFree book.ordersAtPricePool.numElems)
    (exhausted : ¬book.ordersAtPricePool.Spare) (value : MEOrdersAtPrice) :
    allocateLevel value book = .error (.fatal "MemPool out of space") book := by
  simp [allocateLevel, cursor.allocate_fatal exhausted]

theorem allocateOrder_returns (cursor : book.orderPool.CursorFree book.orderPool.numElems)
    (spare : book.orderPool.Spare) (value : MEOrder) :
    ∃ elem last, allocateOrder value book = .ok (some elem) last ∧
      AllocatesOrder book last elem value := by
  rcases cursor.allocate_returns spare value with ⟨elem, pool, allocated⟩
  have ran : allocateOrder value book = .ok (some elem) { book with orderPool := pool } := by
    simp only [allocateOrder, run_get_bind, allocated]
    rfl
  rcases allocateOrder_ok cursor.inRange ran with ⟨_, ⟨⟩, allocates⟩
  exact ⟨elem, _, ran, allocates⟩

theorem allocateOrder_fatal (cursor : book.orderPool.CursorFree book.orderPool.numElems)
    (exhausted : ¬book.orderPool.Spare) (value : MEOrder) :
    allocateOrder value book = .error (.fatal "MemPool out of space") book := by
  simp [allocateOrder, cursor.allocate_fatal exhausted]

/-- A level that the slot holds is listed, so its pointers lead somewhere. -/
theorem Directory.run_addOrder_joins (dir : Directory book levels)
    (bound : elem < book.orderPool.numElems)
    (slot : book.priceOrdersAtPrice (priceToIndex (book.orderData elem).price) = some atPrice) :
    ∃ first others tail, (atPrice, first :: others) ∈ levels ∧ book.prevOrder first = some tail ∧
      MEOrderBook.addOrder (some elem) book =
        storeKey (book.orderData elem).clientId (book.orderData elem).clientOrderId (some elem)
          (book.appendOrder elem first tail) := by
  rcases dir.slotOnly _ _ (priceToIndex_lt _) slot with ⟨listed, -⟩
  rcases List.mem_map.mp listed with ⟨⟨_, orders⟩, entryMem, rfl⟩
  rcases (dir.levelQueue entryMem).run_addOrder bound slot with
    ⟨first, others, tail, rfl, tailEq, joins⟩
  exact ⟨first, others, tail, entryMem, tailEq, joins⟩

/-- What opening a level does to the data of the levels. -/
structure Opens (book last : MEOrderBook) (elem atPrice : ℕ) : Prop
    extends OpensFor book last elem atPrice where
  levelSide : ∀ other, last.levelSide other =
    if other = atPrice then (book.orderData elem).side else book.levelSide other

/-- The level block is taken before the level is linked. -/
theorem run_addOrder_opens (bound : elem < book.orderPool.numElems)
    (slot : book.priceOrdersAtPrice (priceToIndex (book.orderData elem).price) = none) :
    addOrder (some elem) book = (do
      let newOrdersAtPrice ← allocateLevel {
        side := (book.orderData elem).side, price := (book.orderData elem).price,
        firstMeOrder := some elem }
      addOrderAtPrice newOrdersAtPrice
      let added ← loadOrder (some elem)
      storeKey added.clientId added.clientOrderId (some elem) : BookM PUnit)
        (book.selfLink elem) := by
  have slot' : book.priceOrdersAtPrice (priceToIndex (book.order elem).price) = none := slot
  rw [addOrder, run_loadOrder_bind bound, run_getOrdersAtPrice_bind, slot', if_pos rfl,
    run_storeOrder_bind bound]
  rfl

theorem addOrder_fatal (bound : elem < book.orderPool.numElems)
    (slot : book.priceOrdersAtPrice (priceToIndex (book.orderData elem).price) = none)
    (cursor : book.ordersAtPricePool.CursorFree book.ordersAtPricePool.numElems)
    (exhausted : ¬book.ordersAtPricePool.Spare) :
    addOrder (some elem) book = .error (.fatal "MemPool out of space") (book.selfLink elem) := by
  have fatal : ∀ value, allocateLevel value (book.selfLink elem) =
      .error (.fatal "MemPool out of space") (book.selfLink elem) :=
    allocateLevel_fatal cursor exhausted
  rw [run_addOrder_opens bound slot]
  exact run_bind_of_error (fatal _)

/-- With a spare level block, what is left of `addOrder` is the call of `addOrderAtPrice`. -/
theorem addOrder_opens (bound : elem < book.orderPool.numElems)
    (slot : book.priceOrdersAtPrice (priceToIndex (book.orderData elem).price) = none)
    (cursor : book.ordersAtPricePool.CursorFree book.ordersAtPricePool.numElems)
    (spare : book.ordersAtPricePool.Spare)
    (range : KeyInRange (book.orderData elem).clientId (book.orderData elem).clientOrderId) :
    ∃ atPrice allocated, AllocatesLevel (book.selfLink elem) allocated atPrice
        { side := (book.orderData elem).side, price := (book.orderData elem).price,
          firstMeOrder := some elem } ∧
      ∀ {middle}, addOrderAtPrice (some atPrice) allocated = .ok ⟨⟩ middle →
        addOrder (some elem) book = .ok ⟨⟩ (middle.setKey (book.orderData elem).clientId
          (book.orderData elem).clientOrderId (some elem)) ∧
        Opens book (middle.setKey (book.orderData elem).clientId
          (book.orderData elem).clientOrderId (some elem)) elem atPrice := by
  have returns : ∀ value, ∃ atPrice last,
      allocateLevel value (book.selfLink elem) = .ok (some atPrice) last ∧
        AllocatesLevel (book.selfLink elem) last atPrice value :=
    allocateLevel_returns cursor spare
  rcases returns {
      side := (book.orderData elem).side, price := (book.orderData elem).price,
      firstMeOrder := some elem } with ⟨atPrice, allocated, ran, allocates⟩
  refine ⟨atPrice, allocated, allocates, ?_⟩
  intro middle added
  have frame := addOrderAtPrice_frame added
  have priceEq : allocated.levelPrice atPrice = (book.orderData elem).price := by
    rw [levelPrice, allocates.level, if_pos rfl]
  rw [priceEq] at frame
  have opens := opensFor_of_allocates allocates frame
  have boundKept : elem < middle.orderPool.numElems := by
    rw [frame.orderPool, orderPool_setSlot, allocates.orderPool]
    exact bound
  have dataKept : middle.orderData elem = book.orderData elem := congrFun opens.orderData elem
  refine ⟨?_, opens, ?_⟩
  · rw [run_addOrder_opens bound slot, run_bind_of_ok ran, run_bind_of_ok added]
    apply (run_loadOrder_bind boundKept).trans
    change storeKey (middle.orderData elem).clientId (middle.orderData elem).clientOrderId
      (some elem) middle = _
    rw [dataKept]
    exact storeKey_eq_ok_iff.mpr ⟨range, rfl⟩
  · intro other
    have sides : (middle.setKey (book.orderData elem).clientId (book.orderData elem).clientOrderId
        (some elem)).levelSide = allocated.levelSide := by
      rw [(levelViews_eq (level_setKey _ _ _ _)).1, frame.levelSide,
        (levelViews_eq (level_setSlot _ _ _)).1]
    rw [sides, levelSide, allocates.level]
    split <;> rfl

/-- An order that may be added: it has a side, its key is inside the map and not in use, and its
price is not within the limit of the other side's best level. -/
structure Addable (book : MEOrderBook) (order : RestingOrder) : Prop where
  trades : order.side ≠ .invalid
  range : KeyInRange order.clientId order.clientOrderId
  unused : book.cidOidToOrder order.clientId order.clientOrderId = none
  uncrossed : ∀ head, book.insertionHead order.side = some head →
    beyondLimit order.side order.price (book.levelPrice head) = true

/-- An arranged book and an order whose block is allocated and not linked yet. -/
structure Pending (book : MEOrderBook) (order : RestingOrder) (own others : List Entry)
    (elem : ℕ) : Prop where
  directory : Directory book (own ++ others)
  ladder : Ladder book order.side own
  otherLadder : Ladder book order.side.opposite others
  data : book.orderData elem = order
  inUse : ∀ other, book.OrderInUse other ↔ other = elem ∨ other ∈ ordersOf (own ++ others)
  fresh : elem ∉ ordersOf (own ++ others)
  addable : Addable book order
  cursor : book.ordersAtPricePool.CursorFree book.ordersAtPricePool.numElems

theorem AllocatesOrder.ladder
    (allocates : AllocatesOrder book fresh elem { toRestingOrder := order })
    (ladder : Ladder book side own) (used : ∀ other ∈ ordersOf own, book.OrderInUse other) :
    Ladder fresh side own := by
  apply ladder.congr allocates.level_eq ?_ rfl
  · intro other listed
    rw [allocates.orderData_eq, if_neg]
    · exact ladder.orderSide other listed
    · rintro rfl
      exact allocates.free (used other listed)
  · rw [removalHead, allocates.asksByPrice, allocates.bidsByPrice, removalHead]

theorem Arranged.pending (arranged : Arranged book order.side own others)
    (stocked : Stocked book) (addable : Addable book order)
    (allocates : AllocatesOrder book fresh elem { toRestingOrder := order }) :
    Pending fresh order own others elem where
  directory := allocates.directory arranged.directory
  ladder := by
    apply allocates.ladder arranged.ladder
    intro other listed
    apply arranged.directory.orderInUse
    simp only [ordersOf, List.flatMap_append, List.mem_append]
    exact Or.inl listed
  otherLadder := by
    apply allocates.ladder arranged.otherLadder
    intro other listed
    apply arranged.directory.orderInUse
    simp only [ordersOf, List.flatMap_append, List.mem_append]
    exact Or.inr listed
  data := by rw [allocates.orderData_eq, if_pos rfl]
  inUse other := by
    rw [allocates.inUse]
    exact or_congr_right ⟨arranged.ordersOnly other, arranged.directory.orderInUse other⟩
  fresh listed := allocates.free (arranged.directory.orderInUse elem listed)
  addable := by
    refine ⟨addable.trades, addable.range, ?_, ?_⟩
    · rw [allocates.cidOidToOrder]
      exact addable.unused
    · rw [insertionHead, allocates.asksByPrice, allocates.bidsByPrice,
        (levelViews_eq allocates.level_eq).2.1]
      exact addable.uncrossed
  cursor := by
    rw [allocates.ordersAtPricePool]
    exact stocked.level

/-- What is worse than a price beyond the limit is beyond the limit. -/
theorem beyondLimit_of_better {price first second : Price} (trades : side ≠ .invalid)
    (beyond : beyondLimit side price first = true)
    (better : Better side.opposite first second) : beyondLimit side price second = true := by
  cases side with
  | invalid => exact absurd rfl trades
  | buy =>
      have worse : first < second := better
      simp only [beyondLimit, if_true, decide_eq_true_eq] at beyond ⊢
      exact beyond.trans worse
  | sell =>
      have worse : second < first := better
      simp only [beyondLimit, reduceCtorEq, if_false, decide_eq_true_eq] at beyond ⊢
      exact worse.trans beyond

namespace Pending

variable (pending : Pending book order own others elem)

include pending

theorem bound : elem < book.orderPool.numElems :=
  ((pending.inUse elem).mpr (Or.inl rfl)).1

theorem range :
    KeyInRange (book.orderData elem).clientId (book.orderData elem).clientOrderId := by
  rw [pending.data]
  exact pending.addable.range

theorem unused : ∀ other ∈ ordersOf (own ++ others),
    ¬((book.orderData other).clientId = (book.orderData elem).clientId ∧
      (book.orderData other).clientOrderId = (book.orderData elem).clientOrderId) := by
  rintro other listed ⟨sameClient, sameOrder⟩
  have held := (pending.directory.key other listed).2
  rw [sameClient, sameOrder, pending.data, pending.addable.unused] at held
  cases held

/-- The other side's best level is beyond the limit, and so are the others. -/
theorem others_beyond (listed : atPrice ∈ levelsOf others) :
    beyondLimit order.side order.price (book.levelPrice atPrice) = true := by
  have heads := pending.otherLadder.ring.1
  rw [removalHead_opposite book order.side pending.addable.trades] at heads
  have sorted := pending.otherLadder.sorted
  rcases same : levelsOf others with _ | ⟨head, rest⟩
  · rw [same] at listed
    cases listed
  · rw [same] at listed heads sorted
    have headBeyond := pending.addable.uncrossed head heads
    rcases List.mem_cons.mp listed with rfl | inRest
    · exact headBeyond
    · exact beyondLimit_of_better pending.addable.trades headBeyond
        ((List.pairwise_cons.mp sorted).1 atPrice inRest)

/-- Only the order's own side can have a level of its price. -/
theorem own_of_price {entry : Entry} (entryMem : entry ∈ own ++ others)
    (samePrice : book.levelPrice entry.1 = order.price) : entry ∈ own := by
  rcases List.mem_append.mp entryMem with inOwn | inOthers
  · exact inOwn
  · have beyond := pending.others_beyond (List.mem_map_of_mem inOthers)
    rw [samePrice] at beyond
    simp [beyondLimit] at beyond

/-- An order that joins a level of its price leaves an arranged book. -/
theorem joins (slot : book.priceOrdersAtPrice (priceToIndex order.price) = some atPrice)
    (samePrice : book.levelPrice atPrice = order.price) :
    ∃ front orders back last, own = front ++ (atPrice, orders) :: back ∧
      addOrder (some elem) book = .ok ⟨⟩ last ∧
      Arranged last order.side (front ++ (atPrice, orders ++ [elem]) :: back) others ∧
      last.orderData = book.orderData ∧ last.level = book.level := by
  have dir := pending.directory
  rcases dir.run_addOrder_joins pending.bound (by rwa [pending.data]) with
    ⟨first, rest, tail, entryMem, tailEq, ran⟩
  rcases List.append_of_mem (pending.own_of_price entryMem samePrice) with ⟨front, back, rfl⟩
  have moved : ((front ++ (atPrice, first :: rest) :: back) ++ others).Perm
      ((atPrice, first :: rest) :: (front ++ back ++ others)) := by
    simp
  have moved' : ((front ++ (atPrice, first :: rest ++ [elem]) :: back) ++ others).Perm
      ((atPrice, first :: rest ++ [elem]) :: (front ++ back ++ others)) := by
    simp
  have same := moved.flatMap_right Prod.snd
  have appended := (dir.perm moved).append
    (fun listed => pending.fresh (same.mem_iff.mpr listed))
    ((pending.inUse elem).mpr (Or.inl rfl)) pending.range
    (fun other listed => pending.unused other (same.mem_iff.mpr listed))
    (by rw [pending.data]; exact samePrice.symm) (dir.first _ entryMem) tailEq
  set last := (book.appendOrder elem first tail).setKey (book.orderData elem).clientId
    (book.orderData elem).clientOrderId (some elem) with lastEq
  have levelEq : last.level = book.level := by simp [lastEq]
  have dataEq : last.orderData = book.orderData := by
    rw [lastEq, (orderViews_eq (order_setKey _ _ _ _)).1, orderData_appendOrder]
  have usedEq : last.OrderInUse = book.OrderInUse := by simp [lastEq]
  have extended : (ordersOf ((atPrice, first :: rest ++ [elem]) :: (front ++ back ++ others))).Perm
      (elem :: ordersOf ((front ++ (atPrice, first :: rest) :: back) ++ others)) :=
    (Extends.joined moved).orders_perm
  have heads : ∀ side, last.removalHead side = book.removalHead side := by
    intro side
    simp [removalHead, lastEq, appendOrder]
  refine ⟨front, first :: rest, back, last, rfl, ?_, ?_, dataEq, levelEq⟩
  · rw [ran]
    exact storeKey_eq_ok_iff.mpr ⟨pending.range, rfl⟩
  · refine ⟨appended.perm moved'.symm, ?_, ?_, ?_⟩
    · intro other used
      rw [usedEq, pending.inUse] at used
      have sameListed := (moved'.flatMap_right Prod.snd).trans extended
      exact sameListed.mem_iff.mpr (List.mem_cons.mpr used)
    · apply pending.ladder.congr levelEq (heads _) (by simp)
      intro other listed
      rw [dataEq]
      by_cases isNew : other = elem
      · rw [isNew, pending.data]
      · apply pending.ladder.orderSide
        simp only [ordersOf, List.flatMap_append, List.flatMap_cons, List.mem_append,
          List.mem_singleton] at listed ⊢
        tauto
    · apply pending.otherLadder.congr levelEq (heads _) rfl
      rw [dataEq]
      exact pending.otherLadder.orderSide

/-- Where the other side has a level, its levels form a ring from the head on. -/
theorem otherRing {head : ℕ} (heads : book.insertionHead order.side = some head) :
    ∃ rest, levelsOf others = head :: rest ∧
      IsRing book.nextEntry book.prevEntry (head :: rest) := by
  have ladder := pending.otherLadder.ring
  rw [removalHead_opposite book order.side pending.addable.trades, heads] at ladder
  rcases listing : levelsOf others with _ | ⟨first, rest⟩
  · rw [listing] at ladder
    cases ladder.1
  · rw [listing] at ladder
    cases ladder.1
    exact ⟨rest, rfl, ladder.2 (List.cons_ne_nil head rest)⟩

/-- The level that is opened for the order goes to the end of the other side's ring, behind the
best level, and no head pointer moves. -/
theorem opens_spliced {head : ℕ}
    (slot : book.priceOrdersAtPrice (priceToIndex order.price) = none)
    (spare : book.ordersAtPricePool.Spare) (heads : book.insertionHead order.side = some head) :
    ∃ last atPrice tail, addOrder (some elem) book = .ok ⟨⟩ last ∧ Opens book last elem atPrice ∧
      head ∈ levelsOf others ∧ tail ∈ levelsOf others ∧
      Linked book.nextEntry book.prevEntry tail head ∧ Splices book last atPrice head tail ∧
      last.insertionHead order.side = book.insertionHead order.side ∧
      last.removalHead order.side = book.removalHead order.side := by
  rcases addOrder_opens pending.bound (by rwa [pending.data]) pending.cursor spare
    pending.range with ⟨atPrice, allocated, allocates, returns⟩
  have levelOld : ∀ other, other ≠ atPrice → allocated.level other = book.level other := by
    intro other different
    rw [allocates.level, if_neg different]
    rfl
  have levelNew := allocates.level atPrice
  rw [if_pos rfl, pending.data] at levelNew
  have sideEq : allocated.levelSide atPrice = order.side := by rw [levelSide, levelNew]
  have priceEq : allocated.levelPrice atPrice = order.price := by rw [levelPrice, levelNew]
  rcases pending.otherRing heads with ⟨rest, listing, ring⟩
  have used : ∀ cell ∈ head :: rest, book.LevelInUse cell := by
    intro cell member
    apply (pending.directory.levelInUse cell).mpr
    simp only [levelsOf, List.map_append, List.mem_append]
    exact Or.inr (by rw [← levelsOf, listing]; exact member)
  have unlisted : atPrice ∉ head :: rest := fun listed => allocates.free (used atPrice listed)
  have headOld := levelOld head (ne_of_mem_of_not_mem List.mem_cons_self unlisted)
  have ring' : IsRing allocated.nextEntry allocated.prevEntry (head :: rest) := by
    apply ring.congr
    · intro cell member
      rw [nextEntry, levelOld cell (ne_of_mem_of_not_mem member unlisted), nextEntry]
    · intro cell member
      rw [prevEntry, levelOld cell (ne_of_mem_of_not_mem member unlisted), prevEntry]
  have inPool : ∀ cell ∈ head :: rest, cell < allocated.ordersAtPricePool.numElems :=
    fun cell member => ((allocates.inUse cell).mpr (Or.inr (used cell member))).1
  have headsKept : allocated.insertionHead (allocated.levelSide atPrice) = some head := by
    rw [sideEq, insertionHead, allocates.asksByPrice, allocates.bidsByPrice, ← heads]
    rfl
  rcases addOrderAtPrice_inserts ((allocates.inUse atPrice).mpr (Or.inl rfl)).1 headsKept ring'
    inPool unlisted with ⟨middle, tail, ran, tailMem, prevHead, inserts⟩
  rcases returns ran with ⟨added, opens⟩
  have prevOld : book.prevEntry head = some tail := by
    rw [← prevHead, prevEntry, prevEntry, headOld]
  have stays : allocated.splicedHead atPrice head = head := by
    rw [splicedHead, if_neg]
    rintro ⟨buys, better⟩
    rw [sideEq] at buys
    rw [priceEq, levelPrice, headOld] at better
    have beyond := pending.addable.uncrossed head heads
    simp only [beyondLimit, buys, if_true, decide_eq_true_eq] at beyond
    exact absurd better beyond.not_gt
  have splices : Splices book middle atPrice head tail :=
    inserts.splices.congr fun other different => (levelOld other different).symm
  rw [listing]
  refine ⟨_, atPrice, tail, added, opens, List.mem_cons_self, tailMem,
    ⟨ring.next_last prevOld, prevOld⟩, ⟨splices.nextEntry, splices.prevEntry⟩, ?_, ?_⟩
  · change middle.insertionHead order.side = _
    rw [← sideEq, inserts.head, stays, sideEq, heads]
  · change middle.removalHead order.side = _
    rw [← sideEq, inserts.otherHead, removalHead, allocates.asksByPrice, allocates.bidsByPrice]
    rfl

/-- Where the other side is empty, the opened level becomes its head. -/
theorem opens_alone (slot : book.priceOrdersAtPrice (priceToIndex order.price) = none)
    (spare : book.ordersAtPricePool.Spare) (empty : book.insertionHead order.side = none) :
    ∃ last atPrice, addOrder (some elem) book = .ok ⟨⟩ last ∧ Opens book last elem atPrice ∧
      last.insertionHead order.side = some atPrice ∧ last.nextEntry atPrice = some atPrice := by
  rcases addOrder_opens pending.bound (by rwa [pending.data]) pending.cursor spare
    pending.range with ⟨atPrice, allocated, allocates, returns⟩
  have sideEq : allocated.levelSide atPrice = order.side := by
    rw [levelSide, allocates.level, if_pos rfl, pending.data]
  have headsKept : allocated.insertionHead (allocated.levelSide atPrice) = none := by
    rw [sideEq, insertionHead, allocates.asksByPrice, allocates.bidsByPrice, ← empty]
    rfl
  have ran := run_addOrderAtPrice_empty ((allocates.inUse atPrice).mpr (Or.inl rfl)).1 headsKept
  rcases returns ran with ⟨added, opens⟩
  refine ⟨_, atPrice, added, opens, ?_, ?_⟩
  · change (allocated.openRing atPrice).insertionHead order.side = _
    rw [insertionHead, asksByPrice_openRing, bidsByPrice_openRing, sideEq]
    split_ifs <;> rfl
  · change (allocated.openRing atPrice).nextEntry atPrice = _
    rw [nextEntry_openRing, if_pos rfl]

/-- With a spare level block, an order whose slot is empty opens a level. -/
theorem opens (slot : book.priceOrdersAtPrice (priceToIndex order.price) = none)
    (spare : book.ordersAtPricePool.Spare) :
    ∃ last atPrice, addOrder (some elem) book = .ok ⟨⟩ last ∧ Opens book last elem atPrice := by
  rcases heads : book.insertionHead order.side with _ | head
  · rcases pending.opens_alone slot spare heads with ⟨last, atPrice, added, opens, -⟩
    exact ⟨last, atPrice, added, opens⟩
  · rcases pending.opens_spliced slot spare heads with ⟨last, atPrice, tail, added, opens, -⟩
    exact ⟨last, atPrice, added, opens⟩

end Pending

theorem WellFormed.exists_arranged {asks bids : List Entry}
    (sound : WellFormed book .sell asks bids) (trades : side ≠ .invalid) :
    ∃ own others, Arranged book side own others := by
  cases side with
  | invalid => exact absurd rfl trades
  | buy => exact ⟨bids, asks, sound.swap.arranged⟩
  | sell => exact ⟨asks, bids, sound.arranged⟩

theorem WellFormed.pending {asks bids : List Entry} (sound : WellFormed book .sell asks bids)
    (stocked : Stocked book) (addable : Addable book order)
    (allocated : allocateOrder { toRestingOrder := order } book = .ok (some elem) fresh) :
    AllocatesOrder book fresh elem { toRestingOrder := order } ∧
      ∃ own others, Arranged book order.side own others ∧ Pending fresh order own others elem := by
  rcases allocateOrder_ok stocked.order.inRange allocated with ⟨_, ⟨⟩, allocates⟩
  rcases sound.exists_arranged addable.trades with ⟨own, others, arranged⟩
  exact ⟨allocates, own, others, arranged, arranged.pending stocked addable allocates⟩

theorem empty_stocked (tickerId : TickerId) : Stocked (empty tickerId) := by
  refine ⟨⟨?_, rfl⟩, ⟨?_, rfl⟩⟩
  · change 0 < meMaxOrderIds
    decide
  · change 0 < meMaxPriceLevels
    decide

/-- The sample book with pools of eight blocks. -/
def sampleRoomyBook : MEOrderBook :=
  { sampleBook with
    ordersAtPricePool := { sampleBook.ordersAtPricePool with numElems := 8 }
    orderPool := { sampleBook.orderPool with numElems := 8 } }

theorem sampleRoomyBook_wellFormed :
    WellFormed sampleRoomyBook .sell [(0, [0, 1])] [(1, [2])] := by
  have levelInUse : sampleRoomyBook.LevelInUse = sampleBook.LevelInUse := by
    funext elem
    rcases elem with _ | _ | elem
    · simp [LevelInUse, MemPool.InUse, sampleRoomyBook, sampleBook]
    · simp [LevelInUse, MemPool.InUse, sampleRoomyBook, sampleBook]
    · simp [LevelInUse, MemPool.InUse, sampleRoomyBook, sampleBook, sampleLevels]
  have orderInUse : sampleRoomyBook.OrderInUse = sampleBook.OrderInUse := by
    funext elem
    rcases elem with _ | _ | _ | elem
    · simp [OrderInUse, MemPool.InUse, sampleRoomyBook, sampleBook]
    · simp [OrderInUse, MemPool.InUse, sampleRoomyBook, sampleBook]
    · simp [OrderInUse, MemPool.InUse, sampleRoomyBook, sampleBook]
    · simp [OrderInUse, MemPool.InUse, sampleRoomyBook, sampleBook, sampleOrders]
  have sound := sampleBook_wellFormed
  refine ⟨?_, ?_, ?_, ?_, sound.ids⟩
  · refine sound.directory.congr ?_ ?_ ?_ rfl levelInUse rfl rfl
    · exact fun elem _ => ⟨rfl, rfl⟩
    · exact fun elem _ => ⟨rfl, rfl, rfl⟩
    · rw [orderInUse]
      exact sound.directory.orderInUse
  · rw [OrdersOnly, orderInUse]
    exact sound.ordersOnly
  · exact ⟨sound.ladder.ring, sound.ladder.levelSide, sound.ladder.orderSide, sound.ladder.sorted⟩
  · exact ⟨sound.otherLadder.ring, sound.otherLadder.levelSide, sound.otherLadder.orderSide,
      sound.otherLadder.sorted⟩

theorem sampleRoomyBook_stocked : Stocked sampleRoomyBook :=
  ⟨⟨by decide, rfl⟩, ⟨by decide, rfl⟩⟩

/-- A SELL order of the third client, to be added to the sample book. -/
def sampleSell (price : Price) : RestingOrder where
  tickerId := 0
  clientId := 3
  clientOrderId := 1
  marketOrderId := 4
  side := .sell
  price := price
  quantity := 5
  priority := 1

theorem sampleSell_addable {price : Price} (above : 9 < price) :
    Addable sampleRoomyBook (sampleSell price) where
  trades := Side.noConfusion
  range := (by decide : KeyInRange 3 1)
  unused := rfl
  uncrossed head heads := by
    cases heads
    have best : sampleRoomyBook.levelPrice 1 = 9 := rfl
    simp only [beyondLimit, sampleSell, reduceCtorEq, if_false, decide_eq_true_eq, best]
    exact above

theorem sampleSell_allocated (price : Price) : ∃ elem fresh,
    allocateOrder { toRestingOrder := sampleSell price } sampleRoomyBook =
      .ok (some elem) fresh := by
  rcases allocateOrder_returns sampleRoomyBook_stocked.order (by decide)
    { toRestingOrder := sampleSell price } with ⟨elem, fresh, allocated, -⟩
  exact ⟨elem, fresh, allocated⟩

end QuantEngine.MEOrderBook
