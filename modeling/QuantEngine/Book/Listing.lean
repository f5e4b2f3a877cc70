import QuantEngine.Book.Matching

/-!
# The listing determines the book

Two arranged books with the same listing, whose listed orders have the same
data, are the same book: `SameBook` compares all that a run can read of them.
Links, head pointers and both tables are functions of the listing, because a
ring's list determines the links of its cells. Two listings that look alike are
equal, because a price leads to one level block and a key to one order block.
-/

namespace QuantEngine.MEOrderBook

open LinkedRing

variable {book first second : MEOrderBook} {side : Side} {levels own others : List Entry}
  {elem atPrice index : ℕ} {clientId : ClientId} {orderId : OrderId}

/-- The two books have the same head pointers, slots and keys, the same blocks in use, and the
same contents of these blocks. -/
structure SameBook (first second : MEOrderBook) : Prop where
  bidsByPrice : second.bidsByPrice = first.bidsByPrice
  asksByPrice : second.asksByPrice = first.asksByPrice
  slot : ∀ index < meMaxPriceLevels,
    second.priceOrdersAtPrice index = first.priceOrdersAtPrice index
  key : ∀ clientId orderId, KeyInRange clientId orderId →
    second.cidOidToOrder clientId orderId = first.cidOidToOrder clientId orderId
  levelInUse : ∀ elem, second.LevelInUse elem ↔ first.LevelInUse elem
  orderInUse : ∀ elem, second.OrderInUse elem ↔ first.OrderInUse elem
  level : ∀ elem, first.LevelInUse elem → second.level elem = first.level elem
  order : ∀ elem, first.OrderInUse elem → second.order elem = first.order elem

namespace Directory

variable (dir : Directory book levels)

include dir

theorem slot_eq_some_iff (bound : index < meMaxPriceLevels) :
    book.priceOrdersAtPrice index = some elem ↔
      elem ∈ levelsOf levels ∧ index = priceToIndex (book.levelPrice elem) := by
  constructor
  · intro held
    exact dir.slotOnly index elem bound held
  · rintro ⟨listed, rfl⟩
    obtain ⟨entry, entryMem, rfl⟩ := List.mem_map.mp listed
    exact dir.slot entry entryMem

theorem key_eq_some_iff (range : KeyInRange clientId orderId) :
    book.cidOidToOrder clientId orderId = some elem ↔
      elem ∈ ordersOf levels ∧ (book.orderData elem).clientId = clientId ∧
        (book.orderData elem).clientOrderId = orderId := by
  constructor
  · intro held
    exact dir.keyOnly clientId orderId elem range held
  · rintro ⟨listed, rfl, rfl⟩
    exact (dir.key elem listed).2

/-- A price leads to one level block. -/
theorem level_eq_of_price {atPrice' : ℕ} (listed : atPrice ∈ levelsOf levels)
    (listed' : atPrice' ∈ levelsOf levels)
    (samePrice : book.levelPrice atPrice = book.levelPrice atPrice') : atPrice = atPrice' := by
  have held := (dir.slot_eq_some_iff (priceToIndex_lt _)).mpr ⟨listed, rfl⟩
  have held' := (dir.slot_eq_some_iff (priceToIndex_lt _)).mpr ⟨listed', rfl⟩
  rw [← samePrice, held] at held'
  exact Option.some.inj held'

/-- A key leads to one order block. -/
theorem order_eq_of_key {elem' : ℕ} (listed : elem ∈ ordersOf levels)
    (listed' : elem' ∈ ordersOf levels)
    (sameClient : (book.orderData elem).clientId = (book.orderData elem').clientId)
    (sameOrder : (book.orderData elem).clientOrderId = (book.orderData elem').clientOrderId) :
    elem = elem' := by
  have held := (dir.key elem listed).2
  have held' := (dir.key elem' listed').2
  rw [← sameClient, ← sameOrder, held] at held'
  exact Option.some.inj held'

end Directory

section SameListing

variable (dir : Directory first levels) (dir' : Directory second levels)

include dir dir'

theorem Directory.slot_congr (bound : index < meMaxPriceLevels)
    (price : ∀ atPrice ∈ levelsOf levels, second.levelPrice atPrice = first.levelPrice atPrice) :
    second.priceOrdersAtPrice index = first.priceOrdersAtPrice index := by
  apply Option.ext
  intro elem
  rw [dir.slot_eq_some_iff bound, dir'.slot_eq_some_iff bound]
  apply and_congr_right
  intro listed
  rw [price elem listed]

theorem Directory.key_congr (range : KeyInRange clientId orderId)
    (data : ∀ elem ∈ ordersOf levels, second.orderData elem = first.orderData elem) :
    second.cidOidToOrder clientId orderId = first.cidOidToOrder clientId orderId := by
  apply Option.ext
  intro elem
  rw [dir.key_eq_some_iff range, dir'.key_eq_some_iff range]
  apply and_congr_right
  intro listed
  rw [data elem listed]

/-- Listed orders are linked alike. -/
theorem Directory.order_congr (listed : elem ∈ ordersOf levels)
    (data : second.orderData elem = first.orderData elem) :
    second.order elem = first.order elem := by
  obtain ⟨entry, entryMem, inEntry⟩ := List.mem_flatMap.mp listed
  have links := (dir.ring entry entryMem).links_eq (dir'.ring entry entryMem) inEntry
  exact order_ext data links.1 links.2

/-- Listed levels have the same first order. -/
theorem Directory.first_congr (listed : atPrice ∈ levelsOf levels) :
    second.firstMeOrder atPrice = first.firstMeOrder atPrice := by
  obtain ⟨entry, entryMem, rfl⟩ := List.mem_map.mp listed
  rw [dir.first entry entryMem, dir'.first entry entryMem]

end SameListing

theorem Ladder.level_congr (ladder : Ladder first side own) (ladder' : Ladder second side own)
    (listed : atPrice ∈ levelsOf own)
    (price : second.levelPrice atPrice = first.levelPrice atPrice)
    (firstOrder : second.firstMeOrder atPrice = first.firstMeOrder atPrice) :
    second.level atPrice = first.level atPrice := by
  have nonempty := List.ne_nil_of_mem listed
  have links := (ladder.ring.2 nonempty).links_eq (ladder'.ring.2 nonempty) listed
  have sameSide : second.levelSide atPrice = first.levelSide atPrice := by
    rw [ladder.levelSide atPrice listed, ladder'.levelSide atPrice listed]
  exact level_ext sameSide price firstOrder links.1 links.2

theorem heads_congr (trades : side ≠ .invalid)
    (own : second.removalHead side = first.removalHead side)
    (others : second.removalHead side.opposite = first.removalHead side.opposite) :
    second.bidsByPrice = first.bidsByPrice ∧ second.asksByPrice = first.asksByPrice := by
  cases side with
  | invalid => exact absurd rfl trades
  | buy => exact ⟨own, others⟩
  | sell => exact ⟨others, own⟩

theorem Arranged.sameBook (arranged : Arranged first side own others)
    (arranged' : Arranged second side own others) (trades : side ≠ .invalid)
    (price : ∀ atPrice ∈ levelsOf (own ++ others),
      second.levelPrice atPrice = first.levelPrice atPrice)
    (data : ∀ elem ∈ ordersOf (own ++ others),
      second.orderData elem = first.orderData elem) : SameBook first second := by
  have dir := arranged.directory
  have dir' := arranged'.directory
  have heads := heads_congr trades
    (arranged'.ladder.ring.1.trans arranged.ladder.ring.1.symm)
    (arranged'.otherLadder.ring.1.trans arranged.otherLadder.ring.1.symm)
  have listedOrder : ∀ {elem}, first.OrderInUse elem → elem ∈ ordersOf (own ++ others) :=
    fun used => arranged.ordersOnly _ used
  constructor
  case bidsByPrice => exact heads.1
  case asksByPrice => exact heads.2
  case slot => exact fun index bound => dir.slot_congr dir' bound price
  case key => exact fun clientId orderId range => dir.key_congr dir' range data
  case levelInUse =>
    intro elem
    rw [dir.levelInUse, dir'.levelInUse]
  case orderInUse =>
    intro elem
    constructor
    · intro used
      exact dir.orderInUse elem (arranged'.ordersOnly elem used)
    · intro used
      exact dir'.orderInUse elem (arranged.ordersOnly elem used)
  case level =>
    intro atPrice used
    have listed := (dir.levelInUse atPrice).mp used
    have firstOrder := dir.first_congr dir' listed
    have samePrice := price atPrice listed
    rw [levelsOf, List.map_append] at listed
    rcases List.mem_append.mp listed with inOwn | inOthers
    · exact arranged.ladder.level_congr arranged'.ladder inOwn samePrice firstOrder
    · exact arranged.otherLadder.level_congr arranged'.otherLadder inOthers samePrice firstOrder
  case order =>
    intro elem used
    exact dir.order_congr dir' (listedOrder used) (data elem (listedOrder used))

/-- Lists whose images agree are equal when no two different elements have the same image. -/
theorem eq_of_map_eq {α β : Type} {f g : α → β} {left right : List α}
    (injective : ∀ x ∈ left, ∀ y ∈ right, f x = g y → x = y)
    (same : left.map f = right.map g) : left = right := by
  induction left generalizing right with
  | nil => exact (List.map_eq_nil_iff.mp same.symm).symm
  | cons x left ih =>
      cases right with
      | nil => cases same
      | cons y right =>
          obtain ⟨head, tail⟩ := List.cons.inj same
          have sameHead := injective x List.mem_cons_self y List.mem_cons_self head
          have sameTail := ih (fun x inLeft y inRight =>
            injective x (List.mem_cons_of_mem _ inLeft) y (List.mem_cons_of_mem _ inRight)) tail
          rw [sameHead, sameTail]

/-- Two ways of trading with one side that leave the same view leave the same listing. -/
theorem Shrinks.listing_eq {left right : List Entry} (dir : Directory book (own ++ others))
    (shrinks : Shrinks book first side own left) (shrinks' : Shrinks book second side own right)
    (same : first.view left = second.view right) : left = right := by
  have levelListed : ∀ {atPrice}, atPrice ∈ levelsOf own → atPrice ∈ levelsOf (own ++ others) := by
    intro atPrice inOwn
    rw [levelsOf, List.map_append]
    exact List.mem_append_left _ inOwn
  have orderListed : ∀ {elem}, elem ∈ ordersOf own → elem ∈ ordersOf (own ++ others) := by
    intro elem inOwn
    rw [ordersOf, List.flatMap_append]
    exact List.mem_append_left _ inOwn
  apply eq_of_map_eq ?_ same
  rintro ⟨atPrice, orders⟩ inLeft ⟨atPrice', orders'⟩ inRight sameLevel
  obtain ⟨samePrice, sameOrders⟩ := PriceLevel.mk.inj sameLevel
  have sameAt : atPrice = atPrice' := by
    rw [shrinks.levelPrice, shrinks'.levelPrice] at samePrice
    apply dir.level_eq_of_price _ _ samePrice
    · exact levelListed (shrinks.levels.subset (List.mem_map_of_mem inLeft))
    · exact levelListed (shrinks'.levels.subset (List.mem_map_of_mem inRight))
  have sameIn : orders = orders' := by
    apply eq_of_map_eq _ sameOrders
    intro elem inOrders elem' inOrders' sameData
    rw [shrinks.data elem, shrinks'.data elem'] at sameData
    have fields := RestingOrder.mk.inj sameData
    apply dir.order_eq_of_key _ _ fields.2.1 fields.2.2.1
    · exact orderListed (shrinks.orders.subset (List.mem_flatMap.mpr ⟨_, inLeft, inOrders⟩))
    · exact orderListed (shrinks'.orders.subset (List.mem_flatMap.mpr ⟨_, inRight, inOrders'⟩))
  rw [sameAt, sameIn]

/-- The data of the listed orders can be read off the view. -/
theorem data_eq_of_view (same : first.view own = second.view own) (listed : elem ∈ ordersOf own) :
    second.orderData elem = first.orderData elem := by
  obtain ⟨entry, entryMem, inEntry⟩ := List.mem_flatMap.mp listed
  have sameLevel := List.map_inj_left.mp same entry entryMem
  have sameOrders := (PriceLevel.mk.inj sameLevel).2
  exact (List.map_inj_left.mp sameOrders elem inEntry).symm

end QuantEngine.MEOrderBook
