import QuantEngine.Book.Adding
import QuantEngine.Runs.Operation

/-!
# Level purity

A level is looked up by the price modulo the size of the slot table, and
`addOrder` does not compare the price of the level it finds with the order's.
So an order whose slot holds a level of another price joins that level. The
other way to miss is the pool: a level is opened for the order only if one more
block than the level's own is free.
-/

namespace QuantEngine.MEOrderBook

open Exec LinkedRing

variable {book fresh : MEOrderBook} {side : Side} {own others asks bids levels : List Entry}
  {elem atPrice : ℕ} {order : RestingOrder}

/-- Every order that rests in a level has the level's price and side. -/
def LevelPure (book : MEOrderBook) : Prop :=
  ∀ atPrice elem, RestsIn book atPrice elem →
    (book.orderData elem).price = book.levelPrice atPrice ∧
      (book.orderData elem).side = book.levelSide atPrice

/-- `addOrder` returns, the order rests in a level of its price and side, and all levels are
pure. -/
def AddsPurely (book : MEOrderBook) (elem : ℕ) : Prop :=
  ∃ last, addOrder (some elem) book = .ok ⟨⟩ last ∧
    (∃ atPrice, RestsIn last atPrice elem ∧
      last.levelPrice atPrice = (book.orderData elem).price ∧
      last.levelSide atPrice = (book.orderData elem).side) ∧
    LevelPure last

theorem Directory.levelPure (dir : Directory book levels)
    (sides : ∀ entry ∈ levels, ∀ elem ∈ entry.2,
      (book.orderData elem).side = book.levelSide entry.1) : LevelPure book := by
  intro atPrice elem rests
  rcases dir.restsIn_iff.mp rests with ⟨orders, entryMem, elemMem⟩
  exact ⟨dir.price _ entryMem elem elemMem, sides _ entryMem elem elemMem⟩

theorem Ladder.side_eq (ladder : Ladder book side own) {entry : Entry} (entryMem : entry ∈ own)
    (listed : elem ∈ entry.2) : (book.orderData elem).side = book.levelSide entry.1 := by
  rw [ladder.levelSide _ (List.mem_map_of_mem entryMem)]
  exact ladder.orderSide elem (List.mem_flatMap.mpr ⟨entry, entryMem, listed⟩)

theorem Arranged.levelPure (arranged : Arranged book side own others) : LevelPure book := by
  apply arranged.directory.levelPure
  intro entry entryMem elem listed
  rcases List.mem_append.mp entryMem with inOwn | inOthers
  · exact arranged.ladder.side_eq inOwn listed
  · exact arranged.otherLadder.side_eq inOthers listed

/-- A pure book is pure after a level of the order's price and side was opened. -/
theorem Pending.addsPurely_opens (pending : Pending book order own others elem)
    (slot : book.priceOrdersAtPrice (priceToIndex order.price) = none)
    (spare : book.ordersAtPricePool.Spare) : AddsPurely book elem := by
  rcases pending.opens slot spare with ⟨last, atPrice, added, opens⟩
  have dir := pending.directory.opened pending.fresh ((pending.inUse elem).mpr (Or.inl rfl))
    pending.range pending.unused (by rwa [pending.data]) opens.toOpensFor
  have priceNew : last.levelPrice atPrice = (book.orderData elem).price := by
    rw [opens.levelPrice, if_pos rfl]
  have sideNew : last.levelSide atPrice = (book.orderData elem).side := by
    rw [opens.levelSide, if_pos rfl]
  refine ⟨last, added, ⟨atPrice, ?_, priceNew, sideNew⟩, dir.levelPure ?_⟩
  · exact dir.restsIn_iff.mpr ⟨[elem], List.mem_cons_self, List.mem_singleton_self elem⟩
  · intro entry entryMem other listed
    rw [opens.orderData]
    rcases List.mem_cons.mp entryMem with rfl | inOld
    · rw [List.mem_singleton.mp listed, sideNew]
    · have different : entry.1 ≠ atPrice := by
        rintro rfl
        exact opens.free ((pending.directory.levelInUse _).mpr (List.mem_map_of_mem inOld))
      rw [opens.levelSide, if_neg different]
      rcases List.mem_append.mp inOld with inOwn | inOthers
      · exact pending.ladder.side_eq inOwn listed
      · exact pending.otherLadder.side_eq inOthers listed

theorem Pending.addsPurely_joins (pending : Pending book order own others elem)
    (slot : book.priceOrdersAtPrice (priceToIndex order.price) = some atPrice)
    (samePrice : book.levelPrice atPrice = order.price) : AddsPurely book elem := by
  rcases pending.joins slot samePrice with
    ⟨front, orders, back, last, split, added, arranged, data, level⟩
  have pure := arranged.levelPure
  have rests : RestsIn last atPrice elem :=
    arranged.directory.restsIn_iff.mpr ⟨orders ++ [elem], by simp, by simp⟩
  refine ⟨last, added, ⟨atPrice, rests, ?_, ?_⟩, pure⟩
  · rw [← (pure atPrice elem rests).1, data]
  · rw [← (pure atPrice elem rests).2, data]

/-- The order joins the level in its slot, whatever the level's price is. -/
theorem Pending.restsIn_joined (pending : Pending book order own others elem)
    (slot : book.priceOrdersAtPrice (priceToIndex order.price) = some atPrice) :
    ∃ last, addOrder (some elem) book = .ok ⟨⟩ last ∧ RestsIn last atPrice elem ∧
      last.orderData = book.orderData ∧ last.levelPrice = book.levelPrice := by
  rcases pending.directory.run_addOrder_joins pending.bound (by rwa [pending.data]) with
    ⟨first, rest, tail, entryMem, tailEq, ran⟩
  have ring := pending.directory.ring _ entryMem
  have firstEq := pending.directory.first _ entryMem
  have unlisted : elem ∉ first :: rest := fun listed =>
    pending.fresh (List.mem_flatMap.mpr ⟨_, entryMem, listed⟩)
  have appended := isRing_appendOrder ring unlisted tailEq
  refine ⟨_, ran.trans (storeKey_eq_ok_iff.mpr ⟨pending.range, rfl⟩), ⟨?_, first, ?_, ?_⟩, ?_, ?_⟩
  · rw [levelInUse_setKey, levelInUse_appendOrder, pending.directory.levelInUse]
    exact List.mem_map_of_mem entryMem
  · exact firstEq
  · exact appended.reaches_iff.mpr (by simp)
  · rw [(orderViews_eq (order_setKey _ _ _ _)).1, orderData_appendOrder]
  · rfl

/-- Adding is pure exactly when the slot holds a level of the very price or can take a new one. -/
theorem Pending.addsPurely_iff (pending : Pending book order own others elem) :
    AddsPurely book elem ↔
      (∃ atPrice, book.priceOrdersAtPrice (priceToIndex order.price) = some atPrice ∧
        book.levelPrice atPrice = order.price) ∨
      book.priceOrdersAtPrice (priceToIndex order.price) = none ∧
        book.ordersAtPricePool.Spare := by
  constructor
  · rintro ⟨last, added, -, pure⟩
    rcases slot : book.priceOrdersAtPrice (priceToIndex order.price) with _ | atPrice
    · right
      refine ⟨rfl, ?_⟩
      by_contra exhausted
      have fatal := addOrder_fatal pending.bound (by rwa [pending.data]) pending.cursor exhausted
      cases added.symm.trans fatal
    · left
      refine ⟨atPrice, rfl, ?_⟩
      rcases pending.restsIn_joined slot with ⟨last', added', rests, data, prices⟩
      cases added.symm.trans added'
      have samePrice := (pure atPrice elem rests).1
      rw [data, prices, pending.data] at samePrice
      exact samePrice.symm
  · rintro (⟨atPrice, slot, samePrice⟩ | ⟨slot, spare⟩)
    · exact pending.addsPurely_joins slot samePrice
    · exact pending.addsPurely_opens slot spare

/-- The condition read off the book before the order's block is allocated. -/
theorem addOrder_pure_iff (sound : WellFormed book .sell asks bids) (stocked : Stocked book)
    (addable : Addable book order)
    (allocated : allocateOrder { toRestingOrder := order } book = .ok (some elem) fresh) :
    AddsPurely fresh elem ↔
      (∃ atPrice, book.priceOrdersAtPrice (priceToIndex order.price) = some atPrice ∧
        book.levelPrice atPrice = order.price) ∨
      book.priceOrdersAtPrice (priceToIndex order.price) = none ∧
        book.ordersAtPricePool.Spare := by
  rcases sound.pending stocked addable allocated with ⟨allocates, own, others, -, pending⟩
  have same := pending.addsPurely_iff
  rw [allocates.priceOrdersAtPrice, allocates.ordersAtPricePool,
    (levelViews_eq allocates.level_eq).2.1] at same
  exact same

/-- A SELL order at 10 joins the level of two orders. -/
theorem addOrder_pure_sample : ∃ elem fresh,
    allocateOrder { toRestingOrder := sampleSell 10 } sampleRoomyBook = .ok (some elem) fresh ∧
      AddsPurely fresh elem := by
  rcases sampleSell_allocated 10 with ⟨elem, fresh, allocated⟩
  have pure := addOrder_pure_iff sampleRoomyBook_wellFormed sampleRoomyBook_stocked
    (sampleSell_addable (by decide)) allocated
  exact ⟨elem, fresh, allocated, pure.mpr (Or.inl ⟨0, rfl, rfl⟩)⟩

/-- A SELL order at 266 joins the level at 10, which holds its slot. -/
theorem not_addsPurely_slot : ∃ elem fresh,
    allocateOrder { toRestingOrder := sampleSell 266 } sampleRoomyBook = .ok (some elem) fresh ∧
      WellFormed sampleRoomyBook .sell [(0, [0, 1])] [(1, [2])] ∧ Stocked sampleRoomyBook ∧
      Addable sampleRoomyBook (sampleSell 266) ∧ ¬AddsPurely fresh elem := by
  have addable : Addable sampleRoomyBook (sampleSell 266) := sampleSell_addable (by decide)
  rcases sampleSell_allocated 266 with ⟨elem, fresh, allocated⟩
  refine ⟨elem, fresh, allocated, sampleRoomyBook_wellFormed, sampleRoomyBook_stocked, addable, ?_⟩
  rcases sampleRoomyBook_wellFormed.pending sampleRoomyBook_stocked addable allocated with
    ⟨allocates, own, others, -, pending⟩
  rw [pending.addsPurely_iff, allocates.priceOrdersAtPrice,
    (levelViews_eq allocates.level_eq).2.1]
  rintro (⟨atPrice, held, samePrice⟩ | ⟨free, -⟩)
  · cases held
    exact absurd samePrice (by decide)
  · cases free

end QuantEngine.MEOrderBook
