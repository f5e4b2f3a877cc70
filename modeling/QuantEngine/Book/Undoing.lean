import QuantEngine.Book.Adding
import QuantEngine.Book.Listing

/-!
# Adding an order and removing it again

`removeOrdersAtPrice` changes the head pointer of the level's own side, while
`addOrderAtPrice` reads and changes the other side's. Where the new level was
spliced into a ring, unlinking it restores the ring and no head pointer has
moved. Where it became the head of an empty ring, its removal clears the wrong
pointer.
-/

namespace QuantEngine.MEOrderBook

open Exec LinkedRing

variable {book fresh last : MEOrderBook} {side : Side} {own others asks bids : List Entry}
  {elem atPrice head tail : ℕ} {order : RestingOrder}

/-- Adding the order and then removing it returns, and leaves the book that was there before the
order's block was allocated. -/
def RoundTrips (book fresh : MEOrderBook) (elem : ℕ) : Prop :=
  ∃ last, (addOrder (some elem) >>= fun _ => removeOrder (some elem)) fresh = .ok ⟨⟩ last ∧
    SameBook book last

theorem Pending.roundTrips_joins (pending : Pending fresh order own others elem)
    (arranged : Arranged book order.side own others)
    (allocates : AllocatesOrder book fresh elem { toRestingOrder := order })
    (slot : fresh.priceOrdersAtPrice (priceToIndex order.price) = some atPrice)
    (samePrice : fresh.levelPrice atPrice = order.price) : RoundTrips book fresh elem := by
  rcases pending.joins slot samePrice with
    ⟨front, orders, back, middle, rfl, added, joined, data, level⟩
  have entryMem : (atPrice, orders) ∈ front ++ (atPrice, orders) :: back ++ others := by simp
  have nonempty : orders ≠ [] := pending.directory.ne_nil entryMem
  rcases joined.removeOrder pending.addable.trades rfl with ⟨last, removed, arranged', shrinks⟩
  have removes := removesOrder_of_run removed
  have listing : takeOut front atPrice (orders ++ []) back =
      front ++ (atPrice, orders) :: back := by
    simp [takeOut, Directory.without, nonempty]
  rw [listing] at arranged'
  refine ⟨last, ?_, arranged.sameBook arranged' pending.addable.trades ?_ ?_⟩
  · rw [run_bind_of_ok added, removed]
  · intro atPrice _
    rw [removes.levelPrice, (levelViews_eq level).2.1, (levelViews_eq allocates.level_eq).2.1]
  · intro other listed
    rw [removes.orderData, data, allocates.orderData_eq, if_neg]
    rintro rfl
    exact pending.fresh listed

section Opened

variable (pending : Pending fresh order own others elem) (opens : Opens fresh last elem atPrice)

include pending opens

/-- The order is the only one of its level, so its removal begins with that of the level. -/
theorem Pending.run_removeOrder {middle : MEOrderBook}
    (removed : removeOrdersAtPrice order.side order.price last = .ok ⟨⟩ middle) :
    removeOrder (some elem) last = .ok ⟨⟩ (middle.release elem) := by
  have data : last.orderData elem = order := by rw [opens.orderData, pending.data]
  apply removeOrder_alone
  · rw [opens.orderInUse]
    exact (pending.inUse elem).mpr (Or.inl rfl)
  · rw [opens.prevOrder, if_pos rfl]
  · rw [data]
    exact pending.addable.range
  · rw [data]
    exact removed

theorem Pending.slot_opened :
    last.priceOrdersAtPrice (priceToIndex order.price) = some atPrice := by
  rw [opens.priceOrdersAtPrice, if_pos (by rw [pending.data])]

theorem Pending.ne_opened {other : ℕ} (listed : other ∈ levelsOf (own ++ others)) :
    other ≠ atPrice := by
  rintro rfl
  exact opens.free ((pending.directory.levelInUse other).mpr listed)

omit pending in
/-- Unlinking the level between the two it was spliced between restores the links. -/
theorem Opens.level_unlinked (linked : Linked fresh.nextEntry fresh.prevEntry tail head)
    (splices : Splices fresh last atPrice head tail) {other : ℕ} (different : other ≠ atPrice) :
    (last.unlinkLevel side atPrice tail head).level other = fresh.level other := by
  apply level_ext
  · rw [levelSide_unlinkLevel, opens.levelSide, if_neg different]
  · rw [levelPrice_unlinkLevel, opens.levelPrice, if_neg different]
  · rw [firstMeOrder_unlinkLevel, opens.firstMeOrder, if_neg different]
  · rw [nextEntry_unlinkLevel, if_neg different, splices.nextEntry, if_neg different]
    split_ifs with isTail
    · rw [isTail, linked.1]
    · rfl
  · rw [prevEntry_unlinkLevel, if_neg different, splices.prevEntry]
    split_ifs with isHead
    · rw [isHead, linked.2]
    · rfl

omit pending in
theorem Opens.order_eq {other : ℕ} (different : other ≠ elem) :
    last.order other = fresh.order other := by
  apply order_ext
  · rw [opens.orderData]
  · rw [opens.nextOrder, if_neg different]
  · rw [opens.prevOrder, if_neg different]

/-- Unlinking the level moves no head pointer. -/
theorem Pending.heads_unlinked
    (allocates : AllocatesOrder book fresh elem { toRestingOrder := order })
    (insertionHead : last.insertionHead order.side = fresh.insertionHead order.side)
    (removalHead : last.removalHead order.side = fresh.removalHead order.side) :
    (last.unlinkLevel order.side atPrice tail head).bidsByPrice = book.bidsByPrice ∧
      (last.unlinkLevel order.side atPrice tail head).asksByPrice = book.asksByPrice := by
  have trades := pending.addable.trades
  have headOwn : last.removalHead order.side ≠ some atPrice := by
    rw [removalHead, pending.ladder.ring.1]
    intro heads
    have listed : atPrice ∈ levelsOf (own ++ others) := by
      simp only [levelsOf, List.map_append, List.mem_append]
      exact Or.inl (List.mem_of_mem_head? heads)
    exact pending.ne_opened opens listed rfl
  have removalKept : (last.unlinkLevel order.side atPrice tail head).removalHead order.side =
      book.removalHead order.side := by
    rw [removalHead_unlinkLevel, if_neg headOwn, removalHead, MEOrderBook.removalHead,
      allocates.asksByPrice, allocates.bidsByPrice, MEOrderBook.removalHead]
  have insertionKept : (last.unlinkLevel order.side atPrice tail head).insertionHead order.side =
      book.insertionHead order.side := by
    rw [insertionHead_unlinkLevel, insertionHead, MEOrderBook.insertionHead,
      allocates.asksByPrice, allocates.bidsByPrice, MEOrderBook.insertionHead]
  rw [← removalHead_opposite _ order.side trades,
    ← removalHead_opposite book order.side trades] at insertionKept
  exact heads_congr trades removalKept insertionKept

/-- The removal of the level and the order leaves the book before the allocation. -/
theorem Pending.sameBook_unlinked
    (allocates : AllocatesOrder book fresh elem { toRestingOrder := order })
    (slot : fresh.priceOrdersAtPrice (priceToIndex order.price) = none)
    (linked : Linked fresh.nextEntry fresh.prevEntry tail head)
    (splices : Splices fresh last atPrice head tail)
    (insertionHead : last.insertionHead order.side = fresh.insertionHead order.side)
    (removalHead : last.removalHead order.side = fresh.removalHead order.side) :
    SameBook book ((((last.unlinkLevel order.side atPrice tail head).setSlot
      (priceToIndex order.price) none).freeLevel atPrice).release elem) := by
  set final := (((last.unlinkLevel order.side atPrice tail head).setSlot
    (priceToIndex order.price) none).freeLevel atPrice).release elem with finalEq
  have data : last.orderData elem = order := by rw [opens.orderData, pending.data]
  have heads : (last.unlinkLevel order.side atPrice tail head).bidsByPrice = book.bidsByPrice ∧
      (last.unlinkLevel order.side atPrice tail head).asksByPrice = book.asksByPrice :=
    pending.heads_unlinked opens allocates insertionHead removalHead
  refine ⟨?_, ?_, ?_, ?_, ?_, ?_, ?_, ?_⟩
  · rw [finalEq, bidsByPrice_release, bidsByPrice_freeLevel, bidsByPrice_setSlot]
    exact heads.1
  · rw [finalEq, asksByPrice_release, asksByPrice_freeLevel, asksByPrice_setSlot]
    exact heads.2
  · intro index _
    rw [finalEq, priceOrdersAtPrice_release, priceOrdersAtPrice_freeLevel,
      priceOrdersAtPrice_setSlot, priceOrdersAtPrice_unlinkLevel, opens.priceOrdersAtPrice,
      pending.data, ← allocates.priceOrdersAtPrice]
    split_ifs with isSlot
    · rw [isSlot, slot]
    · rfl
  · intro clientId orderId _
    have orderEq : (((last.unlinkLevel order.side atPrice tail head).setSlot
        (priceToIndex order.price) none).freeLevel atPrice).order = last.order := by
      rw [order_freeLevel, order_setSlot, order_unlinkLevel]
    rw [finalEq, cidOidToOrder_release, (orderViews_eq orderEq).1, data, cidOidToOrder_freeLevel,
      cidOidToOrder_setSlot, cidOidToOrder_unlinkLevel, opens.cidOidToOrder, pending.data,
      allocates.cidOidToOrder]
    split_ifs with isKey
    · rw [isKey.1, isKey.2, ← allocates.cidOidToOrder, pending.addable.unused]
    · rfl
  · intro other
    rw [finalEq, levelInUse_release, levelInUse_freeLevel, levelInUse_setSlot,
      levelInUse_unlinkLevel, opens.levelInUse, ← allocates.levelInUse_eq]
    constructor
    · rintro ⟨isNew | used, different⟩
      · exact absurd isNew different
      · exact used
    · intro used
      refine ⟨Or.inr used, ?_⟩
      rintro rfl
      exact opens.free used
  · intro other
    rw [finalEq, orderInUse_release, orderInUse_freeLevel, orderInUse_setSlot,
      orderInUse_unlinkLevel, opens.orderInUse, allocates.inUse]
    constructor
    · rintro ⟨isNew | used, different⟩
      · exact absurd isNew different
      · exact used
    · intro used
      refine ⟨Or.inr used, ?_⟩
      rintro rfl
      exact allocates.free used
  · intro other used
    have different : other ≠ atPrice := by
      rintro rfl
      rw [← allocates.levelInUse_eq] at used
      exact opens.free used
    rw [finalEq, level_release, level_freeLevel, level_setSlot,
      opens.level_unlinked linked splices different, allocates.level_eq]
  · intro other used
    have different : other ≠ elem := by
      rintro rfl
      exact allocates.free used
    rw [finalEq, order_release, order_freeLevel, order_setSlot, order_unlinkLevel,
      opens.order_eq different, allocates.order, if_neg different]

end Opened

namespace Pending

variable (pending : Pending fresh order own others elem)
  (allocates : AllocatesOrder book fresh elem { toRestingOrder := order })
  (slot : fresh.priceOrdersAtPrice (priceToIndex order.price) = none)

include pending slot

include allocates in
theorem roundTrips_spliced (spare : fresh.ordersAtPricePool.Spare)
    (heads : fresh.insertionHead order.side = some head) : RoundTrips book fresh elem := by
  rcases pending.opens_spliced slot spare heads with
    ⟨last, atPrice, tail, added, opens, headMem, tailMem, linked, splices, insertion, removal⟩
  have inOthers : ∀ {cell}, cell ∈ levelsOf others → cell ∈ levelsOf (own ++ others) := by
    intro cell member
    simp only [levelsOf, List.map_append, List.mem_append]
    exact Or.inr member
  have used : ∀ {cell}, cell ∈ levelsOf others → last.LevelInUse cell := fun member =>
    (opens.levelInUse _).mpr (Or.inr ((pending.directory.levelInUse _).mpr (inOthers member)))
  have headNe : head ≠ atPrice := pending.ne_opened opens (inOthers headMem)
  have prevNew : last.prevEntry atPrice = some tail := by
    rw [splices.prevEntry, if_neg headNe.symm, if_pos rfl]
  have nextNew : last.nextEntry atPrice = some head := by
    rw [splices.nextEntry, if_pos rfl]
  have removed := removeOrdersAtPrice_linked order.side (pending.slot_opened opens)
    ((opens.levelInUse atPrice).mpr (Or.inl rfl)) prevNew nextNew headNe (used tailMem).1
    (used headMem).1
  refine ⟨_, ?_, pending.sameBook_unlinked opens allocates slot linked splices insertion removal⟩
  rw [run_bind_of_ok added]
  exact pending.run_removeOrder opens removed

include allocates in
/-- The removal of the only level clears the side's own head pointer and not the one that was
moved. -/
theorem not_roundTrips_alone (spare : fresh.ordersAtPricePool.Spare)
    (empty : fresh.insertionHead order.side = none) : ¬RoundTrips book fresh elem := by
  rintro ⟨last, ran, same⟩
  rcases pending.opens_alone slot spare empty with ⟨middle, atPrice, added, opens, moved, alone⟩
  rw [run_bind_of_ok added] at ran
  have removed : removeOrdersAtPrice order.side order.price middle = _ :=
    removeOrdersAtPrice_alone (pending.slot_opened opens)
      ((opens.levelInUse atPrice).mpr (Or.inl rfl)) alone
  have stays := insertionHead_of_removeOrdersAtPrice removed
  cases (pending.run_removeOrder opens removed).symm.trans ran
  have kept : book.insertionHead order.side = middle.insertionHead order.side := by
    rw [insertionHead, ← same.asksByPrice, ← same.bidsByPrice]
    exact stays
  rw [moved, insertionHead, ← allocates.asksByPrice, ← allocates.bidsByPrice] at kept
  cases empty.symm.trans kept

theorem not_roundTrips_exhausted (exhausted : ¬fresh.ordersAtPricePool.Spare) :
    ¬RoundTrips book fresh elem := by
  rintro ⟨last, ran, -⟩
  have fatal := addOrder_fatal pending.bound (by rwa [pending.data]) pending.cursor exhausted
  rw [run_bind_of_error fatal] at ran
  cases ran

end Pending

/-- An order that joins its level can be taken back. One that opens a level can be if the other side
has a level and another level block is free. -/
theorem Pending.roundTrips_iff_slot (pending : Pending fresh order own others elem)
    (arranged : Arranged book order.side own others)
    (allocates : AllocatesOrder book fresh elem { toRestingOrder := order })
    (samePrice : ∀ atPrice, fresh.priceOrdersAtPrice (priceToIndex order.price) = some atPrice →
      fresh.levelPrice atPrice = order.price) :
    RoundTrips book fresh elem ↔
      fresh.priceOrdersAtPrice (priceToIndex order.price) ≠ none ∨
        fresh.insertionHead order.side ≠ none ∧ fresh.ordersAtPricePool.Spare := by
  rcases slot : fresh.priceOrdersAtPrice (priceToIndex order.price) with _ | atPrice
  · rcases heads : fresh.insertionHead order.side with _ | head
    · by_cases spare : fresh.ordersAtPricePool.Spare
      · exact iff_of_false (pending.not_roundTrips_alone allocates slot spare heads) (by simp)
      · exact iff_of_false (pending.not_roundTrips_exhausted slot spare) (by simp)
    · by_cases spare : fresh.ordersAtPricePool.Spare
      · exact iff_of_true (pending.roundTrips_spliced allocates slot spare heads)
          (Or.inr ⟨Option.some_ne_none head, spare⟩)
      · exact iff_of_false (pending.not_roundTrips_exhausted slot spare) (by simp [spare])
  · exact iff_of_true (pending.roundTrips_joins arranged allocates slot (samePrice atPrice slot))
      (Or.inl (Option.some_ne_none atPrice))

/-- The condition read off the book before the order's block is allocated. -/
theorem removeOrder_undoes_iff (sound : WellFormed book .sell asks bids) (stocked : Stocked book)
    (addable : Addable book order)
    (samePrice : ∀ atPrice, book.priceOrdersAtPrice (priceToIndex order.price) = some atPrice →
      book.levelPrice atPrice = order.price ∧ book.levelSide atPrice = order.side)
    (allocated : allocateOrder { toRestingOrder := order } book = .ok (some elem) fresh) :
    RoundTrips book fresh elem ↔
      book.priceOrdersAtPrice (priceToIndex order.price) ≠ none ∨
        book.insertionHead order.side ≠ none ∧ book.ordersAtPricePool.Spare := by
  rcases sound.pending stocked addable allocated with ⟨allocates, own, others, arranged, pending⟩
  have prices := (levelViews_eq allocates.level_eq).2.1
  have same := pending.roundTrips_iff_slot arranged allocates (by
    rw [allocates.priceOrdersAtPrice, prices]
    exact fun atPrice held => (samePrice atPrice held).1)
  rw [allocates.priceOrdersAtPrice, allocates.ordersAtPricePool, insertionHead,
    allocates.asksByPrice, allocates.bidsByPrice] at same
  exact same

/-- A SELL order at 11 opens a level, which goes to the ring of the BUY level and is taken out
again. -/
theorem removeOrder_undoes_sample : ∃ elem fresh,
    allocateOrder { toRestingOrder := sampleSell 11 } sampleRoomyBook = .ok (some elem) fresh ∧
      RoundTrips sampleRoomyBook fresh elem := by
  rcases sampleSell_allocated 11 with ⟨elem, fresh, allocated⟩
  have free : sampleRoomyBook.priceOrdersAtPrice (priceToIndex (sampleSell 11).price) = none := rfl
  have undoes := removeOrder_undoes_iff sampleRoomyBook_wellFormed sampleRoomyBook_stocked
    (sampleSell_addable (by decide)) (fun atPrice held => nomatch free.symm.trans held) allocated
  exact ⟨elem, fresh, allocated, undoes.mpr (Or.inr ⟨Option.some_ne_none 1, by decide⟩)⟩

/-- The first order of an empty book cannot be taken back. -/
theorem not_roundTrips_empty : ∃ elem fresh,
    allocateOrder { toRestingOrder := sampleSell 10 } (empty 0) = .ok (some elem) fresh ∧
      WellFormed (empty 0) .sell [] [] ∧ Stocked (empty 0) ∧
      Addable (empty 0) (sampleSell 10) ∧ ¬RoundTrips (empty 0) fresh elem := by
  have addable : Addable (empty 0) (sampleSell 10) :=
    ⟨Side.noConfusion, (by decide : KeyInRange 3 1), rfl, fun head heads => by cases heads⟩
  have spareOrder : (empty 0).orderPool.Spare := ⟨1, by decide, by decide, rfl⟩
  have spareLevel : (empty 0).ordersAtPricePool.Spare := ⟨1, by decide, by decide, rfl⟩
  rcases allocateOrder_returns (empty_stocked 0).order spareOrder
    { toRestingOrder := sampleSell 10 } with ⟨elem, fresh, allocated, -⟩
  refine ⟨elem, fresh, allocated, empty_wellFormed 0, empty_stocked 0, addable, ?_⟩
  rcases (empty_wellFormed 0).pending (empty_stocked 0) addable allocated with
    ⟨allocates, own, others, arranged, pending⟩
  rw [← allocates.ordersAtPricePool] at spareLevel
  apply pending.not_roundTrips_alone allocates ?_ spareLevel
  · rw [insertionHead, allocates.asksByPrice, allocates.bidsByPrice]
    rfl
  · rw [allocates.priceOrdersAtPrice]
    rfl

end QuantEngine.MEOrderBook
