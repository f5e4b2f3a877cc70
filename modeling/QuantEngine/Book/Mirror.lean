import QuantEngine.Book.Slicing
import QuantEngine.Book.Splicing

/-!
# The mirror image of a book

The mirror negates every price, flips BUY and SELL and exchanges the two head
pointers; each slot moves to the index of its negated price. It keeps the book
well-formed, and matching on one side of the mirror is matching on the other
side of the book.

Inserting a level is not symmetric: the code moves the head pointer to a BUY
level better than the first, and tests the same comparison for a SELL level.
-/

namespace QuantEngine

variable {leavesQty : Quantity} {orders : List RestingOrder} {levels : List PriceLevel}
  {side : Side} {price : Price}

def RestingOrder.mirror (order : RestingOrder) : RestingOrder :=
  { order with side := order.side.opposite, price := -order.price }

def Trade.mirror (trade : Trade) : Trade := { trade with resting := trade.resting.mirror }

def PriceLevel.mirror (level : PriceLevel) : PriceLevel where
  price := -level.price
  orders := level.orders.map RestingOrder.mirror

theorem fillOrders_mirror : fillOrders leavesQty (orders.map RestingOrder.mirror) =
    ⟨(fillOrders leavesQty orders).trades.map Trade.mirror,
      (fillOrders leavesQty orders).leavesQty,
      (fillOrders leavesQty orders).orders.map RestingOrder.mirror⟩ := by
  induction orders generalizing leavesQty with
  | nil => rfl
  | cons resting orders ih =>
      rw [List.map_cons]
      by_cases stop : leavesQty = 0
      · rw [stop, fillOrders_zero, fillOrders_zero]
        rfl
      by_cases used : (Trade.between leavesQty resting).remaining = 0
      · have usedMirror : (Trade.between leavesQty resting.mirror).remaining = 0 := used
        have rest : (Trade.between leavesQty resting.mirror).leavesQty =
            (Trade.between leavesQty resting).leavesQty := rfl
        rw [fillOrders_used stop used, fillOrders_used stop usedMirror, rest, ih]
        rfl
      · have keptMirror : (Trade.between leavesQty resting.mirror).remaining ≠ 0 := used
        rw [fillOrders_reduced stop used, fillOrders_reduced stop keptMirror]
        rfl

/-- The limit test on the mirrored side, for the negated limit. -/
theorem beyondLimit_mirror (trades : side ≠ .invalid) (price resting : Price) :
    beyondLimit side.opposite (-price) (-resting) = beyondLimit side price resting := by
  cases side with
  | invalid => exact absurd rfl trades
  | buy => simp [beyondLimit, Side.opposite]
  | sell => simp [beyondLimit, Side.opposite]

theorem matchLevels_mirror (trades : side ≠ .invalid) :
    matchLevels (beyondLimit side.opposite (-price)) leavesQty (levels.map PriceLevel.mirror) =
      ⟨(matchLevels (beyondLimit side price) leavesQty levels).trades.map Trade.mirror,
        (matchLevels (beyondLimit side price) leavesQty levels).leavesQty,
        (matchLevels (beyondLimit side price) leavesQty levels).levels.map PriceLevel.mirror⟩ := by
  induction levels generalizing leavesQty with
  | nil => rfl
  | cons level levels ih =>
      rw [List.map_cons]
      by_cases stop : leavesQty = 0
      · rw [stop, matchLevels_zero, matchLevels_zero]
        rfl
      have sameLimit := beyondLimit_mirror trades price level.price
      by_cases beyond : beyondLimit side price level.price = true
      · rw [matchLevels_beyond level beyond,
          matchLevels_beyond level.mirror (sameLimit.trans beyond)]
        rfl
      have within : ¬beyondLimit side.opposite (-price) level.mirror.price = true := by
        rw [PriceLevel.mirror, sameLimit]
        exact beyond
      have filled : fillOrders leavesQty level.mirror.orders = _ := fillOrders_mirror
      by_cases emptied : (fillOrders leavesQty level.orders).orders = []
      · rw [matchLevels_emptied level stop beyond emptied,
          matchLevels_emptied level.mirror stop within (by rw [filled, emptied]; rfl), filled, ih]
        simp
      · rw [matchLevels_kept level stop beyond emptied,
          matchLevels_kept level.mirror stop within (by simpa [filled] using emptied), filled]
        rfl

def MEOrdersAtPrice.mirror (level : MEOrdersAtPrice) : MEOrdersAtPrice :=
  { level with side := level.side.opposite, price := -level.price }

def MEOrder.mirror (order : MEOrder) : MEOrder :=
  { order with toRestingOrder := order.toRestingOrder.mirror }

/-- The pool with every object changed. -/
def MemPool.map {T : Type} (change : T → T) (pool : MemPool T) : MemPool T :=
  { pool with
    store := fun index =>
      { pool.store index with object := change (pool.store index).object } }

/-- The slot of the negated price. -/
def mirrorIndex (index : ℕ) : ℕ := (meMaxPriceLevels - index) % meMaxPriceLevels

theorem mirrorIndex_lt (index : ℕ) : mirrorIndex index < meMaxPriceLevels :=
  Nat.mod_lt _ (by decide)

theorem mirrorIndex_mirrorIndex {index : ℕ} (bound : index < meMaxPriceLevels) :
    mirrorIndex (mirrorIndex index) = index := by
  simp only [mirrorIndex, meMaxPriceLevels] at bound ⊢
  omega

namespace MEOrderBook

open LinkedRing

variable {book last : MEOrderBook} {own others asks bids levels : List Entry} {elem head : ℕ}
  {cells : List ℕ}

theorem priceToIndex_eq (price : Price) :
    priceToIndex price = (price % (meMaxPriceLevels : ℕ)).toNat := by
  rw [priceToIndex, Int.emod_emod_of_dvd]
  decide

theorem priceToIndex_neg (price : Price) :
    priceToIndex (-price) = mirrorIndex (priceToIndex price) := by
  rw [priceToIndex_eq, priceToIndex_eq]
  simp only [mirrorIndex, meMaxPriceLevels]
  omega

def mirror (book : MEOrderBook) : MEOrderBook :=
  { book with
    ordersAtPricePool := book.ordersAtPricePool.map MEOrdersAtPrice.mirror
    bidsByPrice := book.asksByPrice
    asksByPrice := book.bidsByPrice
    priceOrdersAtPrice := fun index => book.priceOrdersAtPrice (mirrorIndex index)
    orderPool := book.orderPool.map MEOrder.mirror }

theorem removalHead_mirror (trades : side ≠ .invalid) :
    book.mirror.removalHead side.opposite = book.removalHead side := by
  cases side with
  | invalid => exact absurd rfl trades
  | buy => rfl
  | sell => rfl

theorem view_mirror : book.mirror.view levels = (book.view levels).map PriceLevel.mirror := by
  simp only [view, List.map_map]
  apply List.map_congr_left
  intro entry _
  simp only [PriceLevel.mirror, Function.comp_apply, List.map_map]
  rfl

theorem Directory.mirror (dir : Directory book levels) : Directory book.mirror levels where
  levelsNodup := dir.levelsNodup
  ordersNodup := dir.ordersNodup
  ring := dir.ring
  first := dir.first
  price entry entryMem elem inEntry := congrArg Neg.neg (dir.price entry entryMem elem inEntry)
  slot entry entryMem := by
    have index : priceToIndex (book.mirror.levelPrice entry.1) =
        mirrorIndex (priceToIndex (book.levelPrice entry.1)) := priceToIndex_neg _
    rw [index]
    change book.priceOrdersAtPrice (mirrorIndex (mirrorIndex _)) = _
    rw [mirrorIndex_mirrorIndex (priceToIndex_lt _)]
    exact dir.slot entry entryMem
  slotOnly index elem bound held := by
    obtain ⟨listed, same⟩ := dir.slotOnly (mirrorIndex index) elem (mirrorIndex_lt index) held
    have index' : priceToIndex (book.mirror.levelPrice elem) =
        mirrorIndex (priceToIndex (book.levelPrice elem)) := priceToIndex_neg _
    rw [index', ← same, mirrorIndex_mirrorIndex bound]
    exact ⟨listed, rfl⟩
  levelInUse := dir.levelInUse
  orderInUse := dir.orderInUse
  key := dir.key
  keyOnly := dir.keyOnly

theorem better_mirror (trades : side ≠ .invalid) (first second : Price) :
    Better side.opposite (-first) (-second) ↔ Better side first second := by
  cases side with
  | invalid => exact absurd rfl trades
  | buy => simp [Better, Side.opposite]
  | sell => simp [Better, Side.opposite]

theorem Ladder.mirror (trades : side ≠ .invalid) (ladder : Ladder book side own) :
    Ladder book.mirror side.opposite own where
  ring := by
    rw [removalHead_mirror trades]
    exact ladder.ring
  levelSide atPrice listed := congrArg Side.opposite (ladder.levelSide atPrice listed)
  orderSide elem listed := congrArg Side.opposite (ladder.orderSide elem listed)
  sorted := ladder.sorted.imp fun better => (better_mirror trades _ _).mpr better

theorem WellFormed.mirror (sound : WellFormed book side own others) (trades : side ≠ .invalid) :
    WellFormed book.mirror side.opposite own others where
  directory := sound.directory.mirror
  ordersOnly := sound.ordersOnly
  ladder := sound.ladder.mirror trades
  otherLadder := sound.otherLadder.mirror (opposite_ne_invalid trades)
  ids := sound.ids

/-- Matching on the mirrored book makes the mirrored trades and leaves as much. -/
theorem WellFormed.matchAt_mirror (sound : WellFormed book side.opposite own others)
    (trades : side ≠ .invalid) (aggressor aggressor' : Aggressor) (price : Price)
    (qty : Quantity) :
    ∃ last last' left taken, Returns book last aggressor side price qty left taken ∧
      Returns book.mirror last' aggressor' side.opposite (-price) qty left
        (taken.map Trade.mirror) := by
  have trades' := opposite_ne_invalid trades
  obtain ⟨last, _, _, _, _, returns⟩ := sound.matchAt trades aggressor price qty
  obtain ⟨last', _, _, _, _, returns'⟩ :=
    (sound.mirror trades').matchAt trades' aggressor' (-price) qty
  rw [view_mirror, matchLevels_mirror trades] at returns'
  exact ⟨last, last', _, _, returns, returns'⟩

/-- `asks_by_price_` heads a ring, which may be empty, and a BUY level outside it is to be
inserted. -/
structure BuyInsertion (book : MEOrderBook) (cells : List ℕ) (elem : ℕ) : Prop where
  ring : HeadsRing book.nextEntry book.prevEntry book.asksByPrice cells
  inPool : ∀ cell ∈ cells, cell < book.ordersAtPricePool.numElems
  bound : elem < book.ordersAtPricePool.numElems
  fresh : elem ∉ cells
  buys : book.levelSide elem = .buy

/-- Inserting the mirrored level into the mirrored book gives the mirror of the insertion: the
same links, sides, prices and head pointers. -/
def MirrorsInsertion (book : MEOrderBook) (elem : ℕ) : Prop :=
  ∃ last last', addOrderAtPrice (some elem) book = .ok ⟨⟩ last ∧
    addOrderAtPrice (some elem) book.mirror = .ok ⟨⟩ last' ∧
    last'.level = last.mirror.level ∧ last'.bidsByPrice = last.mirror.bidsByPrice ∧
    last'.asksByPrice = last.mirror.asksByPrice

/-- Two insertions that link alike leave mirrored levels. -/
theorem level_eq_mirror {last' : MEOrderBook} (ran : addOrderAtPrice (some elem) book = .ok ⟨⟩ last)
    (ran' : addOrderAtPrice (some elem) book.mirror = .ok ⟨⟩ last')
    (nexts : ∀ other, last'.nextEntry other = last.nextEntry other)
    (prevs : ∀ other, last'.prevEntry other = last.prevEntry other) :
    last'.level = last.mirror.level := by
  have frame := addOrderAtPrice_frame ran
  have frame' := addOrderAtPrice_frame ran'
  funext other
  apply level_ext
  · rw [frame'.levelSide]
    exact (congrArg Side.opposite (congrFun frame.levelSide other)).symm
  · rw [frame'.levelPrice]
    exact (congrArg Neg.neg (congrFun frame.levelPrice other)).symm
  · rw [frame'.firstMeOrder]
    exact (congrFun frame.firstMeOrder other).symm
  · exact nexts other
  · exact prevs other

namespace BuyInsertion

theorem mirrors_empty (insertion : BuyInsertion book [] elem) : MirrorsInsertion book elem := by
  have buys := insertion.buys
  have sells : book.mirror.levelSide elem = .sell := congrArg Side.opposite buys
  have empty : book.asksByPrice = none := insertion.ring.1
  have ran : addOrderAtPrice (some elem) book = .ok ⟨⟩ (book.openRing elem) :=
    run_addOrderAtPrice_empty insertion.bound (by rw [buys]; exact empty)
  have ran' : addOrderAtPrice (some elem) book.mirror = .ok ⟨⟩ (book.mirror.openRing elem) :=
    run_addOrderAtPrice_empty insertion.bound (by rw [sells]; exact empty)
  refine ⟨_, _, ran, ran', level_eq_mirror ran ran' ?_ ?_, ?_, ?_⟩
  · intro other
    rw [nextEntry_openRing, nextEntry_openRing]
    rfl
  · intro other
    rw [prevEntry_openRing, prevEntry_openRing]
    rfl
  · change _ = (book.openRing elem).asksByPrice
    rw [bidsByPrice_openRing, asksByPrice_openRing, sells, buys]
    rfl
  · change _ = (book.openRing elem).bidsByPrice
    rw [bidsByPrice_openRing, asksByPrice_openRing, sells, buys]
    rfl

/-- Both runs splice the level in at the same place; only one of them may move its head pointer. -/
theorem mirrors_iff (insertion : BuyInsertion book (head :: cells) elem) :
    MirrorsInsertion book elem ↔ book.levelPrice elem ≤ book.levelPrice head := by
  have buys := insertion.buys
  have sells : book.mirror.levelSide elem = .sell := congrArg Side.opposite buys
  have ring := insertion.ring.2 (List.cons_ne_nil _ _)
  have ringMirror : IsRing book.mirror.nextEntry book.mirror.prevEntry (head :: cells) := ring
  have boundMirror : elem < book.mirror.ordersAtPricePool.numElems := insertion.bound
  have heads : book.insertionHead (book.levelSide elem) = some head := by
    rw [buys]
    exact insertion.ring.1
  have heads' : book.mirror.insertionHead (book.mirror.levelSide elem) = some head := by
    rw [sells]
    exact insertion.ring.1
  obtain ⟨last, tail, ran, -, prevHead, inserts⟩ :=
    addOrderAtPrice_inserts insertion.bound heads ring insertion.inPool insertion.fresh
  obtain ⟨last', tail', ran', -, prevHead', inserts'⟩ :=
    addOrderAtPrice_inserts boundMirror heads' ringMirror insertion.inPool insertion.fresh
  have sameTail : tail' = tail := Option.some.inj (prevHead'.symm.trans prevHead)
  subst sameTail
  have asks : last.asksByPrice = some (book.splicedHead elem head) := by
    have moved := inserts.head
    rwa [buys] at moved
  have bids : last.bidsByPrice = book.bidsByPrice := by
    have kept := inserts.otherHead
    rwa [buys] at kept
  have bids' : last'.bidsByPrice = some head := by
    have moved := inserts'.head
    rwa [splicedHead, if_neg (by simp [sells]), sells] at moved
  have asks' : last'.asksByPrice = book.bidsByPrice := by
    have kept := inserts'.otherHead
    rwa [sells] at kept
  have levels : last'.level = last.mirror.level := by
    apply level_eq_mirror ran ran'
    · intro other
      rw [inserts.splices.nextEntry, inserts'.splices.nextEntry]
      rfl
    · intro other
      rw [inserts.splices.prevEntry, inserts'.splices.prevEntry]
      rfl
  have apart : elem ≠ head := fun same => insertion.fresh (by simp [same])
  constructor
  · rintro ⟨state, state', reached, reached', -, sameHead, -⟩
    cases ran.symm.trans reached
    cases ran'.symm.trans reached'
    have sameHead' : last'.bidsByPrice = last.asksByPrice := sameHead
    rw [bids', asks, splicedHead, buys] at sameHead'
    by_contra better
    rw [if_pos ⟨rfl, Int.lt_of_not_ge better⟩] at sameHead'
    exact apart (Option.some.inj sameHead').symm
  · intro worse
    refine ⟨last, last', ran, ran', levels, ?_, ?_⟩
    · change _ = last.asksByPrice
      rw [bids', asks, splicedHead, if_neg]
      rintro ⟨-, better⟩
      exact absurd worse (Int.not_le_of_gt better)
    · change _ = last.bidsByPrice
      rw [asks', bids]

end BuyInsertion

/-- Inserting a BUY level is symmetric exactly when its price is not better than that of the first
level of the ring, if there is one. Matching is symmetric. -/
theorem mirror_symmetry {resting : MEOrderBook} (insertion : BuyInsertion book cells elem)
    (sound : WellFormed resting .sell asks bids) (aggressor aggressor' : Aggressor) (price : Price)
    (qty : Quantity) :
    (MirrorsInsertion book elem ↔
        ∀ head ∈ cells.head?, book.levelPrice elem ≤ book.levelPrice head) ∧
      ∃ last last' left taken, Returns resting last aggressor .buy price qty left taken ∧
        Returns resting.mirror last' aggressor' .sell (-price) qty left
          (taken.map Trade.mirror) := by
  refine ⟨?_, sound.matchAt_mirror (by decide) aggressor aggressor' price qty⟩
  cases cells with
  | nil => exact iff_of_true insertion.mirrors_empty (fun head none => nomatch none)
  | cons head cells =>
      rw [insertion.mirrors_iff]
      simp

theorem sampleBuyRing_insertion {elem : ℕ} (fresh : elem ∉ [0, 1]) (bound : elem < 8)
    (buys : sampleBuyRing.levelSide elem = .buy) : BuyInsertion sampleBuyRing [0, 1] elem :=
  ⟨sampleBuyRing_sorted.ring, by decide, bound, fresh, buys⟩

theorem mirror_symmetry_sample :
    MirrorsInsertion sampleBuyRing 2 ∧
      ∃ last last' left taken,
        Returns sampleBook last ⟨3, 1, 0, .buy, 4⟩ .buy 10 8 left taken ∧
        Returns sampleBook.mirror last' ⟨3, 1, 0, .sell, 4⟩ .sell (-10) 8 left
          (taken.map Trade.mirror) := by
  have insertion : BuyInsertion sampleBuyRing [0, 1] 2 :=
    sampleBuyRing_insertion (by decide) (by decide) rfl
  have symmetry := mirror_symmetry insertion sampleBook_wellFormed ⟨3, 1, 0, .buy, 4⟩
    ⟨3, 1, 0, .sell, 4⟩ 10 8
  exact ⟨symmetry.1.mpr (by simp [levelPrice, level, sampleBuyRing, sampleBuyLevels]), symmetry.2⟩

/-- A BUY level at 11 becomes the head of the ring of 10 and 8, but a SELL level at -11 does not
become the head of the ring of -10 and -8. -/
theorem not_mirrorsInsertion_best :
    BuyInsertion sampleBuyRing [0, 1] 3 ∧ ¬MirrorsInsertion sampleBuyRing 3 := by
  have insertion : BuyInsertion sampleBuyRing [0, 1] 3 :=
    sampleBuyRing_insertion (by decide) (by decide) rfl
  refine ⟨insertion, ?_⟩
  rw [insertion.mirrors_iff]
  decide

end MEOrderBook

end QuantEngine
