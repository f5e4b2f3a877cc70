import QuantEngine.Book.Listing

/-!
# Trading in two slices

Trading with a quantity and then with a second one is trading once with their
sum. On the reference matcher the induction follows the orders of a level and
then the levels: wherever the first slice stops, the second goes on with what
is left, and the whole passes the same point with the second slice's quantity
still to come. `Refines` carries the law over to the book, where equal views
mean equal books.
-/

namespace QuantEngine

variable {a b leavesQty : Quantity} {resting : RestingOrder} {orders : List RestingOrder}
  {levels : List PriceLevel} {beyond : Price → Bool} {id : OrderId}

namespace Trade

theorem toNat_execQty : (between leavesQty resting).execQty.toNat =
    min leavesQty.toNat resting.quantity.toNat := by
  have execQty_eq : (between leavesQty resting).execQty =
      if leavesQty ≤ resting.quantity then leavesQty else resting.quantity := rfl
  rw [execQty_eq]
  split
  · rename_i less
    exact (Nat.min_eq_left (UInt32.le_iff_toNat_le.mp less)).symm
  · rename_i more
    rw [UInt32.le_iff_toNat_le] at more
    exact (Nat.min_eq_right (Nat.le_of_not_le more)).symm

theorem toNat_leavesQty : (between leavesQty resting).leavesQty.toNat =
    leavesQty.toNat - resting.quantity.toNat := by
  have total : (between leavesQty resting).leavesQty.toNat +
      (between leavesQty resting).execQty.toNat = leavesQty.toNat := leavesQty_add_execQty
  rw [toNat_execQty] at total
  omega

theorem toNat_remaining : (between leavesQty resting).remaining.toNat =
    resting.quantity.toNat - leavesQty.toNat := by
  have total : (between leavesQty resting).remaining.toNat +
      (between leavesQty resting).execQty.toNat = resting.quantity.toNat := remaining_add_execQty
  rw [toNat_execQty] at total
  omega

theorem remaining_eq_zero_iff :
    (between leavesQty resting).remaining = 0 ↔ resting.quantity.toNat ≤ leavesQty.toNat := by
  rw [← UInt32.toNat_inj, toNat_remaining]
  exact Nat.sub_eq_zero_iff_le

theorem toNat_reduced : (between leavesQty resting).reduced.quantity.toNat =
    resting.quantity.toNat - leavesQty.toNat := toNat_remaining

section TwoSlices

variable (fits : a.toNat + b.toNat < 2 ^ 32)

include fits

theorem toNat_add_of_fits : (a + b).toNat = a.toNat + b.toNat := by
  rw [UInt32.toNat_add]
  exact Nat.mod_eq_of_lt fits

theorem add_ne_zero (someFirst : a ≠ 0) : a + b ≠ 0 := by
  intro none
  apply someFirst
  rw [← UInt32.toNat_inj, toNat_add_of_fits fits] at none
  rw [← UInt32.toNat_inj]
  exact (Nat.add_eq_zero_iff.mp none).1

/-- Behind an order that the first slice uses up, the whole has the second slice in hand as
well. -/
theorem leavesQty_add (used : (between a resting).remaining = 0) :
    (between (a + b) resting).leavesQty = (between a resting).leavesQty + b := by
  rw [remaining_eq_zero_iff] at used
  rw [← UInt32.toNat_inj, UInt32.toNat_add, toNat_leavesQty, toNat_leavesQty,
    toNat_add_of_fits fits]
  omega

theorem leavesQty_reduced (kept : (between a resting).remaining ≠ 0) :
    (between b (between a resting).reduced).leavesQty = (between (a + b) resting).leavesQty := by
  rw [Ne, remaining_eq_zero_iff] at kept
  rw [← UInt32.toNat_inj, toNat_leavesQty, toNat_leavesQty, toNat_reduced, toNat_add_of_fits fits]
  omega

theorem remaining_reduced (resting : RestingOrder) :
    (between b (between a resting).reduced).remaining = (between (a + b) resting).remaining := by
  rw [← UInt32.toNat_inj, toNat_remaining, toNat_remaining, toNat_reduced, toNat_add_of_fits fits]
  omega

theorem reduced_reduced : (between b (between a resting).reduced).reduced =
    (between (a + b) resting).reduced := by
  have same := remaining_reduced fits resting
  exact congrArg (fun quantity => { resting with quantity := quantity }) same

theorem execQty_add_reduced : (between a resting).execQty.toNat +
    (between b (between a resting).reduced).execQty.toNat =
      (between (a + b) resting).execQty.toNat := by
  rw [toNat_execQty, toNat_execQty, toNat_execQty, toNat_reduced, toNat_add_of_fits fits]
  omega

end TwoSlices

end Trade

/-- The quantity the order with this id trades. -/
def tradedQty (id : OrderId) (trades : List Trade) : ℕ :=
  (trades.map fun trade =>
    if trade.resting.marketOrderId = id then trade.execQty.toNat else 0).sum

@[simp]
theorem tradedQty_nil : tradedQty id [] = 0 := rfl

theorem tradedQty_cons (trade : Trade) (trades : List Trade) :
    tradedQty id (trade :: trades) =
      (if trade.resting.marketOrderId = id then trade.execQty.toNat else 0) +
        tradedQty id trades := rfl

@[simp]
theorem tradedQty_append (first second : List Trade) :
    tradedQty id (first ++ second) = tradedQty id first + tradedQty id second := by
  simp [tradedQty]

/-- An order that both slices trade with. -/
theorem tradedQty_twice (fits : a.toNat + b.toNat < 2 ^ 32) (trades : List Trade) :
    tradedQty id ([Trade.between a resting] ++
      Trade.between b (Trade.between a resting).reduced :: trades) =
        tradedQty id (Trade.between (a + b) resting :: trades) := by
  rw [List.singleton_append, tradedQty_cons, tradedQty_cons, tradedQty_cons, ← Nat.add_assoc]
  congr 1
  change (if resting.marketOrderId = id then _ else 0) +
    (if resting.marketOrderId = id then _ else 0) = if resting.marketOrderId = id then _ else 0
  split
  · exact Trade.execQty_add_reduced fits
  · rfl

theorem fillOrders_zero : fillOrders 0 orders = ⟨[], 0, orders⟩ := by
  cases orders with
  | nil => rfl
  | cons resting orders => rw [fillOrders, if_pos rfl]

theorem fillOrders_used (left : leavesQty ≠ 0)
    (used : (Trade.between leavesQty resting).remaining = 0) :
    fillOrders leavesQty (resting :: orders) =
      ⟨Trade.between leavesQty resting ::
          (fillOrders (Trade.between leavesQty resting).leavesQty orders).trades,
        (fillOrders (Trade.between leavesQty resting).leavesQty orders).leavesQty,
        (fillOrders (Trade.between leavesQty resting).leavesQty orders).orders⟩ := by
  rw [fillOrders, if_neg left]
  simp only [if_pos used]

theorem fillOrders_reduced (left : leavesQty ≠ 0)
    (reduced : (Trade.between leavesQty resting).remaining ≠ 0) :
    fillOrders leavesQty (resting :: orders) =
      ⟨[Trade.between leavesQty resting], 0,
        (Trade.between leavesQty resting).reduced :: orders⟩ := by
  rw [fillOrders, if_neg left]
  simp only [if_neg reduced, Trade.leavesQty_eq_zero reduced]

/-- Orders are left only by an aggressor that is used up. -/
theorem fillOrders_leavesQty (kept : (fillOrders leavesQty orders).orders ≠ []) :
    (fillOrders leavesQty orders).leavesQty = 0 := by
  induction orders generalizing leavesQty with
  | nil => exact absurd rfl kept
  | cons resting orders ih =>
      by_cases stop : leavesQty = 0
      · rw [stop, fillOrders_zero]
      · by_cases used : (Trade.between leavesQty resting).remaining = 0
        · rw [fillOrders_used stop used] at kept ⊢
          exact ih kept
        · rw [fillOrders_reduced stop used]

/-- What two fillings in a row leave and trade is what one of both quantities does. -/
structure Filled.Slices (whole first second : Filled) : Prop where
  orders : whole.orders = second.orders
  leavesQty : first.leavesQty.toNat + second.leavesQty.toNat = whole.leavesQty.toNat
  traded : ∀ id, tradedQty id (first.trades ++ second.trades) = tradedQty id whole.trades

theorem Filled.slices_refl (filled : Filled) (untouched : List RestingOrder) :
    Filled.Slices filled ⟨[], 0, untouched⟩ filled where
  orders := rfl
  leavesQty := Nat.zero_add _
  traded _ := rfl

theorem Filled.slices_zero (filled : Filled) :
    Filled.Slices filled filled ⟨[], 0, filled.orders⟩ where
  orders := rfl
  leavesQty := Nat.add_zero _
  traded id := by rw [List.append_nil]

/-- The induction is on the orders: the first slice ends before an order, inside it or behind
it, and only in the last case does it go on. -/
theorem fillOrders_slices (fits : a.toNat + b.toNat < 2 ^ 32) :
    Filled.Slices (fillOrders (a + b) orders) (fillOrders a orders)
      (fillOrders b (fillOrders a orders).orders) := by
  induction orders generalizing a with
  | nil => exact ⟨rfl, (Trade.toNat_add_of_fits fits).symm, fun _ => rfl⟩
  | cons resting orders ih =>
      by_cases noFirst : a = 0
      · rw [noFirst, UInt32.zero_add, fillOrders_zero]
        exact Filled.slices_refl _ _
      by_cases noSecond : b = 0
      · rw [noSecond, UInt32.add_zero, fillOrders_zero]
        exact Filled.slices_zero _
      have someWhole := Trade.add_ne_zero fits noFirst
      by_cases used : (Trade.between a resting).remaining = 0
      · have wholeUsed : (Trade.between (a + b) resting).remaining = 0 := by
          rw [Trade.remaining_eq_zero_iff] at used ⊢
          rw [Trade.toNat_add_of_fits fits]
          omega
        rw [fillOrders_used someWhole wholeUsed, fillOrders_used noFirst used,
          Trade.leavesQty_add fits used]
        have restFits : (Trade.between a resting).leavesQty.toNat + b.toNat < 2 ^ 32 := by
          rw [Trade.toNat_leavesQty]
          omega
        have slices := ih restFits
        refine ⟨slices.orders, slices.leavesQty, ?_⟩
        intro id
        have sameQty : (Trade.between (a + b) resting).execQty.toNat =
            (Trade.between a resting).execQty.toNat := by
          rw [Trade.remaining_eq_zero_iff] at used
          rw [Trade.toNat_execQty, Trade.toNat_execQty, Trade.toNat_add_of_fits fits]
          omega
        rw [List.cons_append, tradedQty_cons, tradedQty_cons, slices.traded, sameQty]
        rfl
      · rw [fillOrders_reduced noFirst used]
        have sameRemaining := Trade.remaining_reduced fits resting
        by_cases secondUsed :
            (Trade.between b (Trade.between a resting).reduced).remaining = 0
        · rw [fillOrders_used noSecond secondUsed, Trade.leavesQty_reduced fits used,
            fillOrders_used someWhole (sameRemaining ▸ secondUsed)]
          exact ⟨rfl, Nat.zero_add _, fun id => tradedQty_twice fits _⟩
        · rw [fillOrders_reduced noSecond secondUsed, Trade.reduced_reduced fits,
            fillOrders_reduced someWhole (sameRemaining ▸ secondUsed)]
          exact ⟨rfl, rfl, fun id => tradedQty_twice fits []⟩

section Levels

variable (level : PriceLevel)

theorem matchLevels_beyond (stops : beyond level.price = true) :
    matchLevels beyond leavesQty (level :: levels) = ⟨[], leavesQty, level :: levels⟩ := by
  rw [matchLevels, if_pos (.inr stops)]

theorem matchLevels_emptied (left : leavesQty ≠ 0) (within : ¬beyond level.price = true)
    (emptied : (fillOrders leavesQty level.orders).orders = []) :
    matchLevels beyond leavesQty (level :: levels) =
      ⟨(fillOrders leavesQty level.orders).trades ++
          (matchLevels beyond (fillOrders leavesQty level.orders).leavesQty levels).trades,
        (matchLevels beyond (fillOrders leavesQty level.orders).leavesQty levels).leavesQty,
        (matchLevels beyond (fillOrders leavesQty level.orders).leavesQty levels).levels⟩ := by
  rw [matchLevels, if_neg (not_or_intro left within)]
  simp only [if_pos emptied]

theorem matchLevels_kept (left : leavesQty ≠ 0) (within : ¬beyond level.price = true)
    (kept : (fillOrders leavesQty level.orders).orders ≠ []) :
    matchLevels beyond leavesQty (level :: levels) =
      ⟨(fillOrders leavesQty level.orders).trades, (fillOrders leavesQty level.orders).leavesQty,
        { level with orders := (fillOrders leavesQty level.orders).orders } :: levels⟩ := by
  rw [matchLevels, if_neg (not_or_intro left within)]
  simp only [if_neg kept]

end Levels

/-- What two matchings in a row leave and trade is what one of both quantities does. -/
structure Matched.Slices (whole first second : Matched) : Prop where
  levels : whole.levels = second.levels
  leavesQty : first.leavesQty.toNat + second.leavesQty.toNat = whole.leavesQty.toNat
  traded : ∀ id, tradedQty id (first.trades ++ second.trades) = tradedQty id whole.trades

/-- Where the first slice stops inside a level, the second goes on in that level. -/
theorem matchLevels_slices_kept {level : PriceLevel} (levels : List PriceLevel)
    (fits : a.toNat + b.toNat < 2 ^ 32) (someFirst : a ≠ 0) (someSecond : b ≠ 0)
    (within : ¬beyond level.price = true) (kept : (fillOrders a level.orders).orders ≠ []) :
    Matched.Slices (matchLevels beyond (a + b) (level :: levels))
      (matchLevels beyond a (level :: levels))
      (matchLevels beyond b (matchLevels beyond a (level :: levels)).levels) := by
  have someWhole := Trade.add_ne_zero fits someFirst
  have filled : Filled.Slices (fillOrders (a + b) level.orders) (fillOrders a level.orders)
      (fillOrders b (fillOrders a level.orders).orders) := fillOrders_slices fits
  rw [matchLevels_kept level someFirst within kept]
  dsimp only
  have usedUp := fillOrders_leavesQty kept
  have sameLeaves : (fillOrders (a + b) level.orders).leavesQty =
      (fillOrders b (fillOrders a level.orders).orders).leavesQty := by
    have sum := filled.leavesQty
    rw [usedUp] at sum
    exact UInt32.toNat_inj.mp (sum.symm.trans (Nat.zero_add _))
  by_cases emptied : (fillOrders b (fillOrders a level.orders).orders).orders = []
  · rw [matchLevels_emptied ⟨level.price, (fillOrders a level.orders).orders⟩ someSecond within
        emptied,
      matchLevels_emptied level someWhole within (filled.orders.trans emptied), sameLeaves]
    refine ⟨rfl, ?_, ?_⟩
    · rw [usedUp]
      exact Nat.zero_add _
    · intro id
      dsimp only
      rw [← List.append_assoc, tradedQty_append _ _, filled.traded, ← tradedQty_append]
  · have wholeKept : (fillOrders (a + b) level.orders).orders ≠ [] := by
      rw [filled.orders]
      exact emptied
    rw [matchLevels_kept ⟨level.price, (fillOrders a level.orders).orders⟩ someSecond within
        emptied,
      matchLevels_kept level someWhole within wholeKept, filled.orders]
    exact ⟨rfl, filled.leavesQty, filled.traded⟩

/-- The induction is on the levels; the level in which the first slice stops is the one that the
second begins with. -/
theorem matchLevels_slices (beyond : Price → Bool) (levels : List PriceLevel)
    (fits : a.toNat + b.toNat < 2 ^ 32) :
    Matched.Slices (matchLevels beyond (a + b) levels) (matchLevels beyond a levels)
      (matchLevels beyond b (matchLevels beyond a levels).levels) := by
  induction levels generalizing a with
  | nil => exact ⟨rfl, (Trade.toNat_add_of_fits fits).symm, fun _ => rfl⟩
  | cons level levels ih =>
      by_cases noFirst : a = 0
      · rw [noFirst, UInt32.zero_add, matchLevels_zero]
        exact ⟨rfl, Nat.zero_add _, fun _ => rfl⟩
      by_cases noSecond : b = 0
      · rw [noSecond, UInt32.add_zero, matchLevels_zero]
        exact ⟨rfl, Nat.add_zero _, fun _ => by rw [List.append_nil]⟩
      by_cases stops : beyond level.price = true
      · rw [matchLevels_beyond level stops, matchLevels_beyond level stops,
          matchLevels_beyond level stops]
        exact ⟨rfl, (Trade.toNat_add_of_fits fits).symm, fun _ => rfl⟩
      have someWhole := Trade.add_ne_zero fits noFirst
      have filled : Filled.Slices (fillOrders (a + b) level.orders) (fillOrders a level.orders)
          (fillOrders b (fillOrders a level.orders).orders) := fillOrders_slices fits
      by_cases emptied : (fillOrders a level.orders).orders = []
      · rw [emptied] at filled
        have wholeEmptied : (fillOrders (a + b) level.orders).orders = [] := filled.orders
        have restFits : (fillOrders a level.orders).leavesQty.toNat + b.toNat < 2 ^ 32 := by
          have sum : (fillOrders a level.orders).leavesQty.toNat + b.toNat = _ := filled.leavesQty
          rw [sum]
          exact UInt32.toNat_lt _
        have wholeLeaves : (fillOrders (a + b) level.orders).leavesQty =
            (fillOrders a level.orders).leavesQty + b := by
          rw [← UInt32.toNat_inj, Trade.toNat_add_of_fits restFits]
          exact filled.leavesQty.symm
        have slices := ih restFits
        rw [matchLevels_emptied level noFirst stops emptied,
          matchLevels_emptied level someWhole stops wholeEmptied, wholeLeaves]
        refine ⟨slices.levels, slices.leavesQty, ?_⟩
        intro id
        dsimp only
        have traded := slices.traded id
        have tradedFirst := filled.traded id
        rw [tradedQty_append] at traded tradedFirst ⊢
        rw [tradedQty_append, tradedQty_append, ← tradedFirst, ← traded]
        have nothing : tradedQty id (fillOrders b []).trades = 0 := rfl
        omega
      · exact matchLevels_slices_kept levels fits noFirst noSecond stops emptied

namespace MEOrderBook

variable {book middle last : MEOrderBook} {side : Side} {own own' own'' others : List Entry}

/-- `checkForMatch` with the side taken out of the aggressor's fields. -/
abbrev matchAt (aggressor : Aggressor) (side : Side) (price : Price) (qty : Quantity) :
    BookM Quantity :=
  checkForMatch aggressor.clientId aggressor.clientOrderId aggressor.tickerId side price qty
    aggressor.marketOrderId

/-- The call returned `left` and sent the messages of the trades. -/
structure Returns (book last : MEOrderBook) (aggressor : Aggressor) (side : Side) (price : Price)
    (qty left : Quantity) (taken : List Trade) : Prop where
  ran : matchAt aggressor side price qty book = .ok left last
  responses : last.responses =
    book.responses ++ taken.flatMap (Trade.responses { aggressor with side := side })
  updates : last.updates =
    book.updates ++ taken.flatMap (Trade.updates { aggressor with side := side })

/-- What one call on a well-formed book leaves. -/
theorem WellFormed.matchAt (sound : WellFormed book side.opposite own others)
    (trades : side ≠ .invalid) (aggressor : Aggressor) (price : Price) (qty : Quantity) :
    ∃ last own', WellFormed last side.opposite own' others ∧
      Shrinks book last side.opposite own own' ∧
      last.view own' = (matchLevels (beyondLimit side price) qty (book.view own)).levels ∧
      Returns book last aggressor side price qty
        (matchLevels (beyondLimit side price) qty (book.view own)).leavesQty
        (matchLevels (beyondLimit side price) qty (book.view own)).trades := by
  obtain ⟨last, own', ran, sound', refines⟩ :=
    WellFormed.checkForMatch { aggressor with side := side } price qty trades sound
  exact ⟨last, own', sound', refines.shrinks, refines.view, ran, refines.responses,
    refines.updates⟩

/-- Two ways of trading with one side of a book that leave the same view leave the same book. -/
theorem WellFormed.sameBook_of_view (sound : WellFormed book side own others)
    (trades : side ≠ .invalid) (sound' : WellFormed middle side own' others)
    (sound'' : WellFormed last side own'' others) (shrinks : Shrinks book middle side own own')
    (shrinks' : Shrinks book last side own own'') (same : middle.view own' = last.view own'') :
    SameBook middle last := by
  have listing := shrinks.listing_eq sound.directory shrinks' same
  subst listing
  apply sound'.arranged.sameBook sound''.arranged trades
  · intro atPrice _
    rw [shrinks.levelPrice, shrinks'.levelPrice]
  · intro elem listed
    rw [ordersOf, List.flatMap_append] at listed
    rcases List.mem_append.mp listed with inOwn | inOthers
    · exact data_eq_of_view same inOwn
    · rw [sound.arranged.otherData shrinks elem inOthers,
        sound.arranged.otherData shrinks' elem inOthers]

/-- Matching with `a` and then with `b` at one side and price leaves the book that matching with
`a + b` leaves; the leftovers add up, and every order trades the same quantity. The three calls
may be made for different clients. -/
theorem checkForMatch_slices {asks bids : List Entry} (sound : WellFormed book .sell asks bids)
    (trades : side ≠ .invalid) (first second whole : Aggressor) (price : Price) (a b : Quantity)
    (fits : a.toNat + b.toNat < 2 ^ 32) :
    ∃ middle last last' leftFirst leftSecond left takenFirst takenSecond taken,
      Returns book middle first side price a leftFirst takenFirst ∧
      Returns middle last second side price b leftSecond takenSecond ∧
      Returns book last' whole side price (a + b) left taken ∧
      SameBook last' last ∧
      leftFirst.toNat + leftSecond.toNat = left.toNat ∧
      ∀ id, tradedQty id (takenFirst ++ takenSecond) = tradedQty id taken := by
  obtain ⟨own, others, sound⟩ : ∃ own others, WellFormed book side.opposite own others := by
    cases side with
    | invalid => exact absurd rfl trades
    | buy => exact ⟨asks, bids, sound⟩
    | sell => exact ⟨bids, asks, sound.swap⟩
  obtain ⟨middle, own', soundMiddle, shrinks, view, returns⟩ := sound.matchAt trades first price a
  obtain ⟨last, own'', soundLast, shrinks', view', returns'⟩ :=
    soundMiddle.matchAt trades second price b
  obtain ⟨last', ownWhole, soundWhole, shrinksWhole, viewWhole, returnsWhole⟩ :=
    sound.matchAt trades whole price (a + b)
  have slices := matchLevels_slices (beyondLimit side price) (book.view own) fits
  rw [view] at view' returns'
  have sameView : last'.view ownWhole = last.view own'' := by
    rw [viewWhole, view', slices.levels]
  have same := sound.sameBook_of_view (opposite_ne_invalid trades) soundWhole soundLast
    shrinksWhole (shrinks.trans shrinks') sameView
  exact ⟨middle, last, last', _, _, _, _, _, _, returns, returns', returnsWhole, same,
    slices.leavesQty, slices.traded⟩

/-- A BUY of 8 cut into 3, which ends inside the first order, and 5. -/
theorem checkForMatch_slices_sample :
    ∃ middle last last' leftFirst leftSecond left takenFirst takenSecond taken,
      Returns sampleBook middle ⟨3, 1, 0, .buy, 4⟩ .buy 10 3 leftFirst takenFirst ∧
      Returns middle last ⟨3, 2, 0, .buy, 5⟩ .buy 10 5 leftSecond takenSecond ∧
      Returns sampleBook last' ⟨3, 3, 0, .buy, 6⟩ .buy 10 8 left taken ∧
      SameBook last' last ∧
      leftFirst.toNat + leftSecond.toNat = left.toNat ∧
      ∀ id, tradedQty id (takenFirst ++ takenSecond) = tradedQty id taken :=
  checkForMatch_slices sampleBook_wellFormed (by decide) ⟨3, 1, 0, .buy, 4⟩ ⟨3, 2, 0, .buy, 5⟩
    ⟨3, 3, 0, .buy, 6⟩ 10 3 5 (by decide)

end MEOrderBook

end QuantEngine
