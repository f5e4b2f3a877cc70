import QuantEngine.MEOrderBook

/-!
# Price-time matching on lists

What `checkForMatch` is for, on a book seen as two lists of price levels: best
price first, and within a level in order of arrival. An incoming order trades
with the first order of the first level until it is used up, the opposite side
is empty, or the next level lies beyond its limit price.

The messages of a trade are stated here as functions of the trade alone.
-/

namespace QuantEngine

/-- The incoming order of a `checkForMatch` call, without its price and quantity. -/
structure Aggressor where
  clientId : ClientId
  clientOrderId : OrderId
  tickerId : TickerId
  side : Side
  marketOrderId : OrderId
  deriving DecidableEq, Repr

/-- One trade: the resting order as it was before, the quantity exchanged, and what it left of
the aggressor. -/
structure Trade where
  resting : RestingOrder
  execQty : Quantity
  leavesQty : Quantity
  deriving DecidableEq, Repr

namespace Trade

/-- The trade between an aggressor with `leavesQty` left and a resting order. -/
def between (leavesQty : Quantity) (resting : RestingOrder) : Trade where
  resting := resting
  execQty := min leavesQty resting.quantity
  leavesQty := leavesQty - min leavesQty resting.quantity

/-- What the trade left of the resting order. -/
def remaining (trade : Trade) : Quantity := trade.resting.quantity - trade.execQty

/-- The resting order after the trade. -/
def reduced (trade : Trade) : RestingOrder := { trade.resting with quantity := trade.remaining }

/-- The FILLED response sent to the aggressor. -/
def aggressorResponse (aggressor : Aggressor) (trade : Trade) : MEClientResponse where
  type := .filled
  clientId := aggressor.clientId
  tickerId := aggressor.tickerId
  clientOrderId := aggressor.clientOrderId
  marketOrderId := aggressor.marketOrderId
  side := aggressor.side
  price := trade.resting.price
  execQty := trade.execQty
  leftQty := trade.leavesQty

/-- The FILLED response sent to the owner of the resting order. -/
def restingResponse (aggressor : Aggressor) (trade : Trade) : MEClientResponse where
  type := .filled
  clientId := trade.resting.clientId
  tickerId := aggressor.tickerId
  clientOrderId := trade.resting.clientOrderId
  marketOrderId := trade.resting.marketOrderId
  side := trade.resting.side
  price := trade.resting.price
  execQty := trade.execQty
  leftQty := trade.remaining

/-- The TRADE update. -/
def tradeUpdate (aggressor : Aggressor) (trade : Trade) : MEMarketUpdate where
  type := .trade
  orderId := orderIdInvalid
  tickerId := aggressor.tickerId
  side := aggressor.side
  price := trade.resting.price
  quantity := trade.execQty
  priority := priorityInvalid

/-- The update about the resting order: CANCEL when the trade used it up, else MODIFY. -/
def restingUpdate (aggressor : Aggressor) (trade : Trade) : MEMarketUpdate :=
  if trade.remaining = 0 then {
    type := .cancel, orderId := trade.resting.marketOrderId, tickerId := aggressor.tickerId,
    side := trade.resting.side, price := trade.resting.price,
    quantity := trade.resting.quantity, priority := priorityInvalid }
  else {
    type := .modify, orderId := trade.resting.marketOrderId, tickerId := aggressor.tickerId,
    side := trade.resting.side, price := trade.resting.price,
    quantity := trade.remaining, priority := trade.resting.priority }

def responses (aggressor : Aggressor) (trade : Trade) : List MEClientResponse :=
  [trade.aggressorResponse aggressor, trade.restingResponse aggressor]

def updates (aggressor : Aggressor) (trade : Trade) : List MEMarketUpdate :=
  [trade.tradeUpdate aggressor, trade.restingUpdate aggressor]

variable {leavesQty : Quantity} {resting : RestingOrder}

theorem execQty_le_leavesQty : (between leavesQty resting).execQty ≤ leavesQty := by
  change min leavesQty resting.quantity ≤ leavesQty
  exact Std.min_le_left

theorem execQty_le_quantity : (between leavesQty resting).execQty ≤ resting.quantity := by
  change min leavesQty resting.quantity ≤ resting.quantity
  exact Std.min_le_right

/-- The aggressor's subtraction does not wrap. -/
theorem leavesQty_add_execQty :
    (between leavesQty resting).leavesQty.toNat + (between leavesQty resting).execQty.toNat =
      leavesQty.toNat := by
  have bound : (between leavesQty resting).execQty ≤ leavesQty := execQty_le_leavesQty
  have difference : (between leavesQty resting).leavesQty.toNat =
      leavesQty.toNat - (between leavesQty resting).execQty.toNat :=
    UInt32.toNat_sub_of_le _ _ bound
  have boundNat := UInt32.le_iff_toNat_le.mp bound
  omega

theorem remaining_add_execQty :
    (between leavesQty resting).remaining.toNat + (between leavesQty resting).execQty.toNat =
      resting.quantity.toNat := by
  have bound : (between leavesQty resting).execQty ≤ resting.quantity := execQty_le_quantity
  have difference : (between leavesQty resting).remaining.toNat =
      resting.quantity.toNat - (between leavesQty resting).execQty.toNat :=
    UInt32.toNat_sub_of_le _ _ bound
  have boundNat := UInt32.le_iff_toNat_le.mp bound
  omega

/-- A trade that leaves something of the resting order uses the aggressor up. -/
theorem leavesQty_eq_zero (left : (between leavesQty resting).remaining ≠ 0) :
    (between leavesQty resting).leavesQty = 0 := by
  rcases (Std.min_eq_or : min leavesQty resting.quantity = leavesQty ∨ _) with all | all
  · change leavesQty - min leavesQty resting.quantity = 0
    rw [all, UInt32.sub_self]
  · refine absurd ?_ left
    change resting.quantity - min leavesQty resting.quantity = 0
    rw [all, UInt32.sub_self]

end Trade

/-- The orders of one price in order of arrival. -/
structure PriceLevel where
  price : Price
  orders : List RestingOrder
  deriving DecidableEq, Repr

/-- The outcome of trading with the orders of one level. -/
structure Filled where
  trades : List Trade
  leavesQty : Quantity
  orders : List RestingOrder
  deriving DecidableEq, Repr

/-- Trades with the orders of a level, first come first served. -/
def fillOrders : Quantity → List RestingOrder → Filled
  | leavesQty, [] => ⟨[], leavesQty, []⟩
  | leavesQty, resting :: orders =>
      if leavesQty = 0 then ⟨[], leavesQty, resting :: orders⟩
      else
        let trade := Trade.between leavesQty resting
        if trade.remaining = 0 then
          let filled := fillOrders trade.leavesQty orders
          { filled with trades := trade :: filled.trades }
        else ⟨[trade], trade.leavesQty, trade.reduced :: orders⟩

/-- The outcome of trading with one side of the book. -/
structure Matched where
  trades : List Trade
  leavesQty : Quantity
  levels : List PriceLevel
  deriving DecidableEq, Repr

/-- Trades with the levels of a side, best price first, up to the first level `beyond` the limit;
emptied levels disappear. -/
def matchLevels (beyond : Price → Bool) : Quantity → List PriceLevel → Matched
  | leavesQty, [] => ⟨[], leavesQty, []⟩
  | leavesQty, level :: levels =>
      if leavesQty = 0 ∨ beyond level.price then ⟨[], leavesQty, level :: levels⟩
      else
        let filled := fillOrders leavesQty level.orders
        if filled.orders = [] then
          let matched := matchLevels beyond filled.leavesQty levels
          { matched with trades := filled.trades ++ matched.trades }
        else ⟨filled.trades, filled.leavesQty, { level with orders := filled.orders } :: levels⟩

/-- Both sides of a book, best price first. -/
structure BookView where
  asks : List PriceLevel
  bids : List PriceLevel
  deriving DecidableEq, Repr

/-- The outcome of matching one incoming order. -/
structure Outcome where
  trades : List Trade
  leavesQty : Quantity
  view : BookView
  deriving DecidableEq, Repr

/-- The limit test of an aggressor: the resting price is worse than its own. -/
def beyondLimit (side : Side) (price resting : Price) : Bool :=
  if side = .buy then price < resting else price > resting

/-- Matches an incoming order of side `side` against the opposite side of the book. -/
def matchView (side : Side) (price : Price) (qty : Quantity) (view : BookView) : Outcome :=
  match side with
  | .buy =>
      let matched := matchLevels (beyondLimit .buy price) qty view.asks
      ⟨matched.trades, matched.leavesQty, { view with asks := matched.levels }⟩
  | .sell =>
      let matched := matchLevels (beyondLimit .sell price) qty view.bids
      ⟨matched.trades, matched.leavesQty, { view with bids := matched.levels }⟩
  | .invalid => ⟨[], qty, view⟩

section Matching

variable {beyond : Price → Bool} {leavesQty : Quantity} {price : Price} {resting : RestingOrder}
  {orders : List RestingOrder} {levels : List PriceLevel}

theorem matchLevels_zero : matchLevels beyond 0 levels = ⟨[], 0, levels⟩ := by
  cases levels with
  | nil => rfl
  | cons level levels => simp [matchLevels]

/-- The level without its used-up first order; an empty level is dropped. -/
def dropFirst (price : Price) (orders : List RestingOrder) (levels : List PriceLevel) :
    List PriceLevel :=
  if orders = [] then levels else ⟨price, orders⟩ :: levels

/-- The matcher one order at a time: a trade that uses the first order up. -/
theorem matchLevels_used (left : leavesQty ≠ 0) (within : beyond price = false)
    (used : (Trade.between leavesQty resting).remaining = 0) :
    matchLevels beyond leavesQty (⟨price, resting :: orders⟩ :: levels) =
      let trade := Trade.between leavesQty resting
      let matched := matchLevels beyond trade.leavesQty (dropFirst price orders levels)
      { matched with trades := trade :: matched.trades } := by
  rcases orders with _ | ⟨second, orders⟩
  · simp [matchLevels, fillOrders, dropFirst, left, within, used]
  · by_cases stop : (Trade.between leavesQty resting).leavesQty = 0
    · simp [matchLevels, fillOrders, dropFirst, left, within, used, stop]
    · simp only [dropFirst, List.cons_ne_nil, if_false]
      rw [matchLevels, matchLevels]
      simp only [left, within, stop, Bool.false_eq_true, or_self, if_false]
      rw [fillOrders]
      simp only [left, used, if_false, if_true]
      split <;> rfl

theorem matchLevels_reduced (left : leavesQty ≠ 0) (within : beyond price = false)
    (reduced : (Trade.between leavesQty resting).remaining ≠ 0) :
    matchLevels beyond leavesQty (⟨price, resting :: orders⟩ :: levels) =
      let trade := Trade.between leavesQty resting
      ⟨[trade], 0, ⟨price, trade.reduced :: orders⟩ :: levels⟩ := by
  simp [matchLevels, fillOrders, left, within, reduced, Trade.leavesQty_eq_zero reduced]

end Matching

end QuantEngine
