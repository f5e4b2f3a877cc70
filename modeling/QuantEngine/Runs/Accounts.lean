import QuantEngine.Runs.Trading
import QuantEngine.Library.Log

/-!
# Accounts

What any sequence of orders and cancellations says to the clients adds up,
although the ladders may be wrong and dead orders may trade: every fill and
every cancellation is backed by the ACCEPTED response of its order, whose
quantity is what was executed before plus what the response still states.

Matching follows whatever pointer it finds, so the accounts are kept for every
block that ever held an order, whether it is in use or not. That is enough:
no level and no order points to a block that was never written.
-/

namespace QuantEngine

/-- Whose order a message or a block is about. -/
structure Holder where
  marketOrderId : OrderId
  clientId : ClientId
  clientOrderId : OrderId
  side : Side
  deriving DecidableEq, Repr

def MEClientResponse.holder (response : MEClientResponse) : Holder :=
  ⟨response.marketOrderId, response.clientId, response.clientOrderId, response.side⟩

def RestingOrder.holder (order : RestingOrder) : Holder :=
  ⟨order.marketOrderId, order.clientId, order.clientOrderId, order.side⟩

def Aggressor.holder (aggressor : Aggressor) : Holder :=
  ⟨aggressor.marketOrderId, aggressor.clientId, aggressor.clientOrderId, aggressor.side⟩

/-- The quantity that the FILLED responses about an order have executed. -/
def executed (id : OrderId) (log : List MEClientResponse) : ℕ :=
  ((fillsOf id log).map fun fill => fill.execQty.toNat).sum

/-- The log accepted the order for what it has executed of it and what remains. -/
def Account (log : List MEClientResponse) (holder : Holder) (remaining : ℕ) : Prop :=
  ∃ accepted ∈ log, accepted.type = .accepted ∧ accepted.holder = holder ∧
    executed holder.marketOrderId log + remaining = accepted.leftQty.toNat

/-- The response agrees with the responses before it. -/
structure Backed (before : List MEClientResponse) (response : MEClientResponse) : Prop where
  accepted : response.type = .accepted → response.execQty = 0 ∧
    ∀ earlier ∈ before, earlier.type = .accepted →
      earlier.marketOrderId ≠ response.marketOrderId
  filled : response.type = .filled →
    Account before response.holder (response.execQty.toNat + response.leftQty.toNat)
  canceled : response.type = .canceled → Account before response.holder response.leftQty.toNat

/-- Every response agrees with the responses before it. -/
abbrev Balanced (log : List MEClientResponse) : Prop := Log.Each Backed log

section Log

variable {log log' sent : List MEClientResponse} {response : MEClientResponse} {id : OrderId}
  {holder : Holder} {remaining left : ℕ} {aggressor : Aggressor} {resting : RestingOrder}
  {leavesQty : Quantity}

theorem executed_append : executed id (log ++ log') = executed id log + executed id log' := by
  simp [executed]

/-- A response executes nothing of another order. -/
theorem executed_other (other : response.marketOrderId ≠ id) : executed id [response] = 0 := by
  simp [executed, fillsOf, other]

/-- A response that is no fill executes nothing. -/
theorem executed_unfilled (unfilled : response.type ≠ .filled) : executed id [response] = 0 := by
  simp [executed, fillsOf, unfilled]

theorem executed_trade :
    executed id ((Trade.between leavesQty resting).responses aggressor) =
      (if aggressor.marketOrderId = id then (Trade.between leavesQty resting).execQty.toNat
        else 0) +
      if resting.marketOrderId = id then (Trade.between leavesQty resting).execQty.toNat
        else 0 := by
  rw [executed, fillsOf_trade]
  split <;> split <;> simp [Trade.aggressorResponse, Trade.restingResponse]

theorem Account.append (account : Account log holder remaining)
    (sum : executed holder.marketOrderId sent + left = remaining) :
    Account (log ++ sent) holder left := by
  rcases account with ⟨accepted, member, type, same, total⟩
  refine ⟨accepted, List.mem_append_left _ member, type, same, ?_⟩
  rw [executed_append, Nat.add_assoc, sum]
  exact total

/-- Responses that execute nothing of an order leave its account alone. -/
theorem Account.silent (account : Account log holder remaining)
    (silent : executed holder.marketOrderId sent = 0) : Account (log ++ sent) holder remaining :=
  account.append (by rw [silent, Nat.zero_add])

theorem Backed.of_filled (type : response.type = .filled)
    (account : Account log response.holder (response.execQty.toNat + response.leftQty.toNat)) :
    Backed log response := by
  refine ⟨?_, fun _ => account, ?_⟩ <;> simp [type]

theorem Backed.of_canceled (type : response.type = .canceled)
    (account : Account log response.holder response.leftQty.toNat) : Backed log response := by
  refine ⟨?_, ?_, fun _ => account⟩ <;> simp [type]

/-- Only the id of an accepted order has executed anything. -/
theorem executed_eq_zero (balanced : Balanced log)
    (unknown : ∀ response ∈ log, response.type = .accepted → response.marketOrderId ≠ id) :
    executed id log = 0 := by
  have none : fillsOf id log = [] := by
    refine List.filter_eq_nil_iff.mpr fun response member matching => ?_
    rcases of_decide_eq_true matching with ⟨filled, rfl⟩
    rcases balanced.of_mem member with ⟨before, subset, backed⟩
    rcases backed.filled filled with ⟨accepted, known, type, same, -⟩
    exact unknown accepted (subset known) type (congrArg Holder.marketOrderId same)
  rw [executed, none]
  rfl

end Log

namespace MEOrderBook

open Exec LinkedRing Runs

variable {book last state : MEOrderBook} {submission : Submission} {ops : List Op} {op : Op}
  {tickerId : TickerId} {elem atPrice : ℕ} {aggressor : Aggressor} {leavesQty : Quantity}
  {clientId : ClientId} {orderId : OrderId} {order : RestingOrder} {done : PUnit}

/-- A level's `first_me_order_` or an order's `next_order_` leads to the block, whether the level
and the order are in use or not. -/
def PointedTo (book : MEOrderBook) (elem : ℕ) : Prop :=
  (∃ atPrice, book.firstMeOrder atPrice = some elem) ∨ ∃ cell, book.nextOrder cell = some elem

theorem PointedTo.congr (pointed : PointedTo last elem)
    (first : last.firstMeOrder = book.firstMeOrder) (next : last.nextOrder = book.nextOrder) :
    PointedTo book elem := by
  rw [PointedTo, first, next] at pointed
  exact pointed

theorem PointedTo.of_removeOrder {removed : ℕ} (pointed : PointedTo last elem)
    (ran : removeOrder (some removed) book = .ok done last) : PointedTo book elem := by
  rcases removeOrder_cases ran with ⟨-, -, ⟨-, middle, level, rfl⟩ |
    ⟨atPrice, before, after, -, -, nextElem, -, rfl⟩⟩
  · rcases removesLevel_of_run level with ⟨_, removes⟩
    refine pointed.congr ?_ ?_
    · rw [(levelViews_eq (level_release middle removed)).2.2.1, removes.firstMeOrder]
    · rw [nextOrder_release, (orderViews_eq removes.order).2.1]
  · rcases pointed with ⟨atPrice', first⟩ | ⟨cell, next⟩
    · rw [(levelViews_eq (level_release _ removed)).2.2.1, firstMeOrder_unlinkOrder] at first
      split at first
      · exact Or.inr ⟨removed, nextElem.trans first⟩
      · exact Or.inl ⟨atPrice', first⟩
    · rw [nextOrder_release, nextOrder_unlinkOrder] at next
      split at next
      · cases next
      · split at next
        · exact Or.inr ⟨removed, nextElem.trans next⟩
        · exact Or.inr ⟨cell, next⟩

theorem nextOrder_appendOrder_some {head tail cell other : ℕ}
    (linked : (book.appendOrder elem head tail).nextOrder cell = some other) :
    other = elem ∨ other = head ∨ book.nextOrder cell = some other := by
  simp only [nextOrder, appendOrder, order_setOrder] at linked
  split_ifs at linked <;> simp_all [nextOrder]

/-- A rested order is the only block that is newly pointed to. -/
theorem rests_pointedTo (cursors : CursorsInRange book)
    (ran : restOrder order book = .ok done last) :
    ∃ elem, Rests book last order elem ∧
      ∀ other, PointedTo last other → other = elem ∨ PointedTo book other := by
  rcases restOrder_cases cursors ran with ⟨elem, allocated, allocates, cursors', added⟩
  rcases rests_of_run cursors ran with ⟨elem', rests⟩
  have adds := addsOrder_of_run cursors' added
  have sameElem : elem' = elem := by
    have used : last.OrderInUse elem' := (rests.orderInUse elem').mpr (Or.inl rfl)
    rw [adds.orderInUse] at used
    exact ((allocates.inUse elem').mp used).resolve_right rests.fresh
  subst sameElem
  refine ⟨elem', rests, fun other pointed => ?_⟩
  have first : allocated.firstMeOrder = book.firstMeOrder :=
    (levelViews_eq allocates.level_eq).2.2.1
  have next : ∀ cell, allocated.nextOrder cell = some other → PointedTo book other := by
    intro cell linked
    rw [nextOrder, allocates.order] at linked
    split at linked
    · cases linked
    · exact Or.inr ⟨cell, linked⟩
  rcases addOrder_cases cursors'.level added with ⟨-, ⟨-, atPrice, opened, middle, allocatesLevel,
    frame, -, rfl⟩ | ⟨atPrice, head, tail, -, headEq, -, rfl⟩⟩
  · rcases pointed with ⟨atPrice', firstEq⟩ | ⟨cell, nextEq⟩
    · change middle.firstMeOrder atPrice' = some other at firstEq
      rw [frame.firstMeOrder] at firstEq
      change (opened.level atPrice').firstMeOrder = some other at firstEq
      rw [allocatesLevel.level] at firstEq
      split at firstEq
      · exact Or.inl (Option.some.inj firstEq).symm
      · refine Or.inr (Or.inl ⟨atPrice', ?_⟩)
        rw [← first]
        exact firstEq
    · change middle.nextOrder cell = some other at nextEq
      rw [(orderViews_eq frame.order).2.1] at nextEq
      change (opened.order cell).nextOrder = some other at nextEq
      rw [allocatesLevel.order, selfLink, order_setOrder] at nextEq
      split at nextEq
      · exact Or.inl (Option.some.inj nextEq).symm
      · exact Or.inr (next cell nextEq)
  · rcases pointed with ⟨atPrice', firstEq⟩ | ⟨cell, nextEq⟩
    · change (allocated.appendOrder elem' head tail).firstMeOrder atPrice' = some other at firstEq
      rw [(levelViews_eq (level_appendOrder _ _ _ _)).2.2.1, first] at firstEq
      exact Or.inr (Or.inl ⟨atPrice', firstEq⟩)
    · change (allocated.appendOrder elem' head tail).nextOrder cell = some other at nextEq
      rcases nextOrder_appendOrder_some nextEq with new | rfl | old
      · exact Or.inl new
      · rw [first] at headEq
        exact Or.inr (Or.inl ⟨atPrice, headEq⟩)
      · exact Or.inr (next cell old)

/-- The block holds an order that got a market order id, whether it is in use or not. -/
def Written (book : MEOrderBook) (elem : ℕ) : Prop :=
  (book.orderData elem).marketOrderId ≠ orderIdInvalid

/-- The responses account for the order of every block, and every pointer leads to such a block. -/
structure Accounted (book : MEOrderBook) : Prop where
  cursors : CursorsInRange book
  balanced : Balanced book.responses
  accepted : ∀ response ∈ book.responses, response.type = .accepted →
    response.marketOrderId < book.nextMarketOrderId
  account : ∀ elem, Written book elem →
    Account book.responses (book.orderData elem).holder (book.orderData elem).quantity.toNat
  distinct : ∀ elem other, Written book elem →
    (book.orderData elem).marketOrderId = (book.orderData other).marketOrderId → elem = other
  inUse : ∀ elem, book.OrderInUse elem → Written book elem
  pointedTo : ∀ elem, PointedTo book elem → Written book elem
  key : ∀ clientId orderId elem, book.cidOidToOrder clientId orderId = some elem →
    book.OrderInUse elem ∧ (book.orderData elem).clientId = clientId ∧
      (book.orderData elem).clientOrderId = orderId

namespace Accounted

theorem id_lt (accounted : Accounted book) (written : Written book elem) :
    (book.orderData elem).marketOrderId < book.nextMarketOrderId := by
  rcases accounted.account elem written with ⟨response, member, type, same, -⟩
  have sameId : response.marketOrderId = (book.orderData elem).marketOrderId :=
    congrArg Holder.marketOrderId same
  rw [← sameId]
  exact accounted.accepted response member type

/-- Sending responses that execute nothing. -/
theorem send {sent : List MEClientResponse} (accounted : Accounted book)
    (same : SameMemory book last) (next : book.nextMarketOrderId ≤ last.nextMarketOrderId)
    (responses : last.responses = book.responses ++ sent) (balanced : Balanced last.responses)
    (accepted : ∀ response ∈ sent, response.type = .accepted →
      response.marketOrderId < last.nextMarketOrderId)
    (silent : ∀ id, executed id sent = 0) : Accounted last := by
  have sameData := same.orderData
  have views := orderViews_eq same.order_eq
  refine ⟨⟨?_, ?_⟩, balanced, ?_, ?_, ?_, ?_, ?_, ?_⟩
  · rw [same.orderPool]
    exact accounted.cursors.order
  · rw [same.ordersAtPricePool]
    exact accounted.cursors.level
  · intro response member type
    rw [responses] at member
    rcases List.mem_append.mp member with old | new
    · exact UInt64.lt_of_lt_of_le (accounted.accepted response old type) next
    · exact accepted response new type
  · intro elem written
    rw [Written, sameData] at written
    rw [sameData, responses]
    exact (accounted.account elem written).silent (silent _)
  · intro elem other written
    rw [Written, sameData] at written
    rw [sameData]
    exact accounted.distinct elem other written
  · intro elem used
    rw [same.orderInUse] at used
    rw [Written, sameData]
    exact accounted.inUse elem used
  · intro elem pointed
    have sameLevel : last.level = book.level := by
      funext other
      rw [level, same.ordersAtPricePool, level]
    rw [Written, sameData]
    exact accounted.pointedTo elem
      (pointed.congr (levelViews_eq sameLevel).2.2.1 views.2.1)
  · intro clientId orderId elem held
    rw [same.cidOidToOrder] at held
    rw [same.orderInUse, sameData]
    exact accounted.key clientId orderId elem held

theorem removeOrder (accounted : Accounted book)
    (ran : MEOrderBook.removeOrder (some elem) book = .ok done last) : Accounted last := by
  have removes := removesOrder_of_run ran
  have session := congrArg Outside.session removes.outside
  have responses : last.responses = book.responses := congrArg Session.responses session
  have next : last.nextMarketOrderId = book.nextMarketOrderId :=
    congrArg Session.nextMarketOrderId session
  refine ⟨accounted.cursors.of_outside removes.outside, ?_, ?_, ?_, ?_, ?_, ?_, ?_⟩
  · rw [responses]
    exact accounted.balanced
  · rw [responses, next]
    exact accounted.accepted
  · intro other
    rw [Written, responses, removes.orderData]
    exact accounted.account other
  · intro first second
    rw [Written, removes.orderData]
    exact accounted.distinct first second
  · intro other used
    rw [Written, removes.orderData]
    exact accounted.inUse other ((removes.orderInUse other).mp used).1
  · intro other pointed
    rw [Written, removes.orderData]
    exact accounted.pointedTo other (pointed.of_removeOrder ran)
  · intro clientId orderId other held
    rw [removes.cidOidToOrder] at held
    split at held
    case isTrue => cases held
    case isFalse otherKey =>
        rcases accounted.key clientId orderId other held with ⟨used, rfl, rfl⟩
        rw [removes.orderInUse, removes.orderData]
        refine ⟨⟨used, ?_⟩, rfl, rfl⟩
        rintro rfl
        exact otherKey ⟨rfl, rfl⟩

theorem rest (accounted : Accounted book) (valid : order.marketOrderId ≠ orderIdInvalid)
    (account : Account book.responses order.holder order.quantity.toNat)
    (apart : ∀ elem, Written book elem →
      (book.orderData elem).marketOrderId ≠ order.marketOrderId)
    (ran : restOrder order book = .ok done last) : Accounted last := by
  rcases rests_pointedTo accounted.cursors ran with ⟨elem, rests, pointedTo⟩
  have responses : last.responses = book.responses := congrArg Session.responses rests.session
  have next : last.nextMarketOrderId = book.nextMarketOrderId :=
    congrArg Session.nextMarketOrderId rests.session
  have dataNew : last.orderData elem = order := by
    rw [rests.orderData, if_pos rfl]
  have dataOld : ∀ other, other ≠ elem → last.orderData other = book.orderData other := by
    intro other different
    rw [rests.orderData, if_neg different]
  have writtenNew : Written last elem := by
    rw [Written, dataNew]
    exact valid
  have stillWritten : ∀ other, Written book other → Written last other := by
    intro other written
    by_cases isNew : other = elem
    · rw [isNew]
      exact writtenNew
    · rw [Written, dataOld other isNew]
      exact written
  have apartNew : ∀ other, other ≠ elem → (last.orderData other).marketOrderId ≠
      order.marketOrderId := by
    intro other different same
    rw [dataOld other different] at same
    exact apart other (fun invalid => valid (same.symm.trans invalid)) same
  refine ⟨rests.cursors, ?_, ?_, ?_, ?_, ?_, ?_, ?_⟩
  · rw [responses]
    exact accounted.balanced
  · rw [responses, next]
    exact accounted.accepted
  · intro other written
    rw [responses]
    by_cases isNew : other = elem
    · rw [isNew, dataNew]
      exact account
    · rw [Written, dataOld other isNew] at written
      rw [dataOld other isNew]
      exact accounted.account other written
  · intro first second written same
    by_cases firstNew : first = elem
    · by_contra different
      rw [firstNew, dataNew] at same
      exact apartNew second (fun isNew => different (firstNew.trans isNew.symm)) same.symm
    · have secondOld : second ≠ elem := by
        rintro rfl
        rw [dataNew] at same
        exact apartNew first firstNew same
      rw [Written, dataOld first firstNew] at written
      rw [dataOld first firstNew, dataOld second secondOld] at same
      exact accounted.distinct first second written same
  · intro other used
    rcases (rests.orderInUse other).mp used with rfl | before
    · exact writtenNew
    · exact stillWritten other (accounted.inUse other before)
  · intro other pointed
    rcases pointedTo other pointed with rfl | before
    · exact writtenNew
    · exact stillWritten other (accounted.pointedTo other before)
  · intro clientId orderId other held
    rw [rests.cidOidToOrder] at held
    split at held
    case isTrue newKey =>
        cases held
        rw [dataNew]
        exact ⟨(rests.orderInUse elem).mpr (Or.inl rfl), newKey.1.symm, newKey.2.symm⟩
    case isFalse =>
        rcases accounted.key clientId orderId other held with ⟨used, facts⟩
        rw [dataOld other fun isNew => rests.fresh (isNew ▸ used)]
        exact ⟨(rests.orderInUse other).mpr (Or.inr used), facts⟩

end Accounted

/-- A loop of `checkForMatch` so far: the incoming order has an account too, and no block has its
market order id. -/
structure Settling (book : MEOrderBook) (aggressor : Aggressor) (leavesQty : Quantity) : Prop where
  accounted : Accounted book
  account : Account book.responses aggressor.holder leavesQty.toNat
  apart : ∀ elem, Written book elem →
    (book.orderData elem).marketOrderId ≠ aggressor.marketOrderId

namespace Settling

theorem balanced_traded (settling : Settling book aggressor leavesQty)
    (written : Written book elem) :
    Balanced (book.responses ++
      (Trade.between leavesQty (book.orderData elem)).responses aggressor) := by
  let trade := Trade.between leavesQty (book.orderData elem)
  have left : trade.leavesQty.toNat + trade.execQty.toNat = leavesQty.toNat :=
    Trade.leavesQty_add_execQty
  have rests : trade.remaining.toNat + trade.execQty.toNat =
    (book.orderData elem).quantity.toNat := Trade.remaining_add_execQty
  have incoming : Backed book.responses (trade.aggressorResponse aggressor) := by
    have account := settling.account
    rw [← left, Nat.add_comm] at account
    exact Backed.of_filled rfl account
  have resting : Backed (book.responses ++ [trade.aggressorResponse aggressor])
      (trade.restingResponse aggressor) := by
    have account := settling.accounted.account elem written
    rw [← rests, Nat.add_comm] at account
    exact Backed.of_filled rfl
      (Account.silent account (executed_other (settling.apart elem written).symm))
  have both := (settling.accounted.balanced.concat incoming).concat resting
  rw [List.append_assoc] at both
  exact both

theorem traded (settling : Settling book aggressor leavesQty) (written : Written book elem) :
    Settling (book.traded aggressor elem leavesQty) aggressor
      (Trade.between leavesQty (book.orderData elem)).leavesQty := by
  let trade := Trade.between leavesQty (book.orderData elem)
  have data := orderData_traded_eq book elem leavesQty aggressor
  have sameWritten : ∀ other, Written (book.traded aggressor elem leavesQty) other ↔
      Written book other := by
    intro other
    rw [Written, data]
    rfl
  have sameId : ∀ other, ((book.traded aggressor elem leavesQty).orderData other).marketOrderId =
      (book.orderData other).marketOrderId := by
    intro other
    rw [data]
  have accounted := settling.accounted
  refine ⟨⟨⟨accounted.cursors.order, accounted.cursors.level⟩, settling.balanced_traded written,
    ?_, ?_, ?_, ?_, ?_, ?_⟩, ?_, ?_⟩
  · intro response member type
    rcases List.mem_append.mp member with old | new
    · exact accounted.accepted response old type
    · simp only [Trade.responses, List.mem_cons, List.not_mem_nil, or_false] at new
      rcases new with rfl | rfl <;> cases type
  · intro other otherWritten
    rw [sameWritten] at otherWritten
    have apart : aggressor.marketOrderId ≠ (book.orderData other).marketOrderId :=
      (settling.apart other otherWritten).symm
    have account := accounted.account other otherWritten
    rw [responses_traded, orderData_traded]
    split
    case isTrue same =>
        subst same
        refine Account.append account ?_
        have sum : executed (book.orderData other).marketOrderId (trade.responses aggressor) =
            trade.execQty.toNat := by
          rw [executed_trade, if_neg apart, if_pos rfl, Nat.zero_add]
        have rests : trade.remaining.toNat + trade.execQty.toNat =
          (book.orderData other).quantity.toNat := Trade.remaining_add_execQty
        rw [← rests, Nat.add_comm trade.remaining.toNat]
        exact congrArg (· + _) sum
    case isFalse different =>
        have others : (book.orderData elem).marketOrderId ≠ (book.orderData other).marketOrderId :=
          fun same => different (accounted.distinct elem other written same).symm
        refine account.silent ?_
        change executed (book.orderData other).marketOrderId _ = 0
        rw [executed_trade, if_neg apart, if_neg others]
  · intro first second
    rw [sameWritten, sameId, sameId]
    exact accounted.distinct first second
  · intro other used
    rw [orderInUse_traded] at used
    exact (sameWritten other).mpr (accounted.inUse other used)
  · intro other pointed
    exact (sameWritten other).mpr (accounted.pointedTo other
      (pointed.congr rfl (nextOrder_traded book elem leavesQty aggressor)))
  · intro clientId orderId other held
    rw [orderInUse_traded, data]
    exact accounted.key clientId orderId other held
  · refine settling.account.append ?_
    have sum : executed aggressor.marketOrderId (trade.responses aggressor) =
        trade.execQty.toNat := by
      rw [executed_trade, if_pos rfl, if_neg (settling.apart elem written), Nat.add_zero]
    have left : trade.leavesQty.toNat + trade.execQty.toNat = leavesQty.toNat :=
      Trade.leavesQty_add_execQty
    rw [← left, Nat.add_comm trade.leavesQty.toNat]
    exact congrArg (· + _) sum
  · intro other otherWritten
    rw [sameId]
    exact settling.apart other ((sameWritten other).mp otherWritten)

theorem removeOrder (settling : Settling book aggressor leavesQty)
    (ran : MEOrderBook.removeOrder (some elem) book = .ok done last) :
    Settling last aggressor leavesQty := by
  have removes := removesOrder_of_run ran
  have responses : last.responses = book.responses :=
    congrArg (fun out => out.session.responses) removes.outside
  refine ⟨settling.accounted.removeOrder ran, ?_, fun other => ?_⟩
  · rw [responses]
    exact settling.account
  · rw [Written, removes.orderData]
    exact settling.apart other

/-- One turn of the loop, whatever becomes of it. -/
theorem turn (settling : Settling book aggressor leavesQty) (written : Written book elem)
    (bound : elem < book.orderPool.numElems) :
    Ends (fun left next => Settling next aggressor left) (fun next => Balanced next.responses)
      (matchBy aggressor (some elem) leavesQty book) := by
  have messages : (finalState (matchBy aggressor (some elem) leavesQty book)).responses =
      book.responses ++ (Trade.between leavesQty (book.orderData elem)).responses aggressor :=
    (matchBy_messages bound).1
  cases ran : matchBy aggressor (some elem) leavesQty book with
  | error fault next =>
      rw [ran] at messages
      have sent : next.responses = _ := messages
      rw [Ends, sent]
      exact settling.balanced_traded written
  | ok left next =>
      rcases matchBy_cases ran with ⟨_, ⟨⟩, -, rfl, ⟨-, rfl⟩ | ⟨-, removed⟩⟩
      · exact settling.traded written
      · exact (settling.traded written).removeOrder removed

end Settling

/-- Matching keeps the accounts, whatever the ladder it reads and whatever becomes of it. -/
theorem matchSubmission_settles {marketOrderId : OrderId}
    (settling : Settling book (submission.aggressor marketOrderId) submission.qty) :
    Ends (fun left next => Settling next (submission.aggressor marketOrderId) left)
      (fun next => Balanced next.responses) (matchSubmission submission marketOrderId book) := by
  by_cases trades : submission.side = .invalid
  · rw [matchSubmission, trades, run_checkForMatch_invalid]
    exact settling
  · rw [run_matchSubmission trades]
    refine loopBy_ends (fun state leaves => Settling state (submission.aggressor marketOrderId)
      leaves) _ (fun settling => settling.accounted.balanced) ?_ settling
    intro state leaves atPrice elem settling _ _ first bound _
    exact settling.turn (settling.accounted.pointedTo elem (Or.inl ⟨atPrice, first⟩)) bound

/-- An id that is left is smaller than the next one. -/
theorem id_lt_succ {id : OrderId} (left : id ≠ orderIdInvalid) : id < id + 1 := by
  have small := id.toNat_lt
  have notLast : id.toNat ≠ 18446744073709551615 := fun same => left (UInt64.toNat_inj.mp same)
  rw [UInt64.lt_iff_toNat_lt, UInt64.toNat_add]
  change id.toNat < (id.toNat + 1) % 2 ^ 64
  omega

namespace Accounted

/-- The ACCEPTED response opens the account of the order. -/
theorem accepting (accounted : Accounted book) (left : book.nextMarketOrderId ≠ orderIdInvalid) :
    Settling (book.accepting submission) (submission.aggressor book.nextMarketOrderId)
      submission.qty := by
  have fresh : ∀ response ∈ book.responses, response.type = .accepted →
      response.marketOrderId ≠ book.nextMarketOrderId := fun response member type =>
    UInt64.ne_of_lt (accounted.accepted response member type)
  have backed : Backed book.responses
      (submission.acceptedResponse book.nextMarketOrderId) := by
    refine ⟨fun _ => ⟨rfl, fresh⟩, ?_, ?_⟩ <;> simp [Submission.acceptedResponse]
  have balanced : Balanced (book.accepting submission).responses :=
    accounted.balanced.concat backed
  have unfilled : (submission.acceptedResponse book.nextMarketOrderId).type ≠ .filled := by
    simp [Submission.acceptedResponse]
  have issued : book.nextMarketOrderId < (book.accepting submission).nextMarketOrderId :=
    id_lt_succ left
  refine ⟨accounted.send ⟨rfl, rfl, rfl, rfl⟩ (UInt64.le_of_lt issued) rfl balanced ?_ ?_, ?_, ?_⟩
  · intro response member _
    rw [List.mem_singleton.mp member]
    exact issued
  · exact fun id => executed_unfilled unfilled
  · refine ⟨_, List.mem_append_right _ (List.mem_singleton_self _), rfl, rfl, ?_⟩
    change executed book.nextMarketOrderId (book.responses ++ _) + _ = _
    rw [executed_append, executed_eq_zero accounted.balanced fresh, executed_unfilled unfilled]
    exact Nat.zero_add _
  · exact fun elem written => UInt64.ne_of_lt (accounted.id_lt written)

theorem submit (accounted : Accounted book) (left : book.nextMarketOrderId ≠ orderIdInvalid)
    (ran : submitBy submission book = .ok done last) : Accounted last := by
  rcases submitBy_cases ran with ⟨leftQuantity, middle, matched, settled⟩
  have start : Settling (book.accepting submission) _ _ := accounted.accepting left
  have ends := matchSubmission_settles start
  rw [matched] at ends
  have settling : Settling middle (submission.aggressor book.nextMarketOrderId) leftQuantity := ends
  rcases settle_cases settled with ⟨-, rfl⟩ | ⟨rested, -, linked, rfl⟩
  · exact settling.accounted
  · let leftover := submission.leftover book.nextMarketOrderId leftQuantity
    have account : Account middle.responses leftover.holder leftover.quantity.toNat :=
      settling.account
    have restedAccounted : Accounted rested :=
      settling.accounted.rest left account settling.apart linked
    exact restedAccounted.send ⟨rfl, rfl, rfl, rfl⟩ (UInt64.le_refl _) (List.append_nil _).symm
      restedAccounted.balanced (by simp) fun _ => rfl

theorem cancel (accounted : Accounted book)
    (ran : MEOrderBook.cancel clientId orderId tickerId book = .ok done last) :
    Accounted last := by
  rcases cancel_cases ran with ⟨-, rfl⟩ | ⟨elem, middle, -, held, removed, rfl⟩
  · have backed : Backed book.responses (rejectResponse clientId orderId tickerId) := by
      refine ⟨?_, ?_, ?_⟩ <;> simp [rejectResponse]
    refine accounted.send ⟨rfl, rfl, rfl, rfl⟩ (UInt64.le_refl _) rfl
      (accounted.balanced.concat backed) ?_ fun id => executed_unfilled (by simp [rejectResponse])
    simp [rejectResponse]
  · have canceling : Accounted (book.canceling clientId orderId tickerId elem) :=
      accounted.send ⟨rfl, rfl, rfl, rfl⟩ (UInt64.le_refl _) (List.append_nil _).symm
        accounted.balanced (by simp) fun _ => rfl
    have middleAccounted := canceling.removeOrder removed
    have session := congrArg Outside.session (removesOrder_of_run removed).outside
    have response : middle.clientResponse =
        cancelResponse clientId orderId tickerId (book.orderData elem) :=
      congrArg Session.clientResponse session
    have responses : middle.responses = book.responses := congrArg Session.responses session
    have backed : Backed middle.responses middle.clientResponse := by
      rcases accounted.key clientId orderId elem held with ⟨used, rfl, rfl⟩
      rw [response, responses]
      exact Backed.of_canceled rfl (accounted.account elem (accounted.inUse elem used))
    refine middleAccounted.send ⟨rfl, rfl, rfl, rfl⟩ (UInt64.le_refl _) rfl
      (middleAccounted.balanced.concat backed) ?_ fun id => executed_unfilled ?_
    · simp [response, cancelResponse]
    · simp [response, cancelResponse]

theorem step {result : Option Quantity} (accounted : Accounted book)
    (left : book.nextMarketOrderId ≠ orderIdInvalid) (trading : op.IsTrading)
    (ran : op.exec book = .ok result last) : Accounted last := by
  cases op with
  | checkForMatch aggressor price qty => exact absurd trading id
  | rest order => exact absurd trading id
  | removeOrder elem => exact absurd trading id
  | cancel clientId orderId tickerId =>
      rcases run_bind_eq_ok_iff.mp ran with ⟨_, _, ran, returned⟩
      cases returned
      exact accounted.cancel ran
  | submit submission =>
      rcases run_bind_eq_ok_iff.mp ran with ⟨_, _, ran, returned⟩
      cases returned
      exact accounted.submit left ran

/-- Whatever becomes of a call, the responses stay balanced. -/
theorem balanced_finalState (accounted : Accounted book)
    (left : book.nextMarketOrderId ≠ orderIdInvalid) (trading : op.IsTrading) :
    Balanced (finalState (op.exec book)).responses := by
  cases op with
  | checkForMatch aggressor price qty => exact absurd trading id
  | rest order => exact absurd trading id
  | removeOrder elem => exact absurd trading id
  | cancel clientId orderId tickerId =>
      rw [Op.exec, finalState_bind_pure]
      cases ran : MEOrderBook.cancel clientId orderId tickerId book with
      | ok done last => exact (accounted.cancel ran).balanced
      | error fault last =>
          rw [finalState_error, (cancel_error ran).1]
          exact accounted.balanced
  | submit submission =>
      rw [Op.exec, finalState_bind_pure, submitBy_messages.1]
      exact (matchSubmission_settles (accounted.accepting left)).finalState
        fun settling => settling.accounted.balanced

theorem empty (tickerId : TickerId) : Accounted (MEOrderBook.empty tickerId) where
  cursors := (Consistent.empty 0 tickerId).cursors
  balanced := Log.Each.nil
  accepted response member := by cases member
  account elem written := absurd rfl written
  distinct elem other written := absurd rfl written
  inUse elem used := by cases used.2
  pointedTo elem pointed := by
    rcases pointed with ⟨_, ⟨⟩⟩ | ⟨_, ⟨⟩⟩
  key clientId orderId elem held := by cases held

end Accounted

/-- The calls of a run of orders and cancellations. -/
abbrev TradingStep : MEOrderBook → Op → MEOrderBook → Prop := Op.Step fun _ op => op.IsTrading

/-- A call takes at most one market order id. -/
theorem TradingStep.nextMarketOrderId_le (stepped : TradingStep book op last) :
    last.nextMarketOrderId.toNat ≤ book.nextMarketOrderId.toNat + 1 := by
  rcases stepped with ⟨trading, result, ran⟩
  cases op with
  | checkForMatch aggressor price qty => exact absurd trading id
  | rest order => exact absurd trading id
  | removeOrder elem => exact absurd trading id
  | cancel clientId orderId tickerId =>
      rcases run_bind_eq_ok_iff.mp ran with ⟨_, _, ran, returned⟩
      cases returned
      rw [(Retires.of_cancel ran).nextMarketOrderId]
      exact Nat.le_succ _
  | submit submission =>
      rcases run_bind_eq_ok_iff.mp ran with ⟨_, _, ran, returned⟩
      cases returned
      rcases submitBy_cases ran with ⟨leftQuantity, middle, matched, settled⟩
      have retires := Retires.of_checkForMatch (submission.aggressor book.nextMarketOrderId) matched
      have settledNext : last.nextMarketOrderId = middle.nextMarketOrderId := by
        rcases settle_cases settled with ⟨-, rfl⟩ | ⟨rested, -, linked, rfl⟩
        · rfl
        · have kept : rested.session = middle.session := keepsSession_rest.of_ok linked
          exact congrArg Session.nextMarketOrderId kept
      rw [settledNext, retires.nextMarketOrderId]
      change (book.nextMarketOrderId + 1).toNat ≤ _
      rw [UInt64.toNat_add]
      exact Nat.mod_le _ _

theorem id_left {id : OrderId} {issued : ℕ} (bound : id.toNat ≤ issued)
    (room : issued + 1 < UInt64.size) : id ≠ orderIdInvalid := by
  rintro rfl
  change UInt64.size - 1 ≤ issued at bound
  omega

/-- As long as there are market order ids left, the accounts are kept. -/
theorem Accounted.of_run (run : Run TradingStep (MEOrderBook.empty tickerId) ops last)
    (room : ops.length + 1 < UInt64.size) :
    Accounted last ∧ last.nextMarketOrderId.toNat ≤ ops.length + 1 := by
  induction run with
  | nil => exact ⟨Accounted.empty tickerId, Nat.le_refl _⟩
  | @snoc ops state next op run stepped ih =>
      rw [List.length_append, List.length_singleton] at room ⊢
      rcases ih (by omega) with ⟨accounted, issued⟩
      have left := id_left issued (by omega)
      have taken := stepped.nextMarketOrderId_le
      rcases stepped with ⟨trading, result, ran⟩
      exact ⟨accounted.step left trading ran, by omega⟩

/-- Along every run of orders and cancellations, and also when a last call does not return, every
fill and every cancellation that the clients are told of is backed by the ACCEPTED response of its
order and the fills before it; and so is the quantity of every order in use. -/
theorem balanced_of_run (run : Run TradingStep (empty tickerId) ops last)
    (room : ops.length + 2 < UInt64.size) :
    Balanced last.responses ∧
      (∀ elem, last.OrderInUse elem →
        Account last.responses (last.orderData elem).holder
          (last.orderData elem).quantity.toNat) ∧
      ∀ op : Op, op.IsTrading → Balanced (finalState (op.exec last)).responses := by
  rcases Accounted.of_run run (by omega) with ⟨accounted, issued⟩
  have left := id_left issued (by omega)
  exact ⟨accounted.balanced, fun elem used => accounted.account elem (accounted.inUse elem used),
    fun op trading => accounted.balanced_finalState left trading⟩

/-- A BUY trades with the BUY cancelled before it, and the accounts still balance. -/
theorem balanced_of_run_sample :
    ∃ last : MEOrderBook, Balanced last.responses ∧
      last.responses.map (fun response => (response.type, response.marketOrderId)) =
        [(.accepted, 1), (.canceled, 1), (.accepted, 2), (.filled, 2), (.filled, 1)] := by
  have executed : (execute (Op.next fun _ op => op.IsTrading) (empty 0)
      [.submit (limitOrder 1 .buy 10 5), .cancel 1 1 0, .submit (limitOrder 2 .buy 10 3)]).any
        (fun (last : MEOrderBook) =>
          last.responses.map (fun response => (response.type, response.marketOrderId)) =
            [(.accepted, 1), (.canceled, 1), (.accepted, 2), (.filled, 2), (.filled, 1)]) =
        true := by
    decide +kernel
  rcases (Option.any_eq_true _ _).mp executed with ⟨last, reached, sent⟩
  exact ⟨last, (balanced_of_run (Run.of_execute Op.step_of_next reached) (by decide)).1,
    of_decide_eq_true sent⟩

end MEOrderBook

end QuantEngine
