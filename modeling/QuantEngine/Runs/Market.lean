import QuantEngine.Runs.Cancelling

/-!
# The market a book stands for

The resting orders of a well-formed book and what a `cancel` or a
`checkForMatch` call does to them and says about it. Levels, blocks and
pointers are gone at this level: a call takes one order out, or consumes orders
from the front of one side.

Every such call on a well-formed book returns and is a step of the market, so
what holds of the market's runs holds of the book's.
-/

namespace QuantEngine

/-- An aggressor trades with a list of orders from its front: it stops before any of them, uses
up the first and goes on, or is used up by it. -/
inductive Consumes : Quantity → List RestingOrder → List Trade → Quantity → List RestingOrder → Prop
  | stop {leavesQty : Quantity} {orders : List RestingOrder} :
      Consumes leavesQty orders [] leavesQty orders
  | used {leavesQty left : Quantity} {resting : RestingOrder} {orders orders' : List RestingOrder}
      {trades : List Trade} (usedUp : (Trade.between leavesQty resting).remaining = 0)
      (rest : Consumes (Trade.between leavesQty resting).leavesQty orders trades left orders') :
      Consumes leavesQty (resting :: orders) (Trade.between leavesQty resting :: trades) left orders'
  | reduced {leavesQty : Quantity} {resting : RestingOrder} {orders : List RestingOrder}
      (kept : (Trade.between leavesQty resting).remaining ≠ 0) :
      Consumes leavesQty (resting :: orders) [Trade.between leavesQty resting] 0
        ((Trade.between leavesQty resting).reduced :: orders)

namespace Consumes

variable {leavesQty left left' : Quantity} {orders orders' more more' : List RestingOrder}
  {trades trades' : List Trade}

theorem frame (more : List RestingOrder) (consumes : Consumes leavesQty orders trades left orders') :
    Consumes leavesQty (orders ++ more) trades left (orders' ++ more) := by
  induction consumes with
  | stop => exact stop
  | used usedUp _ ih => exact used usedUp ih
  | reduced kept => exact reduced kept

/-- When the first orders are all used up, the aggressor goes on with those behind them. -/
theorem append (front : Consumes leavesQty orders trades left [])
    (back : Consumes left more trades' left' more') :
    Consumes leavesQty (orders ++ more) (trades ++ trades') left' more' := by
  generalize emptied : ([] : List RestingOrder) = none at front
  induction front with
  | stop =>
      subst emptied
      exact back
  | used usedUp _ ih => exact used usedUp (ih back emptied)
  | reduced kept => cases emptied

/-- What is left of a consumed list was in it, with the quantity possibly reduced. -/
theorem ids_sublist (consumes : Consumes leavesQty orders trades left orders') :
    (orders'.map (·.marketOrderId)).Sublist (orders.map (·.marketOrderId)) := by
  induction consumes with
  | stop => exact List.Sublist.refl _
  | used _ _ ih => exact ih.cons _
  | reduced _ => exact List.Sublist.refl _

end Consumes

theorem fillOrders_consumes {leavesQty : Quantity} {orders : List RestingOrder} :
    Consumes leavesQty orders (fillOrders leavesQty orders).trades
      (fillOrders leavesQty orders).leavesQty (fillOrders leavesQty orders).orders := by
  induction orders generalizing leavesQty with
  | nil => exact Consumes.stop
  | cons resting orders ih =>
      rw [fillOrders]
      split
      · exact Consumes.stop
      · by_cases usedUp : (Trade.between leavesQty resting).remaining = 0
        · simp only [if_pos usedUp]
          exact Consumes.used usedUp ih
        · simp only [if_neg usedUp, Trade.leavesQty_eq_zero usedUp]
          exact Consumes.reduced usedUp

/-- Matching a side level by level consumes its orders, read best level first. -/
theorem matchLevels_consumes {beyond : Price → Bool} {leavesQty : Quantity}
    {levels : List PriceLevel} :
    Consumes leavesQty (levels.flatMap (·.orders)) (matchLevels beyond leavesQty levels).trades
      (matchLevels beyond leavesQty levels).leavesQty
      ((matchLevels beyond leavesQty levels).levels.flatMap (·.orders)) := by
  induction levels generalizing leavesQty with
  | nil => exact Consumes.stop
  | cons level levels ih =>
      rw [matchLevels]
      split
      · exact Consumes.stop
      · have filled : Consumes leavesQty level.orders _ _ _ := fillOrders_consumes
        by_cases emptied : (fillOrders leavesQty level.orders).orders = []
        · simp only [if_pos emptied]
          rw [emptied] at filled
          exact filled.append ih
        · simp only [if_neg emptied]
          exact filled.frame _

namespace MEOrderBook

open Exec LinkedRing Runs

variable {book last : MEOrderBook} {levels own own' others asks bids : List Entry} {op : Op}
  {side : Side} {clientId : ClientId} {orderId : OrderId} {tickerId : TickerId} {elem : ℕ}

/-- A `cancel` with its ids within the key map's bounds, or a `checkForMatch` of side BUY or
SELL. -/
def Op.InMarket : Op → Prop
  | .cancel clientId orderId _ => KeyInRange clientId orderId
  | .checkForMatch aggressor _ _ => aggressor.side ≠ .invalid
  | _ => False

instance (op : Op) : Decidable op.InMarket :=
  match op with
  | .submit _ => inferInstanceAs (Decidable False)
  | .cancel clientId orderId _ => inferInstanceAs (Decidable (KeyInRange clientId orderId))
  | .checkForMatch aggressor _ _ => inferInstanceAs (Decidable (aggressor.side ≠ .invalid))
  | .rest _ => inferInstanceAs (Decidable False)
  | .removeOrder _ => inferInstanceAs (Decidable False)

/-- What a call says: the messages it sends, and the leftover `checkForMatch` returns. -/
structure Emitted where
  responses : List MEClientResponse
  updates : List MEMarketUpdate
  leftover : Option Quantity
  deriving DecidableEq, Repr

/-- The messages of a sequence of trades. -/
def Emitted.ofTrades (aggressor : Aggressor) (trades : List Trade) (leftover : Quantity) : Emitted where
  responses := trades.flatMap (Trade.responses aggressor)
  updates := trades.flatMap (Trade.updates aggressor)
  leftover := some leftover

/-- One call, as seen from the resting orders, whose order in the list does not matter. -/
inductive MarketStep : List RestingOrder → Op × Emitted → List RestingOrder → Prop
  | rejected {resting after : List RestingOrder} {clientId : ClientId} {orderId : OrderId}
      {tickerId : TickerId} (same : resting.Perm after) :
      MarketStep resting (.cancel clientId orderId tickerId,
        ⟨[rejectResponse clientId orderId tickerId], [], none⟩) after
  | canceled {resting after : List RestingOrder} {order : RestingOrder} {clientId : ClientId}
      {orderId : OrderId} {tickerId : TickerId} (listed : resting.Perm (order :: after)) :
      MarketStep resting (.cancel clientId orderId tickerId,
        ⟨[cancelResponse clientId orderId tickerId order], [cancelUpdate tickerId order], none⟩)
        after
  | matched {resting own own' others after : List RestingOrder} {aggressor : Aggressor}
      {price : Price} {qty left : Quantity} {trades : List Trade}
      (listed : resting.Perm (own ++ others)) (consumes : Consumes qty own trades left own')
      (kept : (own' ++ others).Perm after) :
      MarketStep resting
        (.checkForMatch aggressor price qty, Emitted.ofTrades aggressor trades left) after

/-- No call brings in an order: the ids that rest afterwards rested before. -/
theorem MarketStep.ids_subperm {resting after : List RestingOrder} {call : Op × Emitted}
    (step : MarketStep resting call after) :
    (after.map (·.marketOrderId)).Subperm (resting.map (·.marketOrderId)) := by
  cases step with
  | rejected same => exact (same.map _).symm.subperm
  | canceled listed =>
      exact (List.sublist_cons_self _ _).subperm.trans (listed.map _).symm.subperm
  | matched listed consumes kept =>
      exact ((kept.map _).symm.subperm.trans (consumes.frame _).ids_sublist.subperm).trans
        (listed.map _).symm.subperm

theorem MarketStep.ids_nodup {resting after : List RestingOrder} {call : Op × Emitted}
    (step : MarketStep resting call after) (nodup : (resting.map (·.marketOrderId)).Nodup) :
    (after.map (·.marketOrderId)).Nodup := by
  rcases step.ids_subperm with ⟨ids, same, sublist⟩
  exact same.nodup_iff.mp (nodup.sublist sublist)

/-- A run of the market, with what every call said. -/
abbrev MarketRun : List RestingOrder → List (Op × Emitted) → List RestingOrder → Prop :=
  Run MarketStep

/-- The responses of a run, in the order in which they were sent. -/
def responsesOf (trace : List (Op × Emitted)) : List MEClientResponse :=
  trace.flatMap fun call => call.2.responses

/-- The market updates of a run, in the order in which they were sent. -/
def updatesOf (trace : List (Op × Emitted)) : List MEMarketUpdate :=
  trace.flatMap fun call => call.2.updates

/-- Makes the calls one after another and collects what they return. -/
def execAll : List Op → BookM (List (Option Quantity))
  | [] => pure []
  | op :: ops => do
      let result ← op.exec
      let results ← execAll ops
      pure (result :: results)

/-- The resting orders a listing leads to. -/
def restingOrders (book : MEOrderBook) (levels : List Entry) : List RestingOrder :=
  (ordersOf levels).map book.orderData

theorem restingOrders_append : book.restingOrders (own ++ others) =
    book.restingOrders own ++ book.restingOrders others := by
  simp [restingOrders]

theorem flatMap_view : (book.view levels).flatMap (·.orders) = book.restingOrders levels := by
  simp [view, restingOrders, List.flatMap_map, List.map_flatMap]

namespace WellFormed

theorem rejected (sound : WellFormed book side own others) :
    WellFormed (book.rejected clientId orderId tickerId) side own others := by
  have arranged : Arranged (book.rejected clientId orderId tickerId) side own others :=
    sound.arranged.of_sameMemory ⟨rfl, rfl, rfl, rfl⟩ rfl rfl
  exact arranged.wellFormed sound.ids

theorem cancel_own (tickerId : TickerId) (sound : WellFormed book side own others)
    (trades : side ≠ .invalid)
    (range : KeyInRange clientId orderId)
    (held : book.cidOidToOrder clientId orderId = some elem) (listed : elem ∈ ordersOf own) :
    ∃ last own', MEOrderBook.cancel clientId orderId tickerId book = .ok ⟨⟩ last ∧
      WellFormed last side own' others ∧
      (book.restingOrders own).Perm (book.orderData elem :: last.restingOrders own') ∧
      last.restingOrders others = book.restingOrders others ∧
      last.responses = book.responses ++
        [cancelResponse clientId orderId tickerId (book.orderData elem)] ∧
      last.updates = book.updates ++ [cancelUpdate tickerId (book.orderData elem)] := by
  rcases List.mem_flatMap.mp listed with ⟨⟨atPrice, orders⟩, entryMem, elemMem⟩
  rcases List.append_of_mem entryMem with ⟨front, back, rfl⟩
  rcases List.append_of_mem elemMem with ⟨before, after, ordersEq⟩
  dsimp only at ordersEq
  subst ordersEq
  rcases sound.directory.keyOnly clientId orderId elem range held with ⟨-, rfl, rfl⟩
  rcases sound.arranged.cancel tickerId trades rfl with
    ⟨last, ran, kept, shrinks, data, sentResponses, sentUpdates⟩
  refine ⟨last, _, ran, sound.shrink trades kept.ringed shrinks, ?_, ?_, sentResponses,
    sentUpdates⟩
  · rw [restingOrders, restingOrders, data]
    exact ordersOf_takeOut_perm.map _
  · rw [restingOrders, restingOrders, data]

theorem match_own (aggressor : Aggressor) (price : Price) (qty : Quantity)
    (trades : aggressor.side ≠ .invalid)
    (sound : WellFormed book aggressor.side.opposite own others) :
    ∃ last own' left taken,
      MEOrderBook.checkForMatch aggressor.clientId aggressor.clientOrderId aggressor.tickerId
        aggressor.side price qty aggressor.marketOrderId book = .ok left last ∧
      WellFormed last aggressor.side.opposite own' others ∧
      Consumes qty (book.restingOrders own) taken left (last.restingOrders own') ∧
      last.restingOrders others = book.restingOrders others ∧
      last.responses = book.responses ++ taken.flatMap (Trade.responses aggressor) ∧
      last.updates = book.updates ++ taken.flatMap (Trade.updates aggressor) := by
  rcases sound.checkForMatch aggressor price qty trades with ⟨last, own', ran, kept, refines⟩
  refine ⟨last, own', _, _, ran, kept, ?_, ?_, refines.responses, refines.updates⟩
  · rw [← flatMap_view, ← flatMap_view, refines.view]
    exact matchLevels_consumes
  · exact List.map_congr_left (sound.arranged.otherData refines.shrinks)

theorem market_step (sound : WellFormed book .sell asks bids) (legal : op.InMarket) :
    ∃ emitted last asks' bids',
      op.exec book = .ok emitted.leftover last ∧
      WellFormed last .sell asks' bids' ∧
      last.responses = book.responses ++ emitted.responses ∧
      last.updates = book.updates ++ emitted.updates ∧
      MarketStep (book.restingOrders (asks ++ bids)) (op, emitted)
        (last.restingOrders (asks' ++ bids')) := by
  cases op with
  | submit submission => exact legal.elim
  | rest order => exact legal.elim
  | removeOrder elem => exact legal.elim
  | cancel clientId orderId tickerId =>
      rcases held : book.cidOidToOrder clientId orderId with _ | elem
      · have ran : MEOrderBook.cancel clientId orderId tickerId book = _ :=
          run_cancel_unknown (Or.inr ⟨legal, held⟩)
        refine ⟨⟨[rejectResponse clientId orderId tickerId], [], none⟩,
          book.rejected clientId orderId tickerId, asks, bids, ?_,
          sound.rejected, rfl, (List.append_nil _).symm, .rejected (.refl _)⟩
        rw [Op.exec, run_bind_of_ok ran, run_pure]
      · have listed := (sound.directory.keyOnly clientId orderId elem legal held).1
        rw [ordersOf, List.flatMap_append, List.mem_append] at listed
        rcases listed with inAsks | inBids
        · rcases sound.cancel_own tickerId Side.noConfusion legal held inAsks with
            ⟨last, asks', ran, kept, taken, others, responses, updates⟩
          refine ⟨⟨_, _, none⟩, last, asks', bids, ?_, kept, responses, updates,
            .canceled ?_⟩
          · rw [Op.exec, run_bind_of_ok ran, run_pure]
          · rw [restingOrders_append, restingOrders_append, others]
            exact taken.append_right _
        · rcases sound.swap.cancel_own tickerId Side.noConfusion legal held inBids with
            ⟨last, bids', ran, kept, taken, others, responses, updates⟩
          refine ⟨⟨_, _, none⟩, last, asks, bids', ?_, kept.swap, responses, updates,
            .canceled ?_⟩
          · rw [Op.exec, run_bind_of_ok ran, run_pure]
          · rw [restingOrders_append, restingOrders_append, others]
            exact (taken.append_left _).trans List.perm_middle
  | checkForMatch aggressor price qty =>
      rcases sides : aggressor.side with _ | _ | _
      · exact absurd sides legal
      · have facing : WellFormed book aggressor.side.opposite asks bids := by rwa [sides]
        rcases facing.match_own aggressor price qty legal with
          ⟨last, asks', left, taken, ran, kept, consumes, others, responses, updates⟩
        rw [sides] at kept
        refine ⟨Emitted.ofTrades aggressor taken left, last, asks', bids, ?_, kept, responses,
          updates, ?_⟩
        · rw [Op.exec, run_bind_of_ok ran, run_pure]
          rfl
        · rw [restingOrders_append, restingOrders_append, others]
          exact .matched (.refl _) consumes (.refl _)
      · have facing : WellFormed book aggressor.side.opposite bids asks := by
          rw [sides]
          exact sound.swap
        rcases facing.match_own aggressor price qty legal with
          ⟨last, bids', left, taken, ran, kept, consumes, others, responses, updates⟩
        rw [sides] at kept
        refine ⟨Emitted.ofTrades aggressor taken left, last, asks, bids', ?_, kept.swap, responses,
          updates, ?_⟩
        · rw [Op.exec, run_bind_of_ok ran, run_pure]
          rfl
        · rw [restingOrders_append, restingOrders_append, others]
          exact .matched List.perm_append_comm consumes List.perm_append_comm

/-- Calls of the market on a well-formed book all return, keep the book well-formed and are a run
of the market. -/
theorem market_run {ops : List Op} (sound : WellFormed book .sell asks bids)
    (legal : ∀ op ∈ ops, op.InMarket) :
    ∃ trace last asks' bids',
      execAll ops book = .ok (trace.map fun call => call.2.leftover) last ∧
      trace.map Prod.fst = ops ∧
      WellFormed last .sell asks' bids' ∧
      last.responses = book.responses ++ responsesOf trace ∧
      last.updates = book.updates ++ updatesOf trace ∧
      MarketRun (book.restingOrders (asks ++ bids)) trace
        (last.restingOrders (asks' ++ bids')) := by
  induction ops generalizing book asks bids with
  | nil => exact ⟨[], book, asks, bids, rfl, rfl, sound, by simp [responsesOf],
      by simp [updatesOf], Run.nil⟩
  | cons op ops ih =>
      rcases sound.market_step (legal op List.mem_cons_self) with
        ⟨emitted, middle, asks₁, bids₁, ran, kept, responses, updates, step⟩
      rcases ih kept fun other member => legal other (List.mem_cons_of_mem _ member) with
        ⟨trace, last, asks', bids', ranRest, sameOps, sound', responsesRest, updatesRest, run⟩
      refine ⟨(op, emitted) :: trace, last, asks', bids', ?_, by simp [sameOps], sound', ?_, ?_,
        run.cons step⟩
      · rw [execAll, run_bind_of_ok ran, run_bind_of_ok ranRest, run_pure]
        rfl
      · rw [responsesRest, responses, List.append_assoc]
        rfl
      · rw [updatesRest, updates, List.append_assoc]
        rfl

end WellFormed

end MEOrderBook

end QuantEngine
