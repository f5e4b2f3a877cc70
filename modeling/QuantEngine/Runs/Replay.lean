import QuantEngine.Runs.Market

/-!
# Replaying the market data

A consumer that knows the resting orders and applies every published update
knows the resting orders afterwards. The consumer is strict: it refuses a
CANCEL or a MODIFY that names no order it knows or states another side or
price, so a replay that succeeds was never offered such an update.
-/

namespace QuantEngine

/-- What the market data says of a resting order. -/
structure Quote where
  side : Side
  price : Price
  quantity : Quantity
  deriving DecidableEq, Repr

/-- The consumer's book. -/
abbrev Snapshot := OrderId → Option Quote

def RestingOrder.quote (order : RestingOrder) : Quote :=
  ⟨order.side, order.price, order.quantity⟩

/-- The snapshot of a list of resting orders. -/
def snapshotOf (orders : List RestingOrder) : Snapshot := fun id =>
  (orders.find? fun order => order.marketOrderId = id).map RestingOrder.quote

/-- The update names an order of the snapshot, with its side and price. -/
def Snapshot.Knows (snapshot : Snapshot) (update : MEMarketUpdate) : Prop :=
  ∃ quote ∈ snapshot update.orderId, quote.side = update.side ∧ quote.price = update.price

instance (snapshot : Snapshot) (update : MEMarketUpdate) : Decidable (snapshot.Knows update) :=
  inferInstanceAs (Decidable (∃ quote ∈ snapshot update.orderId, _))

/-- The consumer applies one update, or refuses it. -/
def Snapshot.apply (snapshot : Snapshot) (update : MEMarketUpdate) : Option Snapshot :=
  match update.type with
  | .add => some (Function.update snapshot update.orderId
      (some ⟨update.side, update.price, update.quantity⟩))
  | .modify =>
      if snapshot.Knows update then
        some (Function.update snapshot update.orderId
          (some ⟨update.side, update.price, update.quantity⟩))
      else none
  | .cancel =>
      if snapshot.Knows update then some (Function.update snapshot update.orderId none) else none
  | .trade => some snapshot
  | .invalid => none

/-- The consumer applies a stream of updates in order. -/
def Snapshot.replay (snapshot : Snapshot) (updates : List MEMarketUpdate) : Option Snapshot :=
  updates.foldlM Snapshot.apply snapshot

theorem Snapshot.replay_append {snapshot : Snapshot} {front back : List MEMarketUpdate} :
    snapshot.replay (front ++ back) = (snapshot.replay front).bind fun middle =>
      middle.replay back :=
  List.foldlM_append

section Snapshot

variable {order : RestingOrder} {orders orders' : List RestingOrder} {id : OrderId} {quote : Quote}

@[simp]
theorem snapshotOf_cons : snapshotOf (order :: orders) =
    Function.update (snapshotOf orders) order.marketOrderId (some order.quote) := by
  funext id
  by_cases same : id = order.marketOrderId
  · simp [snapshotOf, same]
  · simp [snapshotOf, Function.update_of_ne same, Ne.symm same]

theorem snapshotOf_eq_none (absent : id ∉ orders.map (·.marketOrderId)) :
    snapshotOf orders id = none := by
  simp only [List.mem_map, not_exists, not_and] at absent
  simpa [snapshotOf] using absent

theorem snapshotOf_eq_some_iff (nodup : (orders.map (·.marketOrderId)).Nodup) :
    snapshotOf orders id = some quote ↔
      ∃ order ∈ orders, order.marketOrderId = id ∧ order.quote = quote := by
  induction orders with
  | nil => simp [snapshotOf]
  | cons order orders ih =>
      rw [List.map_cons, List.nodup_cons] at nodup
      rw [snapshotOf_cons]
      by_cases same : id = order.marketOrderId
      · subst same
        have others : ∀ other ∈ orders, other.marketOrderId ≠ order.marketOrderId :=
          fun other member eq => nodup.1 (eq ▸ List.mem_map_of_mem member)
        simp only [Function.update_self, Option.some.injEq, List.mem_cons, exists_eq_or_imp,
          true_and]
        exact ⟨Or.inl, fun found => found.resolve_right fun ⟨other, member, eq, _⟩ =>
          others other member eq⟩
      · rw [Function.update_of_ne same, ih nodup.2]
        simp [Ne.symm same]

/-- With distinct ids the snapshot does not depend on the order of the list. -/
theorem snapshotOf_perm (nodup : (orders.map (·.marketOrderId)).Nodup)
    (same : orders.Perm orders') : snapshotOf orders = snapshotOf orders' := by
  have nodup' := (same.map (·.marketOrderId)).nodup_iff.mp nodup
  funext id
  refine Option.ext fun quote => ?_
  rw [snapshotOf_eq_some_iff nodup, snapshotOf_eq_some_iff nodup']
  simp only [same.mem_iff]

/-- Taking the first order out of a snapshot of distinct ids. -/
theorem update_snapshotOf_cons (fresh : order.marketOrderId ∉ orders.map (·.marketOrderId)) :
    Function.update (snapshotOf (order :: orders)) order.marketOrderId none = snapshotOf orders := by
  rw [snapshotOf_cons, Function.update_idem, ← snapshotOf_eq_none fresh, Function.update_eq_self]

theorem knows_first {update : MEMarketUpdate} (sameId : update.orderId = order.marketOrderId)
    (sameSide : update.side = order.side) (samePrice : update.price = order.price) :
    (snapshotOf (order :: orders)).Knows update := by
  refine ⟨order.quote, ?_, sameSide.symm, samePrice.symm⟩
  rw [snapshotOf_cons, sameId]
  simp

end Snapshot

theorem apply_cancel {order : RestingOrder} {orders : List RestingOrder} {update : MEMarketUpdate}
    (type : update.type = .cancel) (sameId : update.orderId = order.marketOrderId)
    (sameSide : update.side = order.side) (samePrice : update.price = order.price)
    (fresh : order.marketOrderId ∉ orders.map (·.marketOrderId)) :
    (snapshotOf (order :: orders)).apply update = some (snapshotOf orders) := by
  rw [Snapshot.apply, type]
  simp only [if_pos (knows_first sameId sameSide samePrice)]
  rw [sameId, update_snapshotOf_cons fresh]

theorem apply_modify {order changed : RestingOrder} {orders : List RestingOrder}
    {update : MEMarketUpdate} (type : update.type = .modify)
    (sameId : update.orderId = order.marketOrderId)
    (sameSide : update.side = order.side) (samePrice : update.price = order.price)
    (changedId : changed.marketOrderId = order.marketOrderId)
    (changedQuote : changed.quote = ⟨order.side, order.price, update.quantity⟩) :
    (snapshotOf (order :: orders)).apply update = some (snapshotOf (changed :: orders)) := by
  rw [Snapshot.apply, type]
  simp only [if_pos (knows_first sameId sameSide samePrice)]
  rw [snapshotOf_cons, snapshotOf_cons, changedId, changedQuote, sameId, sameSide, samePrice,
    Function.update_idem]

/-- Of the two updates of a trade only the one about the resting order changes the snapshot. -/
theorem replay_trade {snapshot : Snapshot} {aggressor : Aggressor} {trade : Trade} :
    snapshot.replay (trade.updates aggressor) = snapshot.apply (trade.restingUpdate aggressor) := by
  have ignored : snapshot.apply (trade.tradeUpdate aggressor) = some snapshot := rfl
  simp [Snapshot.replay, Trade.updates, ignored]

/-- The updates of a sequence of trades turn the snapshot into that of the orders left. -/
theorem Consumes.replay {leavesQty left : Quantity} {orders orders' others : List RestingOrder}
    {trades : List Trade} (aggressor : Aggressor)
    (consumes : Consumes leavesQty orders trades left orders')
    (nodup : ((orders ++ others).map (·.marketOrderId)).Nodup) :
    (snapshotOf (orders ++ others)).replay (trades.flatMap (Trade.updates aggressor)) =
      some (snapshotOf (orders' ++ others)) := by
  induction consumes with
  | stop => rfl
  | used usedUp _ ih =>
      rw [List.cons_append, List.map_cons, List.nodup_cons] at nodup
      rw [List.flatMap_cons, Snapshot.replay_append, replay_trade, Trade.restingUpdate,
        if_pos usedUp, List.cons_append, apply_cancel rfl rfl rfl rfl nodup.1]
      exact ih nodup.2
  | reduced kept =>
      rw [List.flatMap_cons, List.flatMap_nil, List.append_nil, replay_trade, Trade.restingUpdate,
        if_neg kept]
      exact apply_modify rfl rfl rfl rfl rfl rfl

namespace MEOrderBook

open Exec Runs

variable {book : MEOrderBook} {asks bids : List Entry} {resting after : List RestingOrder}

theorem MarketStep.replay {call : Op × Emitted} (step : MarketStep resting call after)
    (nodup : (resting.map (·.marketOrderId)).Nodup) :
    (snapshotOf resting).replay call.2.updates = some (snapshotOf after) := by
  cases step with
  | rejected same =>
      rw [snapshotOf_perm nodup same]
      rfl
  | canceled listed =>
      have nodup' := (listed.map (·.marketOrderId)).nodup_iff.mp nodup
      rw [List.map_cons, List.nodup_cons] at nodup'
      rw [snapshotOf_perm nodup listed, Snapshot.replay, List.foldlM_cons,
        apply_cancel rfl rfl rfl rfl nodup'.1]
      rfl
  | matched listed consumes kept =>
      have nodup' := (listed.map (·.marketOrderId)).nodup_iff.mp nodup
      have leftNodup := nodup'.sublist (consumes.frame _).ids_sublist
      rw [snapshotOf_perm nodup listed, ← snapshotOf_perm leftNodup kept]
      exact consumes.replay _ nodup'

/-- The updates of a run turn the snapshot at its start into the snapshot at its end. -/
theorem MarketRun.replay {trace : List (Op × Emitted)} (run : MarketRun resting trace after)
    (nodup : (resting.map (·.marketOrderId)).Nodup) :
    (after.map (·.marketOrderId)).Nodup ∧
      (snapshotOf resting).replay (updatesOf trace) = some (snapshotOf after) := by
  induction run with
  | nil => exact ⟨nodup, rfl⟩
  | snoc _ step ih =>
      refine ⟨step.ids_nodup ih.1, ?_⟩
      rw [updatesOf, List.flatMap_append, Snapshot.replay_append]
      change ((snapshotOf resting).replay (updatesOf _)).bind _ = _
      rw [ih.2, Option.bind_some, List.flatMap_cons, List.flatMap_nil, List.append_nil]
      exact step.replay ih.1

/-- Calls of `cancel` and `checkForMatch` on a well-formed book return, and a consumer that starts
from the snapshot of the resting orders and replays the updates they send accepts every one of
them and ends with the snapshot of the final book. -/
theorem replay_of_calls {ops : List Op} (sound : WellFormed book .sell asks bids)
    (legal : ∀ op ∈ ops, op.InMarket) :
    ∃ results last asks' bids' sent,
      execAll ops book = .ok results last ∧
      WellFormed last .sell asks' bids' ∧
      last.updates = book.updates ++ sent ∧
      (snapshotOf (book.restingOrders (asks ++ bids))).replay sent =
        some (snapshotOf (last.restingOrders (asks' ++ bids'))) := by
  rcases sound.market_run legal with
    ⟨trace, last, asks', bids', ran, -, sound', -, updates, run⟩
  have nodup : ((book.restingOrders (asks ++ bids)).map (·.marketOrderId)).Nodup := by
    rw [restingOrders, List.map_map]
    exact sound.ids
  exact ⟨_, last, asks', bids', _, ran, sound', updates, (MarketRun.replay run nodup).2⟩

/-- A BUY that uses one order up and reduces another, whose rest is then cancelled. -/
theorem replay_of_calls_sample :
    ∃ results last asks' bids' sent,
      execAll [.checkForMatch ⟨3, 1, 0, .buy, 4⟩ 10 8, .cancel 1 2 0, .cancel 9 9 0] sampleBook =
        .ok results last ∧
      WellFormed last .sell asks' bids' ∧
      last.updates = sampleBook.updates ++ sent ∧
      (snapshotOf (sampleBook.restingOrders ([(0, [0, 1])] ++ [(1, [2])]))).replay sent =
        some (snapshotOf (last.restingOrders (asks' ++ bids'))) :=
  replay_of_calls sampleBook_wellFormed (by decide)

end MEOrderBook

end QuantEngine
