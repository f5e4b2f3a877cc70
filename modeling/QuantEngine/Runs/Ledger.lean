import QuantEngine.Runs.Market

/-!
# The clients' ledger

What the responses of a run account for. The FILLED responses of one order form
a ledger of its quantity: each states what the one before it left, less what
was exchanged. Subtractions are stated as sums of natural numbers, so a ledger
also says that no quantity wrapped around.

The ledger of a resting order is followed along the run together with the
order's fate; the ledger of an aggressor is written by its own call alone.
-/

namespace QuantEngine

/-- The FILLED responses about one order. -/
def fillsOf (id : OrderId) (responses : List MEClientResponse) : List MEClientResponse :=
  responses.filter fun response => response.type = .filled ∧ response.marketOrderId = id

/-- The CANCELED responses about one order. -/
def cancelsOf (id : OrderId) (responses : List MEClientResponse) : List MEClientResponse :=
  responses.filter fun response => response.type = .canceled ∧ response.marketOrderId = id

/-- The fills take a quantity from `start` down to `last`, each stating what it leaves. -/
def Ledger : Quantity → List MEClientResponse → Quantity → Prop
  | start, [], last => last = start
  | start, fill :: fills, last =>
      fill.leftQty.toNat + fill.execQty.toNat = start.toNat ∧ Ledger fill.leftQty fills last

/-- The FILLED responses of a stream in pairs, if they come in adjacent pairs. -/
def fillPairs : List MEClientResponse → Option (List (MEClientResponse × MEClientResponse))
  | [] => some []
  | first :: rest =>
      if first.type = .filled then
        match rest with
        | [] => none
        | second :: rest =>
            if second.type = .filled then (fillPairs rest).map ((first, second) :: ·) else none
      else fillPairs rest

/-- The TRADE updates of a stream, with their prices and quantities. -/
def tradesOf (updates : List MEMarketUpdate) : List (Price × Quantity) :=
  (updates.filter fun update => update.type = .trade).map fun update =>
    (update.price, update.quantity)

section Streams

variable {id : OrderId} {front back : List MEClientResponse} {start middle last : Quantity}

@[simp]
theorem fillsOf_append : fillsOf id (front ++ back) = fillsOf id front ++ fillsOf id back :=
  List.filter_append ..

@[simp]
theorem cancelsOf_append : cancelsOf id (front ++ back) = cancelsOf id front ++ cancelsOf id back :=
  List.filter_append ..

@[simp]
theorem tradesOf_append {front back : List MEMarketUpdate} :
    tradesOf (front ++ back) = tradesOf front ++ tradesOf back := by
  simp [tradesOf]

theorem Ledger.append (early : Ledger start front middle) (late : Ledger middle back last) :
    Ledger start (front ++ back) last := by
  induction front generalizing start with
  | nil =>
      cases early
      exact late
  | cons fill front ih => exact ⟨early.1, ih early.2⟩

theorem fillPairs_append {pairs : List (MEClientResponse × MEClientResponse)}
    (paired : fillPairs front = some pairs) :
    fillPairs (front ++ back) = (fillPairs back).map (pairs ++ ·) := by
  fun_induction fillPairs front generalizing pairs with
  | case1 =>
      cases paired
      simp
  | case2 first filled => cases paired
  | case3 first filled second rest filled' ih =>
      rcases Option.map_eq_some_iff.mp paired with ⟨tail, pairedTail, rfl⟩
      simp [fillPairs, filled, filled', ih pairedTail, Function.comp_def]
  | case4 first filled second rest unfilled => cases paired
  | case5 first rest unfilled ih =>
      rw [List.cons_append, fillPairs.eq_def]
      simp [unfilled, ih paired]

end Streams

section Trades

variable {aggressor : Aggressor} {trade : Trade} {trades : List Trade} {id : OrderId}
  {leavesQty left : Quantity} {orders orders' : List RestingOrder}

theorem fillsOf_trade {resting : RestingOrder} :
    fillsOf id ((Trade.between leavesQty resting).responses aggressor) =
      (if aggressor.marketOrderId = id then
        [(Trade.between leavesQty resting).aggressorResponse aggressor] else []) ++
      if resting.marketOrderId = id then
        [(Trade.between leavesQty resting).restingResponse aggressor] else [] := by
  have restingId : (Trade.between leavesQty resting).resting = resting := rfl
  simp only [fillsOf, Trade.responses, Trade.aggressorResponse, Trade.restingResponse,
    restingId, List.filter_cons, List.filter_nil, true_and, decide_eq_true_eq]
  split <;> split <;> rfl

theorem cancelsOf_trades :
    cancelsOf id (trades.flatMap (Trade.responses aggressor)) = [] := by
  induction trades with
  | nil => rfl
  | cons trade trades ih =>
      rw [List.flatMap_cons, cancelsOf_append, ih]
      rfl

theorem fillPairs_trades : fillPairs (trades.flatMap (Trade.responses aggressor)) =
    some (trades.map fun trade =>
      (trade.aggressorResponse aggressor, trade.restingResponse aggressor)) := by
  induction trades with
  | nil => rfl
  | cons trade trades ih =>
      rw [List.flatMap_cons, Trade.responses, List.cons_append, List.cons_append, List.nil_append,
        fillPairs]
      simp [Trade.aggressorResponse, Trade.restingResponse, ih]

theorem tradesOf_trades : tradesOf (trades.flatMap (Trade.updates aggressor)) =
    trades.map fun trade => (trade.resting.price, trade.execQty) := by
  induction trades with
  | nil => rfl
  | cons trade trades ih =>
      have single : tradesOf (trade.updates aggressor) = [(trade.resting.price, trade.execQty)] := by
        rw [Trade.updates, Trade.restingUpdate]
        split <;> rfl
      rw [List.flatMap_cons, tradesOf_append, single, ih]
      rfl

end Trades

namespace Consumes

variable {aggressor : Aggressor} {trades : List Trade} {leavesQty left : Quantity}
  {orders orders' : List RestingOrder} {id : OrderId}

theorem resting_mem (consumes : Consumes leavesQty orders trades left orders') :
    ∀ trade ∈ trades, trade.resting ∈ orders := by
  induction consumes with
  | stop => simp
  | used _ _ ih =>
      intro trade member
      rcases List.mem_cons.mp member with rfl | member
      · exact List.mem_cons_self
      · exact List.mem_cons_of_mem _ (ih trade member)
  | reduced _ =>
      intro trade member
      rw [List.mem_singleton.mp member]
      exact List.mem_cons_self

theorem fillsOf_eq_nil (consumes : Consumes leavesQty orders trades left orders')
    (notAggressor : aggressor.marketOrderId ≠ id)
    (absent : id ∉ orders.map (·.marketOrderId)) :
    fillsOf id (trades.flatMap (Trade.responses aggressor)) = [] := by
  induction consumes with
  | stop => rfl
  | used _ _ ih =>
      simp only [List.map_cons, List.mem_cons, not_or] at absent
      rw [List.flatMap_cons, fillsOf_append, fillsOf_trade, if_neg notAggressor,
        if_neg (Ne.symm absent.1), ih absent.2]
      rfl
  | reduced _ =>
      simp only [List.map_cons, List.mem_cons, not_or] at absent
      rw [List.flatMap_cons, List.flatMap_nil, List.append_nil, fillsOf_trade, if_neg notAggressor,
        if_neg (Ne.symm absent.1)]
      rfl

/-- The aggressor's fills take its quantity down to what it is left with. -/
theorem aggressorLedger (consumes : Consumes leavesQty orders trades left orders')
    (absent : aggressor.marketOrderId ∉ orders.map (·.marketOrderId)) :
    Ledger leavesQty (fillsOf aggressor.marketOrderId (trades.flatMap (Trade.responses aggressor)))
      left := by
  induction consumes with
  | stop => rfl
  | used _ _ ih =>
      simp only [List.map_cons, List.mem_cons, not_or] at absent
      rw [List.flatMap_cons, fillsOf_append, fillsOf_trade, if_pos rfl, if_neg (Ne.symm absent.1)]
      exact ⟨Trade.leavesQty_add_execQty, ih absent.2⟩
  | reduced kept =>
      simp only [List.map_cons, List.mem_cons, not_or] at absent
      rw [List.flatMap_cons, List.flatMap_nil, List.append_nil, fillsOf_trade, if_pos rfl,
        if_neg (Ne.symm absent.1)]
      exact ⟨Trade.leavesQty_add_execQty, (Trade.leavesQty_eq_zero kept).symm⟩

/-- The fills of a consumed order take its quantity down to what rests of it, or to nothing. -/
theorem restingLedger {order : RestingOrder}
    (consumes : Consumes leavesQty orders trades left orders')
    (nodup : (orders.map (·.marketOrderId)).Nodup)
    (notAggressor : aggressor.marketOrderId ≠ order.marketOrderId) (listed : order ∈ orders) :
    ∃ rest, Ledger order.quantity
        (fillsOf order.marketOrderId (trades.flatMap (Trade.responses aggressor))) rest ∧
      ({ order with quantity := rest } ∈ orders' ∨
        order.marketOrderId ∉ orders'.map (·.marketOrderId) ∧ rest = 0) := by
  induction consumes with
  | stop => exact ⟨order.quantity, rfl, Or.inl listed⟩
  | @used leavesQty left resting orders orders' trades usedUp consumed ih =>
      rw [List.map_cons, List.nodup_cons] at nodup
      rw [List.flatMap_cons, fillsOf_append, fillsOf_trade, if_neg notAggressor, List.nil_append]
      rcases List.mem_cons.mp listed with rfl | inTail
      · rw [consumed.fillsOf_eq_nil notAggressor nodup.1, if_pos rfl, List.append_nil]
        refine ⟨0, ⟨Trade.remaining_add_execQty, usedUp.symm⟩, Or.inr ⟨?_, rfl⟩⟩
        exact fun member => nodup.1 (consumed.ids_sublist.subset member)
      · have different : resting.marketOrderId ≠ order.marketOrderId := fun same =>
          nodup.1 (same ▸ List.mem_map_of_mem inTail)
        rw [if_neg different, List.nil_append]
        exact ih nodup.2 inTail
  | @reduced leavesQty resting orders kept =>
      rw [List.map_cons, List.nodup_cons] at nodup
      rw [List.flatMap_cons, List.flatMap_nil, List.append_nil, fillsOf_trade,
        if_neg notAggressor, List.nil_append]
      rcases List.mem_cons.mp listed with rfl | inTail
      · rw [if_pos rfl]
        exact ⟨_, ⟨Trade.remaining_add_execQty, rfl⟩, Or.inl List.mem_cons_self⟩
      · have different : resting.marketOrderId ≠ order.marketOrderId := fun same =>
          nodup.1 (same ▸ List.mem_map_of_mem inTail)
        rw [if_neg different]
        exact ⟨order.quantity, rfl, Or.inl (List.mem_cons_of_mem _ inTail)⟩

end Consumes

namespace MEOrderBook

open Exec Runs

variable {book last : MEOrderBook} {asks bids : List Entry}
  {resting middle after : List RestingOrder}
  {call : Op × Emitted} {trace : List (Op × Emitted)} {order : RestingOrder} {id : OrderId}

/-- The id of an aggressor, if the call has one. -/
def Op.aggressorId? : Op → Option OrderId
  | .checkForMatch aggressor _ _ => some aggressor.marketOrderId
  | _ => none

/-- The ids of the aggressors of a sequence of calls. -/
def aggressorIds (ops : List Op) : List OrderId := ops.filterMap Op.aggressorId?

/-- What became of an order, whose ledger ends with `left`. -/
inductive Fate (order : RestingOrder) (sent : List MEClientResponse) (after : List RestingOrder)
    (left : Quantity) : Prop
  | resting (kept : { order with quantity := left } ∈ after)
      (uncanceled : cancelsOf order.marketOrderId sent = [])
  | filledOut (gone : order.marketOrderId ∉ after.map (·.marketOrderId)) (nothing : left = 0)
      (uncanceled : cancelsOf order.marketOrderId sent = [])
  | canceled (gone : order.marketOrderId ∉ after.map (·.marketOrderId))
      (response : MEClientResponse) (canceled : cancelsOf order.marketOrderId sent = [response])
      (leftQty : response.leftQty = left)

theorem MarketStep.silent (step : MarketStep resting call after)
    (absent : id ∉ resting.map (·.marketOrderId)) (notAggressor : call.1.aggressorId? ≠ some id) :
    fillsOf id call.2.responses = [] ∧ cancelsOf id call.2.responses = [] := by
  cases step with
  | rejected same => exact ⟨rfl, rfl⟩
  | @canceled _ order clientId orderId tickerId listed =>
      have different : order.marketOrderId ≠ id := fun same =>
        absent (same ▸ List.mem_map_of_mem (listed.mem_iff.mpr List.mem_cons_self))
      exact ⟨rfl, by simp [cancelsOf, cancelResponse, different]⟩
  | matched listed consumes kept =>
      refine ⟨consumes.fillsOf_eq_nil (fun same => notAggressor (congrArg some same)) ?_,
        cancelsOf_trades⟩
      exact fun member => absent ((listed.map _).mem_iff.mpr (by
        rw [List.map_append]
        exact List.mem_append_left _ member))

/-- What one call does to a resting order and says of it. -/
theorem MarketStep.fate (step : MarketStep resting call after)
    (nodup : (resting.map (·.marketOrderId)).Nodup) (listed : order ∈ resting)
    (notAggressor : call.1.aggressorId? ≠ some order.marketOrderId) :
    ∃ left, Ledger order.quantity (fillsOf order.marketOrderId call.2.responses) left ∧
      Fate order call.2.responses after left := by
  cases step with
  | rejected same => exact ⟨order.quantity, rfl, .resting (same.mem_iff.mp listed) rfl⟩
  | @canceled _ taken clientId orderId tickerId split =>
      have nodup' := (split.map (·.marketOrderId)).nodup_iff.mp nodup
      rw [List.map_cons, List.nodup_cons] at nodup'
      refine ⟨order.quantity, rfl, ?_⟩
      rcases List.mem_cons.mp (split.mem_iff.mp listed) with rfl | stays
      · exact .canceled nodup'.1 (cancelResponse clientId orderId tickerId order)
          (by simp [cancelsOf, cancelResponse]) rfl
      · have different : taken.marketOrderId ≠ order.marketOrderId := fun same =>
          nodup'.1 (same ▸ List.mem_map_of_mem stays)
        exact .resting stays (by simp [cancelsOf, cancelResponse, different])
  | @matched own own' others _ aggressor price qty left trades split consumes kept =>
      have nodup' := (split.map (·.marketOrderId)).nodup_iff.mp nodup
      rw [List.map_append, List.nodup_append'] at nodup'
      have apart : aggressor.marketOrderId ≠ order.marketOrderId := fun same =>
        notAggressor (congrArg some same)
      rcases List.mem_append.mp (split.mem_iff.mp listed) with inOwn | inOthers
      · rcases consumes.restingLedger nodup'.1 apart inOwn with ⟨rest, ledger, rests | ⟨gone, none⟩⟩
        · exact ⟨rest, ledger, .resting (kept.mem_iff.mp (List.mem_append_left _ rests))
            cancelsOf_trades⟩
        · refine ⟨rest, ledger, .filledOut ?_ none cancelsOf_trades⟩
          intro member
          have member' := (kept.map (·.marketOrderId)).mem_iff.mpr member
          rw [List.map_append, List.mem_append] at member'
          exact member'.elim gone (nodup'.2.2 (List.mem_map_of_mem inOwn))
      · have absent : order.marketOrderId ∉ own.map (·.marketOrderId) := fun member =>
          nodup'.2.2 member (List.mem_map_of_mem inOthers)
        refine ⟨order.quantity, ?_, .resting (kept.mem_iff.mp (List.mem_append_right _ inOthers))
          cancelsOf_trades⟩
        have silent : fillsOf order.marketOrderId
            (Emitted.ofTrades aggressor trades left).responses = [] :=
          consumes.fillsOf_eq_nil apart absent
        rw [silent]
        rfl

theorem responsesOf_concat :
    responsesOf (trace ++ [call]) = responsesOf trace ++ call.2.responses := by
  simp [responsesOf]

theorem updatesOf_concat : updatesOf (trace ++ [call]) = updatesOf trace ++ call.2.updates := by
  simp [updatesOf]

theorem aggressorIds_concat {ops : List Op} {op : Op} :
    aggressorIds (ops ++ [op]) = aggressorIds ops ++ op.aggressorId?.toList := by
  rw [aggressorIds, List.filterMap_append]
  cases op <;> rfl

namespace MarketRun

theorem ids_subset (run : MarketRun resting trace after) :
    after.map (·.marketOrderId) ⊆ resting.map (·.marketOrderId) := by
  induction run with
  | nil => exact List.Subset.refl _
  | snoc _ step ih => exact fun id member => ih (step.ids_subperm.subset member)

theorem ids_nodup (run : MarketRun resting trace after)
    (nodup : (resting.map (·.marketOrderId)).Nodup) :
    (after.map (·.marketOrderId)).Nodup := by
  induction run with
  | nil => exact nodup
  | snoc _ step ih => exact step.ids_nodup ih

theorem silent (run : MarketRun resting trace after) (absent : id ∉ resting.map (·.marketOrderId))
    (notAggressor : id ∉ aggressorIds (trace.map Prod.fst)) :
    fillsOf id (responsesOf trace) = [] ∧ cancelsOf id (responsesOf trace) = [] := by
  induction run with
  | nil => exact ⟨rfl, rfl⟩
  | @snoc trace middle after call run step ih =>
      rw [List.map_append, List.map_cons, List.map_nil, aggressorIds_concat, List.mem_append,
        not_or] at notAggressor
      have apart : call.1.aggressorId? ≠ some id := fun same => notAggressor.2 (by simp [same])
      have later := step.silent (fun member => absent (MarketRun.ids_subset run member)) apart
      rw [responsesOf_concat, fillsOf_append, cancelsOf_append, (ih notAggressor.1).1,
        (ih notAggressor.1).2, later.1, later.2]
      exact ⟨rfl, rfl⟩

/-- The fills of an order that rests at the start take its quantity to what became of it. -/
theorem fate (run : MarketRun resting trace after)
    (nodup : (resting.map (·.marketOrderId)).Nodup) (listed : order ∈ resting)
    (notAggressor : order.marketOrderId ∉ aggressorIds (trace.map Prod.fst)) :
    ∃ left, Ledger order.quantity (fillsOf order.marketOrderId (responsesOf trace)) left ∧
      Fate order (responsesOf trace) after left := by
  induction run with
  | nil => exact ⟨order.quantity, rfl, .resting listed rfl⟩
  | @snoc trace middle after call run step ih =>
      rw [List.map_append, List.map_cons, List.map_nil, aggressorIds_concat, List.mem_append,
        not_or] at notAggressor
      have apart : call.1.aggressorId? ≠ some order.marketOrderId := fun same =>
        notAggressor.2 (by simp [same])
      rcases ih notAggressor.1 with ⟨left, ledger, fate⟩
      have gone : order.marketOrderId ∉ middle.map (·.marketOrderId) →
          order.marketOrderId ∉ after.map (·.marketOrderId) := fun absent member =>
        absent (step.ids_subperm.subset member)
      rw [responsesOf_concat, fillsOf_append]
      cases fate with
      | resting kept uncanceled =>
          rcases step.fate (MarketRun.ids_nodup run nodup) kept apart with ⟨left', ledger', fate'⟩
          refine ⟨left', ledger.append ledger', ?_⟩
          cases fate' with
          | resting kept' uncanceled' =>
              exact .resting kept' (by rw [cancelsOf_append, uncanceled]; exact uncanceled')
          | filledOut gone' nothing uncanceled' =>
              exact .filledOut gone' nothing (by rw [cancelsOf_append, uncanceled]; exact uncanceled')
          | canceled gone' response canceled' leftQty =>
              exact .canceled gone' response
                (by rw [cancelsOf_append, uncanceled]; exact canceled') leftQty
      | filledOut absent nothing uncanceled =>
          have later := step.silent absent apart
          refine ⟨left, ledger.append (by rw [later.1]; rfl), .filledOut (gone absent) nothing ?_⟩
          rw [cancelsOf_append, uncanceled, later.2]
          rfl
      | canceled absent response canceled leftQty =>
          have later := step.silent absent apart
          refine ⟨left, ledger.append (by rw [later.1]; rfl), .canceled (gone absent) response ?_
            leftQty⟩
          rw [cancelsOf_append, canceled, later.2]
          rfl

/-- The fills of an aggressor take its quantity to the leftover its call returns. -/
theorem aggressorLedger (run : MarketRun resting trace after)
    (disjoint : (aggressorIds (trace.map Prod.fst)).Disjoint (resting.map (·.marketOrderId)))
    (nodup : (aggressorIds (trace.map Prod.fst)).Nodup) {aggressor : Aggressor} {price : Price}
    {qty : Quantity} {leftover : Option Quantity}
    (called : (Op.checkForMatch aggressor price qty, leftover) ∈
      trace.map fun call => (call.1, call.2.leftover)) :
    ∃ left, leftover = some left ∧
      Ledger qty (fillsOf aggressor.marketOrderId (responsesOf trace)) left := by
  induction run with
  | nil => simp at called
  | @snoc trace middle after call run step ih =>
      rw [List.map_append, List.map_cons, List.map_nil, aggressorIds_concat] at disjoint nodup
      rw [List.nodup_append'] at nodup
      rw [List.disjoint_append_left] at disjoint
      rw [List.map_append, List.mem_append] at called
      rw [responsesOf_concat, fillsOf_append]
      rcases called with early | late
      · rcases ih disjoint.1 nodup.1 early with ⟨left, returned, ledger⟩
        refine ⟨left, returned, ledger.append ?_⟩
        have earlier : aggressor.marketOrderId ∈ aggressorIds (trace.map Prod.fst) := by
          rcases List.mem_map.mp early with ⟨⟨op, emitted⟩, member, same⟩
          cases same
          exact List.mem_filterMap.mpr ⟨_, List.mem_map_of_mem member, rfl⟩
        have apart : call.1.aggressorId? ≠ some aggressor.marketOrderId := fun same =>
          nodup.2.2 earlier (by simp [same])
        have later := step.silent
          (fun member => disjoint.1 earlier (MarketRun.ids_subset run member)) apart
        rw [later.1]
        rfl
      · rcases call with ⟨op, emitted⟩
        rw [List.map_cons, List.map_nil, List.mem_singleton] at late
        cases late
        have own : aggressor.marketOrderId ∉ resting.map (·.marketOrderId) := fun member =>
          disjoint.2 (by simp [Op.aggressorId?]) member
        have before := MarketRun.silent run own fun member =>
          nodup.2.2 member (by simp [Op.aggressorId?])
        rw [before.1, List.nil_append]
        cases step with
        | matched listed consumes kept =>
            refine ⟨_, rfl, consumes.aggressorLedger fun member => own (MarketRun.ids_subset run ?_)⟩
            refine (listed.map _).mem_iff.mpr ?_
            rw [List.map_append]
            exact List.mem_append_left _ member

end MarketRun

/-- The FILLED responses come in adjacent pairs, aggressor first, of equal quantity and price, and
the TRADE updates state those quantities in the same order. -/
def PairedFills (ops : List Op) (resting : List RestingOrder) (responses : List MEClientResponse)
    (updates : List MEMarketUpdate) : Prop :=
  ∃ pairs, fillPairs responses = some pairs ∧
    (∀ pair ∈ pairs, pair.1.execQty = pair.2.execQty ∧ pair.1.price = pair.2.price ∧
      pair.1.marketOrderId ∈ aggressorIds ops ∧
      pair.2.marketOrderId ∈ resting.map (·.marketOrderId)) ∧
    tradesOf updates = pairs.map fun pair => (pair.1.price, pair.1.execQty)

theorem MarketStep.pairedFills (step : MarketStep resting call after) :
    PairedFills [call.1] resting call.2.responses call.2.updates := by
  cases step with
  | rejected same => exact ⟨[], rfl, by simp, rfl⟩
  | canceled listed => exact ⟨[], rfl, by simp, rfl⟩
  | matched listed consumes kept =>
      refine ⟨_, fillPairs_trades, ?_, ?_⟩
      · intro pair member
        rcases List.mem_map.mp member with ⟨trade, traded, rfl⟩
        refine ⟨rfl, rfl, List.mem_singleton_self _, List.mem_map_of_mem (listed.mem_iff.mpr ?_)⟩
        exact List.mem_append_left _ (consumes.resting_mem trade traded)
      · rw [List.map_map]
        exact tradesOf_trades

theorem MarketRun.pairedFills (run : MarketRun resting trace after) :
    PairedFills (trace.map Prod.fst) resting (responsesOf trace) (updatesOf trace) := by
  induction run with
  | nil => exact ⟨[], rfl, by simp, rfl⟩
  | snoc run step ih =>
      rcases ih with ⟨early, paired, legal, trades⟩
      rcases step.pairedFills with ⟨late, paired', legal', trades'⟩
      refine ⟨early ++ late, ?_, ?_, ?_⟩
      · rw [responsesOf_concat, fillPairs_append paired, paired']
        rfl
      · intro pair member
        rw [List.map_append, List.map_cons, List.map_nil, aggressorIds, List.filterMap_append,
          List.mem_append]
        rcases List.mem_append.mp member with inEarly | inLate
        · rcases legal pair inEarly with ⟨sameQty, samePrice, first, second⟩
          exact ⟨sameQty, samePrice, Or.inl first, second⟩
        · rcases legal' pair inLate with ⟨sameQty, samePrice, first, second⟩
          exact ⟨sameQty, samePrice, Or.inr first, MarketRun.ids_subset run second⟩
      · rw [updatesOf_concat, tradesOf_append, trades, trades', List.map_append]

/-- Calls of `cancel` and `checkForMatch` on a well-formed book return and keep the clients'
ledger: the fills come in pairs, each with its TRADE update; those of a resting order take its
quantity to what rests of it, to nothing, or to what its CANCELED response states; and those of
an aggressor take its quantity to the leftover that is returned. -/
theorem ledger_of_calls {ops : List Op} (sound : WellFormed book .sell asks bids)
    (legal : ∀ op ∈ ops, op.InMarket) (distinct : (aggressorIds ops).Nodup)
    (fresh : (aggressorIds ops).Disjoint
      ((book.restingOrders (asks ++ bids)).map (·.marketOrderId))) :
    ∃ results last asks' bids' sent published,
      execAll ops book = .ok results last ∧
      results.length = ops.length ∧
      WellFormed last .sell asks' bids' ∧
      last.responses = book.responses ++ sent ∧
      last.updates = book.updates ++ published ∧
      PairedFills ops (book.restingOrders (asks ++ bids)) sent published ∧
      (∀ order ∈ book.restingOrders (asks ++ bids), ∃ left,
        Ledger order.quantity (fillsOf order.marketOrderId sent) left ∧
        Fate order sent (last.restingOrders (asks' ++ bids')) left) ∧
      ∀ aggressor price qty result, (.checkForMatch aggressor price qty, result) ∈ ops.zip results →
        ∃ left, result = some left ∧ Ledger qty (fillsOf aggressor.marketOrderId sent) left := by
  rcases sound.market_run legal with
    ⟨trace, last, asks', bids', ran, rfl, sound', responses, updates, run⟩
  have nodup : ((book.restingOrders (asks ++ bids)).map (·.marketOrderId)).Nodup := by
    rw [restingOrders, List.map_map]
    exact sound.ids
  refine ⟨_, last, asks', bids', _, _, ran, by simp, sound', responses, updates,
    MarketRun.pairedFills run, ?_, ?_⟩
  · intro order listed
    exact MarketRun.fate run nodup listed fun member =>
      fresh member (List.mem_map_of_mem listed)
  · intro aggressor price qty result called
    rw [List.zip_map'] at called
    exact MarketRun.aggressorLedger run fresh distinct called

/-- A BUY that uses one order up and reduces another, whose rest is then cancelled. -/
theorem ledger_of_calls_sample :
    ∃ results last asks' bids' sent published,
      execAll [.checkForMatch ⟨3, 1, 0, .buy, 4⟩ 10 8, .cancel 1 2 0] sampleBook =
        .ok results last ∧
      results.length = 2 ∧
      WellFormed last .sell asks' bids' ∧
      last.responses = sampleBook.responses ++ sent ∧
      last.updates = sampleBook.updates ++ published ∧
      PairedFills [.checkForMatch ⟨3, 1, 0, .buy, 4⟩ 10 8, .cancel 1 2 0]
        (sampleBook.restingOrders ([(0, [0, 1])] ++ [(1, [2])])) sent published ∧
      (∀ order ∈ sampleBook.restingOrders ([(0, [0, 1])] ++ [(1, [2])]), ∃ left,
        Ledger order.quantity (fillsOf order.marketOrderId sent) left ∧
        Fate order sent (last.restingOrders (asks' ++ bids')) left) ∧
      ∀ aggressor price qty result, (.checkForMatch aggressor price qty, result) ∈
          [Op.checkForMatch ⟨3, 1, 0, .buy, 4⟩ 10 8, .cancel 1 2 0].zip results →
        ∃ left, result = some left ∧ Ledger qty (fillsOf aggressor.marketOrderId sent) left :=
  ledger_of_calls sampleBook_wellFormed (by decide) (by decide) (by
    simp [aggressorIds, Op.aggressorId?, restingOrders, orderData, order, sampleBook, sampleOrders])

end MEOrderBook

end QuantEngine
