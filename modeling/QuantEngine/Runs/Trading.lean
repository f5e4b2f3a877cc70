import QuantEngine.Runs.Crossing
import QuantEngine.Runs.Ledger

/-!
# Legal trades

Who trades with whom along a run. A trade is judged by the responses alone: the
ACCEPTED responses of its two orders state their sides and limit prices.

An incoming order trades with the ladder that insertion filled for its own side.
So its trades are legal only where that ladder happens to be a proper ring of
orders of the other side, or where matching stops at its first test.
-/

namespace QuantEngine.MEOrderBook

open Exec LinkedRing Runs

variable {book last : MEOrderBook} {lo : Price} {submission : Submission} {ops : List Op} {op : Op}
  {tickerId : TickerId} {side : Side} {levels : List ℕ} {marketOrderId : OrderId}
  {log log' : List MEClientResponse}

/-- The head pointer of `side` is null or heads a ring of these levels, all of them in use. -/
structure LinkedLadder (book : MEOrderBook) (side : Side) (levels : List ℕ) : Prop where
  ring : HeadsRing book.nextEntry book.prevEntry (book.removalHead side) levels
  inUse : ∀ atPrice ∈ levels, book.LevelInUse atPrice

/-- Matching stops at its first test: nothing is to be traded, or the first order it finds lies
beyond the limit. -/
def StopsAtOnce (book : MEOrderBook) (submission : Submission) : Prop :=
  submission.qty = 0 ∨ ∃ atPrice elem,
    book.removalHead submission.side.opposite = some atPrice ∧
    book.firstMeOrder atPrice = some elem ∧
    beyondLimit submission.side submission.price (book.orderData elem).price = true

/-- Listed levels can be brought to the front of a directory, in any order. -/
theorem exists_listing {own : List ℕ} {entries : List Entry} (nodup : own.Nodup)
    (listed : ∀ atPrice ∈ own, atPrice ∈ levelsOf entries) :
    ∃ front back, entries.Perm (front ++ back) ∧ levelsOf front = own := by
  induction own generalizing entries with
  | nil => exact ⟨[], entries, List.Perm.refl _, rfl⟩
  | cons atPrice own ih =>
      rw [List.nodup_cons] at nodup
      rcases List.mem_map.mp (listed atPrice List.mem_cons_self) with ⟨entry, entryMem, rfl⟩
      rcases List.append_of_mem entryMem with ⟨before, after, rfl⟩
      have others : ∀ other ∈ own, other ∈ levelsOf (before ++ after) := by
        intro other otherMem
        have different : other ≠ entry.1 := ne_of_mem_of_not_mem otherMem nodup.1
        have inAll := listed other (List.mem_cons_of_mem _ otherMem)
        simp only [levelsOf, List.map_append, List.map_cons, List.mem_append, List.mem_cons]
          at inAll ⊢
        tauto
      rcases ih nodup.2 others with ⟨front, back, same, frontLevels⟩
      refine ⟨entry :: front, back, List.perm_middle.trans (same.cons entry), ?_⟩
      rw [levelsOf, List.map_cons, ← frontLevels]

theorem LinkedLadder.ringed {entries : List Entry} (linked : LinkedLadder book side levels)
    (dir : Directory book entries) :
    ∃ own others, entries.Perm (own ++ others) ∧ levelsOf own = levels ∧
      Ringed book side own others := by
  have nodup : levels.Nodup := by
    rcases levels with _ | ⟨head, rest⟩
    · exact List.nodup_nil
    · exact (linked.ring.2 (List.cons_ne_nil _ _)).nodup
  rcases exists_listing nodup fun atPrice member =>
    (dir.levelInUse atPrice).mp (linked.inUse atPrice member) with ⟨own, others, same, rfl⟩
  exact ⟨own, others, same, rfl, dir.perm same, linked.ring⟩

theorem Directory.restsIn {entries : List Entry} {entry : Entry} {elem : ℕ}
    (dir : Directory book entries) (entryMem : entry ∈ entries) (elemMem : elem ∈ entry.2) :
    RestsIn book entry.1 elem := by
  have used : book.LevelInUse entry.1 := (dir.levelInUse entry.1).mpr (List.mem_map_of_mem entryMem)
  have firstEq := dir.first _ entryMem
  have ring := dir.ring _ entryMem
  rcases entry with ⟨atPrice, _ | ⟨head, rest⟩⟩
  · exact absurd rfl ring.ne_nil
  · exact ⟨used, head, firstEq, ring.reaches_iff.mpr elemMem⟩

theorem LinkedLadder.accepting (linked : LinkedLadder book side levels) :
    LinkedLadder (book.accepting submission) side levels :=
  ⟨linked.ring, linked.inUse⟩

theorem run_matchSubmission (trades : submission.side ≠ .invalid) :
    matchSubmission submission marketOrderId book =
      loopBy (submission.aggressor marketOrderId)
        (fun book => book.removalHead submission.side.opposite)
        (beyondLimit submission.side submission.price) (book.orderPool.numElems + 2)
        submission.qty book :=
  run_checkForMatch (submission.aggressor marketOrderId) trades

theorem matchSubmission_stops (trades : submission.side ≠ .invalid)
    (stops : StopsAtOnce book submission) :
    Ends (fun left last => last = book ∧ left = submission.qty) (· = book)
      (matchSubmission submission marketOrderId book) := by
  rw [run_matchSubmission trades]
  refine loopBy_ends (fun state leaves => state = book ∧ leaves = submission.qty) _ And.left ?_
    ⟨rfl, rfl⟩
  rintro _ _ atPrice elem ⟨rfl, rfl⟩ continues head first - within
  rcases stops with nothing | ⟨atPrice', elem', head', first', beyond⟩
  · exact absurd nothing continues
  · cases head.symm.trans head'
    cases first.symm.trans first'
    rw [within] at beyond
    cases beyond

/-- The ladder the submitted order meets is linked and holds only orders of the opposite side, or
matching stops at once. -/
def MeetsOpposite (book : MEOrderBook) (submission : Submission) : Prop :=
  StopsAtOnce book submission ∨ ∃ levels, LinkedLadder book submission.side.opposite levels ∧
    ∀ atPrice ∈ levels, ∀ elem, RestsIn book atPrice elem →
      (book.orderData elem).side = submission.side.opposite

theorem MeetsOpposite.accepting (meets : MeetsOpposite book submission) :
    MeetsOpposite (book.accepting submission) submission :=
  meets.imp id fun ⟨levels, linked, pure⟩ => ⟨levels, linked.accepting, pure⟩

theorem meetsOpposite_of_null (null : book.removalHead submission.side.opposite = none) :
    MeetsOpposite book submission :=
  Or.inr ⟨[], ⟨⟨null, fun nonempty => absurd rfl nonempty⟩, by simp⟩, by simp⟩

theorem meetsOpposite_of_alone {atPrice elem : ℕ}
    (head : book.removalHead submission.side.opposite = some atPrice)
    (used : book.LevelInUse atPrice)
    (levelLinks : book.nextEntry atPrice = some atPrice ∧ book.prevEntry atPrice = some atPrice)
    (first : book.firstMeOrder atPrice = some elem) (orderLink : book.nextOrder elem = some elem)
    (orderSide : (book.orderData elem).side = submission.side.opposite) :
    MeetsOpposite book submission := by
  refine Or.inr ⟨[atPrice], ⟨⟨head, fun _ => isRing_singleton.mpr levelLinks⟩, by simpa using used⟩,
    ?_⟩
  simp only [List.mem_singleton, forall_eq]
  rintro other ⟨-, start, firstEq, reaches⟩
  cases first.symm.trans firstEq
  have alone : other = elem := by
    induction reaches with
    | refl => rfl
    | tail _ linked same =>
        rw [same, orderLink] at linked
        exact (Option.some.inj linked).symm
  rw [alone]
  exact orderSide

/-- Only orders of levels within the limit are traded with. -/
theorem matchLevels_trades {beyond : Price → Bool} {leavesQty : Quantity}
    {levels : List PriceLevel} :
    ∀ trade ∈ (matchLevels beyond leavesQty levels).trades,
      ∃ level ∈ levels, beyond level.price = false ∧ trade.resting ∈ level.orders := by
  induction levels generalizing leavesQty with
  | nil => simp [matchLevels]
  | cons level levels ih =>
      rw [matchLevels]
      split
      case isTrue stops => simp
      case isFalse continues =>
          have within : beyond level.price = false :=
            eq_false_of_ne_true fun beyond => continues (Or.inr beyond)
          have filled : ∀ trade ∈ (fillOrders leavesQty level.orders).trades,
              trade.resting ∈ level.orders := fillOrders_consumes.resting_mem
          intro trade member
          dsimp only at member
          split at member
          · rcases List.mem_append.mp member with here | behind
            · exact ⟨level, List.mem_cons_self, within, filled trade here⟩
            · rcases ih trade behind with ⟨other, otherMem, facts⟩
              exact ⟨other, List.mem_cons_of_mem _ otherMem, facts⟩
          · exact ⟨level, List.mem_cons_self, within, filled trade member⟩

/-- An order that meets the opposite side trades with resting orders of that side within its
limit, whatever becomes of the call. -/
theorem matchSubmission_trades (marketOrderId : OrderId) (trades : submission.side ≠ .invalid)
    (indexed : Indexed book) (meets : MeetsOpposite book submission) :
    ∃ taken : List Trade, (finalState (matchSubmission submission marketOrderId book)).responses =
        book.responses ++ taken.flatMap (Trade.responses (submission.aggressor marketOrderId)) ∧
      ∀ trade ∈ taken, ∃ elem, book.OrderInUse elem ∧ trade.resting = book.orderData elem ∧
        (book.orderData elem).side = submission.side.opposite ∧
        beyondLimit submission.side submission.price (book.orderData elem).price = false := by
  rcases meets with stops | ⟨levels, linked, pure⟩
  · have unchanged : finalState (matchSubmission submission marketOrderId book) = book :=
      (matchSubmission_stops trades stops).finalState And.left
    exact ⟨[], by simp [unchanged], by simp⟩
  · rcases indexed with ⟨entries, dir, -⟩
    rcases linked.ringed dir with ⟨own, others, -, rfl, ringed⟩
    have orderSide : ∀ elem ∈ ordersOf own,
        (book.orderData elem).side = submission.side.opposite := by
      intro elem listed
      rcases List.mem_flatMap.mp listed with ⟨entry, entryMem, elemMem⟩
      exact pure entry.1 (List.mem_map_of_mem entryMem) elem
        (ringed.directory.restsIn (List.mem_append_left _ entryMem) elemMem)
    rcases Ringed.checkForMatch (submission.aggressor marketOrderId) submission.price
      submission.qty trades ringed orderSide with ⟨last, own', ran, refines⟩
    have ran' : matchSubmission submission marketOrderId book = _ := ran
    rw [ran']
    refine ⟨_, refines.responses, ?_⟩
    intro trade member
    rcases matchLevels_trades trade member with ⟨level, levelMem, within, restingMem⟩
    rcases List.mem_map.mp levelMem with ⟨entry, entryMem, rfl⟩
    rcases List.mem_map.mp restingMem with ⟨elem, elemMem, same⟩
    have listed : elem ∈ ordersOf own := List.mem_flatMap.mpr ⟨entry, entryMem, elemMem⟩
    refine ⟨elem, ringed.directory.orderInUse elem ?_, same.symm, orderSide elem listed, ?_⟩
    · rw [ordersOf, List.flatMap_append]
      exact List.mem_append_left _ listed
    · rw [ringed.directory.price entry (List.mem_append_left _ entryMem) elem elemMem]
      exact within

/-- The ACCEPTED response of the order that a fill is about. -/
structure Accepts (accepted fill : MEClientResponse) : Prop where
  type : accepted.type = .accepted
  marketOrderId : accepted.marketOrderId = fill.marketOrderId
  clientId : accepted.clientId = fill.clientId
  clientOrderId : accepted.clientOrderId = fill.clientOrderId
  side : accepted.side = fill.side

/-- A pair of fills joins a BUY with a SELL at a price within both limits, the limit price of the
order that was resting. -/
def FairTrade (log : List MEClientResponse) (pair : MEClientResponse × MEClientResponse) : Prop :=
  ∃ incoming ∈ log, ∃ resting ∈ log, Accepts incoming pair.1 ∧ Accepts resting pair.2 ∧
    pair.1.price = resting.price ∧ pair.2.price = resting.price ∧
    (incoming.side = .buy ∧ resting.side = .sell ∧
        pair.1.price ≤ incoming.price ∧ resting.price ≤ pair.1.price ∨
      incoming.side = .sell ∧ resting.side = .buy ∧
        pair.1.price ≤ resting.price ∧ incoming.price ≤ pair.1.price)

/-- The fills of the log come in pairs, all of them fair trades. -/
def FairTrades (log : List MEClientResponse) : Prop :=
  ∃ pairs, fillPairs log = some pairs ∧ ∀ pair ∈ pairs, FairTrade log pair

theorem FairTrade.mono {pair : MEClientResponse × MEClientResponse} (fair : FairTrade log pair)
    (subset : log ⊆ log') : FairTrade log' pair := by
  rcases fair with ⟨incoming, incomingMem, resting, restingMem, facts⟩
  exact ⟨incoming, subset incomingMem, resting, subset restingMem, facts⟩

theorem FairTrades.append (early : FairTrades log)
    {pairs : List (MEClientResponse × MEClientResponse)} (paired : fillPairs log' = some pairs)
    (fair : ∀ pair ∈ pairs, FairTrade (log ++ log') pair) : FairTrades (log ++ log') := by
  rcases early with ⟨before, pairedBefore, fairBefore⟩
  refine ⟨before ++ pairs, by rw [fillPairs_append pairedBefore, paired]; rfl, ?_⟩
  intro pair member
  rcases List.mem_append.mp member with old | new
  · exact (fairBefore pair old).mono (List.subset_append_left _ _)
  · exact fair pair new

theorem fillPairs_eq_nil (none : ∀ response ∈ log, response.type ≠ .filled) :
    fillPairs log = some [] := by
  induction log with
  | nil => rfl
  | cons response log ih =>
      rw [fillPairs.eq_def]
      simp only [if_neg (none response List.mem_cons_self)]
      exact ih fun other member => none other (List.mem_cons_of_mem _ member)

/-- The order was accepted with this side, key, id and limit price. -/
def AcceptedAs (log : List MEClientResponse) (order : RestingOrder) : Prop :=
  ∃ response ∈ log, response.type = .accepted ∧ response.marketOrderId = order.marketOrderId ∧
    response.clientId = order.clientId ∧ response.clientOrderId = order.clientOrderId ∧
    response.side = order.side ∧ response.price = order.price

theorem AcceptedAs.mono {order : RestingOrder} (accepted : AcceptedAs log order)
    (subset : log ⊆ log') : AcceptedAs log' order := by
  rcases accepted with ⟨response, member, facts⟩
  exact ⟨response, subset member, facts⟩

/-- Every resting order was accepted and every trade so far was fair. -/
structure Fair (lo : Price) (book : MEOrderBook) : Prop where
  consistent : Consistent lo book
  accepted : ∀ elem, book.OrderInUse elem → AcceptedAs book.responses (book.orderData elem)
  trades : FairTrades book.responses

/-- The calls of a run whose submitted orders meet only the opposite side. -/
def FairCalls (lo : Price) (book : MEOrderBook) (op : Op) : Prop :=
  op.IsTrading ∧ op.Legal lo book ∧
    match op with
    | .submit submission => MeetsOpposite book submission
    | _ => True

/-- A trade of an accepted order with an accepted order of the opposite side within its limit. -/
theorem fairTrade_of_trade {trade : Trade} (trades : submission.side ≠ .invalid)
    (incoming : submission.acceptedResponse marketOrderId ∈ log)
    (accepted : AcceptedAs log trade.resting)
    (opposite : trade.resting.side = submission.side.opposite)
    (within : beyondLimit submission.side submission.price trade.resting.price = false) :
    FairTrade log (trade.aggressorResponse (submission.aggressor marketOrderId),
      trade.restingResponse (submission.aggressor marketOrderId)) := by
  rcases accepted with ⟨resting, member, type, sameId, sameClient, sameOrder, sameSide, samePrice⟩
  refine ⟨_, incoming, resting, member, ⟨rfl, rfl, rfl, rfl, rfl⟩,
    ⟨type, sameId, sameClient, sameOrder, sameSide⟩, samePrice.symm, samePrice.symm, ?_⟩
  rw [samePrice, sameSide, opposite]
  change submission.side = .buy ∧ _ ∧ trade.resting.price ≤ submission.price ∧ _ ∨
    submission.side = .sell ∧ _ ∧ _ ∧ submission.price ≤ trade.resting.price
  rcases sides : submission.side with _ | _ | _
  · exact absurd sides trades
  · rw [sides] at within
    simp only [beyondLimit, if_true, decide_eq_false_iff_not] at within
    exact Or.inl ⟨rfl, rfl, Int.not_lt.mp within, Int.le_refl _⟩
  · rw [sides] at within
    simp only [beyondLimit, reduceCtorEq, if_false, gt_iff_lt, decide_eq_false_iff_not] at within
    exact Or.inr ⟨rfl, rfl, Int.le_refl _, Int.not_lt.mp within⟩

/-- Whatever becomes of an allowed call, its trades are fair. -/
theorem Fair.trades_finalState (fair : Fair lo book) (allowed : FairCalls lo book op) :
    FairTrades (finalState (op.exec book)).responses := by
  rcases allowed with ⟨trading, legal, meets⟩
  cases op with
  | checkForMatch aggressor price qty => exact absurd trading id
  | rest order => exact absurd trading id
  | removeOrder elem => exact absurd trading id
  | cancel clientId orderId tickerId =>
      rw [Op.exec, finalState_bind_pure]
      rcases cancel_messages with ⟨responses, updates, sent, -, unfilled, -⟩
      rw [sent]
      exact fair.trades.append (fillPairs_eq_nil unfilled) (by simp)
  | submit submission =>
      rw [Op.exec, finalState_bind_pure, submitBy_messages.1]
      have indexed : Indexed (book.accepting submission) :=
        fair.consistent.indexed.of_sameMemory ⟨rfl, rfl, rfl, rfl⟩
      have facing : MeetsOpposite (book.accepting submission) submission :=
        MeetsOpposite.accepting meets
      rcases matchSubmission_trades book.nextMarketOrderId legal.1 indexed facing with
        ⟨taken, sent, facts⟩
      have accepted : FairTrades (book.accepting submission).responses :=
        fair.trades.append (fillPairs_eq_nil (by simp [Submission.acceptedResponse])) (by simp)
      rw [sent]
      refine accepted.append fillPairs_trades ?_
      intro pair member
      rcases List.mem_map.mp member with ⟨trade, traded, rfl⟩
      rcases facts trade traded with ⟨elem, used, resting, opposite, within⟩
      refine fairTrade_of_trade legal.1 ?_ ?_ ?_ ?_
      · exact List.mem_append_left _ (List.mem_append_right _ (List.mem_singleton_self _))
      · rw [resting]
        refine (fair.accepted elem used).mono ?_
        exact List.Subset.trans (List.subset_append_left _ _) (List.subset_append_left _ _)
      · rw [resting]
        exact opposite
      · rw [resting]
        exact within

theorem Fair.step {result : Option Quantity} (fair : Fair lo book) (allowed : FairCalls lo book op)
    (ran : op.exec book = .ok result last) : Fair lo last := by
  have consistent' := fair.consistent.step allowed.2.1 ran
  have trades' := fair.trades_finalState allowed
  rw [ran] at trades'
  refine ⟨consistent', ?_, trades'⟩
  intro elem used
  rcases allowed with ⟨trading, legal, meets⟩
  cases op with
  | checkForMatch aggressor price qty => exact absurd trading id
  | rest order => exact absurd trading id
  | removeOrder elem => exact absurd trading id
  | cancel clientId orderId tickerId =>
      rcases run_bind_eq_ok_iff.mp ran with ⟨_, _, ran, returned⟩
      cases returned
      have retires := Retires.of_cancel ran
      rcases cancel_messages with ⟨responses, updates, sent, -, -, -⟩
      rw [ran] at sent
      have sent' : last.responses = book.responses ++ responses := sent
      rw [sent', retires.orderData]
      exact (fair.accepted elem (retires.orderInUse elem used)).mono (List.subset_append_left _ _)
  | submit submission =>
      rcases run_bind_eq_ok_iff.mp ran with ⟨_, _, ran, returned⟩
      cases returned
      have indexed : Indexed (book.accepting submission) :=
        fair.consistent.indexed.of_sameMemory ⟨rfl, rfl, rfl, rfl⟩
      rcases matchSubmission_trades book.nextMarketOrderId legal.1 indexed
        (MeetsOpposite.accepting meets) with ⟨taken, sent, -⟩
      have sent' : last.responses = (book.accepting submission).responses ++
          taken.flatMap (Trade.responses (submission.aggressor book.nextMarketOrderId)) := by
        rw [← sent, ← submitBy_messages.1, ran]
        rfl
      rw [sent']
      refine AcceptedAs.mono ?_ (List.subset_append_left _ _)
      rcases submitBy_orders fair.consistent.cursors ran used with
        ⟨before, data⟩ | ⟨-, leftQuantity, -, data⟩
      · rw [data]
        exact (fair.accepted elem before).mono (List.subset_append_left _ _)
      · rw [data]
        exact ⟨_, List.mem_append_right _ (List.mem_singleton_self _), rfl, rfl, rfl, rfl, rfl, rfl⟩

theorem Fair.empty (lo : Price) (tickerId : TickerId) : Fair lo (MEOrderBook.empty tickerId) where
  consistent := Consistent.empty lo tickerId
  accepted elem used := by cases used.2
  trades := ⟨[], rfl, by simp⟩

theorem Fair.of_run (run : Run (Op.Step (FairCalls lo)) (MEOrderBook.empty tickerId) ops last) :
    Fair lo last :=
  run.invariant (Fair lo) (Fair.empty lo tickerId) fun fair ⟨allowed, _, ran⟩ =>
    fair.step allowed ran

/-- As long as every submitted order meets only the opposite side, the trades of a run are fair;
also those of a last call that does not return. -/
theorem fairTrades_of_run (run : Run (Op.Step (FairCalls lo)) (empty tickerId) ops last) :
    FairTrades last.responses ∧ ∀ op, FairCalls lo last op →
      FairTrades (finalState (op.exec last)).responses :=
  ⟨(Fair.of_run run).trades, fun _ allowed => (Fair.of_run run).trades_finalState allowed⟩

/-- A SELL that joined the level of a BUY, since cancelled, trades with the next BUY. -/
theorem fairTrades_of_run_sample :
    ∃ last : MEOrderBook, FairTrades last.responses ∧
      (fillPairs last.responses).map (·.map fun pair => (pair.1.side, pair.2.side)) =
        some [(.buy, .sell)] := by
  have executed : (Op.next (Op.Legal 0) (empty 0) (.submit (limitOrder 1 .buy 10 5))).any
      (fun (first : MEOrderBook) => first.bidsByPrice = none ∧
        (Op.next (Op.Legal 0) first (.submit (limitOrder 2 .sell 10 5))).any
          fun (second : MEOrderBook) =>
        (Op.next (Op.Legal 0) second (.cancel 1 1 0)).any fun (third : MEOrderBook) =>
          (third.asksByPrice = some 0 ∧ third.LevelInUse 0 ∧
            (third.nextEntry 0 = some 0 ∧ third.prevEntry 0 = some 0) ∧
            third.firstMeOrder 0 = some 1 ∧ third.nextOrder 1 = some 1 ∧
            (third.orderData 1).side = .sell) ∧
          (Op.next (Op.Legal 0) third (.submit (limitOrder 3 .buy 10 5))).any
            fun (last : MEOrderBook) =>
            (fillPairs last.responses).map (·.map fun pair => (pair.1.side, pair.2.side)) =
              some [(.buy, .sell)]) = true := by
    decide +kernel
  rcases (Option.any_eq_true _ _).mp executed with ⟨first, bought, executed⟩
  rcases of_decide_eq_true executed with ⟨noBids, executed⟩
  rcases (Option.any_eq_true _ _).mp executed with ⟨second, sold, executed⟩
  rcases (Option.any_eq_true _ _).mp executed with ⟨third, canceled, executed⟩
  rcases of_decide_eq_true executed with ⟨⟨head, used, links, firstEq, link, sells⟩, executed⟩
  rcases (Option.any_eq_true _ _).mp executed with ⟨last, boughtAgain, traded⟩
  have buy : Op.Step (FairCalls 0) (empty 0) (.submit (limitOrder 1 .buy 10 5)) first :=
    ⟨⟨trivial, (Op.step_of_next bought).1, meetsOpposite_of_null rfl⟩, (Op.step_of_next bought).2⟩
  have sell : Op.Step (FairCalls 0) first (.submit (limitOrder 2 .sell 10 5)) second :=
    ⟨⟨trivial, (Op.step_of_next sold).1, meetsOpposite_of_null noBids⟩, (Op.step_of_next sold).2⟩
  have cancel : Op.Step (FairCalls 0) second (.cancel 1 1 0) third :=
    ⟨⟨trivial, trivial, trivial⟩, (Op.step_of_next canceled).2⟩
  have buyAgain : Op.Step (FairCalls 0) third (.submit (limitOrder 3 .buy 10 5)) last :=
    ⟨⟨trivial, (Op.step_of_next boughtAgain).1,
      meetsOpposite_of_alone head used links firstEq link sells⟩, (Op.step_of_next boughtAgain).2⟩
  exact ⟨last, (fairTrades_of_run ((((Run.nil.snoc buy).snoc sell).snoc cancel).snoc buyAgain)).1,
    of_decide_eq_true traded⟩

/-- Two orders of one side trade with each other. -/
theorem unfair_of_two_buys :
    ∃ last, Run (Op.Step fun book op => op.IsTrading ∧ op.Legal 0 book) (empty 0)
        [.submit (limitOrder 1 .buy 10 5), .submit (limitOrder 2 .buy 10 5)] last ∧
      ¬FairTrades last.responses := by
  have executed : (execute (Op.next fun book op => op.IsTrading ∧ op.Legal 0 book) (empty 0)
      [.submit (limitOrder 1 .buy 10 5), .submit (limitOrder 2 .buy 10 5)]).any
        (fun (book : MEOrderBook) =>
        (fillPairs book.responses).any fun pairs =>
          pairs.map (fun pair => (pair.1.side, pair.2.side)) = [(.buy, .buy)]) = true := by
    decide +kernel
  rcases (Option.any_eq_true _ _).mp executed with ⟨last, reached, executed⟩
  rcases (Option.any_eq_true _ _).mp executed with ⟨pairs, paired, sides⟩
  refine ⟨last, Run.of_execute Op.step_of_next reached, ?_⟩
  rintro ⟨pairs', paired', fair⟩
  cases paired.symm.trans paired'
  have sides' := of_decide_eq_true sides
  rcases pairs with _ | ⟨pair, rest⟩
  · cases sides'
  · rcases fair pair List.mem_cons_self with
      ⟨incoming, -, resting, -, accepts, accepts', -, -, either⟩
    rw [accepts.side, accepts'.side] at either
    simp only [List.map_cons, List.cons.injEq, Prod.mk.injEq] at sides'
    rcases either with ⟨-, sells, -⟩ | ⟨sells, -⟩
    · cases sides'.1.2.symm.trans sells
    · cases sides'.1.1.symm.trans sells

end QuantEngine.MEOrderBook
