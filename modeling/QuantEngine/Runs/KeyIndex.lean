import QuantEngine.Book.Linking
import QuantEngine.Runs.Operation

/-!
# The key index

`cid_oid_to_order_` against the orders that are linked in a level. Nothing
rejects a key whose order still rests, and then the entry of the first order is
lost; under distinct keys the two correspond in every state, however orders
arrive and leave, and a cancellation under the key of a resting order removes it.
-/

namespace QuantEngine.MEOrderBook

open Exec LinkedRing Runs

variable {book last : MEOrderBook} {lo : Price} {elem : ℕ} {levels : List Entry}
  {tickerId : TickerId} {ops : List Op}

/-- The key map and the resting orders correspond one to one. -/
structure KeyIndex (book : MEOrderBook) : Prop where
  found : ∀ elem, Resting book elem →
    KeyInRange (book.orderData elem).clientId (book.orderData elem).clientOrderId ∧
      book.cidOidToOrder (book.orderData elem).clientId (book.orderData elem).clientOrderId =
        some elem
  resting : ∀ clientId orderId elem, KeyInRange clientId orderId →
    book.cidOidToOrder clientId orderId = some elem →
      Resting book elem ∧ (book.orderData elem).clientId = clientId ∧
        (book.orderData elem).clientOrderId = orderId

theorem Indexed.keyIndex (indexed : Indexed book) : KeyIndex book := by
  rcases indexed with ⟨levels, dir, -⟩
  refine ⟨fun elem resting => dir.key elem (dir.resting_iff.mp resting), ?_⟩
  intro clientId orderId elem range held
  rcases dir.keyOnly clientId orderId elem range held with ⟨listed, sameKey⟩
  exact ⟨dir.resting_iff.mpr listed, sameKey⟩

/-- Every call that returns leaves the levels in use with both neighbours. -/
theorem LevelsLinked.step {op : Op} {result : Option Quantity} (linked : LevelsLinked book)
    (cursors : CursorsInRange book) (ran : op.exec book = .ok result last) :
    LevelsLinked last := by
  rcases op with submission | ⟨clientId, orderId, tickerId⟩ | ⟨aggressor, price, qty⟩ | order | elem
  all_goals
    rcases run_bind_eq_ok_iff.mp ran with ⟨_, _, ran, returned⟩
    cases returned
  · exact linked.submit cursors ran
  · exact linked.cancel ran
  · exact linked.checkForMatch aggressor ran
  · exact linked.restOrder cursors ran
  · exact linked.removeOrder ran

theorem LevelsLinked.of_run
    (run : Run (Op.Step (Op.Legal lo)) (MEOrderBook.empty tickerId) ops last) :
    LevelsLinked last := by
  have both : Consistent lo last ∧ LevelsLinked last := by
    refine run.invariant (fun book => Consistent lo book ∧ LevelsLinked book)
      ⟨Consistent.empty lo tickerId, LevelsLinked.empty tickerId⟩ ?_
    rintro op before after ⟨consistent, linked⟩ ⟨legal, result, ran⟩
    exact ⟨consistent.step legal ran, linked.step consistent.cursors ran⟩
  exact both.2

/-- A cancellation under a resting order's key returns: it removes that order and answers CANCELED
for it. -/
theorem run_cancel_resting (indexed : Indexed book) (linked : LevelsLinked book)
    (resting : Resting book elem) (ticker : TickerId) :
    ∃ next, cancel (book.orderData elem).clientId (book.orderData elem).clientOrderId ticker book =
        .ok ⟨⟩ next ∧
      next.responses = book.responses ++ [cancelResponse (book.orderData elem).clientId
        (book.orderData elem).clientOrderId ticker (book.orderData elem)] ∧
      next.updates = book.updates ++ [cancelUpdate ticker (book.orderData elem)] ∧
      ¬Resting next elem := by
  rcases indexed.keyIndex.found elem resting with ⟨range, held⟩
  rcases indexed with ⟨levels, dir, only⟩
  have listed : elem ∈ ordersOf levels := dir.resting_iff.mp resting
  have bound : elem < book.orderPool.numElems := (dir.orderInUse elem listed).1
  set canceling := book.canceling (book.orderData elem).clientId
    (book.orderData elem).clientOrderId ticker elem
  have same : SameMemory book canceling := ⟨rfl, rfl, rfl, rfl⟩
  rcases (same.directory dir).removeOrder_returns (linked.of_sameLevels rfl) listed with
    ⟨middle, removed⟩
  have removes := removesOrder_of_run removed
  have session : middle.session = canceling.session := congrArg Outside.session removes.outside
  have sent : middle.responses = book.responses := congrArg Session.responses session
  have published : middle.updates = book.updates := congrArg Session.updates session
  have response : middle.clientResponse = _ := congrArg Session.clientResponse session
  have update : middle.marketUpdate = _ := congrArg Session.marketUpdate session
  have ran : cancel (book.orderData elem).clientId (book.orderData elem).clientOrderId ticker book =
      .ok ⟨⟩ middle.canceled := by
    rw [run_cancel_held range held bound, run_bind_of_ok removed]
    rfl
  refine ⟨middle.canceled, ran, ?_, ?_, ?_⟩
  · change middle.responses ++ [middle.clientResponse] = _
    rw [sent, response]
    rfl
  · change middle.updates ++ [middle.marketUpdate] = _
    rw [published, update]
    rfl
  · have indexed' : Indexed middle.canceled := Indexed.cancel ⟨levels, dir, only⟩ ran
    rw [indexed'.resting_iff]
    exact fun used => ((removes.orderInUse elem).mp used).2 rfl

/-- In every state of a run whose new orders have free keys, the key map and the resting orders
correspond, and every resting order can be cancelled: the call under its key returns, removes it
and answers CANCELED for it. -/
theorem keyIndex_of_run (run : Run (Op.Step (Op.Legal lo)) (empty tickerId) ops last) :
    KeyIndex last ∧ ∀ elem, Resting last elem → ∀ ticker, ∃ next,
      cancel (last.orderData elem).clientId (last.orderData elem).clientOrderId ticker last =
          .ok ⟨⟩ next ∧
        next.responses = last.responses ++ [cancelResponse (last.orderData elem).clientId
          (last.orderData elem).clientOrderId ticker (last.orderData elem)] ∧
        next.updates = last.updates ++ [cancelUpdate ticker (last.orderData elem)] ∧
        ¬Resting next elem := by
  have indexed := (Consistent.of_run id run).indexed
  exact ⟨indexed.keyIndex, fun elem resting ticker =>
    run_cancel_resting indexed (LevelsLinked.of_run run) resting ticker⟩

/-- A SELL order of client 1 at price 10. -/
def sellOrder (orderId marketOrderId : OrderId) (quantity : Quantity) : RestingOrder where
  tickerId := 0
  clientId := 1
  clientOrderId := orderId
  marketOrderId := marketOrderId
  side := .sell
  price := 10
  quantity := quantity
  priority := 1

theorem keyIndex_of_run_sample :
    ∃ last, KeyIndex last ∧ last.cidOidToOrder 1 1 = none ∧ last.cidOidToOrder 1 2 = some 1 ∧
      Resting last 1 ∧ ∃ next, cancel 1 2 0 last = .ok ⟨⟩ next ∧
        next.responses = last.responses ++ [cancelResponse 1 2 0 (last.orderData 1)] ∧
        ¬Resting next 1 := by
  have executed : (execute (Op.next (Op.Legal 0)) (empty 0)
      [.rest (sellOrder 1 1 5), .rest (sellOrder 2 2 7),
        .checkForMatch ⟨2, 1, 0, .sell, 3⟩ 9 6]).any (fun book =>
          (book.cidOidToOrder 1 1 = none ∧ book.cidOidToOrder 1 2 = some 1) ∧
            (book.LevelInUse 0 ∧ book.firstMeOrder 0 = some 1) ∧
              (book.orderData 1).clientId = 1 ∧ (book.orderData 1).clientOrderId = 2) = true := by
    decide +kernel
  rcases (Option.any_eq_true _ _).mp executed with ⟨last, reached, facts⟩
  rcases of_decide_eq_true facts with ⟨⟨gone, stays⟩, ⟨used, first⟩, sameClient, sameOrder⟩
  have resting : Resting last 1 := ⟨0, restsIn_first used first⟩
  rcases keyIndex_of_run (Run.of_execute Op.step_of_next reached) with ⟨index, cancels⟩
  rcases cancels 1 resting 0 with ⟨next, ran, sent, -, left⟩
  rw [sameClient, sameOrder] at ran sent
  exact ⟨last, index, gone, stays, resting, next, ran, sent, left⟩

/-- What the book itself asks of a call: nothing about the key of a rested order. -/
def Op.Unchecked (lo : Price) (_ : MEOrderBook) : Op → Prop
  | .rest order =>
      order.side ≠ .invalid ∧ KeyInRange order.clientId order.clientOrderId ∧
        InWindow lo order.price
  | .cancel _ _ _ => True
  | .checkForMatch _ _ _ => True
  | _ => False

instance (lo : Price) (book : MEOrderBook) (op : Op) : Decidable (op.Unchecked lo book) :=
  match op with
  | .submit _ => inferInstanceAs (Decidable False)
  | .cancel .. => inferInstanceAs (Decidable True)
  | .checkForMatch .. => inferInstanceAs (Decidable True)
  | .rest _ => inferInstanceAs (Decidable (_ ∧ _))
  | .removeOrder _ => inferInstanceAs (Decidable False)

/-- A second order under a key whose first order still rests takes over the entry, and the first
order is no longer found. -/
theorem keyIndex_fails_of_shared_key :
    ∃ last, Run (Op.Step (Op.Unchecked 0)) (empty 0)
        [.rest (sellOrder 1 1 5), .rest (sellOrder 1 2 7)] last ∧
      ¬KeyIndex last := by
  have executed : (execute (Op.next (Op.Unchecked 0)) (empty 0)
      [.rest (sellOrder 1 1 5), .rest (sellOrder 1 2 7)]).any (fun book =>
        book.LevelInUse 0 ∧ book.firstMeOrder 0 = some 0 ∧
          book.cidOidToOrder (book.orderData 0).clientId (book.orderData 0).clientOrderId =
            some 1) = true := by
    decide +kernel
  rcases (Option.any_eq_true _ _).mp executed with ⟨last, reached, facts⟩
  rcases of_decide_eq_true facts with ⟨used, firstEq, held⟩
  refine ⟨last, Run.of_execute Op.step_of_next reached, ?_⟩
  intro index
  have found := (index.found 0 ⟨0, restsIn_first used firstEq⟩).2
  rw [held] at found
  cases found

end QuantEngine.MEOrderBook
