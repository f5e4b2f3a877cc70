import QuantEngine.Runs.Feed

/-!
# What the clients know

A client that reads its responses knows its open orders: ACCEPTED opens one,
FILLED states what is left of it, and it is closed when nothing is left or by
CANCELED. FILLED responses about orders closed before are ignored.

The clients' view and the market data of `Feed` are built from two streams that
are sent side by side. In every run they show the same orders.
-/

namespace QuantEngine

/-- An open order as its client knows it. -/
structure Position where
  clientId : ClientId
  clientOrderId : OrderId
  quote : Quote
  deriving DecidableEq, Repr

/-- What becomes of an open order of which this much is left. -/
def Position.leaving (position : Position) (leftQty : Quantity) : Option Position :=
  if leftQty = 0 then none
  else some { position with quote := { position.quote with quantity := leftQty } }

def MEClientResponse.position (response : MEClientResponse) : Position where
  clientId := response.clientId
  clientOrderId := response.clientOrderId
  quote := ⟨response.side, response.price, response.leftQty⟩

def RestingOrder.position (order : RestingOrder) : Position where
  clientId := order.clientId
  clientOrderId := order.clientOrderId
  quote := order.quote

/-- The open orders by their market order ids. -/
abbrev Positions := OrderId → Option Position

/-- What the clients know after a response. -/
def Positions.absorb (positions : Positions) (response : MEClientResponse) : Positions :=
  match response.type with
  | .accepted => Function.update positions response.marketOrderId
      (response.position.leaving response.leftQty)
  | .filled => Function.update positions response.marketOrderId
      ((positions response.marketOrderId).bind (·.leaving response.leftQty))
  | .canceled => Function.update positions response.marketOrderId none
  | .cancelRejected => positions
  | .invalid => positions

/-- What the clients know after a stream of responses, when there was no order before. -/
def positions (responses : List MEClientResponse) : Positions :=
  responses.foldl Positions.absorb fun _ => none

section Positions

variable {responses : List MEClientResponse} {response : MEClientResponse} {position : Position}
  {shown : Positions} {leavesQty : Quantity}

theorem positions_concat :
    positions (responses ++ [response]) = (positions responses).absorb response := by
  simp [positions]

theorem positions_pair {other : MEClientResponse} :
    positions (responses ++ [response, other]) =
      ((positions responses).absorb response).absorb other := by
  simp [positions]

theorem absorb_filled (filled : response.type = .filled) :
    shown.absorb response = Function.update shown response.marketOrderId
      ((shown response.marketOrderId).bind (·.leaving response.leftQty)) := by
  rw [Positions.absorb, filled]

/-- A fill of an order of which something was left. -/
theorem absorb_open (filled : response.type = .filled)
    (known : shown response.marketOrderId = position.leaving leavesQty) (isOpen : leavesQty ≠ 0) :
    shown.absorb response = Function.update shown response.marketOrderId
      (position.leaving response.leftQty) := by
  rw [absorb_filled filled, known, Position.leaving, if_neg isOpen]
  rfl

end Positions

namespace MEOrderBook

open Exec Lookup Runs

variable {book last : MEOrderBook} {submission : Submission} {ops : List Op} {op : Op}
  {tickerId : TickerId} {elem : ℕ} {aggressor : Aggressor} {leavesQty left : Quantity}
  {clientId : ClientId} {orderId marketOrderId : OrderId} {done : PUnit}
  {shown : Positions}

/-- The blocks of the order pool, with what the clients know of their orders. -/
def positionCells (book : MEOrderBook) : Cells ℕ OrderId Position where
  live := book.OrderInUse
  key elem := (book.orderData elem).marketOrderId
  value elem := (book.orderData elem).position

/-- The clients know exactly the orders in use. -/
def Stated (book : MEOrderBook) : Prop := Lists (positions book.responses) book.positionCells

section Blocks

variable (lists : Lists shown book.positionCells)

include lists

/-- An order leaves. -/
theorem lists_leave (unshared : MEOrderBook.Unshared book elem)
    (inUse : ∀ other, last.OrderInUse other ↔ book.OrderInUse other ∧ other ≠ elem)
    (data : ∀ other, other ≠ elem → last.orderData other = book.orderData other) :
    Lists (Function.update shown (book.orderData elem).marketOrderId none) last.positionCells := by
  have gone : ¬last.OrderInUse elem := fun still => ((inUse elem).mp still).2 rfl
  refine lists.assign (fun other different => ⟨?_, fun otherUsed => ?_⟩)
    (fun _ : book.OrderInUse elem => rfl) (fun still => absurd still gone) fun held => ?_
  · exact (inUse other).trans (and_iff_left different)
  · have same := data other different
    exact ⟨congrArg RestingOrder.marketOrderId same, congrArg RestingOrder.position same,
      unshared other different otherUsed⟩
  · exact iff_of_false (by simp) fun held => gone held.1

/-- An order joins. -/
theorem lists_join {order : RestingOrder} (rests : Rests book last order elem)
    (apart : ∀ other, book.OrderInUse other →
      (book.orderData other).marketOrderId ≠ order.marketOrderId) :
    Lists (Function.update shown order.marketOrderId (some order.position)) last.positionCells := by
  have used : last.OrderInUse elem := (rests.orderInUse elem).mpr (Or.inl rfl)
  have dataNew : last.orderData elem = order := by
    rw [rests.orderData, if_pos rfl]
  refine lists.assign (fun other different => ⟨?_, fun otherUsed => ?_⟩)
    (fun still : book.OrderInUse elem => absurd still rests.fresh)
    (fun _ => congrArg RestingOrder.marketOrderId dataNew) fun held => ?_
  · exact (rests.orderInUse other).trans (or_iff_right different)
  · have same : last.orderData other = book.orderData other := by
      rw [rests.orderData, if_neg different]
    exact ⟨congrArg RestingOrder.marketOrderId same, congrArg RestingOrder.position same,
      apart other otherUsed⟩
  · change _ ↔ last.OrderInUse elem ∧ (last.orderData elem).position = held
    rw [dataNew, Option.some.injEq]
    exact (and_iff_right used).symm

/-- An order trades, and leaves if nothing of it is left; a dead order is no concern of the
clients. -/
theorem lists_trade (unshared : MEOrderBook.Unshared book elem)
    (ran : matchBy aggressor (some elem) leavesQty book = .ok left last) :
    Lists (Function.update shown (book.orderData elem).marketOrderId
      ((shown (book.orderData elem).marketOrderId).bind
        (·.leaving (Trade.between leavesQty (book.orderData elem)).remaining)))
      last.positionCells := by
  rcases matchBy_cases ran with ⟨_, ⟨⟩, -, -, ⟨kept, rfl⟩ | ⟨used, removed⟩⟩
  · have dataHere : (book.traded aggressor elem leavesQty).orderData elem =
        (Trade.between leavesQty (book.orderData elem)).reduced := by
      rw [orderData_traded, if_pos rfl]
    have sameId : (book.traded aggressor elem leavesQty).positionCells.key elem =
        (book.orderData elem).marketOrderId := by
      change ((book.traded aggressor elem leavesQty).orderData elem).marketOrderId = _
      rw [dataHere]
      rfl
    refine lists.assign (fun other different => ⟨?_, fun otherUsed => ?_⟩)
      (fun _ : book.OrderInUse elem => rfl) (fun _ => sameId) fun held => ?_
    · change (book.traded aggressor elem leavesQty).OrderInUse other ↔ book.OrderInUse other
      rw [orderInUse_traded]
    · have same : (book.traded aggressor elem leavesQty).orderData other =
          book.orderData other := by
        rw [orderData_traded, if_neg different]
      exact ⟨congrArg RestingOrder.marketOrderId same, congrArg RestingOrder.position same,
        unshared other different otherUsed⟩
    · change _ ↔ (book.traded aggressor elem leavesQty).OrderInUse elem ∧
        ((book.traded aggressor elem leavesQty).orderData elem).position = held
      rw [orderInUse_traded, dataHere]
      by_cases used : book.OrderInUse elem
      · have known : shown (book.orderData elem).marketOrderId =
            some (book.orderData elem).position := lists.known used
        rw [known, Option.bind_some, Position.leaving, if_neg kept, Option.some.injEq]
        exact (and_iff_right used).symm
      · have unknown : shown (book.orderData elem).marketOrderId = none :=
          lists.unknown_of_dead unshared used
        rw [unknown]
        exact iff_of_false (by simp) fun held => used held.1
  · have removes := removesOrder_of_run removed
    have closes : (shown (book.orderData elem).marketOrderId).bind (·.leaving
        (Trade.between leavesQty (book.orderData elem)).remaining) = none := by
      rw [used]
      cases shown (book.orderData elem).marketOrderId <;> rfl
    rw [closes]
    refine lists_leave lists unshared (fun other => ?_) fun other different => ?_
    · rw [removes.orderInUse, orderInUse_traded]
    · rw [removes.orderData, orderData_traded, if_neg different]

end Blocks

/-- A loop of `checkForMatch` so far: the clients know the incoming order as far as it is left, and
besides exactly the orders in use. -/
structure Standing (submission : Submission) (marketOrderId : OrderId) (book : MEOrderBook)
    (leavesQty : Quantity) : Prop where
  others : Lists (Function.update (positions book.responses) marketOrderId none)
    book.positionCells
  own : positions book.responses marketOrderId =
    (submission.acceptedResponse marketOrderId).position.leaving leavesQty

theorem Standing.turn (standing : Standing submission marketOrderId book leavesQty)
    (settling : Settling book (submission.aggressor marketOrderId) leavesQty)
    (written : Written book elem) (incoming : leavesQty ≠ 0)
    (ran : matchBy (submission.aggressor marketOrderId) (some elem) leavesQty book =
      .ok left last) : Standing submission marketOrderId last left := by
  let trade := Trade.between leavesQty (book.orderData elem)
  have apart : (book.orderData elem).marketOrderId ≠ marketOrderId := settling.apart elem written
  have unshared := settling.accounted.unshared written
  have bound : elem < book.orderPool.numElems ∧ left = trade.leavesQty := by
    rcases matchBy_cases ran with ⟨_, ⟨⟩, bound, result, -⟩
    exact ⟨bound, result⟩
  have responses : last.responses =
      book.responses ++ trade.responses (submission.aggressor marketOrderId) := by
    have messages : (finalState (matchBy (submission.aggressor marketOrderId) (some elem) leavesQty
        book)).responses = _ := (matchBy_messages bound.1).1
    rwa [ran] at messages
  have absorbed : positions last.responses = Function.update
      (Function.update (positions book.responses) marketOrderId
        ((submission.acceptedResponse marketOrderId).position.leaving left))
      (book.orderData elem).marketOrderId
      ((positions book.responses (book.orderData elem).marketOrderId).bind
        (·.leaving trade.remaining)) := by
    have own : (positions book.responses).absorb
        (trade.aggressorResponse (submission.aggressor marketOrderId)) =
          Function.update (positions book.responses) marketOrderId
            ((submission.acceptedResponse marketOrderId).position.leaving left) := by
      rw [bound.2]
      exact absorb_open rfl standing.own incoming
    have untouched : Function.update (positions book.responses) marketOrderId
        ((submission.acceptedResponse marketOrderId).position.leaving left)
          (book.orderData elem).marketOrderId =
            positions book.responses (book.orderData elem).marketOrderId :=
      Function.update_of_ne apart _ _
    rw [responses, Trade.responses, positions_pair, own, absorb_filled rfl, ← untouched]
    rfl
  constructor
  case others =>
    have lists := lists_trade standing.others unshared ran
    rw [Function.update_of_ne apart] at lists
    rw [absorbed, Function.update_comm apart, Function.update_idem]
    exact lists
  case own => rw [absorbed, Function.update_of_ne apart.symm, Function.update_self]

theorem Standing.matchSubmission
    (settling : Settling book (submission.aggressor marketOrderId) submission.qty)
    (standing : Standing submission marketOrderId book submission.qty)
    (ran : MEOrderBook.matchSubmission submission marketOrderId book = .ok left last) :
    Standing submission marketOrderId last left := by
  by_cases trades : submission.side = .invalid
  · rw [MEOrderBook.matchSubmission, trades, run_checkForMatch_invalid] at ran
    cases ran
    exact standing
  · rw [run_matchSubmission trades] at ran
    have ends : Ends (fun left next => Settling next (submission.aggressor marketOrderId) left ∧
        Standing submission marketOrderId next left) (fun _ => True)
          (loopBy (submission.aggressor marketOrderId)
            (fun book => book.removalHead submission.side.opposite)
            (beyondLimit submission.side submission.price) (book.orderPool.numElems + 2)
            submission.qty book) := by
      refine loopBy_ends (fun state leaves => Settling state (submission.aggressor marketOrderId)
        leaves ∧ Standing submission marketOrderId state leaves) _ (fun _ => trivial) ?_
        ⟨settling, standing⟩
      rintro state leaves atPrice elem ⟨settling, standing⟩ incoming - first bound -
      have written := settling.accounted.pointedTo elem (Or.inl ⟨atPrice, first⟩)
      have settles := settling.turn written bound
      cases turned : matchBy (submission.aggressor marketOrderId) (some elem) leaves state with
      | error fault next => trivial
      | ok left next =>
          rw [turned] at settles
          exact ⟨settles, standing.turn settling written incoming turned⟩
    rw [ran] at ends
    exact ends.2

namespace Stated

/-- Responses that are no news for the clients. -/
theorem congr (stated : Stated book) (same : SameMemory book last)
    (responses : positions last.responses = positions book.responses) : Stated last := by
  intro id position
  change _ ↔ ∃ elem, last.OrderInUse elem ∧ (last.orderData elem).marketOrderId = id ∧
    (last.orderData elem).position = position
  rw [responses, same.orderInUse, same.orderData]
  exact stated id position

/-- The ACCEPTED response; no order in use has the id that is given out. -/
theorem accepting (stated : Stated book) (accounted : Accounted book) :
    Standing submission book.nextMarketOrderId (book.accepting submission) submission.qty := by
  have fresh : positions book.responses book.nextMarketOrderId = none :=
    stated.unknown fun elem used => UInt64.ne_of_lt (accounted.id_lt (accounted.inUse elem used))
  have absorbed : positions (book.accepting submission).responses =
      Function.update (positions book.responses) book.nextMarketOrderId
        ((submission.acceptedResponse book.nextMarketOrderId).position.leaving submission.qty) :=
    positions_concat
  constructor
  case others =>
    rw [absorbed, Function.update_idem, Function.update_eq_iff.mpr ⟨fresh.symm, fun _ _ => rfl⟩]
    exact stated
  case own => rw [absorbed, Function.update_self]

theorem submit (stated : Stated book) (accounted : Accounted book)
    (left : book.nextMarketOrderId ≠ orderIdInvalid)
    (ran : submitBy submission book = .ok done last) : Stated last := by
  rcases submitBy_cases ran with ⟨leftQuantity, middle, matched, settled⟩
  have start : Settling (book.accepting submission) _ _ := accounted.accepting left
  have ends := matchSubmission_settles start
  rw [matched] at ends
  have settling : Settling middle (submission.aggressor book.nextMarketOrderId) leftQuantity := ends
  have standing : Standing submission book.nextMarketOrderId middle leftQuantity :=
    Standing.matchSubmission start (stated.accepting accounted) matched
  rcases settle_cases settled with ⟨nothing, rfl⟩ | ⟨rested, something, linked, rfl⟩
  · have closed : positions last.responses book.nextMarketOrderId = none := by
      rw [standing.own, Position.leaving, if_pos nothing]
    have others := standing.others
    rw [Function.update_eq_iff.mpr ⟨closed.symm, fun _ _ => rfl⟩] at others
    exact others
  · rcases rests_of_run settling.accounted.cursors linked with ⟨elem, rests⟩
    have responses : rested.responses = middle.responses := congrArg Session.responses rests.session
    have own : positions middle.responses book.nextMarketOrderId =
        some (submission.leftover book.nextMarketOrderId leftQuantity).position := by
      rw [standing.own, Position.leaving, if_neg something]
      rfl
    have joined := lists_join standing.others rests fun other used =>
      settling.apart other (settling.accounted.inUse other used)
    change Lists (positions rested.responses) rested.positionCells
    change Lists (Function.update _ book.nextMarketOrderId _) _ at joined
    rw [Function.update_idem, ← own, Function.update_eq_self] at joined
    rw [responses]
    exact joined

theorem cancel (stated : Stated book) (accounted : Accounted book)
    (ran : MEOrderBook.cancel clientId orderId tickerId book = .ok done last) : Stated last := by
  rcases cancel_cases ran with ⟨-, rfl⟩ | ⟨elem, middle, -, -, removed, rfl⟩
  · exact stated.congr ⟨rfl, rfl, rfl, rfl⟩ positions_concat
  · have removes := removesOrder_of_run removed
    have session := congrArg Outside.session removes.outside
    have responses : middle.responses = book.responses := congrArg Session.responses session
    have sent : middle.clientResponse =
        cancelResponse clientId orderId tickerId (book.orderData elem) :=
      congrArg Session.clientResponse session
    have used : book.OrderInUse elem := removes.inUse
    have absorbed : positions middle.canceled.responses =
        Function.update (positions book.responses) (book.orderData elem).marketOrderId none := by
      change positions (middle.responses ++ [middle.clientResponse]) = _
      rw [responses, sent]
      exact positions_concat
    change Lists (positions middle.canceled.responses) middle.positionCells
    rw [absorbed]
    refine lists_leave stated (accounted.unshared (accounted.inUse elem used)) removes.orderInUse ?_
    intro other _
    rw [removes.orderData]
    rfl

theorem step {result : Option Quantity} (stated : Stated book) (accounted : Accounted book)
    (left : book.nextMarketOrderId ≠ orderIdInvalid) (trading : op.IsTrading)
    (ran : op.exec book = .ok result last) : Stated last := by
  cases op with
  | checkForMatch aggressor price qty => exact absurd trading id
  | rest order => exact absurd trading id
  | removeOrder elem => exact absurd trading id
  | cancel clientId orderId tickerId =>
      rcases run_bind_eq_ok_iff.mp ran with ⟨_, _, ran, returned⟩
      cases returned
      exact stated.cancel accounted ran
  | submit submission =>
      rcases run_bind_eq_ok_iff.mp ran with ⟨_, _, ran, returned⟩
      cases returned
      exact stated.submit accounted left ran

theorem empty (tickerId : TickerId) : Stated (MEOrderBook.empty tickerId) := by
  intro id position
  constructor
  · intro found
    cases found
  · rintro ⟨elem, used, -⟩
    cases used.2

theorem of_run (run : Run TradingStep (MEOrderBook.empty tickerId) ops last)
    (room : ops.length + 1 < UInt64.size) : Stated last := by
  induction run with
  | nil => exact Stated.empty tickerId
  | @snoc ops state next op run stepped ih =>
      rw [List.length_append, List.length_singleton] at room
      rcases Accounted.of_run run (by omega) with ⟨accounted, issued⟩
      rcases stepped with ⟨trading, result, ran⟩
      exact (ih (by omega)).step accounted (id_left issued (by omega)) trading ran

end Stated

/-- Along every run of orders and cancellations the clients know from their responses exactly the
orders in use, and the market data shows the same orders with the same side, price and quantity. -/
theorem positions_of_run (run : Run TradingStep (empty tickerId) ops last)
    (room : ops.length + 1 < UInt64.size) :
    (∀ id position, positions last.responses id = some position ↔
      ∃ elem, last.OrderInUse elem ∧ (last.orderData elem).marketOrderId = id ∧
        (last.orderData elem).position = position) ∧
    ∀ id, feed last.updates id = (positions last.responses id).map Position.quote := by
  have stated := Stated.of_run run room
  have described := (Described.of_run run room).describes
  have same : feed last.updates = fun id => (positions last.responses id).map Position.quote :=
    described.lists.unique (stated.mapValue Position.quote)
  exact ⟨stated, fun id => congrFun same id⟩

/-- A BUY trades with a BUY, and both streams show what is left of it. -/
theorem positions_of_run_sample :
    ∃ last : MEOrderBook, (positions last.responses 1).map Position.quote = some ⟨.buy, 10, 2⟩ ∧
      feed last.updates 1 = some ⟨.buy, 10, 2⟩ ∧ positions last.responses 2 = none := by
  have executed : (execute (Op.next fun _ op => op.IsTrading) (empty 0)
      [.submit (limitOrder 1 .buy 10 5), .submit (limitOrder 2 .buy 10 3)]).any
        (fun (last : MEOrderBook) =>
          (positions last.responses 1).map Position.quote = some ⟨.buy, 10, 2⟩ ∧
            positions last.responses 2 = none) = true := by
    decide +kernel
  rcases (Option.any_eq_true _ _).mp executed with ⟨last, reached, facts⟩
  rcases of_decide_eq_true facts with ⟨first, second⟩
  have agree := (positions_of_run (Run.of_execute Op.step_of_next reached) (by decide)).2
  exact ⟨last, first, (agree 1).trans first, second⟩

end MEOrderBook

end QuantEngine
