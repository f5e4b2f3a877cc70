import QuantEngine.Library.Lookup
import QuantEngine.Runs.Accounts
import QuantEngine.Runs.Replay

/-!
# The market data of any run

A consumer that starts from nothing and ignores every CANCEL and MODIFY that it
cannot apply knows the orders in use, whatever became of the ladders: the
updates it ignores are those about dead orders that still trade.

The fills and the TRADE updates of a run tell the same story, also when its
last call faults.
-/

namespace QuantEngine

/-- The consumer that ignores the updates it cannot apply. -/
def Snapshot.absorb (snapshot : Snapshot) (update : MEMarketUpdate) : Snapshot :=
  (snapshot.apply update).getD snapshot

/-- What the consumer knows after a stream of updates, when it knew nothing before. -/
def feed (updates : List MEMarketUpdate) : Snapshot :=
  updates.foldl Snapshot.absorb fun _ => none

/-- A CANCEL update took the order away. -/
def Withdrawn (updates : List MEMarketUpdate) (id : OrderId) : Prop :=
  ∃ update ∈ updates, update.type = .cancel ∧ update.orderId = id

/-- The consumer can apply the update, or it is a MODIFY of an order withdrawn before. -/
def Applies (before : List MEMarketUpdate) (update : MEMarketUpdate) : Prop :=
  (feed before).apply update = none → update.type = .modify ∧ Withdrawn before update.orderId

section Feed

variable {snapshot : Snapshot} {update : MEMarketUpdate} {updates : List MEMarketUpdate}
  {quote : Quote}

theorem feed_concat : feed (updates ++ [update]) = (feed updates).absorb update := by
  simp [feed]

theorem apply_known_modify (type : update.type = .modify)
    (known : snapshot update.orderId = some quote) (side : quote.side = update.side)
    (price : quote.price = update.price) :
    snapshot.apply update = some (Function.update snapshot update.orderId
      (some ⟨update.side, update.price, update.quantity⟩)) := by
  have knows : snapshot.Knows update := ⟨quote, known, side, price⟩
  simp [Snapshot.apply, type, knows]

theorem apply_known_cancel (type : update.type = .cancel)
    (known : snapshot update.orderId = some quote) (side : quote.side = update.side)
    (price : quote.price = update.price) :
    snapshot.apply update = some (Function.update snapshot update.orderId none) := by
  have knows : snapshot.Knows update := ⟨quote, known, side, price⟩
  simp [Snapshot.apply, type, knows]

theorem apply_unknown_modify (type : update.type = .modify)
    (unknown : snapshot update.orderId = none) : snapshot.apply update = none := by
  simp [Snapshot.apply, type, Snapshot.Knows, unknown]

theorem Withdrawn.mono {front back : List MEMarketUpdate} {id : OrderId}
    (withdrawn : Withdrawn front id) (subset : front ⊆ back) : Withdrawn back id := by
  rcases withdrawn with ⟨update, member, facts⟩
  exact ⟨update, subset member, facts⟩

end Feed

namespace MEOrderBook

open Exec LinkedRing Runs

variable {book last : MEOrderBook} {snapshot : Snapshot} {update : MEMarketUpdate}
  {submission : Submission} {ops : List Op} {op : Op} {tickerId : TickerId} {elem : ℕ}
  {aggressor : Aggressor} {leavesQty left : Quantity} {clientId : ClientId} {orderId : OrderId}
  {done : PUnit}

/-- The blocks of the order pool, with what the market is told of their orders. -/
def quoteCells (book : MEOrderBook) : Lookup.Cells ℕ OrderId Quote where
  live := book.OrderInUse
  key elem := (book.orderData elem).marketOrderId
  value elem := (book.orderData elem).quote

/-- The snapshot quotes exactly the orders in use. -/
def Describes (snapshot : Snapshot) (book : MEOrderBook) : Prop :=
  ∀ id quote, snapshot id = some quote ↔ ∃ elem, book.OrderInUse elem ∧
    (book.orderData elem).marketOrderId = id ∧ (book.orderData elem).quote = quote

/-- No other order in use has the market order id of the block's order. -/
def Unshared (book : MEOrderBook) (elem : ℕ) : Prop :=
  ∀ other, other ≠ elem → book.OrderInUse other →
    (book.orderData other).marketOrderId ≠ (book.orderData elem).marketOrderId

theorem Accounted.unshared (accounted : Accounted book) (written : Written book elem) :
    Unshared book elem := fun other different _ same =>
  different (accounted.distinct elem other written same.symm).symm

namespace Describes

theorem lists (describes : Describes snapshot book) :
    Lookup.Lists snapshot book.quoteCells := describes

theorem known (describes : Describes snapshot book) (used : book.OrderInUse elem) :
    snapshot (book.orderData elem).marketOrderId = some (book.orderData elem).quote :=
  describes.lists.known used

/-- What the snapshot says of one id follows what becomes of the one order that has it. -/
theorem assign {id : OrderId} {value : Option Quote} (describes : Describes snapshot book)
    (others : ∀ other, other ≠ elem → (last.OrderInUse other ↔ book.OrderInUse other) ∧
      (book.OrderInUse other → last.orderData other = book.orderData other ∧
        (book.orderData other).marketOrderId ≠ id))
    (before : book.OrderInUse elem → (book.orderData elem).marketOrderId = id)
    (after : last.OrderInUse elem → (last.orderData elem).marketOrderId = id)
    (here : ∀ quote, value = some quote ↔
      last.OrderInUse elem ∧ (last.orderData elem).quote = quote) :
    Describes (Function.update snapshot id value) last := by
  have next : Lookup.Lists (Function.update snapshot id value) last.quoteCells := by
    refine describes.lists.assign (fun other different => ?_) before after here
    rcases others other different with ⟨inUse, kept⟩
    refine ⟨inUse, fun used => ?_⟩
    rcases kept used with ⟨data, apart⟩
    exact ⟨congrArg RestingOrder.marketOrderId data, congrArg RestingOrder.quote data, apart⟩
  exact next

/-- The CANCEL update of an order that leaves. -/
theorem cancel (describes : Describes snapshot book) (unshared : Unshared book elem)
    (used : book.OrderInUse elem)
    (inUse : ∀ other, last.OrderInUse other ↔ book.OrderInUse other ∧ other ≠ elem)
    (data : ∀ other, other ≠ elem → last.orderData other = book.orderData other)
    (type : update.type = .cancel)
    (sameId : update.orderId = (book.orderData elem).marketOrderId)
    (side : update.side = (book.orderData elem).side)
    (price : update.price = (book.orderData elem).price) :
    ∃ next, snapshot.apply update = some next ∧ Describes next last := by
  have known := describes.known used
  rw [← sameId] at known
  refine ⟨_, apply_known_cancel type known side.symm price.symm, ?_⟩
  have gone : ¬last.OrderInUse elem := fun still => ((inUse elem).mp still).2 rfl
  rw [sameId]
  refine describes.assign (fun other different => ⟨?_, fun otherUsed => ⟨data other different,
    unshared other different otherUsed⟩⟩) (fun _ => rfl) (fun still => absurd still gone)
    fun quote => ?_
  · rw [inUse]
    exact and_iff_left different
  · simp [gone]

/-- The ADD update of an order that joins. -/
theorem add (describes : Describes snapshot book) (fresh : ¬book.OrderInUse elem)
    (inUse : ∀ other, last.OrderInUse other ↔ other = elem ∨ book.OrderInUse other)
    (data : ∀ other, other ≠ elem → last.orderData other = book.orderData other)
    (apart : ∀ other, book.OrderInUse other →
      (book.orderData other).marketOrderId ≠ update.orderId)
    (type : update.type = .add) (sameId : (last.orderData elem).marketOrderId = update.orderId)
    (quote : (last.orderData elem).quote = ⟨update.side, update.price, update.quantity⟩) :
    ∃ next, snapshot.apply update = some next ∧ Describes next last := by
  have used : last.OrderInUse elem := (inUse elem).mpr (Or.inl rfl)
  refine ⟨Function.update snapshot update.orderId (some (last.orderData elem).quote), ?_, ?_⟩
  · rw [Snapshot.apply, type, quote]
  · refine describes.assign (fun other different => ⟨?_, fun otherUsed => ⟨data other different,
      apart other otherUsed⟩⟩) (fun before => absurd before fresh) (fun _ => sameId)
      fun quote => ?_
    · rw [inUse]
      exact or_iff_right different
    · simp [used]

section Reduced

variable (describes : Describes snapshot book) (unshared : Unshared book elem)

include describes unshared

theorem assign_traded {value : Option Quote}
    (here : ∀ quote, value = some quote ↔ book.OrderInUse elem ∧
      (Trade.between leavesQty (book.orderData elem)).reduced.quote = quote) :
    Describes (Function.update snapshot (book.orderData elem).marketOrderId value)
      (book.traded aggressor elem leavesQty) := by
  have dataHere : (book.traded aggressor elem leavesQty).orderData elem =
      (Trade.between leavesQty (book.orderData elem)).reduced := by
    rw [orderData_traded, if_pos rfl]
  refine describes.assign (fun other different => ?_) (fun _ => rfl)
    (fun _ => by rw [dataHere]; rfl) fun quote => ?_
  · rw [orderInUse_traded, orderData_traded, if_neg different]
    exact ⟨Iff.rfl, fun used => ⟨rfl, unshared other different used⟩⟩
  · rw [orderInUse_traded, dataHere]
    exact here quote

variable (kept : (Trade.between leavesQty (book.orderData elem)).remaining ≠ 0)

include kept

/-- The MODIFY update of a trade with an order in use. -/
theorem modify (used : book.OrderInUse elem) :
    ∃ next, snapshot.apply ((Trade.between leavesQty (book.orderData elem)).restingUpdate
        aggressor) = some next ∧ Describes next (book.traded aggressor elem leavesQty) := by
  rw [Trade.restingUpdate, if_neg kept]
  refine ⟨_, apply_known_modify rfl (describes.known used) rfl rfl, ?_⟩
  refine describes.assign_traded unshared fun quote => ?_
  simp only [used, true_and, Option.some.injEq]
  rfl

/-- The MODIFY update of a trade with a dead order. -/
theorem ignore (dead : ¬book.OrderInUse elem) :
    snapshot.apply ((Trade.between leavesQty (book.orderData elem)).restingUpdate
        aggressor) = none ∧ Describes snapshot (book.traded aggressor elem leavesQty) := by
  have unknown : snapshot (book.orderData elem).marketOrderId = none :=
    describes.lists.unknown_of_dead unshared dead
  rw [Trade.restingUpdate, if_neg kept]
  refine ⟨apply_unknown_modify rfl unknown, ?_⟩
  have same := Function.update_eq_self (book.orderData elem).marketOrderId snapshot
  rw [unknown] at same
  rw [← same]
  refine describes.assign_traded unshared fun quote => ?_
  simp [dead]

end Reduced

end Describes

/-- The consumer of the updates knows the orders in use, and what it could not apply were MODIFY
updates about orders withdrawn before. -/
structure Described (book : MEOrderBook) : Prop where
  describes : Describes (feed book.updates) book
  applies : Log.Each Applies book.updates
  withdrawn : ∀ elem, Written book elem → ¬book.OrderInUse elem →
    Withdrawn book.updates (book.orderData elem).marketOrderId

namespace Described

/-- Sending an update that the consumer can apply, or a MODIFY of a withdrawn order. -/
theorem send (described : Described book) (updates : last.updates = book.updates ++ [update])
    (outcome : (∃ next, (feed book.updates).apply update = some next ∧ Describes next last) ∨
      update.type = .modify ∧ Withdrawn book.updates update.orderId ∧
        (feed book.updates).apply update = none ∧ Describes (feed book.updates) last)
    (withdrawn : ∀ elem, Written last elem → ¬last.OrderInUse elem →
      Withdrawn last.updates (last.orderData elem).marketOrderId) : Described last := by
  refine ⟨?_, ?_, withdrawn⟩
  · rw [updates, feed_concat, Snapshot.absorb]
    rcases outcome with ⟨next, applied, describes⟩ | ⟨-, -, refused, describes⟩
    · rw [applied]
      exact describes
    · rw [refused]
      exact describes
  · rw [updates]
    refine described.applies.concat fun refused => ?_
    rcases outcome with ⟨next, applied, -⟩ | ⟨type, gone, -, -⟩
    · rw [applied] at refused
      cases refused
    · exact ⟨type, gone⟩

/-- Sending nothing. -/
theorem congr (described : Described book) (same : SameMemory book last)
    (updates : last.updates = book.updates) : Described last := by
  refine ⟨?_, ?_, ?_⟩
  · intro id quote
    rw [updates, same.orderInUse, same.orderData]
    exact described.describes id quote
  · rw [updates]
    exact described.applies
  · intro elem
    rw [Written, updates, same.orderInUse, same.orderData]
    exact described.withdrawn elem

/-- The order of a CANCEL update leaves; who has left before was withdrawn before. -/
theorem leave (described : Described book) (unshared : Unshared book elem)
    (used : book.OrderInUse elem)
    (inUse : ∀ other, last.OrderInUse other ↔ book.OrderInUse other ∧ other ≠ elem)
    (data : ∀ other, last.orderData other =
      { book.orderData other with quantity := (last.orderData other).quantity })
    (others : ∀ other, other ≠ elem → last.orderData other = book.orderData other)
    (updates : last.updates = book.updates ++ [update]) (type : update.type = .cancel)
    (sameId : update.orderId = (book.orderData elem).marketOrderId)
    (side : update.side = (book.orderData elem).side)
    (price : update.price = (book.orderData elem).price) : Described last := by
  refine described.send updates (Or.inl
    (described.describes.cancel unshared used inUse others type sameId side price)) ?_
  intro other written gone
  rw [Written, data] at written
  rw [data, updates]
  by_cases isElem : other = elem
  · rw [isElem]
    exact ⟨update, by simp, type, sameId⟩
  · have before : ¬book.OrderInUse other := fun still => gone ((inUse other).mpr ⟨still, isElem⟩)
    exact (described.withdrawn other written before).mono (List.subset_append_left _ _)

theorem turn (described : Described book) (accounted : Accounted book)
    (written : Written book elem)
    (ran : matchBy aggressor (some elem) leavesQty book = .ok left last) : Described last := by
  let trade := Trade.between leavesQty (book.orderData elem)
  let told := book.announcing (trade.tradeUpdate aggressor)
  have unshared : Unshared told elem := accounted.unshared written
  have toldDescribed : Described told := by
    refine described.send rfl (Or.inl ⟨_, rfl, described.describes⟩) fun other written gone => ?_
    exact (described.withdrawn other written gone).mono (List.subset_append_left _ _)
  have updates : (book.traded aggressor elem leavesQty).updates =
      told.updates ++ [trade.restingUpdate aggressor] := by
    change book.updates ++ _ = (book.updates ++ _) ++ _
    rw [List.append_assoc]
    rfl
  have data := orderData_traded_eq book elem leavesQty aggressor
  rcases matchBy_cases ran with ⟨_, ⟨⟩, -, -, ⟨kept, rfl⟩ | ⟨used, removed⟩⟩
  · refine toldDescribed.send updates ?_ fun other otherWritten gone => ?_
    · by_cases inUse : book.OrderInUse elem
      · exact Or.inl (Describes.modify toldDescribed.describes unshared kept inUse)
      · refine Or.inr ⟨?_, ?_, Describes.ignore toldDescribed.describes unshared kept inUse⟩
        · rw [Trade.restingUpdate, if_neg kept]
        · rw [Trade.restingUpdate, if_neg kept]
          exact toldDescribed.withdrawn elem written inUse
    · rw [orderInUse_traded] at gone
      rw [Written, data] at otherWritten
      rw [data, updates]
      exact (toldDescribed.withdrawn other otherWritten gone).mono (List.subset_append_left _ _)
  · have removes := removesOrder_of_run removed
    have sent : last.updates = (book.traded aggressor elem leavesQty).updates :=
      congrArg (fun out => out.session.updates) removes.outside
    have before := removes.inUse
    rw [orderInUse_traded] at before
    refine toldDescribed.leave unshared before ?_ ?_ ?_ (sent.trans updates) ?_ ?_ ?_ ?_
    · intro other
      rw [removes.orderInUse, orderInUse_traded]
      rfl
    · intro other
      rw [removes.orderData]
      exact data other
    · intro other different
      rw [removes.orderData, orderData_traded, if_neg different]
      rfl
    · exact congrArg MEMarketUpdate.type (if_pos used)
    · exact congrArg MEMarketUpdate.orderId (if_pos used)
    · exact congrArg MEMarketUpdate.side (if_pos used)
    · exact congrArg MEMarketUpdate.price (if_pos used)

theorem matchSubmission {marketOrderId : OrderId}
    (settling : Settling book (submission.aggressor marketOrderId) submission.qty)
    (described : Described book)
    (ran : MEOrderBook.matchSubmission submission marketOrderId book = .ok left last) :
    Described last := by
  by_cases trades : submission.side = .invalid
  · rw [MEOrderBook.matchSubmission, trades, run_checkForMatch_invalid] at ran
    cases ran
    exact described
  · rw [run_matchSubmission trades] at ran
    have ends : Ends (fun left next => Settling next (submission.aggressor marketOrderId) left ∧
        Described next) (fun _ => True) (loopBy (submission.aggressor marketOrderId)
          (fun book => book.removalHead submission.side.opposite)
          (beyondLimit submission.side submission.price) (book.orderPool.numElems + 2)
          submission.qty book) := by
      refine loopBy_ends (fun state leaves => Settling state (submission.aggressor marketOrderId)
        leaves ∧ Described state) _ (fun _ => trivial) ?_ ⟨settling, described⟩
      rintro state leaves atPrice elem ⟨settling, described⟩ - - first bound -
      have written := settling.accounted.pointedTo elem (Or.inl ⟨atPrice, first⟩)
      have settles := settling.turn written bound
      cases turned : matchBy (submission.aggressor marketOrderId) (some elem) leaves state with
      | error fault next => trivial
      | ok left next =>
          rw [turned] at settles
          exact ⟨settles, described.turn settling.accounted written turned⟩
    rw [ran] at ends
    exact ends.2

theorem rest {leftQuantity : Quantity} {marketOrderId : OrderId} (described : Described book)
    (cursors : CursorsInRange book)
    (apart : ∀ other, book.OrderInUse other →
      (book.orderData other).marketOrderId ≠ marketOrderId)
    (ran : restOrder (submission.leftover marketOrderId leftQuantity) book = .ok done last) :
    Described (last.announcing (submission.addUpdate marketOrderId leftQuantity)) := by
  rcases rests_of_run cursors ran with ⟨elem, rests⟩
  have updates : last.updates = book.updates := congrArg Session.updates rests.session
  have sent : (last.announcing (submission.addUpdate marketOrderId leftQuantity)).updates =
      book.updates ++ [submission.addUpdate marketOrderId leftQuantity] :=
    congrArg (· ++ _) updates
  have dataNew : last.orderData elem = submission.leftover marketOrderId leftQuantity := by
    rw [rests.orderData, if_pos rfl]
  have dataOld : ∀ other, other ≠ elem → last.orderData other = book.orderData other := by
    intro other different
    rw [rests.orderData, if_neg different]
  refine described.send sent (Or.inl ?_) fun other written gone => ?_
  · exact described.describes.add rests.fresh rests.orderInUse dataOld apart rfl
      (congrArg RestingOrder.marketOrderId dataNew) (congrArg RestingOrder.quote dataNew)
  · have isOld : other ≠ elem := by
      rintro rfl
      exact gone ((rests.orderInUse other).mpr (Or.inl rfl))
    have goneBefore : ¬book.OrderInUse other := fun still =>
      gone ((rests.orderInUse other).mpr (Or.inr still))
    change (last.orderData other).marketOrderId ≠ _ at written
    change Withdrawn (last.updates ++ _) (last.orderData other).marketOrderId
    rw [dataOld other isOld] at written ⊢
    rw [updates]
    exact (described.withdrawn other written goneBefore).mono (List.subset_append_left _ _)

theorem submit (described : Described book) (accounted : Accounted book)
    (left : book.nextMarketOrderId ≠ orderIdInvalid)
    (ran : submitBy submission book = .ok done last) : Described last := by
  rcases submitBy_cases ran with ⟨leftQuantity, middle, matched, settled⟩
  have start : Settling (book.accepting submission) _ _ := accounted.accepting left
  have ends := matchSubmission_settles start
  rw [matched] at ends
  have settling : Settling middle (submission.aggressor book.nextMarketOrderId) leftQuantity := ends
  have accepting : Described (book.accepting submission) :=
    described.congr ⟨rfl, rfl, rfl, rfl⟩ rfl
  have middleDescribed : Described middle := Described.matchSubmission start accepting matched
  rcases settle_cases settled with ⟨-, rfl⟩ | ⟨rested, -, linked, rfl⟩
  · exact middleDescribed
  · exact middleDescribed.rest settling.accounted.cursors
      (fun other used => settling.apart other (settling.accounted.inUse other used)) linked

theorem cancel (described : Described book) (accounted : Accounted book)
    (ran : MEOrderBook.cancel clientId orderId tickerId book = .ok done last) :
    Described last := by
  rcases cancel_cases ran with ⟨-, rfl⟩ | ⟨elem, middle, -, -, removed, rfl⟩
  · exact described.congr ⟨rfl, rfl, rfl, rfl⟩ rfl
  · have removes := removesOrder_of_run removed
    have session := congrArg Outside.session removes.outside
    have updates : middle.updates = book.updates := congrArg Session.updates session
    have sent : middle.marketUpdate = cancelUpdate tickerId (book.orderData elem) :=
      congrArg Session.marketUpdate session
    have used : book.OrderInUse elem := removes.inUse
    have sameData : middle.orderData = book.orderData := removes.orderData
    have canceled : middle.canceled.updates =
        book.updates ++ [cancelUpdate tickerId (book.orderData elem)] := by
      change middle.updates ++ [middle.marketUpdate] = _
      rw [updates, sent]
    refine described.leave (accounted.unshared (accounted.inUse elem used)) used
      removes.orderInUse ?_ ?_ canceled rfl rfl rfl rfl
    · intro other
      change middle.orderData other = { book.orderData other with
        quantity := (middle.orderData other).quantity }
      rw [sameData]
    · intro other _
      change middle.orderData other = _
      rw [sameData]

theorem step {result : Option Quantity} (described : Described book) (accounted : Accounted book)
    (left : book.nextMarketOrderId ≠ orderIdInvalid) (trading : op.IsTrading)
    (ran : op.exec book = .ok result last) : Described last := by
  cases op with
  | checkForMatch aggressor price qty => exact absurd trading id
  | rest order => exact absurd trading id
  | removeOrder elem => exact absurd trading id
  | cancel clientId orderId tickerId =>
      rcases run_bind_eq_ok_iff.mp ran with ⟨_, _, ran, returned⟩
      cases returned
      exact described.cancel accounted ran
  | submit submission =>
      rcases run_bind_eq_ok_iff.mp ran with ⟨_, _, ran, returned⟩
      cases returned
      exact described.submit accounted left ran

theorem empty (tickerId : TickerId) : Described (MEOrderBook.empty tickerId) where
  describes id quote := by
    constructor
    · intro found
      cases found
    · rintro ⟨elem, used, -⟩
      cases used.2
  applies := Log.Each.nil
  withdrawn elem written := absurd rfl written

/-- What the consumer knows after a run. -/
theorem of_run (run : Run TradingStep (MEOrderBook.empty tickerId) ops last)
    (room : ops.length + 1 < UInt64.size) : Described last := by
  induction run with
  | nil => exact Described.empty tickerId
  | @snoc ops state next op run stepped ih =>
      rw [List.length_append, List.length_singleton] at room
      rcases Accounted.of_run run (by omega) with ⟨accounted, issued⟩
      rcases stepped with ⟨trading, result, ran⟩
      exact (ih (by omega)).step accounted (id_left issued (by omega)) trading ran

end Described

/-- Along every run of orders and cancellations a consumer that starts from nothing knows exactly
the orders in use, each under its market order id with its side, price and quantity; and it could
apply every update but MODIFY updates of orders that a CANCEL update had taken away before. -/
theorem described_of_run (run : Run TradingStep (empty tickerId) ops last)
    (room : ops.length + 1 < UInt64.size) :
    Describes (feed last.updates) last ∧ Log.Each Applies last.updates :=
  ⟨(Described.of_run run room).describes, (Described.of_run run room).applies⟩

/-- A BUY trades with the BUY cancelled before it; its MODIFY update is ignored. -/
theorem described_of_run_sample :
    ∃ last : MEOrderBook, Describes (feed last.updates) last ∧
      last.updates.map (fun update => (update.type, update.orderId)) =
        [(.add, 1), (.cancel, 1), (.trade, orderIdInvalid), (.modify, 1)] ∧
      feed last.updates 1 = none := by
  have executed : (execute (Op.next fun _ op => op.IsTrading) (empty 0)
      [.submit (limitOrder 1 .buy 10 5), .cancel 1 1 0, .submit (limitOrder 2 .buy 10 3)]).any
        (fun (last : MEOrderBook) =>
          last.updates.map (fun update => (update.type, update.orderId)) =
            [(.add, 1), (.cancel, 1), (.trade, orderIdInvalid), (.modify, 1)] ∧
          feed last.updates 1 = none) = true := by
    decide +kernel
  rcases (Option.any_eq_true _ _).mp executed with ⟨last, reached, sent⟩
  exact ⟨last, (described_of_run (Run.of_execute Op.step_of_next reached) (by decide)).1,
    of_decide_eq_true sent⟩

/-- The fills come in pairs of one price and quantity, and the TRADE updates are theirs, in
order. -/
def Taped (log : List MEClientResponse) (updates : List MEMarketUpdate) : Prop :=
  ∃ pairs, fillPairs log = some pairs ∧
    (∀ pair ∈ pairs, pair.1.execQty = pair.2.execQty ∧ pair.1.price = pair.2.price) ∧
    tradesOf updates = pairs.map fun pair => (pair.1.price, pair.1.execQty)

section Taped

variable {log log' : List MEClientResponse} {updates updates' : List MEMarketUpdate}

theorem Taped.append (front : Taped log updates) (back : Taped log' updates') :
    Taped (log ++ log') (updates ++ updates') := by
  rcases front with ⟨pairs, paired, same, trades⟩
  rcases back with ⟨pairs', paired', same', trades'⟩
  refine ⟨pairs ++ pairs', by rw [fillPairs_append paired, paired']; rfl, ?_, ?_⟩
  · intro pair member
    exact (List.mem_append.mp member).elim (same pair) (same' pair)
  · rw [tradesOf_append, trades, trades', List.map_append]

theorem taped_silent (unfilled : ∀ response ∈ log, response.type ≠ .filled)
    (untraded : ∀ update ∈ updates, update.type ≠ .trade) : Taped log updates := by
  refine ⟨[], fillPairs_eq_nil unfilled, by simp, ?_⟩
  have none : updates.filter (fun update => update.type = .trade) = [] := by
    simpa [List.filter_eq_nil_iff] using untraded
  rw [tradesOf, none]
  rfl

theorem taped_trades (trades : List Trade) :
    Taped (trades.flatMap (Trade.responses aggressor))
      (trades.flatMap (Trade.updates aggressor)) := by
  refine ⟨_, fillPairs_trades, ?_, ?_⟩
  · intro pair member
    rcases List.mem_map.mp member with ⟨trade, -, rfl⟩
    exact ⟨rfl, rfl⟩
  · rw [tradesOf_trades, List.map_map]
    rfl

end Taped

/-- What the book has sent since is the messages of some trades. -/
def Traded (aggressor : Aggressor) (book last : MEOrderBook) : Prop :=
  ∃ trades : List Trade,
    last.responses = book.responses ++ trades.flatMap (Trade.responses aggressor) ∧
    last.updates = book.updates ++ trades.flatMap (Trade.updates aggressor)

theorem Traded.refl (aggressor : Aggressor) (book : MEOrderBook) : Traded aggressor book book :=
  ⟨[], (List.append_nil _).symm, (List.append_nil _).symm⟩

/-- Matching sends the messages of trades, on any book and whatever becomes of it. -/
theorem matchSubmission_traded {marketOrderId : OrderId} :
    Traded (submission.aggressor marketOrderId) book
      (finalState (matchSubmission submission marketOrderId book)) := by
  by_cases trades : submission.side = .invalid
  · rw [matchSubmission, trades, run_checkForMatch_invalid]
    exact Traded.refl _ book
  · rw [run_matchSubmission trades]
    refine (loopBy_ends (fun state _ => Traded (submission.aggressor marketOrderId) book state)
      (Traded (submission.aggressor marketOrderId) book) id ?_ (Traded.refl _ book)).finalState id
    rintro state leaves atPrice elem ⟨trades, responses, updates⟩ - - - bound -
    have traded : Traded (submission.aggressor marketOrderId) book
        (finalState (matchBy (submission.aggressor marketOrderId) (some elem) leaves state)) := by
      refine ⟨trades ++ [Trade.between leaves (state.orderData elem)], ?_, ?_⟩
      · rw [(matchBy_messages bound).1, responses]
        simp
      · rw [(matchBy_messages bound).2, updates]
        simp
    cases ran : matchBy (submission.aggressor marketOrderId) (some elem) leaves state with
    | ok left next =>
        rw [ran] at traded
        exact traded
    | error fault next =>
        rw [ran] at traded
        exact traded

/-- Whatever becomes of a call, the tape goes on. -/
theorem Taped.finalState (taped : Taped book.responses book.updates) (trading : op.IsTrading) :
    Taped (finalState (op.exec book)).responses (finalState (op.exec book)).updates := by
  cases op with
  | checkForMatch aggressor price qty => exact absurd trading id
  | rest order => exact absurd trading id
  | removeOrder elem => exact absurd trading id
  | cancel clientId orderId tickerId =>
      rw [Op.exec, finalState_bind_pure]
      rcases cancel_messages with ⟨sent, published, sentEq, publishedEq, unfilled, cancels⟩
      rw [sentEq, publishedEq]
      refine taped.append (taped_silent unfilled fun update member => ?_)
      rw [cancels update member]
      exact MarketUpdateType.noConfusion
  | submit submission =>
      rw [Op.exec, finalState_bind_pure]
      rcases submitBy_messages with ⟨sentEq, added, addedEq, adds⟩
      rcases matchSubmission_traded with ⟨trades, responses, updates⟩
      rw [sentEq, addedEq, responses, updates]
      have accepted : Taped (book.accepting submission).responses
          (book.accepting submission).updates := by
        have silent : Taped [submission.acceptedResponse book.nextMarketOrderId] [] :=
          taped_silent (by simp [Submission.acceptedResponse]) (by simp)
        have both := taped.append silent
        rw [List.append_nil] at both
        exact both
      have silent : Taped [] added := by
        refine taped_silent (by simp) fun update member => ?_
        rw [adds update member]
        exact MarketUpdateType.noConfusion
      have matched : Taped
          (trades.flatMap (Trade.responses (submission.aggressor book.nextMarketOrderId)))
          (trades.flatMap (Trade.updates (submission.aggressor book.nextMarketOrderId))) :=
        taped_trades trades
      have all := (accepted.append matched).append silent
      rw [List.append_nil] at all
      exact all

/-- Along every run of orders and cancellations, and also when a last call does not return, the
fills come in pairs of one price and quantity, and the TRADE updates tell exactly these, in
order. -/
theorem taped_of_run (run : Run TradingStep (empty tickerId) ops last) :
    Taped last.responses last.updates ∧ ∀ op : Op, op.IsTrading →
      Taped (finalState (op.exec last)).responses (finalState (op.exec last)).updates := by
  have taped : Taped last.responses last.updates := by
    refine run.invariant (fun book => Taped book.responses book.updates)
      (taped_silent (by simp [empty]) (by simp [empty])) ?_
    rintro book op next taped ⟨trading, result, ran⟩
    have next := taped.finalState trading
    rw [ran] at next
    exact next
  exact ⟨taped, fun op trading => taped.finalState trading⟩

theorem taped_of_run_sample :
    ∃ last : MEOrderBook, Taped last.responses last.updates ∧
      tradesOf last.updates = [(10, 3)] := by
  have executed : (execute (Op.next fun _ op => op.IsTrading) (empty 0)
      [.submit (limitOrder 1 .buy 10 5), .submit (limitOrder 2 .buy 10 3)]).any
        (fun (last : MEOrderBook) => tradesOf last.updates = [(10, 3)]) = true := by
    decide +kernel
  rcases (Option.any_eq_true _ _).mp executed with ⟨last, reached, sent⟩
  exact ⟨last, (taped_of_run (Run.of_execute Op.step_of_next reached)).1, of_decide_eq_true sent⟩

end MEOrderBook

end QuantEngine
