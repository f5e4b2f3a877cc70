import QuantEngine.Runs.Trading

/-!
# Ghost orders

An order is dead when its CANCELED response, or a FILLED response that leaves
nothing of it, was sent. A dead order trades again when the head pointer that
`checkForMatch` reads has outlived its level: `removeOrdersAtPrice` clears the
pointer of the order's own side, and insertion had set the other one.

Matching is followed call by call. As long as the ladder it started from is a
ring of levels in use it meets orders that rest. A level removed from under the
pointer leaves it stale, but the next turn of the loop then faults on the order
it frees twice.
-/

namespace QuantEngine.MEOrderBook

open Exec LinkedRing Runs

variable {book last start state : MEOrderBook} {lo : Price} {submission : Submission}
  {ops : List Op} {op : Op} {tickerId : TickerId} {side : Side} {elem atPrice : ℕ}
  {marketOrderId id : OrderId} {log log' : List MEClientResponse} {leavesQty : Quantity}
  {aggressor : Aggressor} {done : PUnit}

/-- The log says of this order id that it was cancelled, or filled with nothing left. -/
def Dead (log : List MEClientResponse) (id : OrderId) : Prop :=
  ∃ response ∈ log, response.marketOrderId = id ∧
    (response.type = .canceled ∨ response.type = .filled ∧ response.leftQty = 0)

/-- The log says that an order was accepted under this id. -/
def WasAccepted (log : List MEClientResponse) (id : OrderId) : Prop :=
  ∃ response ∈ log, response.type = .accepted ∧ response.marketOrderId = id

instance (log : List MEClientResponse) (id : OrderId) : Decidable (Dead log id) :=
  inferInstanceAs (Decidable (∃ _ ∈ log, _))

instance (log : List MEClientResponse) (id : OrderId) : Decidable (WasAccepted log id) :=
  inferInstanceAs (Decidable (∃ _ ∈ log, _))

/-- What was sent beyond `book` neither fills nor modifies an order that was dead before. -/
def SparesDead (book after : MEOrderBook) : Prop :=
  ∃ sent published, after.responses = book.responses ++ sent ∧
    after.updates = book.updates ++ published ∧
    (∀ response ∈ sent, response.type = .filled → ¬Dead book.responses response.marketOrderId) ∧
    ∀ update ∈ published, update.type = .modify → ¬Dead book.responses update.orderId

theorem dead_append : Dead (log ++ log') id ↔ Dead log id ∨ Dead log' id := by
  simp [Dead, or_and_right, exists_or]

theorem WasAccepted.mono (accepted : WasAccepted log id) (subset : log ⊆ log') :
    WasAccepted log' id := by
  rcases accepted with ⟨response, member, facts⟩
  exact ⟨response, subset member, facts⟩

/-- The aggressor's id, or that of an order in use at the start. -/
def Known (start : MEOrderBook) (marketOrderId id : OrderId) : Prop :=
  id = marketOrderId ∨ ∃ elem, start.OrderInUse elem ∧ (start.orderData elem).marketOrderId = id

/-- The messages sent since the start are trades of known orders. -/
def Spoke (start state : MEOrderBook) (marketOrderId : OrderId) : Prop :=
  ∃ sent published, state.responses = start.responses ++ sent ∧
    state.updates = start.updates ++ published ∧
    (∀ response ∈ sent, Known start marketOrderId response.marketOrderId) ∧
    ∀ update ∈ published, update.type = .modify → Known start marketOrderId update.orderId

theorem Spoke.refl (start : MEOrderBook) (marketOrderId : OrderId) :
    Spoke start start marketOrderId :=
  ⟨[], [], (List.append_nil _).symm, (List.append_nil _).symm, by simp, by simp⟩

theorem Spoke.trade {next : MEOrderBook} {trade : Trade} (spoke : Spoke start state marketOrderId)
    (aggressorId : aggressor.marketOrderId = marketOrderId) (used : start.OrderInUse elem)
    (resting : (start.orderData elem).marketOrderId = trade.resting.marketOrderId)
    (responses : next.responses = state.responses ++ trade.responses aggressor)
    (updates : next.updates = state.updates ++ trade.updates aggressor) :
    Spoke start next marketOrderId := by
  rcases spoke with ⟨sent, published, sentEq, publishedEq, known, modified⟩
  have restingKnown : Known start marketOrderId trade.resting.marketOrderId :=
    Or.inr ⟨elem, used, resting⟩
  refine ⟨sent ++ trade.responses aggressor, published ++ trade.updates aggressor, ?_, ?_, ?_, ?_⟩
  · rw [responses, sentEq, List.append_assoc]
  · rw [updates, publishedEq, List.append_assoc]
  · intro response member
    rcases List.mem_append.mp member with old | new
    · exact known response old
    · simp only [Trade.responses, List.mem_cons, List.not_mem_nil, or_false] at new
      rcases new with rfl | rfl
      · exact Or.inl aggressorId
      · exact restingKnown
  · intro update member modifies
    rcases List.mem_append.mp member with old | new
    · exact modified update old modifies
    · simp only [Trade.updates, List.mem_cons, List.not_mem_nil, or_false] at new
      rcases new with rfl | rfl
      · cases modifies
      · unfold Trade.restingUpdate
        split <;> exact restingKnown

/-- A loop so far: who has died since the start is the aggressor, with nothing left of it, or has
left the book. -/
structure Matching (start state : MEOrderBook) (marketOrderId : OrderId) (leavesQty : Quantity) :
    Prop where
  retires : Retires start state
  spoke : Spoke start state marketOrderId
  deaths : ∀ id, Dead state.responses id → Dead start.responses id ∨
    (id = marketOrderId ∧ leavesQty = 0) ∨
    ∃ elem, start.OrderInUse elem ∧ ¬state.OrderInUse elem ∧
      (start.orderData elem).marketOrderId = id

theorem Matching.refl (start : MEOrderBook) (marketOrderId : OrderId) (leavesQty : Quantity) :
    Matching start start marketOrderId leavesQty :=
  ⟨Retires.refl start, Spoke.refl start marketOrderId, fun _ dead => Or.inl dead⟩

theorem Matching.turn (matching : Matching start state marketOrderId leavesQty)
    (aggressorId : aggressor.marketOrderId = marketOrderId) (continues : leavesQty ≠ 0)
    (used : start.OrderInUse elem) (bound : elem < state.orderPool.numElems) :
    Ends (fun left next => Matching start next marketOrderId left)
      (fun next => Spoke start next marketOrderId)
      (matchBy aggressor (some elem) leavesQty state) := by
  have sameId : (start.orderData elem).marketOrderId =
      (Trade.between leavesQty (state.orderData elem)).resting.marketOrderId := by
    change _ = (state.orderData elem).marketOrderId
    rw [matching.retires.orderData]
  have messages : (finalState (matchBy aggressor (some elem) leavesQty state)).responses =
        state.responses ++ (Trade.between leavesQty (state.orderData elem)).responses aggressor ∧
      (finalState (matchBy aggressor (some elem) leavesQty state)).updates =
        state.updates ++ (Trade.between leavesQty (state.orderData elem)).updates aggressor :=
    matchBy_messages bound
  have spoke := matching.spoke.trade aggressorId used sameId messages.1 messages.2
  cases ran : matchBy aggressor (some elem) leavesQty state with
  | error fault next =>
      rw [ran] at spoke
      exact spoke
  | ok left next =>
      rw [ran] at spoke messages
      have sent : next.responses = _ := messages.1
      have retires := Retires.of_matchBy ran
      refine ⟨matching.retires.trans retires, spoke, ?_⟩
      rcases matchBy_cases ran with ⟨_, ⟨⟩, -, rfl, outcome⟩
      intro id dead
      rw [sent, dead_append] at dead
      rcases dead with old | ⟨response, member, rfl, died⟩
      · rcases matching.deaths id old with before | ⟨-, nothing⟩ | ⟨other, otherUsed, gone, same⟩
        · exact Or.inl before
        · exact absurd nothing continues
        · exact Or.inr (Or.inr ⟨other, otherUsed, fun still => gone (retires.orderInUse other still),
            same⟩)
      · simp only [Trade.responses, List.mem_cons, List.not_mem_nil, or_false] at member
        rcases member with rfl | rfl
        · rcases died with ⟨⟨⟩⟩ | ⟨-, nothing⟩
          exact Or.inr (Or.inl ⟨aggressorId, nothing⟩)
        · rcases died with ⟨⟨⟩⟩ | ⟨-, nothing⟩
          rcases outcome with ⟨kept, -⟩ | ⟨-, removed⟩
          · exact absurd nothing kept
          · refine Or.inr (Or.inr ⟨elem, used, ?_, sameId⟩)
            rw [(removesOrder_of_run removed).orderInUse]
            exact fun still => still.2 rfl

/-- The head pointer has outlived its level: it leads to an order that rested at the start, and
that is used up and freed. -/
def Stale (start state : MEOrderBook) (side : Side) : Prop :=
  ∃ atPrice elem, state.removalHead side = some atPrice ∧
    state.firstMeOrder atPrice = some elem ∧ start.OrderInUse elem ∧
    ¬state.OrderInUse elem ∧ (state.orderData elem).quantity = 0

theorem Side.eq_opposite {first second : Side} (firstTrades : first ≠ .invalid)
    (secondTrades : second ≠ .invalid) (different : first ≠ second) :
    second = first.opposite := by
  cases first <;> cases second <;> simp_all [Side.opposite]

/-- When the order a ring's only level holds is of the other side, removing it leaves the head
pointer behind. -/
theorem stale_of_removeOrder {next : MEOrderBook} (trades : side ≠ .invalid)
    (head : state.removalHead side = some atPrice) (first : state.firstMeOrder atPrice = some elem)
    (used : start.OrderInUse elem) (empty : (state.orderData elem).quantity = 0)
    (alone : state.prevOrder elem = some elem)
    (elemTrades : (state.orderData elem).side ≠ .invalid)
    (otherSide : (state.orderData elem).side ≠ side)
    (ran : removeOrder (some elem) state = .ok done next) : Stale start next side := by
  have removes := removesOrder_of_run ran
  rcases removeOrder_cases ran with ⟨-, -, ⟨-, middle, removed, rfl⟩ |
    ⟨_, before, _, -, prevElem, -, linked, -⟩⟩
  · rcases removesLevel_of_run removed with ⟨_, removesLevel⟩
    refine ⟨atPrice, elem, ?_, ?_, used, ?_, ?_⟩
    · have opposite := Side.eq_opposite elemTrades trades otherSide
      have kept := insertionHead_of_removeOrdersAtPrice removed
      rw [opposite, removalHead_opposite _ _ elemTrades] at head ⊢
      rw [← head, ← kept]
      simp [insertionHead]
    · rw [(levelViews_eq (level_release middle elem)).2.2.1, removesLevel.firstMeOrder]
      exact first
    · rw [removes.orderInUse]
      exact fun still => still.2 rfl
    · rw [removes.orderData]
      exact empty
  · exact absurd (Option.some.inj (prevElem.symm.trans alone)) linked

/-- An order that is used up and freed cannot be traded with again: the second removal faults. -/
theorem matchBy_freed {left : Quantity} {next : MEOrderBook} (freed : ¬state.OrderInUse elem)
    (empty : (state.orderData elem).quantity = 0) :
    matchBy aggressor (some elem) leavesQty state ≠ .ok left next := by
  intro ran
  have nothing : (Trade.between leavesQty (state.orderData elem)).remaining = 0 := by
    have total : (Trade.between leavesQty (state.orderData elem)).remaining.toNat + _ = _ :=
      Trade.remaining_add_execQty
    rw [empty] at total
    exact UInt32.toNat_inj.mp (Nat.eq_zero_of_add_eq_zero_right total)
  rcases matchBy_cases ran with ⟨_, ⟨⟩, -, -, ⟨kept, -⟩ | ⟨-, removed⟩⟩
  · exact kept nothing
  · have used := (removesOrder_of_run removed).inUse
    rw [orderInUse_traded] at used
    exact freed used

/-- The head pointer heads a ring of listed levels, or is stale. -/
def Follows (start state : MEOrderBook) (side : Side) : Prop :=
  (∃ own others, Ringed state side own others) ∨ Stale start state side

theorem Ringed.head_eq {own others : List Entry} (ringed : Ringed state side own others)
    (head : state.removalHead side = some atPrice) (first : state.firstMeOrder atPrice = some elem) :
    ∃ tail rest, own = (atPrice, elem :: tail) :: rest := by
  have heads := ringed.ring.1
  rw [head] at heads
  rcases own with _ | ⟨⟨listedAt, orders⟩, rest⟩
  · cases heads
  · cases Option.some.inj heads
    have firstOld := ringed.directory.first (listedAt, orders) (by simp)
    rw [first] at firstOld
    rcases orders with _ | ⟨listed, tail⟩
    · cases firstOld
    · cases Option.some.inj firstOld
      exact ⟨tail, rest, rfl⟩

theorem Follows.used (follows : Follows start state side) (retires : Retires start state)
    (head : state.removalHead side = some atPrice) (first : state.firstMeOrder atPrice = some elem) :
    start.OrderInUse elem := by
  rcases follows with ⟨own, others, ringed⟩ | ⟨staleAt, ghost, head', first', used, -, -⟩
  · rcases ringed.head_eq head first with ⟨tail, rest, rfl⟩
    exact retires.orderInUse elem (ringed.directory.orderInUse elem (by simp [ordersOf]))
  · cases head.symm.trans head'
    cases first.symm.trans first'
    exact used

/-- A turn that returns traded with an order of the ring; the pointer follows, or is stale now. -/
theorem Follows.turn {left : Quantity} {next : MEOrderBook} (trades : side ≠ .invalid)
    (sides : ∀ elem, start.OrderInUse elem → (start.orderData elem).side ≠ .invalid)
    (follows : Follows start state side) (retires : Retires start state)
    (head : state.removalHead side = some atPrice) (first : state.firstMeOrder atPrice = some elem)
    (ran : matchBy aggressor (some elem) leavesQty state = .ok left next) :
    Follows start next side := by
  have used := follows.used retires head first
  rcases follows with ⟨own, others, ringed⟩ | ⟨staleAt, ghost, head', first', -, freed, empty⟩
  · rcases ringed.head_eq head first with ⟨tail, rest, rfl⟩
    have traded : Ringed (state.traded aggressor elem leavesQty) side
      ((atPrice, elem :: tail) :: rest) others := ringed.traded
    rcases matchBy_cases ran with ⟨_, ⟨⟩, -, -, ⟨-, rfl⟩ | ⟨nothing, removed⟩⟩
    · exact Or.inl ⟨_, others, traded⟩
    · have sideKept : ((state.traded aggressor elem leavesQty).orderData elem).side =
          (start.orderData elem).side := by
        rw [orderData_traded_eq, retires.side]
      by_cases leaves : tail = [] ∧ (start.orderData elem).side ≠ side
      · rcases leaves with ⟨rfl, otherSide⟩
        have ring := traded.directory.ring (atPrice, [elem]) (by simp)
        have headTraded : (state.traded aggressor elem leavesQty).removalHead side =
          some atPrice := head
        refine Or.inr (stale_of_removeOrder trades headTraded first used ?_
          (isRing_singleton.mp ring).2 ?_ ?_ removed)
        · rw [orderData_traded, if_pos rfl]
          exact nothing
        · rw [sideKept]
          exact sides elem used
        · rw [sideKept]
          exact otherSide
      · have split : (atPrice, elem :: tail) :: rest =
          [] ++ (atPrice, [] ++ elem :: tail) :: rest := rfl
        rcases traded.removeOrder split fun emptied => by
          rw [sideKept]
          by_contra otherSide
          exact leaves ⟨emptied, otherSide⟩ with ⟨last, ran', ringed', -⟩
        cases removed.symm.trans ran'
        exact Or.inl ⟨_, others, ringed'⟩
  · cases head.symm.trans head'
    cases first.symm.trans first'
    exact absurd ran (matchBy_freed freed empty)

/-- The head pointer the submitted order reads is null or heads a ring of levels in use, or
matching stops at once. -/
def MeetsLive (book : MEOrderBook) (submission : Submission) : Prop :=
  StopsAtOnce book submission ∨ ∃ levels, LinkedLadder book submission.side.opposite levels

theorem MeetsLive.accepting (meets : MeetsLive book submission) :
    MeetsLive (book.accepting submission) submission := by
  rcases meets with stops | ⟨levels, linked⟩
  · exact Or.inl stops
  · exact Or.inr ⟨levels, linked.accepting⟩

/-- Whatever becomes of matching, it speaks of known orders; when it returns, whoever died has
left the book. -/
theorem matchSubmission_ends (marketOrderId : OrderId) (trades : submission.side ≠ .invalid)
    (indexed : Indexed book)
    (sides : ∀ elem, book.OrderInUse elem → (book.orderData elem).side ≠ .invalid)
    (meets : MeetsLive book submission) :
    Ends (fun left last => Matching book last marketOrderId left)
      (fun last => Spoke book last marketOrderId)
      (matchSubmission submission marketOrderId book) := by
  rcases meets with stops | ⟨levels, linked⟩
  · refine (matchSubmission_stops trades stops).mono ?_ ?_
    · rintro left last ⟨rfl, -⟩
      exact Matching.refl last marketOrderId left
    · rintro last rfl
      exact Spoke.refl last marketOrderId
  · rcases indexed with ⟨entries, dir, -⟩
    rcases linked.ringed dir with ⟨own, others, -, -, ringed⟩
    rw [run_matchSubmission trades]
    refine (loopBy_ends
      (fun state leaves => Matching book state marketOrderId leaves ∧
        Follows book state submission.side.opposite)
      (fun state => Spoke book state marketOrderId) (fun inv => inv.1.spoke) ?_
      ⟨Matching.refl book marketOrderId _, Or.inl ⟨own, others, ringed⟩⟩).mono And.left id
    rintro state leaves atPrice elem ⟨matching, follows⟩ continues head first bound -
    have used := follows.used matching.retires head first
    have sameId : (submission.aggressor marketOrderId).marketOrderId = marketOrderId := rfl
    have ends := matching.turn sameId continues used bound
    cases ran : matchBy (submission.aggressor marketOrderId) (some elem) leaves state with
    | error fault next =>
        rw [ran] at ends
        exact ends
    | ok left next =>
        rw [ran] at ends
        exact ⟨ends, follows.turn (opposite_ne_invalid trades) sides matching.retires head first ran⟩

/-- The market order id about to be given out was given out before. -/
def Reissues (book : MEOrderBook) : Prop := WasAccepted book.responses book.nextMarketOrderId

/-- The calls of a run whose submitted orders meet a live ladder and get an id of their own. -/
def LiveCalls (lo : Price) (book : MEOrderBook) (op : Op) : Prop :=
  op.IsTrading ∧ op.Legal lo book ∧
    match op with
    | .submit submission => MeetsLive book submission ∧ ¬Reissues book
    | _ => True

/-- No order in use is dead, and the log knows every order there is or was. -/
structure Living (lo : Price) (book : MEOrderBook) : Prop where
  consistent : Consistent lo book
  trades : ∀ elem, book.OrderInUse elem → (book.orderData elem).side ≠ .invalid
  accepted : ∀ elem, book.OrderInUse elem →
    WasAccepted book.responses (book.orderData elem).marketOrderId
  distinct : ∀ elem other, book.OrderInUse elem → book.OrderInUse other →
    (book.orderData elem).marketOrderId = (book.orderData other).marketOrderId → elem = other
  alive : ∀ elem, book.OrderInUse elem → ¬Dead book.responses (book.orderData elem).marketOrderId
  deadAccepted : ∀ id, Dead book.responses id → WasAccepted book.responses id

namespace Living

/-- The id of an order that has left the book belongs to no other order. -/
theorem gone (living : Living lo book) (retires : Retires book last) (used : book.OrderInUse elem)
    (left : ¬last.OrderInUse elem) :
    ∀ other, last.OrderInUse other →
      (book.orderData other).marketOrderId ≠ (book.orderData elem).marketOrderId := by
  intro other otherUsed same
  rw [living.distinct other elem (retires.orderInUse other otherUsed) used same] at otherUsed
  exact left otherUsed

/-- Orders that leave the book may die; the others stay what they were. -/
theorem of_retires (living : Living lo book) (retires : Retires book last)
    (consistent : Consistent lo last) (accepted : book.responses ⊆ last.responses)
    (deaths : ∀ id, Dead last.responses id → Dead book.responses id ∨
      WasAccepted last.responses id ∧ ∀ elem, last.OrderInUse elem →
        (book.orderData elem).marketOrderId ≠ id) : Living lo last := by
  have sameId : ∀ elem, (last.orderData elem).marketOrderId =
      (book.orderData elem).marketOrderId := by
    intro elem
    rw [retires.orderData]
  refine ⟨consistent, ?_, ?_, ?_, ?_, ?_⟩
  · intro elem used
    rw [retires.side]
    exact living.trades elem (retires.orderInUse elem used)
  · intro elem used
    rw [sameId]
    exact (living.accepted elem (retires.orderInUse elem used)).mono accepted
  · intro elem other used otherUsed same
    rw [sameId, sameId] at same
    exact living.distinct elem other (retires.orderInUse elem used)
      (retires.orderInUse other otherUsed) same
  · intro elem used dead
    rw [sameId] at dead
    rcases deaths _ dead with before | ⟨-, others⟩
    · exact living.alive elem (retires.orderInUse elem used) before
    · exact others elem used rfl
  · intro id dead
    rcases deaths id dead with before | ⟨known, -⟩
    · exact (living.deadAccepted id before).mono accepted
    · exact known

theorem cancel {clientId : ClientId} {orderId : OrderId} (living : Living lo book)
    (ran : MEOrderBook.cancel clientId orderId tickerId book = .ok done last) : Living lo last := by
  have retires := Retires.of_cancel ran
  have consistent := living.consistent.of_retires retires (living.consistent.indexed.cancel ran)
  rcases cancel_cases ran with ⟨-, rfl⟩ | ⟨elem, middle, -, -, removed, rfl⟩
  · refine living.of_retires retires consistent (List.subset_append_left _ _) ?_
    intro id dead
    rcases dead_append.mp dead with before | ⟨response, member, -, died⟩
    · exact Or.inl before
    · rw [List.mem_singleton.mp member] at died
      rcases died with ⟨⟨⟩⟩ | ⟨⟨⟩, -⟩
  · have removes := removesOrder_of_run removed
    have session := congrArg Outside.session removes.outside
    have sameResponses : middle.responses = _ := congrArg Session.responses session
    have sameResponse : middle.clientResponse = _ := congrArg Session.clientResponse session
    have sent : middle.canceled.responses = book.responses ++ [cancelResponse clientId orderId
        tickerId (book.orderData elem)] := by
      change middle.responses ++ [middle.clientResponse] = _
      rw [sameResponses, sameResponse]
      rfl
    have kept : book.responses ⊆ middle.canceled.responses := by
      rw [sent]
      exact List.subset_append_left _ _
    refine living.of_retires retires consistent kept ?_
    intro id dead
    rw [sent] at dead
    rcases dead_append.mp dead with before | ⟨response, member, rfl, -⟩
    · exact Or.inl before
    · rw [List.mem_singleton.mp member]
      refine Or.inr ⟨(living.accepted elem removes.inUse).mono kept,
        living.gone retires removes.inUse ?_⟩
      intro still
      exact ((removes.orderInUse elem).mp still).2 rfl

theorem rest {order : RestingOrder} (living : Living lo book) (consistent : Consistent lo last)
    (rests : Rests book last order elem) (trades : order.side ≠ .invalid)
    (accepted : WasAccepted book.responses order.marketOrderId)
    (fresh : ∀ other, book.OrderInUse other →
      (book.orderData other).marketOrderId ≠ order.marketOrderId)
    (alive : ¬Dead book.responses order.marketOrderId) : Living lo last := by
  have responses : last.responses = book.responses := congrArg Session.responses rests.session
  have dataOld : ∀ other, book.OrderInUse other → last.orderData other = book.orderData other := by
    intro other used
    rw [rests.orderData, if_neg]
    rintro rfl
    exact rests.fresh used
  have dataNew : last.orderData elem = order := by
    rw [rests.orderData, if_pos rfl]
  refine ⟨consistent, ?_, ?_, ?_, ?_, ?_⟩
  · intro other used
    rcases (rests.orderInUse other).mp used with rfl | before
    · rw [dataNew]
      exact trades
    · rw [dataOld other before]
      exact living.trades other before
  · intro other used
    rw [responses]
    rcases (rests.orderInUse other).mp used with rfl | before
    · rw [dataNew]
      exact accepted
    · rw [dataOld other before]
      exact living.accepted other before
  · intro first second firstUsed secondUsed same
    rcases (rests.orderInUse first).mp firstUsed with rfl | firstBefore <;>
    rcases (rests.orderInUse second).mp secondUsed with rfl | secondBefore
    · rfl
    · rw [dataNew, dataOld second secondBefore] at same
      exact absurd same.symm (fresh second secondBefore)
    · rw [dataNew, dataOld first firstBefore] at same
      exact absurd same (fresh first firstBefore)
    · rw [dataOld first firstBefore, dataOld second secondBefore] at same
      exact living.distinct first second firstBefore secondBefore same
  · intro other used
    rw [responses]
    rcases (rests.orderInUse other).mp used with rfl | before
    · rw [dataNew]
      exact alive
    · rw [dataOld other before]
      exact living.alive other before
  · rw [responses]
    exact living.deadAccepted

/-- What is dead when the order is accepted was dead before. -/
theorem dead_accepting (dead : Dead (book.accepting submission).responses id) :
    Dead book.responses id := by
  rcases dead_append.mp dead with before | ⟨response, member, -, died⟩
  · exact before
  · rw [List.mem_singleton.mp member] at died
    rcases died with ⟨⟨⟩⟩ | ⟨⟨⟩, -⟩

theorem accepting (living : Living lo book) : Living lo (book.accepting submission) where
  consistent := living.consistent.of_sameMemory ⟨rfl, rfl, rfl, rfl⟩
  trades := living.trades
  accepted elem used := (living.accepted elem used).mono (List.subset_append_left _ _)
  distinct := living.distinct
  alive elem used dead := living.alive elem used (dead_accepting dead)
  deadAccepted id dead :=
    (living.deadAccepted id (dead_accepting dead)).mono (List.subset_append_left _ _)

theorem submit (living : Living lo book) (legal : (Op.submit submission).Legal lo book)
    (meets : MeetsLive book submission) (issues : ¬Reissues book)
    (ran : submitBy submission book = .ok done last) : Living lo last := by
  have consistent := living.consistent.submit legal.2.2.1 legal.2.2.2 ran
  have start : Living lo (book.accepting submission) := living.accepting
  rcases submitBy_cases ran with ⟨leftQuantity, middle, matched, settled⟩
  have ends := matchSubmission_ends book.nextMarketOrderId legal.1
    start.consistent.indexed start.trades meets.accepting
  rw [matched] at ends
  have matching : Matching (book.accepting submission) middle book.nextMarketOrderId leftQuantity :=
    ends
  have consistent' : Consistent lo middle :=
    start.consistent.checkForMatch (submission.aggressor book.nextMarketOrderId) matched
  rcases matching.spoke with ⟨sent, -, sentEq, -⟩
  have kept : (book.accepting submission).responses ⊆ middle.responses := by
    rw [sentEq]
    exact List.subset_append_left _ _
  have accepted : WasAccepted middle.responses book.nextMarketOrderId :=
    WasAccepted.mono ⟨_, List.mem_append_right _ (List.mem_singleton_self _), rfl, rfl⟩ kept
  have others : ∀ elem, book.OrderInUse elem →
      (book.orderData elem).marketOrderId ≠ book.nextMarketOrderId := by
    intro elem used same
    have known := living.accepted elem used
    rw [same] at known
    exact issues known
  have middleLives : Living lo middle := by
    refine start.of_retires matching.retires consistent' kept fun id dead => ?_
    rcases matching.deaths id dead with before | ⟨rfl, -⟩ | ⟨elem, used, left, rfl⟩
    · exact Or.inl before
    · exact Or.inr ⟨accepted, fun elem used =>
        others elem (matching.retires.orderInUse elem used)⟩
    · exact Or.inr ⟨(start.accepted elem used).mono kept, start.gone matching.retires used left⟩
  rcases settle_cases settled with ⟨-, rfl⟩ | ⟨rested, nonzero, linked, rfl⟩
  · exact middleLives
  · have alive : ¬Dead middle.responses book.nextMarketOrderId := by
      intro dead
      rcases matching.deaths _ dead with before | ⟨-, nothing⟩ | ⟨elem, used, -, same⟩
      · exact issues (living.deadAccepted _ (dead_accepting before))
      · exact nonzero nothing
      · exact others elem used same
    rcases rests_of_run consistent'.cursors linked with ⟨elem, rests⟩
    have restedLives : Living lo rested := by
      refine middleLives.rest (consistent.of_sameMemory ⟨rfl, rfl, rfl, rfl⟩) rests legal.1 accepted
        ?_ alive
      intro other used same
      refine others other (matching.retires.orderInUse other used) ?_
      rw [matching.retires.orderData] at same
      exact same
    exact ⟨consistent, restedLives.trades, restedLives.accepted, restedLives.distinct,
      restedLives.alive, restedLives.deadAccepted⟩

theorem step {result : Option Quantity} (living : Living lo book) (allowed : LiveCalls lo book op)
    (ran : op.exec book = .ok result last) : Living lo last := by
  rcases allowed with ⟨trading, legal, live⟩
  cases op with
  | checkForMatch aggressor price qty => exact absurd trading id
  | rest order => exact absurd trading id
  | removeOrder elem => exact absurd trading id
  | cancel clientId orderId tickerId =>
      rcases run_bind_eq_ok_iff.mp ran with ⟨_, _, ran, returned⟩
      cases returned
      exact living.cancel ran
  | submit submission =>
      rcases run_bind_eq_ok_iff.mp ran with ⟨_, _, ran, returned⟩
      cases returned
      exact living.submit legal live.1 live.2 ran

theorem empty (lo : Price) (tickerId : TickerId) : Living lo (MEOrderBook.empty tickerId) where
  consistent := Consistent.empty lo tickerId
  trades elem used := by cases used.2
  accepted elem used := by cases used.2
  distinct elem other used := by cases used.2
  alive elem used := by cases used.2
  deadAccepted id dead := by
    rcases dead with ⟨response, member, -⟩
    cases member

/-- Whatever becomes of an allowed call, it spares the dead. -/
theorem spares (living : Living lo book) (allowed : LiveCalls lo book op) :
    SparesDead book (finalState (op.exec book)) := by
  rcases allowed with ⟨trading, legal, live⟩
  cases op with
  | checkForMatch aggressor price qty => exact absurd trading id
  | rest order => exact absurd trading id
  | removeOrder elem => exact absurd trading id
  | cancel clientId orderId tickerId =>
      rw [Op.exec, finalState_bind_pure]
      rcases cancel_messages with ⟨sent, published, sentEq, publishedEq, unfilled, cancels⟩
      refine ⟨sent, published, sentEq, publishedEq, ?_, ?_⟩
      · exact fun response member fills => absurd fills (unfilled response member)
      · intro update member modifies
        rw [cancels update member] at modifies
        cases modifies
  | submit submission =>
      rw [Op.exec, finalState_bind_pure]
      have start : Living lo (book.accepting submission) := living.accepting
      have spoke := (matchSubmission_ends book.nextMarketOrderId legal.1 start.consistent.indexed
        start.trades live.1.accepting).finalState Matching.spoke
      have spared : ∀ id, Known (book.accepting submission) book.nextMarketOrderId id →
          ¬Dead book.responses id := by
        rintro id (rfl | ⟨elem, used, rfl⟩) dead
        · exact live.2 (living.deadAccepted _ dead)
        · exact living.alive elem used dead
      rcases spoke with ⟨sent, published, sentEq, publishedEq, known, modified⟩
      rcases submitBy_messages with ⟨sameResponses, added, addedEq, adds⟩
      refine ⟨[submission.acceptedResponse book.nextMarketOrderId] ++ sent, published ++ added,
        ?_, ?_, ?_, ?_⟩
      · rw [sameResponses, sentEq, ← List.append_assoc]
        rfl
      · rw [addedEq, publishedEq, List.append_assoc]
        rfl
      · intro response member fills
        rcases List.mem_append.mp member with isAccepted | isSent
        · rw [List.mem_singleton.mp isAccepted] at fills
          cases fills
        · exact spared _ (known response isSent)
      · intro update member modifies
        rcases List.mem_append.mp member with isPublished | isAdded
        · exact spared _ (modified update isPublished modifies)
        · rw [adds update isAdded] at modifies
          cases modifies

theorem of_run (run : Run (Op.Step (LiveCalls lo)) (MEOrderBook.empty tickerId) ops last) :
    Living lo last :=
  run.invariant (Living lo) (Living.empty lo tickerId) fun living ⟨allowed, _, ran⟩ =>
    living.step allowed ran

end Living

/-- As long as every submitted order meets a live ladder and gets an id of its own, no call of a
run, not even one that does not return, fills or modifies a dead order. -/
theorem sparesDead_of_run (run : Run (Op.Step (LiveCalls lo)) (empty tickerId) ops last)
    (allowed : LiveCalls lo last op) : SparesDead last (finalState (op.exec last)) :=
  (Living.of_run run).spares allowed

theorem sparesDead_of_run_sample :
    ∃ last : MEOrderBook,
      SparesDead last (finalState ((Op.submit (limitOrder 2 .buy 10 2)).exec last)) ∧
      (finalState ((Op.submit (limitOrder 2 .buy 10 2)).exec last)).responses.any
        (fun response => response.type = .filled ∧ response.marketOrderId = 1) = true := by
  have executed : (Op.next (Op.Legal 0) (empty 0) (.submit (limitOrder 1 .buy 10 5))).any
      (fun (last : MEOrderBook) =>
        (last.asksByPrice = some 0 ∧ last.LevelInUse 0 ∧
          (last.nextEntry 0 = some 0 ∧ last.prevEntry 0 = some 0)) ∧
        ¬WasAccepted last.responses last.nextMarketOrderId ∧
        (Op.submit (limitOrder 2 .buy 10 2)).Legal 0 last ∧
        (finalState ((Op.submit (limitOrder 2 .buy 10 2)).exec last)).responses.any
          (fun response => response.type = .filled ∧ response.marketOrderId = 1) = true) = true := by
    decide +kernel
  rcases (Option.any_eq_true _ _).mp executed with ⟨last, bought, executed⟩
  rcases of_decide_eq_true executed with ⟨⟨head, used, links⟩, issues, legal, filled⟩
  have noAsks : LinkedLadder (empty 0) .sell [] :=
    ⟨⟨rfl, fun nonempty => absurd rfl nonempty⟩, by simp⟩
  have noneAccepted : ¬Reissues (empty 0) := by
    rintro ⟨response, member, -⟩
    cases member
  have buy : Op.Step (LiveCalls 0) (empty 0) (.submit (limitOrder 1 .buy 10 5)) last :=
    ⟨⟨trivial, (Op.step_of_next bought).1, Or.inr ⟨[], noAsks⟩, noneAccepted⟩,
      (Op.step_of_next bought).2⟩
  have ladder : LinkedLadder last .sell [0] :=
    ⟨⟨head, fun _ => isRing_singleton.mpr links⟩, by simpa using used⟩
  exact ⟨last, sparesDead_of_run (Run.nil.snoc buy) ⟨trivial, legal, Or.inr ⟨[0], ladder⟩, issues⟩,
    filled⟩

/-- A BUY trades with the BUY cancelled before it. -/
theorem ghost_trades :
    ∃ book last : MEOrderBook,
      Run (Op.Step fun book op => op.IsTrading ∧ op.Legal 0 book) (empty 0)
        [.submit (limitOrder 1 .buy 10 5), .cancel 1 1 0] book ∧
      Op.Step (fun book op => op.IsTrading ∧ op.Legal 0 book) book
        (.submit (limitOrder 2 .buy 10 3)) last ∧
      ¬SparesDead book last := by
  have executed : (execute (Op.next fun book op => op.IsTrading ∧ op.Legal 0 book) (empty 0)
      [.submit (limitOrder 1 .buy 10 5), .cancel 1 1 0]).any (fun (book : MEOrderBook) =>
        (Op.next (fun book op => op.IsTrading ∧ op.Legal 0 book) book
          (.submit (limitOrder 2 .buy 10 3))).any fun (last : MEOrderBook) =>
            ∃ response ∈ last.responses.drop book.responses.length,
              response.type = .filled ∧ Dead book.responses response.marketOrderId) = true := by
    decide +kernel
  rcases (Option.any_eq_true _ _).mp executed with ⟨book, reached, executed⟩
  rcases (Option.any_eq_true _ _).mp executed with ⟨last, stepped, ghost⟩
  refine ⟨book, last, Run.of_execute Op.step_of_next reached, Op.step_of_next stepped, ?_⟩
  rintro ⟨sent, -, sentEq, -, spared, -⟩
  rcases of_decide_eq_true ghost with ⟨response, member, fills, dead⟩
  rw [sentEq, List.drop_left] at member
  exact spared response member fills dead

end QuantEngine.MEOrderBook
