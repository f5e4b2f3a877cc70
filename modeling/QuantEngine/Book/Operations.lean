import QuantEngine.Book.Insertion
import QuantEngine.Book.Matching

/-!
# What the operations do to any book

The program reaches books whose head pointers and level rings are wrong, so
these results assume nothing of the rings. Link surgery sends no message, even
when it faults. An operation that returns frees orders and adds at most one:
`Retires` collects what matching and cancelling leave alone, and `Rests` what
resting an order does.
-/

namespace QuantEngine.MEOrderBook

open Exec LinkedRing

variable {book last middle : MEOrderBook} {pointer : Pointer} {done : PUnit} {elem : ℕ}
  {clientId : ClientId} {orderId : OrderId} {tickerId : TickerId} {leavesQty result : Quantity}
  {aggressor : Aggressor}

/-- The code sends no message and leaves the counters alone, also when it faults. -/
abbrev KeepsSession {α : Type} (code : BookM α) : Prop :=
  Keeps (fun book last => last.session = book.session) code

theorem keepsSession_bind {α β : Type} {code : BookM α} {next : α → BookM β}
    (keepsCode : KeepsSession code) (keepsNext : ∀ value, KeepsSession (next value)) :
    KeepsSession (code >>= next) :=
  Keeps.bind (fun front back => back.trans front) keepsCode keepsNext

theorem keepsSession_loadOrder : KeepsSession (loadOrder pointer) := by
  refine Keeps.of_unchanged (fun _ => rfl) fun state => ?_
  cases pointer with
  | none => rfl
  | some elem => by_cases bound : elem < state.orderPool.numElems <;> simp [loadOrder, bound]

theorem keepsSession_loadLevel : KeepsSession (loadLevel pointer) :=
  keeps_loadLevel fun _ => rfl

theorem keepsSession_storeOrder {change : MEOrder → MEOrder} :
    KeepsSession (storeOrder pointer change) := by
  intro state
  cases pointer with
  | none => rfl
  | some elem =>
      by_cases bound : elem < state.orderPool.numElems
      · rw [run_storeOrder bound]
        rfl
      · simp [storeOrder, bound]

theorem keepsSession_storeLevel {change : MEOrdersAtPrice → MEOrdersAtPrice} :
    KeepsSession (storeLevel pointer change) := by
  intro state
  cases pointer with
  | none => rfl
  | some elem =>
      by_cases bound : elem < state.ordersAtPricePool.numElems
      · rw [run_storeLevel bound]
        rfl
      · simp [storeLevel, bound]

theorem keepsSession_storeKey : KeepsSession (storeKey clientId orderId pointer) := by
  intro state
  by_cases range : KeyInRange clientId orderId
  · simp only [storeKey, run_get_bind, if_pos range, run_set]
    rfl
  · simp [storeKey, range]

theorem keepsSession_allocateOrder {value : MEOrder} : KeepsSession (allocateOrder value) := by
  intro state
  simp only [allocateOrder, run_get_bind]
  cases state.orderPool.allocate value <;> rfl

theorem keepsSession_allocateLevel {value : MEOrdersAtPrice} :
    KeepsSession (allocateLevel value) := by
  intro state
  simp only [allocateLevel, run_get_bind]
  cases state.ordersAtPricePool.allocate value <;> rfl

theorem keepsSession_deallocateOrder : KeepsSession (deallocateOrder pointer) := by
  intro state
  cases pointer with
  | none => rfl
  | some elem =>
      simp only [deallocateOrder, run_get_bind]
      cases state.orderPool.deallocate elem <;> rfl

theorem keepsSession_deallocateLevel : KeepsSession (deallocateLevel pointer) := by
  intro state
  cases pointer with
  | none => rfl
  | some elem =>
      simp only [deallocateLevel, run_get_bind]
      cases state.ordersAtPricePool.deallocate elem <;> rfl

theorem keepsSession_getOrdersAtPrice {price : Price} : KeepsSession (getOrdersAtPrice price) :=
  fun _ => rfl

theorem keepsSession_removeOrdersAtPrice {side : Side} {price : Price} :
    KeepsSession (removeOrdersAtPrice side price) := by
  have closed : ∀ pointer, KeepsSession (do
      modify fun book : MEOrderBook => book.setSlot (priceToIndex price) none
      deallocateLevel pointer) := fun pointer =>
    keepsSession_bind (Keeps.modify fun _ => rfl) fun _ => keepsSession_deallocateLevel
  have moved : ∀ pointer, KeepsSession
      (modify fun book : MEOrderBook => book.setRemovalHead side pointer) := by
    intro pointer
    refine Keeps.modify fun state => ?_
    exact congrArg Outside.session (outside_setRemovalHead state side pointer)
  refine Keeps.get_bind fun _ => keepsSession_bind keepsSession_getOrdersAtPrice fun _ =>
    keepsSession_bind keepsSession_loadLevel fun _ => Keeps.ite (fun _ => ?_) fun _ => ?_
  · exact keepsSession_bind (moved _) fun _ => closed _
  · refine keepsSession_bind keepsSession_storeLevel fun _ =>
      keepsSession_bind keepsSession_loadLevel fun _ =>
        keepsSession_bind keepsSession_storeLevel fun _ =>
          keepsSession_bind keepsSession_loadLevel fun _ => Keeps.ite (fun _ => ?_) fun _ => ?_
    · exact keepsSession_bind (moved _) fun _ =>
        keepsSession_bind keepsSession_storeLevel fun _ => closed _
    · exact keepsSession_bind keepsSession_storeLevel fun _ => closed _

theorem keepsSession_removeOrder : KeepsSession (removeOrder pointer) := by
  have released : KeepsSession (do
      let removed ← loadOrder pointer
      storeKey removed.clientId removed.clientOrderId none
      deallocateOrder pointer) :=
    keepsSession_bind keepsSession_loadOrder fun _ =>
      keepsSession_bind keepsSession_storeKey fun _ => keepsSession_deallocateOrder
  refine keepsSession_bind keepsSession_loadOrder fun _ =>
    keepsSession_bind keepsSession_getOrdersAtPrice fun _ => Keeps.ite (fun _ => ?_) fun _ => ?_
  · exact keepsSession_bind keepsSession_removeOrdersAtPrice fun _ => released
  · refine keepsSession_bind keepsSession_storeOrder fun _ =>
      keepsSession_bind keepsSession_storeOrder fun _ =>
        keepsSession_bind keepsSession_loadLevel fun _ => Keeps.ite (fun _ => ?_) fun _ => ?_
    · exact keepsSession_bind keepsSession_storeLevel fun _ =>
        keepsSession_bind keepsSession_storeOrder fun _ => released
    · exact keepsSession_bind keepsSession_storeOrder fun _ => released

theorem keepsSession_addOrderAtPrice : KeepsSession (addOrderAtPrice pointer) := by
  intro state
  cases pointer with
  | none => rfl
  | some elem =>
      by_cases bound : elem < state.ordersAtPricePool.numElems
      · exact congrArg Outside.session (addOrderAtPrice_keeps bound).outside
      · have faults : loadLevel (some elem) state = .error .wildPointer state := by
          simp [loadLevel, bound]
        unfold addOrderAtPrice
        rw [run_bind_of_error faults]
        rfl

theorem keepsSession_addOrder : KeepsSession (addOrder pointer) := by
  have keyed : KeepsSession (do
      let added ← loadOrder pointer
      storeKey added.clientId added.clientOrderId pointer) :=
    keepsSession_bind keepsSession_loadOrder fun _ => keepsSession_storeKey
  refine keepsSession_bind keepsSession_loadOrder fun _ =>
    keepsSession_bind keepsSession_getOrdersAtPrice fun _ => Keeps.ite (fun _ => ?_) fun _ => ?_
  · exact keepsSession_bind keepsSession_storeOrder fun _ =>
      keepsSession_bind keepsSession_allocateLevel fun _ =>
        keepsSession_bind keepsSession_addOrderAtPrice fun _ => keyed
  · exact keepsSession_bind keepsSession_loadLevel fun _ =>
      keepsSession_bind keepsSession_loadOrder fun _ =>
        keepsSession_bind keepsSession_storeOrder fun _ =>
          keepsSession_bind keepsSession_loadOrder fun _ =>
            keepsSession_bind keepsSession_storeOrder fun _ =>
              keepsSession_bind keepsSession_storeOrder fun _ =>
                keepsSession_bind keepsSession_storeOrder fun _ => keyed

/-- Resting an order sends nothing: `add` sends its update afterwards. -/
theorem keepsSession_rest {side : Side} {price : Price} {quantity : Quantity}
    {marketOrderId : OrderId} {priority : Priority} :
    KeepsSession (rest clientId orderId tickerId side price quantity marketOrderId priority) :=
  keepsSession_bind keepsSession_allocateOrder fun _ => keepsSession_addOrder

/-- What an operation that only trades and removes leaves alone. -/
structure Retires (book last : MEOrderBook) : Prop where
  orderInUse : ∀ elem, last.OrderInUse elem → book.OrderInUse elem
  orderData : ∀ elem, last.orderData elem =
    { book.orderData elem with quantity := (last.orderData elem).quantity }
  slot : ∀ index elem, last.priceOrdersAtPrice index = some elem →
    book.priceOrdersAtPrice index = some elem
  key : ∀ clientId orderId elem, last.cidOidToOrder clientId orderId = some elem →
    book.cidOidToOrder clientId orderId = some elem
  nextMarketOrderId : last.nextMarketOrderId = book.nextMarketOrderId
  cursors : CursorsInRange book → CursorsInRange last

theorem Retires.refl (book : MEOrderBook) : Retires book book :=
  ⟨fun _ used => used, fun _ => rfl, fun _ _ held => held, fun _ _ _ held => held, rfl,
    fun cursors => cursors⟩

theorem Retires.trans {first second third : MEOrderBook} (front : Retires first second)
    (back : Retires second third) : Retires first third where
  orderInUse elem used := front.orderInUse elem (back.orderInUse elem used)
  orderData elem := by rw [back.orderData, front.orderData]
  slot index elem held := front.slot index elem (back.slot index elem held)
  key clientId orderId elem held := front.key clientId orderId elem (back.key _ _ elem held)
  nextMarketOrderId := back.nextMarketOrderId.trans front.nextMarketOrderId
  cursors cursors := back.cursors (front.cursors cursors)

theorem Retires.side (retires : Retires book last) (elem : ℕ) :
    (last.orderData elem).side = (book.orderData elem).side := by
  rw [retires.orderData]

theorem Retires.price (retires : Retires book last) (elem : ℕ) :
    (last.orderData elem).price = (book.orderData elem).price := by
  rw [retires.orderData]

theorem RemovesOrder.retires (removes : RemovesOrder book last elem) : Retires book last where
  orderInUse other used := ((removes.orderInUse other).mp used).1
  orderData other := by rw [removes.orderData]
  slot := removes.slot
  key clientId orderId other held := by
    rw [removes.cidOidToOrder] at held
    split at held
    · cases held
    · exact held
  nextMarketOrderId := congrArg (fun out => out.session.nextMarketOrderId) removes.outside
  cursors cursors := cursors.of_outside removes.outside

theorem Retires.traded : Retires book (book.traded aggressor elem leavesQty) where
  orderInUse other used := by rwa [orderInUse_traded] at used
  orderData := orderData_traded_eq book elem leavesQty aggressor
  slot _ _ held := held
  key _ _ _ held := held
  nextMarketOrderId := rfl
  cursors cursors := ⟨cursors.order, cursors.level⟩

/-- A call of `match` that returns traded with a block of the pool and, when it used the order
up, removed it. -/
theorem matchBy_cases (ran : matchBy aggressor pointer leavesQty book = .ok result last) :
    ∃ elem, pointer = some elem ∧ elem < book.orderPool.numElems ∧
      result = (Trade.between leavesQty (book.orderData elem)).leavesQty ∧
      (((Trade.between leavesQty (book.orderData elem)).remaining ≠ 0 ∧
          last = book.traded aggressor elem leavesQty) ∨
        ((Trade.between leavesQty (book.orderData elem)).remaining = 0 ∧
          removeOrder (some elem) (book.traded aggressor elem leavesQty) = .ok ⟨⟩ last)) := by
  have whole := ran
  rcases run_bind_eq_ok_iff.mp ran with ⟨_, _, loaded, -⟩
  rcases loadOrder_eq_ok_iff.mp loaded with ⟨elem, rfl, bound, -, -⟩
  rw [run_matchBy bound] at whole
  refine ⟨elem, rfl, bound, ?_⟩
  split at whole
  case isTrue used =>
      rcases run_bind_eq_ok_iff.mp whole with ⟨_, _, removed, whole⟩
      cases whole
      exact ⟨rfl, Or.inr ⟨used, removed⟩⟩
  case isFalse reduced =>
      cases whole
      exact ⟨rfl, Or.inl ⟨reduced, rfl⟩⟩

theorem Retires.of_matchBy (ran : matchBy aggressor pointer leavesQty book = .ok result last) :
    Retires book last := by
  rcases matchBy_cases ran with ⟨elem, rfl, -, -, ⟨-, rfl⟩ | ⟨-, removed⟩⟩
  · exact Retires.traded
  · exact Retires.traded.trans (removesOrder_of_run removed).retires

theorem loopBy_cases {ladder : MEOrderBook → Pointer} {beyond : Price → Bool} {bound : ℕ}
    (ran : loopBy aggressor ladder beyond (bound + 1) leavesQty book = .ok result last) :
    (result = leavesQty ∧ last = book) ∨
      ∃ pointer leaves middle, matchBy aggressor pointer leavesQty book = .ok leaves middle ∧
        loopBy aggressor ladder beyond bound leaves middle = .ok result last := by
  rw [loopBy, checkForMatchLoop, run_get_bind, run_ite] at ran
  split at ran
  case isTrue stops =>
      cases ran
      exact Or.inl ⟨rfl, rfl⟩
  case isFalse continues =>
      rcases run_bind_eq_ok_iff.mp ran with ⟨best, _, loaded, ran⟩
      rcases loadLevel_eq_ok_iff.mp loaded with ⟨_, -, -, rfl, rfl⟩
      rcases run_bind_eq_ok_iff.mp ran with ⟨_, _, loaded, ran⟩
      rcases loadOrder_eq_ok_iff.mp loaded with ⟨_, -, -, rfl, rfl⟩
      rw [run_ite] at ran
      split at ran
      case isTrue stops =>
          cases ran
          exact Or.inl ⟨rfl, rfl⟩
      case isFalse within =>
          rcases run_bind_eq_ok_iff.mp ran with ⟨leaves, middle, matched, ran⟩
          exact Or.inr ⟨_, leaves, middle, matched, ran⟩

theorem loopBy_invariant {ladder : MEOrderBook → Pointer} {beyond : Price → Bool} {bound : ℕ}
    (inv : MEOrderBook → Prop)
    (preserved : ∀ {state next pointer leaves left}, inv state →
      matchBy aggressor pointer leaves state = .ok left next → inv next)
    (start : inv book)
    (ran : loopBy aggressor ladder beyond bound leavesQty book = .ok result last) : inv last := by
  induction bound generalizing book leavesQty with
  | zero => cases ran
  | succ bound ih =>
      rcases loopBy_cases ran with ⟨-, rfl⟩ | ⟨pointer, leaves, middle, matched, rest⟩
      · exact start
      · exact ih (preserved start matched) rest

theorem ends_loadOrder : Ends (fun order last => last = book ∧ ∃ elem, pointer = some elem ∧
    elem < book.orderPool.numElems ∧ order = book.order elem) (· = book)
    (loadOrder pointer book) := by
  cases pointer with
  | none => rfl
  | some elem =>
      by_cases bound : elem < book.orderPool.numElems <;> simp [loadOrder, bound, Ends]

theorem ends_loadLevel : Ends (fun level last => last = book ∧ ∃ elem, pointer = some elem ∧
    level = book.level elem) (· = book) (loadLevel pointer book) := by
  cases pointer with
  | none => rfl
  | some elem =>
      by_cases bound : elem < book.ordersAtPricePool.numElems <;> simp [loadLevel, bound, Ends]

/-- The loop's invariant rule, for runs that fault as well: it is enough to look at a turn that
finds an order within the limit. -/
theorem loopBy_ends {ladder : MEOrderBook → Pointer} {beyond : Price → Bool} {bound : ℕ}
    (inv : MEOrderBook → Quantity → Prop) (fails : MEOrderBook → Prop)
    (stop : ∀ {state leaves}, inv state leaves → fails state)
    (turn : ∀ {state leaves atPrice elem}, inv state leaves → leaves ≠ 0 →
      ladder state = some atPrice → state.firstMeOrder atPrice = some elem →
      elem < state.orderPool.numElems → beyond (state.orderData elem).price = false →
      Ends (fun left next => inv next left) fails (matchBy aggressor (some elem) leaves state))
    (start : inv book leavesQty) :
    Ends (fun left next => inv next left) fails
      (loopBy aggressor ladder beyond bound leavesQty book) := by
  induction bound generalizing book leavesQty with
  | zero => exact stop start
  | succ bound ih =>
      rw [loopBy, checkForMatchLoop, run_get_bind, run_ite]
      split
      case isTrue stops => exact start
      case isFalse continues =>
          refine Ends.bind (ends_loadLevel.mono id fun same => same ▸ stop start) ?_
          rintro level _ ⟨rfl, atPrice, head, rfl⟩
          refine Ends.bind (ends_loadOrder.mono id fun same => same ▸ stop start) ?_
          rintro order _ ⟨rfl, elem, first, elemBound, rfl⟩
          rw [run_ite]
          split
          case isTrue beyondLimit => exact start
          case isFalse within =>
              rw [first]
              exact Ends.bind (turn start (fun none => continues (Or.inl none)) head first
                elemBound (eq_false_of_ne_true within)) fun kept => ih kept

/-- Whatever becomes of the removal, a call of `match` on a block of the pool sends the messages of
one trade. -/
theorem matchBy_messages (bound : elem < book.orderPool.numElems) :
    let trade := Trade.between leavesQty (book.orderData elem)
    (finalState (matchBy aggressor (some elem) leavesQty book)).responses =
        book.responses ++ trade.responses aggressor ∧
      (finalState (matchBy aggressor (some elem) leavesQty book)).updates =
        book.updates ++ trade.updates aggressor := by
  rw [run_matchBy bound]
  split
  case isFalse reduced => exact ⟨rfl, rfl⟩
  case isTrue used =>
      have kept : (finalState (removeOrder (some elem)
          (book.traded aggressor elem leavesQty))).session =
            (book.traded aggressor elem leavesQty).session := keepsSession_removeOrder _
      cases ran : removeOrder (some elem) (book.traded aggressor elem leavesQty) with
      | ok done last =>
          rw [ran] at kept
          rw [run_bind_of_ok ran]
          exact ⟨congrArg Session.responses kept, congrArg Session.updates kept⟩
      | error fault last =>
          rw [ran] at kept
          rw [run_bind_of_error ran]
          exact ⟨congrArg Session.responses kept, congrArg Session.updates kept⟩

theorem checkForMatch_invariant {price : Price} {qty : Quantity} (aggressor : Aggressor)
    (inv : MEOrderBook → Prop)
    (preserved : ∀ {state next pointer leaves left}, inv state →
      matchBy aggressor pointer leaves state = .ok left next → inv next)
    (start : inv book)
    (ran : checkForMatch aggressor.clientId aggressor.clientOrderId aggressor.tickerId
      aggressor.side price qty aggressor.marketOrderId book = .ok result last) : inv last := by
  by_cases trades : aggressor.side = .invalid
  · rw [trades, run_checkForMatch_invalid] at ran
    cases ran
    exact start
  · rw [run_checkForMatch aggressor trades] at ran
    exact loopBy_invariant inv preserved start ran

theorem Retires.of_checkForMatch {price : Price} {qty : Quantity} (aggressor : Aggressor)
    (ran : checkForMatch aggressor.clientId aggressor.clientOrderId aggressor.tickerId
      aggressor.side price qty aggressor.marketOrderId book = .ok result last) :
    Retires book last :=
  checkForMatch_invariant aggressor (Retires book)
    (fun retires matched => retires.trans (Retires.of_matchBy matched)) (Retires.refl book) ran

/-- The CANCEL_REJECTED response. -/
def rejectResponse (clientId : ClientId) (orderId : OrderId) (tickerId : TickerId) :
    MEClientResponse where
  type := .cancelRejected
  clientId := clientId
  tickerId := tickerId
  clientOrderId := orderId
  marketOrderId := orderIdInvalid
  side := .invalid
  price := priceInvalid
  execQty := quantityInvalid
  leftQty := quantityInvalid

/-- The CANCELED response for a resting order. -/
def cancelResponse (clientId : ClientId) (orderId : OrderId) (tickerId : TickerId)
    (order : RestingOrder) : MEClientResponse where
  type := .canceled
  clientId := clientId
  tickerId := tickerId
  clientOrderId := orderId
  marketOrderId := order.marketOrderId
  side := order.side
  price := order.price
  execQty := quantityInvalid
  leftQty := order.quantity

/-- The CANCEL update for a resting order. -/
def cancelUpdate (tickerId : TickerId) (order : RestingOrder) : MEMarketUpdate where
  type := .cancel
  orderId := order.marketOrderId
  tickerId := tickerId
  side := order.side
  price := order.price
  quantity := 0
  priority := order.priority

/-- The book when `cancel` has built the messages about an order and not yet removed it. -/
def canceling (book : MEOrderBook) (clientId : ClientId) (orderId : OrderId) (tickerId : TickerId)
    (elem : ℕ) : MEOrderBook :=
  { book with
    clientResponse := cancelResponse clientId orderId tickerId (book.orderData elem)
    marketUpdate := cancelUpdate tickerId (book.orderData elem) }

/-- The messages of a cancellation sent. -/
def canceled (book : MEOrderBook) : MEOrderBook :=
  { book with
    responses := book.responses ++ [book.clientResponse]
    updates := book.updates ++ [book.marketUpdate] }

/-- The cancellation rejected. -/
def rejected (book : MEOrderBook) (clientId : ClientId) (orderId : OrderId) (tickerId : TickerId) :
    MEOrderBook :=
  { book with
    clientResponse := rejectResponse clientId orderId tickerId
    responses := book.responses ++ [rejectResponse clientId orderId tickerId] }

/-- The key leads nowhere. -/
def KeyUnknown (book : MEOrderBook) (clientId : ClientId) (orderId : OrderId) : Prop :=
  meMaxNumClients ≤ clientId.toNat ∨
    KeyInRange clientId orderId ∧ book.cidOidToOrder clientId orderId = none

theorem run_cancel_unknown (unknown : KeyUnknown book clientId orderId) :
    cancel clientId orderId tickerId book = .ok ⟨⟩ (book.rejected clientId orderId tickerId) := by
  rcases unknown with tooLarge | ⟨range, free⟩
  · have notSmall : ¬clientId.toNat < meMaxNumClients := Nat.not_lt.mpr tooLarge
    simp only [cancel, if_neg notSmall, run_pure_bind, if_true, run_modify_bind, run_get_bind]
    rfl
  · have loaded : loadKey clientId orderId book = .ok none book := by
      simp [loadKey, range, free]
    simp only [cancel, if_pos range.1]
    rw [run_bind_of_ok loaded]
    simp only [if_true, run_modify_bind, run_get_bind]
    rfl

/-- `cancel` of a held key is the removal of the order it leads to, between the building of the
messages and their sending. -/
theorem run_cancel_held (range : KeyInRange clientId orderId)
    (held : book.cidOidToOrder clientId orderId = some elem)
    (bound : elem < book.orderPool.numElems) :
    cancel clientId orderId tickerId book =
      (removeOrder (some elem) >>= fun _ => modify canceled)
        (book.canceling clientId orderId tickerId elem) := by
  have loaded : loadKey clientId orderId book = .ok (some elem) book := by
    simp [loadKey, range, held]
  simp only [cancel, if_pos range.1]
  rw [run_bind_of_ok loaded]
  simp only [reduceCtorEq, if_false, run_loadOrder_bind bound, run_modify_bind]
  change (removeOrder (some elem) >>= _) (book.canceling clientId orderId tickerId elem) = _
  cases ran : removeOrder (some elem) (book.canceling clientId orderId tickerId elem) with
  | ok done middle => rw [run_bind_of_ok ran, run_bind_of_ok ran]; rfl
  | error fault middle => rw [run_bind_of_error ran, run_bind_of_error ran]

/-- A call of `cancel` that returns rejected the key, or removed the order it leads to. -/
theorem cancel_cases (ran : cancel clientId orderId tickerId book = .ok done last) :
    (KeyUnknown book clientId orderId ∧ last = book.rejected clientId orderId tickerId) ∨
      ∃ elem middle, KeyInRange clientId orderId ∧
        book.cidOidToOrder clientId orderId = some elem ∧
        removeOrder (some elem) (book.canceling clientId orderId tickerId elem) = .ok ⟨⟩ middle ∧
        last = middle.canceled := by
  by_cases unknown : KeyUnknown book clientId orderId
  · rw [run_cancel_unknown unknown] at ran
    cases ran
    exact Or.inl ⟨unknown, rfl⟩
  · simp only [KeyUnknown, not_or, not_le, not_and] at unknown
    have whole := ran
    simp only [cancel, if_pos unknown.1] at ran
    rcases run_bind_eq_ok_iff.mp ran with ⟨pointer, _, loaded, ran⟩
    simp only [loadKey, run_get_bind, run_ite] at loaded
    split at loaded
    case isFalse outside => cases loaded
    case isTrue range =>
        cases loaded
        rcases held : book.cidOidToOrder clientId orderId with _ | elem
        · exact absurd held (unknown.2 range)
        · rw [held] at ran
          simp only [reduceCtorEq, if_false] at ran
          rcases run_bind_eq_ok_iff.mp ran with ⟨_, _, loaded, -⟩
          rcases loadOrder_eq_ok_iff.mp loaded with ⟨_, ⟨⟩, bound, -, -⟩
          rw [run_cancel_held range held bound] at whole
          rcases run_bind_eq_ok_iff.mp whole with ⟨_, middle, removed, sent⟩
          cases sent
          exact Or.inr ⟨elem, middle, range, rfl, removed, rfl⟩

theorem Retires.of_cancel (ran : cancel clientId orderId tickerId book = .ok done last) :
    Retires book last := by
  rcases cancel_cases ran with ⟨-, rfl⟩ | ⟨elem, middle, -, -, removed, rfl⟩
  · exact ⟨fun _ used => used, fun _ => rfl, fun _ _ held => held, fun _ _ _ held => held, rfl,
      fun cursors => ⟨cursors.order, cursors.level⟩⟩
  · have retires := (removesOrder_of_run removed).retires
    exact ⟨retires.orderInUse, retires.orderData, retires.slot, retires.key,
      retires.nextMarketOrderId, fun cursors =>
        ⟨(retires.cursors ⟨cursors.order, cursors.level⟩).order,
          (retires.cursors ⟨cursors.order, cursors.level⟩).level⟩⟩

/-- Whatever becomes of the removal, `cancel` sends at most one response, which is no fill, and at
most one CANCEL update. -/
theorem cancel_messages :
    ∃ responses updates,
      (finalState (cancel clientId orderId tickerId book)).responses =
        book.responses ++ responses ∧
      (finalState (cancel clientId orderId tickerId book)).updates = book.updates ++ updates ∧
      (∀ response ∈ responses, response.type ≠ .filled) ∧
      ∀ update ∈ updates, update.type = .cancel := by
  have silent : ∀ {last : MEOrderBook}, last.session.responses = book.responses →
      last.session.updates = book.updates →
      ∃ responses updates, last.responses = book.responses ++ responses ∧
        last.updates = book.updates ++ updates ∧
        (∀ response ∈ responses, response.type ≠ .filled) ∧
        ∀ update ∈ updates, update.type = .cancel := fun sameResponses sameUpdates =>
    ⟨[], [], sameResponses.trans (List.append_nil _).symm,
      sameUpdates.trans (List.append_nil _).symm, by simp, by simp⟩
  by_cases unknown : KeyUnknown book clientId orderId
  · rw [run_cancel_unknown unknown]
    exact ⟨[_], [], rfl, (List.append_nil _).symm, by simp [rejectResponse], by simp⟩
  simp only [KeyUnknown, not_or, not_le, not_and] at unknown
  by_cases range : KeyInRange clientId orderId
  · rcases held : book.cidOidToOrder clientId orderId with _ | elem
    · exact absurd held (unknown.2 range)
    · by_cases bound : elem < book.orderPool.numElems
      · rw [run_cancel_held range held bound]
        have kept : (finalState (removeOrder (some elem)
            (book.canceling clientId orderId tickerId elem))).session =
              (book.canceling clientId orderId tickerId elem).session := keepsSession_removeOrder _
        cases ran : removeOrder (some elem) (book.canceling clientId orderId tickerId elem) with
        | error fault last =>
            rw [ran] at kept
            rw [run_bind_of_error ran]
            exact silent (congrArg Session.responses kept) (congrArg Session.updates kept)
        | ok done last =>
            rw [ran] at kept
            rw [run_bind_of_ok ran]
            have sentResponses : last.responses = book.responses :=
              congrArg Session.responses kept
            have sentResponse : last.clientResponse =
                cancelResponse clientId orderId tickerId (book.orderData elem) :=
              congrArg Session.clientResponse kept
            have sentUpdates : last.updates = book.updates := congrArg Session.updates kept
            have sentUpdate : last.marketUpdate = cancelUpdate tickerId (book.orderData elem) :=
              congrArg Session.marketUpdate kept
            refine ⟨[last.clientResponse], [last.marketUpdate], ?_, ?_, ?_, ?_⟩
            · exact congrArg (· ++ [last.clientResponse]) sentResponses
            · exact congrArg (· ++ [last.marketUpdate]) sentUpdates
            · simp [sentResponse, cancelResponse]
            · simp [sentUpdate, cancelUpdate]
      · have faults : cancel clientId orderId tickerId book = .error .wildPointer book := by
          have loaded : loadKey clientId orderId book = .ok (some elem) book := by
            simp [loadKey, range, held]
          have wild : loadOrder (some elem) book = .error .wildPointer book := by
            simp [loadOrder, bound]
          simp only [cancel, if_pos range.1]
          rw [run_bind_of_ok loaded]
          simp only [reduceCtorEq, if_false]
          exact run_bind_of_error wild
        rw [faults]
        exact silent rfl rfl
  · have faults : cancel clientId orderId tickerId book = .error .outOfRange book := by
      have thrown : loadKey clientId orderId book = .error .outOfRange book := by
        simp [loadKey, range]
      simp only [cancel, if_pos unknown.1]
      rw [run_bind_of_error thrown]
    rw [faults]
    exact silent rfl rfl

/-- A call of `cancel` that faults has sent nothing. -/
theorem cancel_error {fault : Fault}
    (ran : cancel clientId orderId tickerId book = .error fault last) :
    last.responses = book.responses ∧ last.updates = book.updates := by
  by_cases unknown : KeyUnknown book clientId orderId
  · rw [run_cancel_unknown unknown] at ran
    cases ran
  simp only [KeyUnknown, not_or, not_le, not_and] at unknown
  by_cases range : KeyInRange clientId orderId
  · rcases held : book.cidOidToOrder clientId orderId with _ | elem
    · exact absurd held (unknown.2 range)
    · by_cases bound : elem < book.orderPool.numElems
      · rw [run_cancel_held range held bound] at ran
        rcases run_bind_eq_error_iff.mp ran with faulted | ⟨_, _, _, sent⟩
        · have kept : (finalState (removeOrder (some elem)
              (book.canceling clientId orderId tickerId elem))).session =
                (book.canceling clientId orderId tickerId elem).session := keepsSession_removeOrder _
          rw [faulted] at kept
          exact ⟨congrArg Session.responses kept, congrArg Session.updates kept⟩
        · cases sent
      · have loaded : loadKey clientId orderId book = .ok (some elem) book := by
          simp [loadKey, range, held]
        have wild : loadOrder (some elem) book = .error .wildPointer book := by
          simp [loadOrder, bound]
        simp only [cancel, if_pos unknown.1] at ran
        rw [run_bind_of_ok loaded] at ran
        simp only [reduceCtorEq, if_false] at ran
        rw [run_bind_of_error wild] at ran
        cases ran
        exact ⟨rfl, rfl⟩
  · have thrown : loadKey clientId orderId book = .error .outOfRange book := by
      simp [loadKey, range]
    simp only [cancel, if_pos unknown.1] at ran
    rw [run_bind_of_error thrown] at ran
    cases ran
    exact ⟨rfl, rfl⟩

end QuantEngine.MEOrderBook
