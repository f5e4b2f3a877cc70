import QuantEngine.Book.Ladder

/-!
# Matching refines the reference matcher

One call of `match` is explicit on any book: it changes one quantity, sends its
messages and, when the order is used up, removes it. The loop of
`checkForMatch` is followed order by order along the ladder it reads; the
induction is on the loop's bound, and the ladder's listing shrinks with each
order used up. One order at a time is also how `matchLevels_used` and
`matchLevels_reduced` unfold the reference matcher, so the two proceed together.
-/

namespace QuantEngine.MEOrderBook

open Exec LinkedRing

variable {book last : MEOrderBook} {side : Side} {elem : ℕ} {leavesQty : Quantity}
  {aggressor : Aggressor} {levels own own' others : List Entry}

/-- The book when `match` has changed the quantities and sent its messages. -/
def traded (book : MEOrderBook) (aggressor : Aggressor) (elem : ℕ) (leavesQty : Quantity) :
    MEOrderBook :=
  let trade := Trade.between leavesQty (book.orderData elem)
  { book.setOrder elem fun o => { o with quantity := o.quantity - trade.execQty } with
    clientResponse := trade.restingResponse aggressor
    marketUpdate := trade.restingUpdate aggressor
    responses := book.responses ++ trade.responses aggressor
    updates := book.updates ++ trade.updates aggressor }

section Traded

variable (book aggressor elem leavesQty) (other : ℕ)

@[simp] theorem level_traded : (book.traded aggressor elem leavesQty).level = book.level := rfl

@[simp] theorem cidOidToOrder_traded :
    (book.traded aggressor elem leavesQty).cidOidToOrder = book.cidOidToOrder := rfl

@[simp] theorem priceOrdersAtPrice_traded :
    (book.traded aggressor elem leavesQty).priceOrdersAtPrice = book.priceOrdersAtPrice := rfl

@[simp] theorem removalHead_traded :
    (book.traded aggressor elem leavesQty).removalHead = book.removalHead := rfl

@[simp] theorem insertionHead_traded :
    (book.traded aggressor elem leavesQty).insertionHead = book.insertionHead := rfl

@[simp] theorem levelInUse_traded :
    (book.traded aggressor elem leavesQty).LevelInUse = book.LevelInUse := rfl

@[simp] theorem orderInUse_traded :
    (book.traded aggressor elem leavesQty).OrderInUse = book.OrderInUse :=
  orderInUse_setOrder book elem _

@[simp] theorem responses_traded : (book.traded aggressor elem leavesQty).responses =
    book.responses ++ (Trade.between leavesQty (book.orderData elem)).responses aggressor := rfl

@[simp] theorem updates_traded : (book.traded aggressor elem leavesQty).updates =
    book.updates ++ (Trade.between leavesQty (book.orderData elem)).updates aggressor := rfl

theorem order_traded : (book.traded aggressor elem leavesQty).order other =
    if other = elem then { book.order elem with
      quantity := (Trade.between leavesQty (book.orderData elem)).remaining }
    else book.order other :=
  order_setOrder book elem other fun o =>
    { o with quantity := o.quantity - (Trade.between leavesQty (book.orderData elem)).execQty }

theorem orderData_traded : (book.traded aggressor elem leavesQty).orderData other =
    if other = elem then (Trade.between leavesQty (book.orderData elem)).reduced
    else book.orderData other := by
  simp only [orderData, order_traded]
  split <;> rfl

@[simp] theorem nextOrder_traded :
    (book.traded aggressor elem leavesQty).nextOrder = book.nextOrder := by
  funext other
  simp only [nextOrder, order_traded]
  split <;> simp_all

@[simp] theorem prevOrder_traded :
    (book.traded aggressor elem leavesQty).prevOrder = book.prevOrder := by
  funext other
  simp only [prevOrder, order_traded]
  split <;> simp_all

theorem orderData_traded_eq : (book.traded aggressor elem leavesQty).orderData other =
    { book.orderData other with
      quantity := ((book.traded aggressor elem leavesQty).orderData other).quantity } := by
  rw [orderData_traded]
  split
  · rename_i same
    rw [same]
    rfl
  · rfl

end Traded

/-- `match` with the aggressor's fields taken together. -/
abbrev matchBy (aggressor : Aggressor) (itr : Pointer) (leavesQty : Quantity) : BookM Quantity :=
  matchOrder aggressor.tickerId aggressor.clientId aggressor.side aggressor.clientOrderId
    aggressor.marketOrderId itr leavesQty

/-- `match` on an order block: the used-up order is removed last, after every message. -/
theorem run_matchBy (bound : elem < book.orderPool.numElems) :
    matchBy aggressor (some elem) leavesQty book =
      if (Trade.between leavesQty (book.orderData elem)).remaining = 0 then
        (removeOrder (some elem) >>= fun _ =>
          pure (Trade.between leavesQty (book.orderData elem)).leavesQty)
          (book.traded aggressor elem leavesQty)
      else .ok (Trade.between leavesQty (book.orderData elem)).leavesQty
        (book.traded aggressor elem leavesQty) := by
  simp only [matchBy, matchOrder, run_loadOrder_bind bound]
  rw [run_storeOrder_bind bound, run_loadOrder_bind (by simpa using bound)]
  simp only [order_setOrder, if_true, sendClientResponse, sendMarketUpdate, run_modify_bind,
    run_get_bind]
  change (if (Trade.between leavesQty (book.orderData elem)).remaining = 0 then _ else _ :
    BookM Quantity) _ = _
  rw [run_ite]
  split
  case isTrue used =>
      simp only [run_modify_bind, run_get_bind]
      refine congrArg (removeOrder (some elem) >>= fun _ => pure _) ?_
      simp only [traded, Trade.responses, Trade.updates, Trade.restingUpdate, if_pos used,
        List.append_assoc, List.singleton_append]
      rfl
  case isFalse reduced =>
      simp only [run_modify_bind, run_get_bind, run_pure]
      refine congrArg (EStateM.Result.ok _) ?_
      simp only [traded, Trade.responses, Trade.updates, Trade.restingUpdate, if_neg reduced,
        List.append_assoc, List.singleton_append]
      rfl

theorem Directory.traded (dir : Directory book levels) :
    Directory (book.traded aggressor elem leavesQty) levels := by
  have sameData := orderData_traded_eq book elem leavesQty aggressor
  refine dir.congr (by simp) ?_ ?_ rfl rfl rfl rfl
  · intro other _
    rw [sameData]
    exact ⟨rfl, rfl, rfl⟩
  · rw [orderInUse_traded]
    exact dir.orderInUse

theorem Ringed.traded (ringed : Ringed book side own others) :
    Ringed (book.traded aggressor elem leavesQty) side own others :=
  ⟨ringed.directory.traded, ringed.ring⟩

theorem Shrinks.traded (listed : elem ∈ ordersOf own) :
    Shrinks book (book.traded aggressor elem leavesQty) side own own where
  levels := List.Sublist.refl _
  orders := List.Sublist.refl _
  levelSide := rfl
  levelPrice := rfl
  otherHead := rfl
  links _ _ := ⟨rfl, rfl⟩
  data := orderData_traded_eq book elem leavesQty aggressor
  otherData other absent := by
    rw [orderData_traded, if_neg (ne_of_mem_of_not_mem listed absent).symm]
  inUse other used := by rwa [orderInUse_traded] at used
  gone _ inOwn absent := absurd inOwn absent

/-- A loop of `checkForMatch` with the aggressor's fields taken together. -/
abbrev loopBy (aggressor : Aggressor) (ladder : MEOrderBook → Pointer) (beyond : Price → Bool)
    (bound : ℕ) (leavesQty : Quantity) : BookM Quantity :=
  checkForMatchLoop ladder beyond aggressor.clientId aggressor.clientOrderId aggressor.tickerId
    aggressor.side aggressor.marketOrderId bound leavesQty

section Turn

variable {ladder : MEOrderBook → Pointer} {beyond : Price → Bool} {bound atPrice : ℕ}

theorem loopBy_stop (stops : leavesQty = 0 ∨ ladder book = none) :
    loopBy aggressor ladder beyond (bound + 1) leavesQty book = .ok leavesQty book := by
  simp only [loopBy, checkForMatchLoop, run_get_bind, run_ite, if_pos stops, run_pure]

theorem loopBy_turn (continues : leavesQty ≠ 0) (head : ladder book = some atPrice)
    (levelBound : atPrice < book.ordersAtPricePool.numElems)
    (first : book.firstMeOrder atPrice = some elem) (elemBound : elem < book.orderPool.numElems) :
    loopBy aggressor ladder beyond (bound + 1) leavesQty book =
      if beyond (book.orderData elem).price then .ok leavesQty book
      else (matchBy aggressor (some elem) leavesQty >>=
        loopBy aggressor ladder beyond bound) book := by
  have firstEq : (book.level atPrice).firstMeOrder = some elem := first
  simp only [loopBy, checkForMatchLoop, run_get_bind, run_ite, head, continues, reduceCtorEq,
    or_self, if_false, run_loadLevel_bind levelBound, firstEq, run_loadOrder_bind elemBound]
  rfl

end Turn

/-- The listed levels with the data of their orders. -/
def view (book : MEOrderBook) (levels : List Entry) : List PriceLevel :=
  levels.map fun entry => ⟨book.levelPrice entry.1, entry.2.map book.orderData⟩

theorem view_congr (price : last.levelPrice = book.levelPrice)
    (data : ∀ elem ∈ ordersOf levels, last.orderData elem = book.orderData elem) :
    last.view levels = book.view levels := by
  refine List.map_congr_left fun entry entryMem => ?_
  have sameOrders : entry.2.map last.orderData = entry.2.map book.orderData :=
    List.map_congr_left fun elem elemMem => data elem (List.mem_flatMap.mpr ⟨_, entryMem, elemMem⟩)
  rw [price, sameOrders]

theorem view_without {atPrice : ℕ} {remaining : List ℕ} {rest : List Entry} :
    book.view (Directory.without atPrice remaining rest) =
      dropFirst (book.levelPrice atPrice) (remaining.map book.orderData) (book.view rest) := by
  unfold Directory.without dropFirst
  by_cases none : remaining = []
  · simp [none]
  · simp [none, view]

/-- The book after the matching loop has traded `matched` with the ladder `own`. -/
structure Refines (book last : MEOrderBook) (aggressor : Aggressor) (side : Side)
    (own own' others : List Entry) (matched : Matched) : Prop where
  ringed : Ringed last side own' others
  shrinks : Shrinks book last side own own'
  view : last.view own' = matched.levels
  responses : last.responses =
    book.responses ++ matched.trades.flatMap (Trade.responses aggressor)
  updates : last.updates = book.updates ++ matched.trades.flatMap (Trade.updates aggressor)
  positive : Positive book own → Positive last own'

theorem Refines.refl (ringed : Ringed book side own others) :
    Refines book book aggressor side own own others ⟨[], leavesQty, book.view own⟩ where
  ringed := ringed
  shrinks := Shrinks.refl book side own
  view := rfl
  responses := by simp
  updates := by simp
  positive positive := positive

/-- The book after one trade that uses the first order of the ladder up. -/
theorem Ringed.trade_used {atPrice : ℕ} {tail : List ℕ} {rest : List Entry}
    (aggressor : Aggressor) (leavesQty : Quantity)
    (ringed : Ringed book side ((atPrice, elem :: tail) :: rest) others)
    (elemSide : (book.orderData elem).side = side) :
    ∃ last,
      MEOrderBook.removeOrder (some elem) (book.traded aggressor elem leavesQty) = .ok ⟨⟩ last ∧
      Ringed last side (Directory.without atPrice tail rest) others ∧
      Shrinks book last side ((atPrice, elem :: tail) :: rest)
        (Directory.without atPrice tail rest) ∧
      (∀ other, other ≠ elem → last.orderData other = book.orderData other) ∧
      last.session = (book.traded aggressor elem leavesQty).session ∧
      last.orderPool.numElems = book.orderPool.numElems := by
  have sideKept : ((book.traded aggressor elem leavesQty).orderData elem).side = side := by
    rw [orderData_traded_eq]
    exact elemSide
  have split : (atPrice, elem :: tail) :: rest = [] ++ (atPrice, [] ++ elem :: tail) :: rest := rfl
  rcases ringed.traded.removeOrder split fun _ => sideKept with
    ⟨last, ran, ringed', shrinks⟩
  have removes := removesOrder_of_run ran
  refine ⟨last, ran, ringed', (Shrinks.traded (by simp)).trans shrinks, ?_,
    congrArg Outside.session removes.outside, congrArg Outside.orderCapacity removes.outside⟩
  intro other different
  rw [removes.orderData, orderData_traded, if_neg different]

theorem Refines.cons_used {middle : MEOrderBook} {atPrice : ℕ} {tail : List ℕ} {rest : List Entry}
    {matched : Matched}
    (shrinks : Shrinks book middle side ((atPrice, elem :: tail) :: rest)
      (Directory.without atPrice tail rest))
    (data : ∀ other ∈ ordersOf (Directory.without atPrice tail rest),
      middle.orderData other = book.orderData other)
    (session : middle.session = (book.traded aggressor elem leavesQty).session)
    (refines : Refines middle last aggressor side (Directory.without atPrice tail rest) own' others
      matched) :
    Refines book last aggressor side ((atPrice, elem :: tail) :: rest) own' others
      { matched with
        trades := Trade.between leavesQty (book.orderData elem) :: matched.trades } where
  ringed := refines.ringed
  shrinks := shrinks.trans refines.shrinks
  view := refines.view
  responses := by
    have sent : middle.responses = _ := congrArg Session.responses session
    rw [refines.responses, sent]
    change (book.responses ++ _) ++ _ = _
    rw [List.append_assoc, List.flatMap_cons]
  updates := by
    have sent : middle.updates = _ := congrArg Session.updates session
    rw [refines.updates, sent]
    change (book.updates ++ _) ++ _ = _
    rw [List.append_assoc, List.flatMap_cons]
  positive positive := by
    refine refines.positive fun other otherMem => ?_
    rw [data other otherMem]
    exact positive other (shrinks.orders.subset otherMem)

/-- A trade that uses the aggressor up ends the loop at its next test. -/
theorem Refines.trade_reduced {atPrice : ℕ} {tail : List ℕ} {rest : List Entry}
    (ringed : Ringed book side ((atPrice, elem :: tail) :: rest) others)
    (reduced : (Trade.between leavesQty (book.orderData elem)).remaining ≠ 0) :
    Refines book (book.traded aggressor elem leavesQty) aggressor side
      ((atPrice, elem :: tail) :: rest) ((atPrice, elem :: tail) :: rest) others
      ⟨[Trade.between leavesQty (book.orderData elem)], 0,
        ⟨book.levelPrice atPrice, (Trade.between leavesQty (book.orderData elem)).reduced ::
          tail.map book.orderData⟩ :: book.view rest⟩ := by
  have nodup := ringed.directory.ordersNodup
  simp only [ordersOf, List.cons_append, List.flatMap_cons, List.flatMap_append,
    List.nodup_cons, List.mem_append, not_or] at nodup
  have kept : ∀ other, other ≠ elem →
      (book.traded aggressor elem leavesQty).orderData other = book.orderData other := by
    intro other different
    rw [orderData_traded, if_neg different]
  refine ⟨ringed.traded, Shrinks.traded (by simp), ?_, by simp, by simp, ?_⟩
  · have sameRest : (book.traded aggressor elem leavesQty).view rest = book.view rest :=
      view_congr rfl fun other otherMem => kept other (ne_of_mem_of_not_mem otherMem nodup.1.2.1)
    have sameTail : tail.map (book.traded aggressor elem leavesQty).orderData =
        tail.map book.orderData :=
      List.map_congr_left fun other otherMem =>
        kept other (ne_of_mem_of_not_mem otherMem nodup.1.1)
    change PriceLevel.mk _ ((book.traded aggressor elem leavesQty).orderData elem ::
      tail.map (book.traded aggressor elem leavesQty).orderData) ::
        (book.traded aggressor elem leavesQty).view rest = _
    rw [sameRest, sameTail, orderData_traded, if_pos rfl]
    rfl
  · intro positive other otherMem
    by_cases same : other = elem
    · rw [same, orderData_traded, if_pos rfl]
      exact reduced
    · rw [kept other same]
      exact positive other otherMem

/-- The loop refines the reference matcher on every well-linked ladder of one side: it ends,
without a fault, within one turn more than the ladder has orders. -/
theorem loopBy_refines {ladder : MEOrderBook → Pointer} {beyond : Price → Bool} {bound : ℕ}
    (leavesQty : Quantity) (reads : ∀ book, ladder book = book.removalHead side)
    (ringed : Ringed book side own others)
    (orderSide : ∀ elem ∈ ordersOf own, (book.orderData elem).side = side)
    (enough : (ordersOf own).length < bound) :
    ∃ last own',
      loopBy aggressor ladder beyond bound leavesQty book =
        .ok (matchLevels beyond leavesQty (book.view own)).leavesQty last ∧
      Refines book last aggressor side own own' others
        (matchLevels beyond leavesQty (book.view own)) := by
  induction bound generalizing book own leavesQty with
  | zero => exact absurd enough (Nat.not_lt_zero _)
  | succ bound ih =>
      by_cases continues : leavesQty = 0
      · rw [loopBy_stop (Or.inl continues), continues, matchLevels_zero]
        exact ⟨book, own, rfl, Refines.refl ringed⟩
      rcases own with _ | ⟨⟨atPrice, orders⟩, rest⟩
      · rw [loopBy_stop (Or.inr ((reads book).trans ringed.ring.1))]
        exact ⟨book, [], rfl, Refines.refl ringed⟩
      have listed : (atPrice, orders) ∈ (atPrice, orders) :: rest ++ others := by simp
      rcases orders with _ | ⟨first, tail⟩
      · exact absurd rfl (ringed.directory.ne_nil listed)
      have firstSide := orderSide first (by simp)
      have firstBound := (ringed.directory.orderInUse first (by simp)).1
      have firstPrice : (book.orderData first).price = book.levelPrice atPrice :=
        ringed.directory.price _ listed first (by simp)
      have viewEq : book.view ((atPrice, first :: tail) :: rest) =
        ⟨book.levelPrice atPrice, book.orderData first :: tail.map book.orderData⟩ ::
          book.view rest := rfl
      rw [loopBy_turn continues ((reads book).trans ringed.ring.1)
        ((ringed.directory.levelInUse atPrice).mpr (by simp)).1
        (ringed.directory.first _ listed) firstBound, firstPrice]
      by_cases stops : beyond (book.levelPrice atPrice) = true
      · have done : matchLevels beyond leavesQty (book.view ((atPrice, first :: tail) :: rest)) =
            ⟨[], leavesQty, book.view ((atPrice, first :: tail) :: rest)⟩ := by
          rw [viewEq, matchLevels, if_pos (Or.inr stops)]
        rw [if_pos stops, done]
        exact ⟨book, _, rfl, Refines.refl ringed⟩
      rw [if_neg stops, viewEq]
      by_cases used : (Trade.between leavesQty (book.orderData first)).remaining = 0
      · rcases ringed.trade_used aggressor leavesQty firstSide with
          ⟨middle, removed, ringed', shrinks, data, session, capacity⟩
        have fresh : ∀ other ∈ ordersOf (Directory.without atPrice tail rest), other ≠ first := by
          have nodup := ringed.directory.ordersNodup
          simp only [ordersOf, List.cons_append, List.flatMap_cons, List.flatMap_append,
            List.nodup_cons, List.mem_append, not_or] at nodup
          rw [Directory.ordersOf_without]
          rintro other otherMem rfl
          rcases List.mem_append.mp otherMem with inTail | inRest
          · exact nodup.1.1 inTail
          · exact nodup.1.2.1 inRest
        have sameData : ∀ other ∈ ordersOf (Directory.without atPrice tail rest),
            middle.orderData other = book.orderData other :=
          fun other otherMem => data other (fresh other otherMem)
        have traded : matchBy aggressor (some first) leavesQty book =
            .ok (Trade.between leavesQty (book.orderData first)).leavesQty middle := by
          rw [run_matchBy firstBound, if_pos used, run_bind_of_ok removed, run_pure]
        have middleView : middle.view (Directory.without atPrice tail rest) =
            dropFirst (book.levelPrice atPrice) (tail.map book.orderData) (book.view rest) := by
          rw [view_congr shrinks.levelPrice sameData, view_without]
        rw [run_bind_of_ok traded, matchLevels_used continues (by simpa using stops) used,
          ← middleView]
        have sideKept : ∀ other ∈ ordersOf (Directory.without atPrice tail rest),
            (middle.orderData other).side = side := by
          intro other otherMem
          rw [sameData other otherMem]
          exact orderSide other (shrinks.orders.subset otherMem)
        have fewer : (ordersOf (Directory.without atPrice tail rest)).length < bound := by
          rw [Directory.ordersOf_without]
          simp only [ordersOf, List.flatMap_cons, List.cons_append, List.length_cons] at enough ⊢
          omega
        rcases ih _ ringed' sideKept fewer with ⟨last, own', ran, refines⟩
        exact ⟨last, own', ran, refines.cons_used shrinks sameData session⟩
      · have traded : matchBy aggressor (some first) leavesQty book =
            .ok 0 (book.traded aggressor first leavesQty) := by
          rw [run_matchBy firstBound, if_neg used, Trade.leavesQty_eq_zero used]
        rcases bound with _ | bound
        · simp at enough
        · rw [run_bind_of_ok traded, loopBy_stop (Or.inl rfl),
            matchLevels_reduced continues (by simpa using stops) used]
          exact ⟨_, _, rfl, Refines.trade_reduced ringed used⟩

/-- The call reads the ladder of the opposite side, or none when the side is invalid. -/
theorem run_checkForMatch {price : Price} {qty : Quantity} (aggressor : Aggressor)
    (trades : aggressor.side ≠ .invalid) :
    checkForMatch aggressor.clientId aggressor.clientOrderId aggressor.tickerId aggressor.side
        price qty aggressor.marketOrderId book =
      loopBy aggressor (fun book => book.removalHead aggressor.side.opposite)
        (beyondLimit aggressor.side price) (book.orderPool.numElems + 2) qty book := by
  rcases aggressor with ⟨clientId, clientOrderId, tickerId, side, marketOrderId⟩
  cases side with
  | invalid => exact absurd rfl trades
  | buy => exact run_bind_pure book
  | sell => rfl

theorem run_checkForMatch_invalid {clientId : ClientId} {clientOrderId newMarketOrderId : OrderId}
    {tickerId : TickerId} {price : Price} {qty : Quantity} :
    checkForMatch clientId clientOrderId tickerId .invalid price qty newMarketOrderId book =
      .ok qty book := rfl

theorem Ringed.checkForMatch (aggressor : Aggressor) (price : Price) (qty : Quantity)
    (trades : aggressor.side ≠ .invalid)
    (ringed : Ringed book aggressor.side.opposite own others)
    (orderSide : ∀ elem ∈ ordersOf own,
      (book.orderData elem).side = aggressor.side.opposite) :
    ∃ last own',
      MEOrderBook.checkForMatch aggressor.clientId aggressor.clientOrderId aggressor.tickerId
          aggressor.side price qty aggressor.marketOrderId book =
        .ok (matchLevels (beyondLimit aggressor.side price) qty (book.view own)).leavesQty last ∧
      Refines book last aggressor aggressor.side.opposite own own' others
        (matchLevels (beyondLimit aggressor.side price) qty (book.view own)) := by
  rw [run_checkForMatch aggressor trades]
  refine loopBy_refines qty (fun _ => rfl) ringed orderSide ?_
  have listed := ringed.directory.length_le
  simp only [ordersOf, List.flatMap_append, List.length_append] at listed ⊢
  omega

theorem opposite_ne_invalid (trades : side ≠ .invalid) : side.opposite ≠ .invalid := by
  cases side with
  | invalid => exact absurd rfl trades
  | buy => exact Side.noConfusion
  | sell => exact Side.noConfusion

theorem WellFormed.checkForMatch (aggressor : Aggressor) (price : Price) (qty : Quantity)
    (trades : aggressor.side ≠ .invalid)
    (sound : WellFormed book aggressor.side.opposite own others) :
    ∃ last own',
      MEOrderBook.checkForMatch aggressor.clientId aggressor.clientOrderId aggressor.tickerId
          aggressor.side price qty aggressor.marketOrderId book =
        .ok (matchLevels (beyondLimit aggressor.side price) qty (book.view own)).leavesQty last ∧
      WellFormed last aggressor.side.opposite own' others ∧
      Refines book last aggressor aggressor.side.opposite own own' others
        (matchLevels (beyondLimit aggressor.side price) qty (book.view own)) := by
  rcases sound.ringed.checkForMatch aggressor price qty trades sound.ladder.orderSide with
    ⟨last, own', ran, refines⟩
  exact ⟨last, own', ran, sound.shrink (opposite_ne_invalid trades) refines.ringed refines.shrinks,
    refines⟩

/-- What matching one side leaves of both sides has some quantity left when everything had. -/
theorem Refines.positive_append {matched : Matched} (sound : WellFormed book side own others)
    (refines : Refines book last aggressor side own own' others matched)
    (positive : Positive book (own ++ others)) : Positive last (own' ++ others) := by
  have split : ∀ {book : MEOrderBook} {front back : List Entry},
      Positive book (front ++ back) ↔ Positive book front ∧ Positive book back := by
    intro book front back
    simp only [Positive, ordersOf, List.flatMap_append, List.mem_append]
    exact ⟨fun all => ⟨fun elem inFront => all elem (Or.inl inFront),
      fun elem inBack => all elem (Or.inr inBack)⟩,
      fun ⟨inFront, inBack⟩ elem listed => listed.elim (inFront elem) (inBack elem)⟩
  rw [split] at positive ⊢
  refine ⟨refines.positive positive.1, fun elem listed => ?_⟩
  rw [sound.arranged.otherData refines.shrinks elem listed]
  exact positive.2 elem listed

theorem Positive.swap {front back : List Entry} (positive : Positive book (front ++ back)) :
    Positive book (back ++ front) := fun elem listed =>
  positive elem ((List.perm_append_comm.flatMap_right Prod.snd).mem_iff.mp listed)

/-- On a well-formed book, `checkForMatch` ends without a fault, returns what the reference
matcher leaves, sends the messages of its trades in order, and leaves a well-formed book whose
view is the reference matcher's; orders with nothing left stay out of it. -/
theorem checkForMatch_refines_matchView {asks bids : List Entry}
    (sound : WellFormed book .sell asks bids) (clientId : ClientId) (clientOrderId : OrderId)
    (tickerId : TickerId) (side : Side) (price : Price) (qty : Quantity)
    (newMarketOrderId : OrderId) :
    let outcome := matchView side price qty ⟨book.view asks, book.view bids⟩
    let aggressor : Aggressor := ⟨clientId, clientOrderId, tickerId, side, newMarketOrderId⟩
    ∃ last asks' bids',
      checkForMatch clientId clientOrderId tickerId side price qty newMarketOrderId book =
        .ok outcome.leavesQty last ∧
      WellFormed last .sell asks' bids' ∧
      (⟨last.view asks', last.view bids'⟩ : BookView) = outcome.view ∧
      last.responses = book.responses ++ outcome.trades.flatMap (Trade.responses aggressor) ∧
      last.updates = book.updates ++ outcome.trades.flatMap (Trade.updates aggressor) ∧
      (Positive book (asks ++ bids) → Positive last (asks' ++ bids')) := by
  intro outcome aggressor
  have otherView : ∀ {last : MEOrderBook} {side : Side} {own own' others : List Entry},
      WellFormed book side own others → Shrinks book last side own own' →
        last.view others = book.view others := by
    intro last side own own' others sound shrinks
    exact view_congr shrinks.levelPrice (sound.arranged.otherData shrinks)
  cases side with
  | invalid => exact ⟨book, asks, bids, rfl, sound, rfl, by simp [outcome, matchView],
      by simp [outcome, matchView], id⟩
  | buy =>
      rcases WellFormed.checkForMatch aggressor price qty Side.noConfusion sound with
        ⟨last, asks', ran, sound', refines⟩
      refine ⟨last, asks', bids, ran, sound', ?_, refines.responses, refines.updates,
        refines.positive_append sound⟩
      rw [refines.view, otherView sound refines.shrinks]
      rfl
  | sell =>
      rcases WellFormed.checkForMatch aggressor price qty Side.noConfusion sound.swap with
        ⟨last, bids', ran, sound', refines⟩
      refine ⟨last, asks, bids', ran, sound'.swap, ?_, refines.responses, refines.updates,
        fun positive => (refines.positive_append sound.swap positive.swap).swap⟩
      rw [refines.view, otherView sound.swap refines.shrinks]
      rfl

/-- A BUY of 8 fills the first order of `sampleBook` and takes 3 of the second. -/
theorem checkForMatch_refines_matchView_sample :
    ∃ last asks' bids',
      checkForMatch 3 1 0 .buy 10 8 4 sampleBook = .ok 0 last ∧
      WellFormed last .sell asks' bids' ∧
      (last.view asks').map (fun level => level.orders.map (·.quantity)) = [[4]] ∧
      last.responses.map (fun response => (response.marketOrderId, response.leftQty)) =
        [(4, 3), (1, 0), (4, 0), (2, 4)] := by
  rcases checkForMatch_refines_matchView sampleBook_wellFormed 3 1 0 .buy 10 8 4 with
    ⟨last, asks', bids', ran, sound, viewEq, sent, -, -⟩
  have asksEq : last.view asks' = _ := congrArg BookView.asks viewEq
  refine ⟨last, asks', bids', ran, sound, ?_, ?_⟩
  · rw [asksEq]
    decide
  · rw [sent]
    decide

end QuantEngine.MEOrderBook
