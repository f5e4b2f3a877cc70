import QuantEngine.Runs.Operation

/-!
# Cancelling takes one order out

A `cancel` with the key of a resting order of an arranged book deletes that
order from the listing, with its level when it was the level's last. `Deletes`
collects what the call leaves alone. The pointers of the blocks that stay need
no separate argument: the two rings determine the links of their members, so a
listing that is the same before and after has the same links.

The last section asks what `cancel` does with every key a client can send.
-/

namespace QuantEngine.MEOrderBook

open Exec LinkedRing

variable {book last : MEOrderBook} {levels own own' others : List Entry} {side : Side}
  {tickerId : TickerId} {elem atPrice : ℕ}

namespace Arranged

theorem of_sameMemory (arranged : Arranged book side own others) (same : SameMemory book last)
    (bids : last.bidsByPrice = book.bidsByPrice) (asks : last.asksByPrice = book.asksByPrice) :
    Arranged last side own others := by
  have level : last.level = book.level := by
    funext other
    rw [MEOrderBook.level, same.ordersAtPricePool, MEOrderBook.level]
  have heads : last.removalHead = book.removalHead := by
    funext side
    rw [removalHead, removalHead, bids, asks]
  have ladder : ∀ {side own}, Ladder book side own → Ladder last side own := by
    intro side own kept
    apply kept.congr level (congrFun heads side) rfl
    rw [same.orderData]
    exact kept.orderSide
  refine ⟨same.directory arranged.directory, ?_, ladder arranged.ladder,
    ladder arranged.otherLadder⟩
  rw [OrdersOnly, same.orderInUse]
  exact arranged.ordersOnly

/-- Cancelling a listed order takes it out of the listing and says so. -/
theorem cancel {front back : List Entry} {before after : List ℕ} (tickerId : TickerId)
    (arranged : Arranged book side own others) (trades : side ≠ .invalid)
    (split : own = front ++ (atPrice, before ++ elem :: after) :: back) :
    ∃ last, MEOrderBook.cancel (book.orderData elem).clientId (book.orderData elem).clientOrderId
        tickerId book = .ok ⟨⟩ last ∧
      Arranged last side (takeOut front atPrice (before ++ after) back) others ∧
      Shrinks book last side own (takeOut front atPrice (before ++ after) back) ∧
      last.orderData = book.orderData ∧
      last.responses = book.responses ++ [cancelResponse (book.orderData elem).clientId
        (book.orderData elem).clientOrderId tickerId (book.orderData elem)] ∧
      last.updates = book.updates ++ [cancelUpdate tickerId (book.orderData elem)] := by
  have listed : elem ∈ ordersOf (own ++ others) := by simp [split, ordersOf]
  rcases arranged.directory.key elem listed with ⟨range, held⟩
  have bound := (arranged.directory.orderInUse elem listed).1
  set clientId := (book.orderData elem).clientId
  set orderId := (book.orderData elem).clientOrderId
  have canceling : Arranged (book.canceling clientId orderId tickerId elem) side own others :=
    arranged.of_sameMemory ⟨rfl, rfl, rfl, rfl⟩ rfl rfl
  rcases canceling.removeOrder trades split with ⟨middle, removed, kept, shrinks⟩
  have removes := removesOrder_of_run removed
  have session := congrArg Outside.session removes.outside
  have sameResponses : middle.responses = _ := congrArg Session.responses session
  have sameResponse : middle.clientResponse = _ := congrArg Session.clientResponse session
  have sameUpdates : middle.updates = _ := congrArg Session.updates session
  have sameUpdate : middle.marketUpdate = _ := congrArg Session.marketUpdate session
  refine ⟨middle.canceled, ?_, kept.of_sameMemory ⟨rfl, rfl, rfl, rfl⟩ rfl rfl, ?_,
    removes.orderData, ?_, ?_⟩
  · rw [run_cancel_held range held bound, run_bind_of_ok removed, run_modify]
  · exact ⟨shrinks.levels, shrinks.orders, shrinks.levelSide, shrinks.levelPrice,
      shrinks.otherHead, shrinks.links, shrinks.data, shrinks.otherData, shrinks.inUse,
      shrinks.gone⟩
  · change middle.responses ++ [middle.clientResponse] = _
    rw [sameResponses, sameResponse]
    rfl
  · change middle.updates ++ [middle.marketUpdate] = _
    rw [sameUpdates, sameUpdate]
    rfl

end Arranged

/-- The listing without one order, and without a level that it leaves empty. -/
def dropOrder (elem : ℕ) (levels : List Entry) : List Entry :=
  (levels.map fun entry => (entry.1, entry.2.filter (· ≠ elem))).filter fun entry => entry.2 ≠ []

/-- The levels without the order of one key, and without a level that it leaves empty. -/
def dropKey (clientId : ClientId) (orderId : OrderId) (levels : List PriceLevel) : List PriceLevel :=
  (levels.map fun level => { level with
    orders := level.orders.filter fun order =>
      ¬(order.clientId = clientId ∧ order.clientOrderId = orderId) }).filter
    fun level => level.orders ≠ []

theorem dropOrder_append : dropOrder elem (own ++ others) =
    dropOrder elem own ++ dropOrder elem others := by
  simp [dropOrder]

theorem dropOrder_of_absent (nonempty : ∀ entry ∈ levels, entry.2 ≠ [])
    (absent : elem ∉ ordersOf levels) : dropOrder elem levels = levels := by
  have same : (levels.map fun entry => (entry.1, entry.2.filter (· ≠ elem))) = levels := by
    refine (List.map_congr_left fun entry entryMem => ?_).trans (List.map_id levels)
    have kept : entry.2.filter (· ≠ elem) = entry.2 := by
      refine List.filter_eq_self.mpr fun other otherMem => decide_eq_true ?_
      exact ne_of_mem_of_not_mem (List.mem_flatMap.mpr ⟨entry, entryMem, otherMem⟩) absent
    rw [kept]
    rfl
  rw [dropOrder, same]
  exact List.filter_eq_self.mpr fun entry entryMem => decide_eq_true (nonempty entry entryMem)

/-- Dropping a listed order takes it out of its level. -/
theorem dropOrder_eq {front back : List Entry} {before after : List ℕ}
    (nodup : (ordersOf levels).Nodup) (nonempty : ∀ entry ∈ levels, entry.2 ≠ [])
    (split : levels = front ++ (atPrice, before ++ elem :: after) :: back) :
    dropOrder elem levels = takeOut front atPrice (before ++ after) back := by
  subst split
  rw [ordersOf_takeOut_perm.nodup_iff, List.nodup_cons, ordersOf_takeOut, List.mem_append,
    List.mem_append, not_or, not_or] at nodup
  rcases nodup with ⟨⟨notFront, notHere, notBack⟩, -⟩
  have front_eq : dropOrder elem front = front :=
    dropOrder_of_absent (fun entry entryMem => nonempty entry (by simp [entryMem])) notFront
  have back_eq : dropOrder elem back = back :=
    dropOrder_of_absent (fun entry entryMem => nonempty entry (by simp [entryMem])) notBack
  have remaining : (before ++ elem :: after).filter (· ≠ elem) = before ++ after := by
    rw [List.filter_append, List.filter_cons_of_neg (by simp), ← List.filter_append]
    exact List.filter_eq_self.mpr fun other otherMem =>
      decide_eq_true (ne_of_mem_of_not_mem otherMem (by simpa using notHere))
  rw [List.append_cons, dropOrder_append, dropOrder_append, front_eq, back_eq, takeOut,
    Directory.without, List.append_assoc]
  congr 1
  simp only [dropOrder, List.map_cons, List.map_nil, remaining]
  split
  · simp [*]
  · simp [*]

theorem view_dropOrder (keyed : ∀ other ∈ ordersOf levels, other ≠ elem →
      ¬((book.orderData other).clientId = (book.orderData elem).clientId ∧
        (book.orderData other).clientOrderId = (book.orderData elem).clientOrderId)) :
    book.view (dropOrder elem levels) =
      dropKey (book.orderData elem).clientId (book.orderData elem).clientOrderId
        (book.view levels) := by
  induction levels with
  | nil => rfl
  | cons entry levels ih =>
      have orders : (entry.2.map book.orderData).filter (fun order =>
            ¬(order.clientId = (book.orderData elem).clientId ∧
              order.clientOrderId = (book.orderData elem).clientOrderId)) =
          (entry.2.filter (· ≠ elem)).map book.orderData := by
        rw [List.filter_map]
        refine congrArg _ (List.filter_congr fun other otherMem => ?_)
        rw [Function.comp_apply, decide_eq_decide]
        constructor
        · rintro otherKey rfl
          exact otherKey ⟨rfl, rfl⟩
        · exact keyed other (by simp [otherMem])
      have rest := ih fun other otherMem => keyed other (by
        rw [ordersOf, List.flatMap_cons]
        exact List.mem_append_right _ otherMem)
      simp only [dropOrder, dropKey, view, List.map_cons, orders] at rest ⊢
      by_cases emptied : entry.2.filter (· ≠ elem) = []
      · rw [List.filter_cons_of_neg (by simpa using emptied), rest,
          List.filter_cons_of_neg (by simpa using emptied)]
      · rw [List.filter_cons_of_pos (by simpa using emptied), List.map_cons, rest,
          List.filter_cons_of_pos (by simpa using emptied)]

theorem levelsOf_dropOrder_sublist :
    (levelsOf (dropOrder elem levels)).Sublist (levelsOf levels) := by
  have sublist := List.Sublist.map Prod.fst (List.filter_sublist (l := levels.map fun entry =>
    (entry.1, entry.2.filter (· ≠ elem))) (p := fun entry => entry.2 ≠ []))
  rwa [List.map_map] at sublist

/-- A level that is still listed has lost the order at most. -/
theorem exists_of_mem_dropOrder {entry : Entry} (listed : entry ∈ dropOrder elem levels) :
    ∃ orders, (entry.1, orders) ∈ levels ∧ entry.2 = orders.filter (· ≠ elem) := by
  rcases List.mem_map.mp (List.mem_filter.mp listed).1 with ⟨old, oldMem, rfl⟩
  exact ⟨old.2, oldMem, rfl⟩

/-- What the cancellation of one order of `own` leaves of a book. -/
structure Deletes (book last : MEOrderBook) (side : Side) (elem : ℕ) (own others : List Entry) :
    Prop where
  arranged : Arranged last side (dropOrder elem own) others
  view : last.view (dropOrder elem own) =
    dropKey (book.orderData elem).clientId (book.orderData elem).clientOrderId (book.view own)
  data : last.orderData = book.orderData
  first : ∀ atPrice ∈ levelsOf (dropOrder elem own), book.firstMeOrder atPrice ≠ some elem →
    last.firstMeOrder atPrice = book.firstMeOrder atPrice
  head : ∀ atPrice ∈ levelsOf (dropOrder elem own), book.removalHead side = some atPrice →
    last.removalHead side = some atPrice
  otherView : last.view others = book.view others
  otherHead : last.removalHead side.opposite = book.removalHead side.opposite
  otherLevels : ∀ atPrice ∈ levelsOf others, last.level atPrice = book.level atPrice
  otherOrders : ∀ other ∈ ordersOf others, last.order other = book.order other

/-- The first order of a level moves only when it was the dropped one. -/
theorem first_dropOrder (dir : Directory book (own ++ others))
    (dir' : Directory last (dropOrder elem own ++ others))
    (listed : atPrice ∈ levelsOf (dropOrder elem own))
    (different : book.firstMeOrder atPrice ≠ some elem) :
    last.firstMeOrder atPrice = book.firstMeOrder atPrice := by
  rcases List.mem_map.mp listed with ⟨entry, entryMem, rfl⟩
  rcases exists_of_mem_dropOrder entryMem with ⟨orders, oldMem, remaining⟩
  have before := dir.first _ (List.mem_append_left others oldMem)
  have after := dir'.first _ (List.mem_append_left others entryMem)
  rw [after, before, remaining]
  rw [before] at different
  cases orders with
  | nil => rfl
  | cons head tail =>
      have kept : head ≠ elem := by simpa using different
      rw [List.filter_cons_of_pos (by simpa using kept)]
      rfl

/-- The head pointer moves only when its level is gone. -/
theorem head_dropOrder (nodup : (levelsOf own).Nodup)
    (ring : HeadsRing book.nextEntry book.prevEntry (book.removalHead side) (levelsOf own))
    (ring' : HeadsRing last.nextEntry last.prevEntry (last.removalHead side)
      (levelsOf (dropOrder elem own)))
    (listed : atPrice ∈ levelsOf (dropOrder elem own))
    (heads : book.removalHead side = some atPrice) : last.removalHead side = some atPrice := by
  rw [ring'.1]
  rw [ring.1] at heads
  cases own with
  | nil => cases heads
  | cons entry rest =>
      have same : entry.1 = atPrice := Option.some.inj heads
      rw [← List.singleton_append, dropOrder_append] at listed ⊢
      by_cases emptied : entry.2.filter (· ≠ elem) = []
      · have gone : dropOrder elem [entry] = [] := by
          simp only [dropOrder, List.map_cons, List.map_nil]
          rw [List.filter_cons_of_neg (by simpa using emptied)]
          rfl
        rw [gone, List.nil_append] at listed
        have inRest := levelsOf_dropOrder_sublist.subset listed
        exact absurd (same ▸ inRest) (List.nodup_cons.mp nodup).1
      · have kept : dropOrder elem [entry] = [(entry.1, entry.2.filter (· ≠ elem))] := by
          simp only [dropOrder, List.map_cons, List.map_nil]
          rw [List.filter_cons_of_pos (by simpa using emptied)]
          rfl
        rw [kept, ← same]
        rfl

/-- Cancelling any resting order of an arranged book returns, deletes exactly that order and sends
one CANCELED response and one CANCEL update about it. -/
theorem Arranged.cancel_deletes (tickerId : TickerId) (arranged : Arranged book side own others)
    (trades : side ≠ .invalid) (listed : elem ∈ ordersOf own) :
    ∃ last, MEOrderBook.cancel (book.orderData elem).clientId (book.orderData elem).clientOrderId
        tickerId book = .ok ⟨⟩ last ∧
      Deletes book last side elem own others ∧
      last.responses = book.responses ++ [cancelResponse (book.orderData elem).clientId
        (book.orderData elem).clientOrderId tickerId (book.orderData elem)] ∧
      last.updates = book.updates ++ [cancelUpdate tickerId (book.orderData elem)] := by
  rcases List.mem_flatMap.mp listed with ⟨⟨atPrice, orders⟩, entryMem, elemMem⟩
  rcases List.append_of_mem entryMem with ⟨front, back, split⟩
  rcases List.append_of_mem elemMem with ⟨before, after, rfl⟩
  rcases arranged.cancel tickerId trades split with
    ⟨last, ran, kept, shrinks, data, sentResponses, sentUpdates⟩
  have dropped : dropOrder elem own = takeOut front atPrice (before ++ after) back := by
    have ordersNodup := arranged.directory.ordersNodup
    rw [ordersOf, List.flatMap_append, List.nodup_append'] at ordersNodup
    exact dropOrder_eq ordersNodup.1
      (fun entry entryMem => arranged.directory.ne_nil (List.mem_append_left _ entryMem)) split
  rw [← dropped] at kept shrinks
  have levelsNodup := arranged.directory.levelsNodup
  rw [levelsOf, List.map_append, List.nodup_append'] at levelsNodup
  have ordersListed : ∀ {other}, other ∈ ordersOf own → other ∈ ordersOf (own ++ others) := by
    intro other otherMem
    rw [ordersOf, List.flatMap_append]
    exact List.mem_append_left _ otherMem
  refine ⟨last, ran, ⟨kept, ?_, data, ?_, ?_, ?_, ?_, ?_, ?_⟩, sentResponses, sentUpdates⟩
  · rw [view_congr shrinks.levelPrice fun other _ => congrFun data other]
    exact view_dropOrder fun other otherMem different =>
      arranged.directory.key_ne (ordersListed listed) (ordersListed otherMem) different
  · exact fun atPrice stays different =>
      first_dropOrder arranged.directory kept.directory stays different
  · exact fun atPrice stays heads =>
      head_dropOrder levelsNodup.1 arranged.ladder.ring kept.ladder.ring stays heads
  · exact view_congr shrinks.levelPrice fun other _ => congrFun data other
  · rw [removalHead_opposite _ _ trades, shrinks.otherHead, ← removalHead_opposite _ _ trades]
  · intro atPrice otherMem
    rcases List.mem_map.mp otherMem with ⟨entry, entryMem, rfl⟩
    have links := shrinks.links entry.1 fun inOwn => levelsNodup.2.2 inOwn otherMem
    have first := arranged.directory.first entry (List.mem_append_right _ entryMem)
    have first' := kept.directory.first entry (List.mem_append_right _ entryMem)
    exact level_ext (congrFun shrinks.levelSide _) (congrFun shrinks.levelPrice _)
      (first'.trans first.symm) links.1 links.2
  · intro other otherMem
    rcases List.mem_flatMap.mp otherMem with ⟨entry, entryMem, inEntry⟩
    have ring := arranged.directory.ring entry (List.mem_append_right _ entryMem)
    have ring' := kept.directory.ring entry (List.mem_append_right _ entryMem)
    have links := ring.links_eq ring' inEntry
    exact order_ext (congrFun data other) links.1 links.2

theorem cancel_deletes_sample :
    ∃ last, MEOrderBook.cancel 1 1 0 sampleBook = .ok ⟨⟩ last ∧
      Deletes sampleBook last .sell 0 [(0, [0, 1])] [(1, [2])] ∧
      last.responses = [cancelResponse 1 1 0 (sampleBook.orderData 0)] ∧
      last.updates = [cancelUpdate 0 (sampleBook.orderData 0)] :=
  sampleBook_wellFormed.arranged.cancel_deletes 0 (by decide)
    (show 0 ∈ ordersOf [(0, [0, 1])] by decide)

section EveryKey

variable {clientId : ClientId} {orderId : OrderId} {asks bids : List Entry}

/-- The order has the key. -/
def HasKey (book : MEOrderBook) (clientId : ClientId) (orderId : OrderId) (elem : ℕ) : Prop :=
  (book.orderData elem).clientId = clientId ∧ (book.orderData elem).clientOrderId = orderId

/-- `cancel` returns and sends one response with the key it was given, CANCELED if an order with
that key rests and else CANCEL_REJECTED; a rejection sends no update and changes neither the pools,
the maps nor the head pointers. -/
def CancelsCleanly (book : MEOrderBook) (clientId : ClientId) (orderId : OrderId)
    (tickerId : TickerId) : Prop :=
  ∃ last response, cancel clientId orderId tickerId book = .ok ⟨⟩ last ∧
    last.responses = book.responses ++ [response] ∧
    response.clientId = clientId ∧ response.clientOrderId = orderId ∧
    (response.type = .canceled ↔ ∃ elem, Resting book elem ∧ HasKey book clientId orderId elem) ∧
    (response.type = .cancelRejected ↔
      ¬∃ elem, Resting book elem ∧ HasKey book clientId orderId elem) ∧
    (response.type = .cancelRejected → SameMemory book last ∧
      last.bidsByPrice = book.bidsByPrice ∧ last.asksByPrice = book.asksByPrice ∧
      last.updates = book.updates)

/-- `at` throws for an order id beyond the inner map. -/
theorem run_cancel_outside (client : clientId.toNat < meMaxNumClients)
    (beyond : meMaxOrderIds ≤ orderId.toNat) :
    MEOrderBook.cancel clientId orderId tickerId book = .error .outOfRange book := by
  have outside : ¬KeyInRange clientId orderId := fun range =>
    absurd range.2 (Nat.not_lt.mpr beyond)
  rw [MEOrderBook.cancel, if_pos client]
  apply run_bind_of_error
  rw [loadKey, run_get_bind, if_neg outside]
  rfl

/-- No resting order has a key that leads nowhere. -/
theorem Directory.not_hasKey_of_unknown (dir : Directory book levels)
    (unknown : KeyUnknown book clientId orderId) :
    ¬∃ elem, Resting book elem ∧ HasKey book clientId orderId elem := by
  rintro ⟨elem, resting, rfl, rfl⟩
  obtain ⟨range, held⟩ := dir.key elem (dir.resting_iff.mp resting)
  rcases unknown with outside | ⟨_, free⟩
  · exact absurd range.1 (Nat.not_lt.mpr outside)
  · rw [held] at free
    cases free

theorem cancelsCleanly_unknown (dir : Directory book levels)
    (unknown : KeyUnknown book clientId orderId) :
    CancelsCleanly book clientId orderId tickerId := by
  have absent := dir.not_hasKey_of_unknown unknown
  refine ⟨_, rejectResponse clientId orderId tickerId, run_cancel_unknown unknown, rfl, rfl, rfl,
    ?_, ?_, ?_⟩
  · exact iff_of_false (fun canceled => by cases canceled) absent
  · exact iff_of_true rfl absent
  · exact fun _ => ⟨⟨rfl, rfl, rfl, rfl⟩, rfl, rfl, rfl⟩

/-- The key of a listed order is cancelled, whichever side the order rests on. -/
theorem Arranged.cancelsCleanly_listed (arranged : Arranged book side own others)
    (trades : side ≠ .invalid) (listed : elem ∈ ordersOf own)
    (hasKey : HasKey book clientId orderId elem) :
    CancelsCleanly book clientId orderId tickerId := by
  obtain ⟨rfl, rfl⟩ := hasKey
  obtain ⟨⟨atPrice, orders⟩, entryMem, elemMem⟩ := List.mem_flatMap.mp listed
  obtain ⟨front, back, split⟩ := List.append_of_mem entryMem
  obtain ⟨before, after, rfl⟩ := List.append_of_mem elemMem
  obtain ⟨last, ran, _, _, _, sent, _⟩ := arranged.cancel tickerId trades split
  have resting : Resting book elem := by
    apply arranged.directory.resting_iff.mpr
    rw [ordersOf, List.flatMap_append]
    exact List.mem_append_left _ listed
  refine ⟨last, _, ran, sent, rfl, rfl, ?_, ?_, ?_⟩
  · exact iff_of_true rfl ⟨elem, resting, rfl, rfl⟩
  · exact iff_of_false (fun rejected => by cases rejected)
      (not_not_intro ⟨elem, resting, rfl, rfl⟩)
  · intro rejected
    cases rejected

/-- `cancel` meets every key but those with an order id beyond the inner map and a client id that
passes the check of the outer one: the order id has no check. -/
theorem cancelsCleanly_iff (wellFormed : WellFormed book .sell asks bids) (clientId : ClientId)
    (orderId : OrderId) (tickerId : TickerId) :
    CancelsCleanly book clientId orderId tickerId ↔
      ¬(clientId.toNat < meMaxNumClients ∧ meMaxOrderIds ≤ orderId.toNat) := by
  have dir := wellFormed.directory
  constructor
  · rintro ⟨last, response, ran, _⟩ ⟨client, beyond⟩
    rw [run_cancel_outside client beyond] at ran
    cases ran
  · intro checked
    by_cases client : clientId.toNat < meMaxNumClients
    · have range : KeyInRange clientId orderId :=
        ⟨client, Nat.lt_of_not_le fun beyond => checked ⟨client, beyond⟩⟩
      cases held : book.cidOidToOrder clientId orderId with
      | none => exact cancelsCleanly_unknown dir (.inr ⟨range, held⟩)
      | some elem =>
          obtain ⟨listed, hasKey⟩ := dir.keyOnly clientId orderId elem range held
          rw [ordersOf, List.flatMap_append] at listed
          rcases List.mem_append.mp listed with asking | bidding
          · exact wellFormed.arranged.cancelsCleanly_listed (by decide) asking hasKey
          · exact wellFormed.swap.arranged.cancelsCleanly_listed (by decide) bidding hasKey
    · exact cancelsCleanly_unknown dir (.inl (Nat.le_of_not_lt client))

theorem cancelsCleanly_iff_sample : CancelsCleanly sampleBook 1 2 0 :=
  (cancelsCleanly_iff sampleBook_wellFormed 1 2 0).mpr (by decide)

/-- A client's order id of 2^20, the first that the inner map does not have. -/
theorem not_cancelsCleanly_beyond : ¬CancelsCleanly sampleBook 1 1048576 0 := by
  rintro ⟨last, response, ran, _⟩
  rw [run_cancel_outside (by decide) (by decide)] at ran
  cases ran

end EveryKey

end QuantEngine.MEOrderBook
