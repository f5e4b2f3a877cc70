import QuantEngine.Runs.Operation

/-!
# Construction

The constructor sets the head pointers and the pools; the two lookup maps keep
what the storage held. The destructor fills the key map with null pointers, the
constructor does not. Whether a constructed book behaves like an empty one
therefore depends on the storage alone.
-/

namespace QuantEngine.MEOrderBook

open Exec Runs

variable {book last : MEOrderBook} {ops : List Op} {op : Op} {result : Option Quantity}
  {order : RestingOrder} {done : PUnit} {clientId : ClientId} {orderId : OrderId} {elem index : ℕ}

/-- Every entry of the two lookup maps is null. -/
structure NullMaps (book : MEOrderBook) : Prop where
  keys : ∀ clientId orderId, KeyInRange clientId orderId →
    book.cidOidToOrder clientId orderId = none
  slots : ∀ index, index < meMaxPriceLevels → book.priceOrdersAtPrice index = none

/-- The order a call that returns has rested: a submitted order is rested with what matching leaves
of it, and one that was wholly matched is not. -/
def Op.rested (op : Op) (book : MEOrderBook) : Option RestingOrder :=
  match op with
  | .submit submission =>
      match matchSubmission submission book.nextMarketOrderId (book.accepting submission) with
      | .ok leftQuantity _ =>
          if leftQuantity ≠ 0 then
            some (submission.leftover book.nextMarketOrderId leftQuantity)
          else none
      | .error _ _ => none
  | .rest order => some order
  | _ => none

/-- The order has this key. -/
def UnderKey (clientId : ClientId) (orderId : OrderId) (order : RestingOrder) : Prop :=
  order.clientId = clientId ∧ order.clientOrderId = orderId

/-- The order's price has this slot. -/
def InSlot (index : ℕ) (order : RestingOrder) : Prop := priceToIndex order.price = index

/-- Any call that rests no order of the kind. -/
def Op.RestsNone (kind : RestingOrder → Prop) (book : MEOrderBook) (op : Op) : Prop :=
  ∀ order, op.rested book = some order → ¬kind order

/-- A call that returns fills at most the entries of the order it rests. -/
structure Fills (op : Op) (book last : MEOrderBook) : Prop where
  cursors : CursorsInRange last
  key : ∀ clientId orderId elem, last.cidOidToOrder clientId orderId = some elem →
    book.cidOidToOrder clientId orderId = some elem ∨
      ∃ order, op.rested book = some order ∧ UnderKey clientId orderId order
  slot : ∀ index elem, last.priceOrdersAtPrice index = some elem →
    book.priceOrdersAtPrice index = some elem ∨
      ∃ order, op.rested book = some order ∧ InSlot index order

theorem Fills.of_retires (retires : Retires book last) (cursors : CursorsInRange book) :
    Fills op book last :=
  ⟨retires.cursors cursors, fun _ _ _ held => Or.inl (retires.key _ _ _ held),
    fun _ _ held => Or.inl (retires.slot _ _ held)⟩

/-- Resting an order fills the entries of that order. -/
theorem Fills.of_rests {middle : MEOrderBook} (rests : Rests middle last order elem)
    (rested : op.rested book = some order)
    (keys : ∀ clientId orderId elem, middle.cidOidToOrder clientId orderId = some elem →
      book.cidOidToOrder clientId orderId = some elem)
    (slots : ∀ index elem, middle.priceOrdersAtPrice index = some elem →
      book.priceOrdersAtPrice index = some elem) : Fills op book last where
  cursors := rests.cursors
  key clientId orderId other held := by
    rw [rests.cidOidToOrder] at held
    split at held
    case isTrue same => exact Or.inr ⟨order, rested, same.1.symm, same.2.symm⟩
    case isFalse => exact Or.inl (keys _ _ _ held)
  slot index other held := by
    by_cases same : index = priceToIndex order.price
    · exact Or.inr ⟨order, rested, same.symm⟩
    · rw [rests.slot index same] at held
      exact Or.inl (slots _ _ held)

theorem fills_of_exec (cursors : CursorsInRange book) (ran : op.exec book = .ok result last) :
    Fills op book last := by
  rcases op with submission | ⟨clientId, orderId, tickerId⟩ | ⟨aggressor, price, qty⟩ | order | elem
  all_goals rcases run_bind_eq_ok_iff.mp ran with ⟨_, _, ran, returned⟩
  all_goals cases returned
  · rcases submitBy_cases ran with ⟨leftQuantity, middle, matched, settled⟩
    have retires := Retires.of_checkForMatch (submission.aggressor book.nextMarketOrderId) matched
    have cursors' : CursorsInRange middle := retires.cursors ⟨cursors.order, cursors.level⟩
    rcases settle_cases settled with ⟨-, rfl⟩ | ⟨rested, left, linked, rfl⟩
    · exact ⟨cursors', fun _ _ _ held => Or.inl (retires.key _ _ _ held),
        fun _ _ held => Or.inl (retires.slot _ _ held)⟩
    · rcases rests_of_run cursors' linked with ⟨elem, rests⟩
      have leftover : (Op.submit submission).rested book =
          some (submission.leftover book.nextMarketOrderId leftQuantity) := by
        rw [Op.rested, matched]
        exact if_pos left
      have fills : Fills (.submit submission) book rested :=
        Fills.of_rests rests leftover retires.key retires.slot
      exact ⟨⟨fills.cursors.order, fills.cursors.level⟩, fills.key, fills.slot⟩
  · exact Fills.of_retires (Retires.of_cancel ran) cursors
  · exact Fills.of_retires (Retires.of_checkForMatch aggressor ran) cursors
  · rcases rests_of_run cursors ran with ⟨elem, rests⟩
    exact Fills.of_rests rests rfl (fun _ _ _ held => held) fun _ _ held => held
  · exact Fills.of_retires (removesOrder_of_run ran).retires cursors

/-- An entry of a lookup map stays null in a run that rests no order of the kind that fills it. -/
theorem entry_null_of_run {kind : RestingOrder → Prop} (entry : MEOrderBook → Pointer)
    (filled : ∀ {op book last}, Fills op book last → ∀ elem, entry last = some elem →
      entry book = some elem ∨ ∃ order, op.rested book = some order ∧ kind order)
    (cursors : CursorsInRange book) (null : entry book = none)
    (run : Run (Op.Step (Op.RestsNone kind)) book ops last) :
    CursorsInRange last ∧ entry last = none := by
  induction run with
  | nil => exact ⟨cursors, null⟩
  | snoc _ stepped ih =>
      rcases stepped with ⟨restsNone, result, ran⟩
      have fills := fills_of_exec ih.1 ran
      refine ⟨fills.cursors, Option.eq_none_iff_forall_ne_some.mpr fun elem held => ?_⟩
      rcases filled fills elem held with before | ⟨order, rested, own⟩
      · rw [ih.2] at before
        cases before
      · exact restsNone order rested own

/-- The order opens a level: its slot was empty and leads to a new level that the order heads. -/
def OpensLevel (book last : MEOrderBook) (price : Price) : Prop :=
  book.priceOrdersAtPrice (priceToIndex price) = none ∧
    ∃ atPrice elem, ¬book.LevelInUse atPrice ∧ last.LevelInUse atPrice ∧
      last.priceOrdersAtPrice (priceToIndex price) = some atPrice ∧
      last.firstMeOrder atPrice = some elem ∧ ¬book.OrderInUse elem ∧ last.OrderInUse elem

/-- What is expected of a constructed book: null maps and head pointers and, in every run from it,
that a key under which no order was rested is rejected without a market update and that the first
order rested in a slot opens a level. -/
structure Constructed (book : MEOrderBook) : Prop where
  nullMaps : NullMaps book
  bids : book.bidsByPrice = none
  asks : book.asksByPrice = none
  rejects : ∀ clientId orderId, KeyInRange clientId orderId → ∀ ops last,
    Run (Op.Step (Op.RestsNone (UnderKey clientId orderId))) book ops last → ∀ tickerId,
      ∃ next, cancel clientId orderId tickerId last = .ok ⟨⟩ next ∧
        next.responses = last.responses ++ [rejectResponse clientId orderId tickerId] ∧
        next.updates = last.updates
  opens : ∀ order ops last,
    Run (Op.Step (Op.RestsNone (InSlot (priceToIndex order.price)))) book ops last → ∀ next,
      restOrder order last = .ok ⟨⟩ next → OpensLevel last next order.price
  submitOpens : ∀ submission ops last,
    Run (Op.Step (Op.RestsNone (InSlot (priceToIndex submission.price)))) book ops last →
      ∀ leftQuantity middle next,
        matchSubmission submission last.nextMarketOrderId (last.accepting submission) =
            .ok leftQuantity middle →
          restOrder (submission.leftover last.nextMarketOrderId leftQuantity) middle =
              .ok ⟨⟩ next →
            OpensLevel middle next submission.price

theorem opensLevel_of_run (cursors : CursorsInRange book)
    (free : book.priceOrdersAtPrice (priceToIndex order.price) = none)
    (ran : restOrder order book = .ok done last) : OpensLevel book last order.price := by
  rcases rests_of_run cursors ran with ⟨elem, rests⟩
  rcases rests.opens free with ⟨atPrice, unused, used, held, first⟩
  exact ⟨free, atPrice, elem, unused, used, held, first, rests.fresh,
    (rests.orderInUse elem).mpr (Or.inl rfl)⟩

/-- A constructed book is as expected exactly when the storage held null maps. -/
theorem constructed_iff (prior : MEOrderBook) (tickerId : TickerId) :
    Constructed (construct prior tickerId) ↔ NullMaps prior := by
  constructor
  · intro constructed
    exact ⟨constructed.nullMaps.keys, constructed.nullMaps.slots⟩
  · intro null
    have start : CursorsInRange (construct prior tickerId) := by
      refine ⟨?_, ?_⟩
      · change 0 < meMaxOrderIds
        decide
      · change 0 < meMaxPriceLevels
        decide
    have slotNull : ∀ {index ops last}, index < meMaxPriceLevels →
        Run (Op.Step (Op.RestsNone (InSlot index))) (construct prior tickerId) ops last →
          CursorsInRange last ∧ last.priceOrdersAtPrice index = none := fun bound run =>
      entry_null_of_run (fun book => book.priceOrdersAtPrice _) (fun fills => fills.slot _) start
        (null.slots _ bound) run
    refine ⟨⟨null.keys, null.slots⟩, rfl, rfl, ?_, ?_, ?_⟩
    · intro clientId orderId range ops last run ticker
      have free := (entry_null_of_run (fun book => book.cidOidToOrder clientId orderId)
        (fun fills => fills.key clientId orderId) start (null.keys _ _ range) run).2
      exact ⟨_, run_cancel_unknown (Or.inr ⟨range, free⟩), rfl, rfl⟩
    · intro order ops last run next ran
      rcases slotNull (priceToIndex_lt _) run with ⟨cursors, free⟩
      exact opensLevel_of_run cursors free ran
    · intro submission ops last run leftQuantity middle next matched ran
      rcases slotNull (priceToIndex_lt _) run with ⟨cursors, slotFree⟩
      have retires := Retires.of_checkForMatch (submission.aggressor last.nextMarketOrderId) matched
      have free : middle.priceOrdersAtPrice (priceToIndex submission.price) = none := by
        refine Option.eq_none_iff_forall_ne_some.mpr fun elem held => ?_
        have before : last.priceOrdersAtPrice _ = some elem := retires.slot _ _ held
        rw [slotFree] at before
        cases before
      exact opensLevel_of_run (retires.cursors ⟨cursors.order, cursors.level⟩) free ran

/-- Storage whose key map leads every key to the first order block. -/
def staleStorage : MEOrderBook := { empty 0 with cidOidToOrder := fun _ _ => some 0 }

/-- On such storage, cancelling a key that was never used rejects nothing: it follows the stale
pointer and crashes. -/
theorem not_constructed_on_staleStorage :
    ¬Constructed (construct staleStorage 0) ∧
      cancel 1 1 0 (construct staleStorage 0) =
        .error .nullPointer ((construct staleStorage 0).canceling 1 1 0 0) := by
  constructor
  · intro constructed
    have null := constructed.nullMaps.keys 1 1 (by decide)
    cases null
  · rw [run_cancel_held (by decide) rfl (by decide)]
    rfl

end QuantEngine.MEOrderBook
