import QuantEngine.Runs.KeyIndex

/-!
# Crossed books

`addOrderAtPrice` puts a BUY level under `asks_by_price_` and a SELL level under
`bids_by_price_`, and `checkForMatch` reads the former for a BUY and the latter
for a SELL. So an incoming order does not meet the orders of the other side,
and the book is crossed as soon as one of them lies within its limit.
-/

namespace QuantEngine.MEOrderBook

open Exec Runs

variable {book last : MEOrderBook} {lo : Price} {submission : Submission} {ops : List Op}
  {tickerId : TickerId} {done : PUnit} {leftQuantity : Quantity}

/-- Calls of clients: orders and cancellations. -/
def Op.IsTrading : Op → Prop
  | .submit _ => True
  | .cancel _ _ _ => True
  | _ => False

instance (op : Op) : Decidable op.IsTrading :=
  match op with
  | .submit _ => inferInstanceAs (Decidable True)
  | .cancel .. => inferInstanceAs (Decidable True)
  | .checkForMatch .. => inferInstanceAs (Decidable False)
  | .rest _ => inferInstanceAs (Decidable False)
  | .removeOrder _ => inferInstanceAs (Decidable False)

/-- Every resting BUY order is priced strictly below every resting SELL order. -/
def Uncrossed (book : MEOrderBook) : Prop :=
  ∀ bid ask, Resting book bid → Resting book ask → (book.orderData bid).side = .buy →
    (book.orderData ask).side = .sell → (book.orderData bid).price < (book.orderData ask).price

/-- A resting order of the opposite side lies within the limit of the submitted order. -/
def Reaches (book : MEOrderBook) (submission : Submission) : Prop :=
  submission.qty ≠ 0 ∧ ∃ elem, Resting book elem ∧
    (book.orderData elem).side = submission.side.opposite ∧
    beyondLimit submission.side submission.price (book.orderData elem).price = false

def Op.Reaches (book : MEOrderBook) : Op → Prop
  | .submit submission => MEOrderBook.Reaches book submission
  | _ => False

theorem matchSubmission_zero {marketOrderId : OrderId} (nothing : submission.qty = 0)
    (ran : matchSubmission submission marketOrderId book = .ok leftQuantity last) :
    leftQuantity = 0 := by
  by_cases trades : (submission.aggressor marketOrderId).side = .invalid
  · have invalid : submission.side = .invalid := trades
    rw [matchSubmission, invalid, run_checkForMatch_invalid] at ran
    cases ran
    exact nothing
  · have looped : matchSubmission submission marketOrderId book =
        loopBy (submission.aggressor marketOrderId)
          (fun book => book.removalHead submission.side.opposite)
          (beyondLimit submission.side submission.price) (book.orderPool.numElems + 2)
          submission.qty book := run_checkForMatch _ trades
    rw [looped, loopBy_stop (Or.inl nothing)] at ran
    cases ran
    exact nothing

/-- Orders that only leave or shrink do not cross the book. -/
theorem Uncrossed.of_retires (uncrossed : Uncrossed book) (retires : Retires book last)
    (indexed : Indexed book) (indexed' : Indexed last) : Uncrossed last := by
  intro bid ask bidRests askRests buys sells
  rw [indexed'.resting_iff] at bidRests askRests
  rw [retires.side] at buys sells
  rw [retires.price, retires.price]
  exact uncrossed bid ask (indexed.resting_iff.mpr (retires.orderInUse bid bidRests))
    (indexed.resting_iff.mpr (retires.orderInUse ask askRests)) buys sells

/-- Every order that rests after `submit` rested before, or is what was left of the submitted
order. -/
theorem submitBy_orders {elem : ℕ} (cursors : CursorsInRange book)
    (ran : submitBy submission book = .ok done last) (used : last.OrderInUse elem) :
    (book.OrderInUse elem ∧ last.orderData elem =
        { book.orderData elem with quantity := (last.orderData elem).quantity }) ∨
      (submission.qty ≠ 0 ∧ ∃ leftQuantity, leftQuantity ≠ 0 ∧
        last.orderData elem = submission.leftover book.nextMarketOrderId leftQuantity) := by
  rcases submitBy_cases ran with ⟨leftQuantity, middle, matched, settled⟩
  have retires := Retires.of_checkForMatch (submission.aggressor book.nextMarketOrderId) matched
  have cursors' : CursorsInRange middle := retires.cursors ⟨cursors.order, cursors.level⟩
  rcases settle_cases settled with ⟨-, rfl⟩ | ⟨rested, nonzero, linked, rfl⟩
  · exact Or.inl ⟨retires.orderInUse elem used, retires.orderData elem⟩
  · rcases rests_of_run cursors' linked with ⟨new, rests⟩
    have data : (rested.announcing (submission.addUpdate book.nextMarketOrderId
        leftQuantity)).orderData elem = rested.orderData elem := rfl
    rw [data, rests.orderData]
    rcases (rests.orderInUse elem).mp used with isNew | isOld
    · rw [if_pos isNew]
      exact Or.inr ⟨fun nothing => nonzero (matchSubmission_zero nothing matched), leftQuantity,
        nonzero, rfl⟩
    · have different : elem ≠ new := by
        rintro rfl
        exact rests.fresh isOld
      rw [if_neg different]
      exact Or.inl ⟨retires.orderInUse elem isOld, retires.orderData elem⟩

/-- A submitted order that reaches no resting order of the opposite side leaves the book
uncrossed, whatever it traded with. -/
theorem Uncrossed.submit (uncrossed : Uncrossed book) (consistent : Consistent lo book)
    (legal : (Op.submit submission).Legal lo book) (apart : ¬MEOrderBook.Reaches book submission)
    (ran : submitBy submission book = .ok done last) : Uncrossed last := by
  have consistent' := consistent.submit legal.2.2.1 legal.2.2.2 ran
  have beyond : ∀ elem, book.OrderInUse elem → submission.qty ≠ 0 →
      (book.orderData elem).side = submission.side.opposite →
        beyondLimit submission.side submission.price (book.orderData elem).price = true := by
    intro elem used nonzero opposite
    by_contra within
    exact apart ⟨nonzero, elem, consistent.indexed.resting_iff.mpr used, opposite,
      eq_false_of_ne_true within⟩
  intro bid ask bidRests askRests buys sells
  rw [consistent'.indexed.resting_iff] at bidRests askRests
  -- Each of the two either rested before, with the same side and price, or was submitted.
  have origin : ∀ elem, last.OrderInUse elem →
      (book.OrderInUse elem ∧ (last.orderData elem).side = (book.orderData elem).side ∧
        (last.orderData elem).price = (book.orderData elem).price) ∨
      (submission.qty ≠ 0 ∧ (last.orderData elem).side = submission.side ∧
        (last.orderData elem).price = submission.price) := by
    intro elem used
    rcases submitBy_orders consistent.cursors ran used with
      ⟨before, data⟩ | ⟨nonzero, leftQuantity, -, data⟩
    · exact Or.inl ⟨before, by rw [data], by rw [data]⟩
    · exact Or.inr ⟨nonzero, by rw [data]; rfl, by rw [data]; rfl⟩
  rcases origin bid bidRests with
    ⟨bidUsed, bidSide, bidPrice⟩ | ⟨nonzero, bidSide, bidPrice⟩ <;>
  rcases origin ask askRests with
    ⟨askUsed, askSide, askPrice⟩ | ⟨nonzero', askSide, askPrice⟩
  · rw [bidPrice, askPrice]
    exact uncrossed bid ask (consistent.indexed.resting_iff.mpr bidUsed)
      (consistent.indexed.resting_iff.mpr askUsed) (bidSide.symm.trans buys)
      (askSide.symm.trans sells)
  · have submitted := askSide.symm.trans sells
    have apart := beyond bid bidUsed nonzero' (by rw [submitted, ← bidSide, buys]; rfl)
    rw [submitted] at apart
    rw [bidPrice, askPrice]
    simpa [beyondLimit] using apart
  · have submitted := bidSide.symm.trans buys
    have apart := beyond ask askUsed nonzero (by rw [submitted, ← askSide, sells]; rfl)
    rw [submitted] at apart
    rw [bidPrice, askPrice]
    simpa [beyondLimit] using apart
  · cases (bidSide.symm.trans buys).symm.trans (askSide.symm.trans sells)

/-- The calls of a run whose submitted orders reach no resting order of the opposite side. -/
def ApartCalls (lo : Price) (book : MEOrderBook) (op : Op) : Prop :=
  op.IsTrading ∧ op.Legal lo book ∧ ¬op.Reaches book

theorem Uncrossed.step {op : Op} {result : Option Quantity} (uncrossed : Uncrossed book)
    (consistent : Consistent lo book) (apart : ApartCalls lo book op)
    (ran : op.exec book = .ok result last) : Uncrossed last := by
  rcases apart with ⟨trading, legal, apart⟩
  have consistent' := consistent.step legal ran
  cases op with
  | submit submission =>
      rcases run_bind_eq_ok_iff.mp ran with ⟨_, _, ran, returned⟩
      cases returned
      exact uncrossed.submit consistent legal apart ran
  | cancel clientId orderId tickerId =>
      rcases run_bind_eq_ok_iff.mp ran with ⟨_, _, ran, returned⟩
      cases returned
      exact uncrossed.of_retires (Retires.of_cancel ran) consistent.indexed consistent'.indexed
  | checkForMatch aggressor price qty => exact absurd trading id
  | rest order => exact absurd trading id
  | removeOrder elem => exact absurd trading id

/-- A run of client calls keeps the book uncrossed as long as no submitted order reaches a
resting order of the opposite side. -/
theorem uncrossed_of_run (run : Run (Op.Step (ApartCalls lo)) (empty tickerId) ops last) :
    Uncrossed last := by
  have start : Uncrossed (empty tickerId) := by
    rintro bid ask ⟨_, used, -⟩
    cases used.2
  refine (run.invariant (fun book => Consistent lo book ∧ Uncrossed book)
    ⟨Consistent.empty lo tickerId, start⟩ ?_).2
  rintro book op next ⟨consistent, uncrossed⟩ ⟨apart, result, ran⟩
  exact ⟨consistent.step apart.2.1 ran, uncrossed.step consistent apart ran⟩

/-- An order of ticker 0. -/
def limitOrder (clientId : ClientId) (side : Side) (price : Price) (qty : Quantity) :
    Submission where
  priority := 1
  clientId := clientId
  orderId := 1
  tickerId := 0
  side := side
  price := price
  qty := qty

theorem uncrossed_of_run_sample :
    ∃ last, Uncrossed last ∧ last.OrderInUse 0 ∧ last.OrderInUse 1 := by
  have executed : (Op.next (Op.Legal 0) (empty 0) (.submit (limitOrder 1 .sell 20 5))).any
      (fun middle => (Op.next (Op.Legal 0) middle (.submit (limitOrder 2 .buy 10 5))).any
        fun last => last.OrderInUse 0 ∧ last.OrderInUse 1) = true := by
    decide +kernel
  rcases (Option.any_eq_true _ _).mp executed with ⟨middle, reached, executed⟩
  rcases (Option.any_eq_true _ _).mp executed with ⟨last, reached', facts⟩
  rcases Op.step_of_next reached with ⟨legal, result, ran⟩
  rcases Op.step_of_next reached' with ⟨legal', result', ran'⟩
  have start := Consistent.empty 0 0
  have apart : ApartCalls 0 (empty 0) (.submit (limitOrder 1 .sell 20 5)) := by
    refine ⟨trivial, legal, ?_⟩
    rintro ⟨-, elem, ⟨_, used, -⟩, -⟩
    cases used.2
  have apart' : ApartCalls 0 middle (.submit (limitOrder 2 .buy 10 5)) := by
    refine ⟨trivial, legal', ?_⟩
    rintro ⟨-, elem, rests, -, within⟩
    rw [(start.step legal ran).indexed.resting_iff] at rests
    rcases run_bind_eq_ok_iff.mp ran with ⟨_, _, submitted, returned⟩
    cases returned
    rcases submitBy_orders start.cursors submitted rests with ⟨used, -⟩ | ⟨-, _, -, data⟩
    · cases used.2
    · rw [data] at within
      simp [beyondLimit, limitOrder, Submission.leftover] at within
  have step : Op.Step (ApartCalls 0) (empty 0) _ middle := ⟨apart, result, ran⟩
  have step' : Op.Step (ApartCalls 0) middle _ last := ⟨apart', result', ran'⟩
  exact ⟨last, uncrossed_of_run ((Run.nil.snoc step).snoc step'), of_decide_eq_true facts⟩

/-- A BUY above a resting SELL rests next to it. -/
theorem crossed_of_buy_above_sell :
    ∃ last, Run (Op.Step fun book op => op.IsTrading ∧ op.Legal 0 book) (empty 0)
        [.submit (limitOrder 1 .sell 10 5), .submit (limitOrder 2 .buy 20 5)] last ∧
      ¬Uncrossed last := by
  have executed : (execute (Op.next fun book op => op.IsTrading ∧ op.Legal 0 book) (empty 0)
      [.submit (limitOrder 1 .sell 10 5), .submit (limitOrder 2 .buy 20 5)]).any (fun book =>
        (book.LevelInUse 0 ∧ book.firstMeOrder 0 = some 0) ∧
          (book.LevelInUse 1 ∧ book.firstMeOrder 1 = some 1) ∧
          ((book.orderData 1).side = .buy ∧ (book.orderData 1).price = 20) ∧
          (book.orderData 0).side = .sell ∧ (book.orderData 0).price = 10) = true := by
    decide +kernel
  rcases (Option.any_eq_true _ _).mp executed with ⟨last, reached, facts⟩
  rcases of_decide_eq_true facts with
    ⟨⟨used, first⟩, ⟨used', first'⟩, ⟨buys, high⟩, sells, low⟩
  refine ⟨last, Run.of_execute Op.step_of_next reached, fun uncrossed => ?_⟩
  have below := uncrossed 1 0 ⟨1, restsIn_first used' first'⟩ ⟨0, restsIn_first used first⟩ buys
    sells
  rw [high, low] at below
  exact absurd below (by decide)

end QuantEngine.MEOrderBook
