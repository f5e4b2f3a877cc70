import QuantEngine.Book.LevelQueue
import QuantEngine.Library.Run

/-!
# Operations and their runs

The calls a run is made of, when a call is legal, and the invariant that every
legal call keeps whatever became of the level rings: a directory lists exactly
the resting orders, and their prices lie in one window narrower than the number
of price slots.
-/

namespace QuantEngine.MEOrderBook

open Exec LinkedRing Runs

/-- A call on the book. -/
inductive Op where
  | submit (submission : Submission)
  | cancel (clientId : ClientId) (orderId : OrderId) (tickerId : TickerId)
  | checkForMatch (aggressor : Aggressor) (price : Price) (qty : Quantity)
  | rest (order : RestingOrder)
  | removeOrder (elem : ℕ)
  deriving DecidableEq, Repr

/-- Runs the call; the value is what `checkForMatch` returns. -/
def Op.exec : Op → BookM (Option Quantity)
  | .submit submission => do
      submitBy submission
      pure none
  | .cancel clientId orderId tickerId => do
      MEOrderBook.cancel clientId orderId tickerId
      pure none
  | .checkForMatch aggressor price qty => do
      let leavesQty ← MEOrderBook.checkForMatch aggressor.clientId aggressor.clientOrderId
        aggressor.tickerId aggressor.side price qty aggressor.marketOrderId
      pure (some leavesQty)
  | .rest order => do
      restOrder order
      pure none
  | .removeOrder elem => do
      MEOrderBook.removeOrder (some elem)
      pure none

/-- The price lies in the window of `meMaxPriceLevels` prices from `lo` on. -/
def InWindow (lo price : Price) : Prop := lo ≤ price ∧ price < lo + meMaxPriceLevels

/-- A new order may have this side, key and price: the side is BUY or SELL, the key is in range
and leads to no order, and the price is in the window. -/
def LegalOrder (lo : Price) (book : MEOrderBook) (side : Side) (clientId : ClientId)
    (orderId : OrderId) (price : Price) : Prop :=
  side ≠ .invalid ∧ KeyInRange clientId orderId ∧ book.cidOidToOrder clientId orderId = none ∧
    InWindow lo price

instance (lo price : Price) : Decidable (InWindow lo price) :=
  inferInstanceAs (Decidable (_ ∧ _))

instance (lo : Price) (book : MEOrderBook) (side : Side) (clientId : ClientId)
    (orderId : OrderId) (price : Price) :
    Decidable (LegalOrder lo book side clientId orderId price) :=
  inferInstanceAs (Decidable (_ ∧ _))

/-- The call respects what the book expects of its callers. -/
def Op.Legal (lo : Price) (book : MEOrderBook) : Op → Prop
  | .submit submission =>
      LegalOrder lo book submission.side submission.clientId submission.orderId submission.price
  | .cancel _ _ _ => True
  | .checkForMatch _ _ _ => True
  | .rest order =>
      LegalOrder lo book order.side order.clientId order.clientOrderId order.price
  | .removeOrder elem => book.OrderInUse elem

instance (lo : Price) (book : MEOrderBook) (op : Op) : Decidable (op.Legal lo book) :=
  match op with
  | .submit _ => inferInstanceAs (Decidable (LegalOrder ..))
  | .cancel .. => inferInstanceAs (Decidable True)
  | .checkForMatch .. => inferInstanceAs (Decidable True)
  | .rest _ => inferInstanceAs (Decidable (LegalOrder ..))
  | .removeOrder elem => inferInstanceAs (Decidable (book.OrderInUse elem))

/-- The call is allowed in the state it is made in, and it returns. -/
def Op.Step (allowed : MEOrderBook → Op → Prop) (book : MEOrderBook) (op : Op)
    (last : MEOrderBook) : Prop :=
  allowed book op ∧ ∃ result, op.exec book = .ok result last

/-- The book after a call that returns. -/
def Op.perform (op : Op) (book : MEOrderBook) : Option MEOrderBook :=
  match op.exec book with
  | .ok _ last => some last
  | .error _ _ => none

/-- The book after an allowed call that returns. -/
def Op.next (allowed : MEOrderBook → Op → Prop) [∀ book op, Decidable (allowed book op)]
    (book : MEOrderBook) (op : Op) : Option MEOrderBook :=
  if allowed book op then op.perform book else none

variable {book last : MEOrderBook} {lo : Price} {elem : ℕ} {levels : List Entry} {op : Op}
  {result : Option Quantity} {done : PUnit} {clientId : ClientId} {orderId : OrderId}
  {tickerId : TickerId} {aggressor : Aggressor} {pointer : Pointer} {leavesQty left : Quantity}
  {order : RestingOrder}

theorem Op.exec_of_perform (performed : op.perform book = some last) :
    ∃ result, op.exec book = .ok result last := by
  unfold Op.perform at performed
  split at performed
  · rename_i ran
    cases performed
    exact ⟨_, ran⟩
  · cases performed

theorem Op.step_of_next {allowed : MEOrderBook → Op → Prop}
    [∀ book op, Decidable (allowed book op)] (performed : Op.next allowed book op = some last) :
    Op.Step allowed book op last := by
  unfold Op.next at performed
  split at performed
  · rename_i permitted
    exact ⟨permitted, Op.exec_of_perform performed⟩
  · cases performed

/-- The order is reached by following `next_order_` from the first order of the level, which is
in use. -/
def RestsIn (book : MEOrderBook) (atPrice elem : ℕ) : Prop :=
  book.LevelInUse atPrice ∧ ∃ first, book.firstMeOrder atPrice = some first ∧
    Relation.ReflTransGen (fun before after => book.nextOrder before = some after) first elem

/-- The order rests in some level. -/
def Resting (book : MEOrderBook) (elem : ℕ) : Prop := ∃ atPrice, RestsIn book atPrice elem

theorem restsIn_first {atPrice : ℕ} (used : book.LevelInUse atPrice)
    (first : book.firstMeOrder atPrice = some elem) : RestsIn book atPrice elem :=
  ⟨used, elem, first, Relation.ReflTransGen.refl⟩

/-- The orders that rest in a queue's level are the listed ones. -/
theorem LevelQueue.restsIn_iff {atPrice : ℕ} {orders : List ℕ}
    (queue : LevelQueue book atPrice orders) : RestsIn book atPrice elem ↔ elem ∈ orders := by
  rcases queue.pointers with ⟨head, others, -, rfl, -, -, firstEq, -⟩
  constructor
  · rintro ⟨-, first, first', reaches⟩
    cases firstEq.symm.trans first'
    exact queue.ring.reaches_iff.mp reaches
  · intro listed
    exact ⟨queue.levelInUse, head, firstEq, queue.ring.reaches_iff.mpr listed⟩

/-- An order that is not the only one of its level splits the level's orders, and leaves some. -/
theorem LevelQueue.split {atPrice : ℕ} {orders : List ℕ} (queue : LevelQueue book atPrice orders)
    (rests : RestsIn book atPrice elem)
    (others : ∃ other, RestsIn book atPrice other ∧ other ≠ elem) :
    ∃ before after, orders = before ++ elem :: after ∧ before ++ after ≠ [] := by
  rcases others with ⟨other, otherRests, different⟩
  have otherMem := queue.restsIn_iff.mp otherRests
  rcases List.append_of_mem (queue.restsIn_iff.mp rests) with ⟨before, after, rfl⟩
  have stays : other ∈ before ++ after := by
    simp only [List.mem_append, List.mem_cons, different, false_or] at otherMem ⊢
    exact otherMem
  exact ⟨before, after, rfl, List.ne_nil_of_mem stays⟩

theorem Directory.restsIn_iff {atPrice : ℕ} (dir : Directory book levels) :
    RestsIn book atPrice elem ↔ ∃ orders, (atPrice, orders) ∈ levels ∧ elem ∈ orders := by
  constructor
  · intro rests
    rcases List.mem_map.mp ((dir.levelInUse atPrice).mp rests.1) with
      ⟨⟨listedAt, orders⟩, entryMem, rfl⟩
    exact ⟨orders, entryMem, (dir.levelQueue entryMem).restsIn_iff.mp rests⟩
  · rintro ⟨orders, entryMem, elemMem⟩
    exact (dir.levelQueue entryMem).restsIn_iff.mpr elemMem

theorem Directory.resting_iff (dir : Directory book levels) :
    Resting book elem ↔ elem ∈ ordersOf levels := by
  simp only [Resting, dir.restsIn_iff, ordersOf, List.mem_flatMap]
  constructor
  · rintro ⟨atPrice, orders, entryMem, elemMem⟩
    exact ⟨_, entryMem, elemMem⟩
  · rintro ⟨⟨atPrice, orders⟩, entryMem, elemMem⟩
    exact ⟨atPrice, orders, entryMem, elemMem⟩

/-- Some directory lists exactly the orders whose blocks are in use. -/
def Indexed (book : MEOrderBook) : Prop :=
  ∃ levels, Directory book levels ∧ OrdersOnly book levels

/-- Under a directory of all orders, the resting orders are those whose blocks are in use. -/
theorem Indexed.resting_iff (indexed : Indexed book) :
    Resting book elem ↔ book.OrderInUse elem := by
  rcases indexed with ⟨levels, dir, only⟩
  rw [dir.resting_iff]
  exact ⟨dir.orderInUse elem, only elem⟩

/-- The pools and the two maps are the same. -/
structure SameMemory (book last : MEOrderBook) : Prop where
  orderPool : last.orderPool = book.orderPool
  ordersAtPricePool : last.ordersAtPricePool = book.ordersAtPricePool
  cidOidToOrder : last.cidOidToOrder = book.cidOidToOrder
  priceOrdersAtPrice : last.priceOrdersAtPrice = book.priceOrdersAtPrice

namespace SameMemory

variable (same : SameMemory book last)

include same

theorem order_eq : last.order = book.order := by
  funext other
  rw [MEOrderBook.order, same.orderPool, MEOrderBook.order]

theorem orderData : last.orderData = book.orderData := (orderViews_eq same.order_eq).1

theorem orderInUse : last.OrderInUse = book.OrderInUse := by
  funext other
  rw [OrderInUse, same.orderPool, OrderInUse]

theorem directory (dir : Directory book levels) : Directory last levels := by
  have views := orderViews_eq same.order_eq
  refine dir.congr ?_ ?_ ?_ ?_ ?_ same.priceOrdersAtPrice same.cidOidToOrder
  · simp [views.2.1, views.2.2]
  · simp [views.1]
  · rw [same.orderInUse]
    exact dir.orderInUse
  · funext other
    rw [level, same.ordersAtPricePool, level]
  · funext other
    rw [LevelInUse, same.ordersAtPricePool, LevelInUse]

end SameMemory

theorem Indexed.of_sameMemory (indexed : Indexed book) (same : SameMemory book last) :
    Indexed last := by
  rcases indexed with ⟨levels, dir, only⟩
  refine ⟨levels, same.directory dir, ?_⟩
  rw [OrdersOnly, same.orderInUse]
  exact only

theorem Indexed.removeOrder (indexed : Indexed book)
    (ran : MEOrderBook.removeOrder (some elem) book = .ok done last) : Indexed last := by
  rcases indexed with ⟨levels, dir, only⟩
  have removes := removesOrder_of_run ran
  rcases List.mem_flatMap.mp (only elem removes.inUse) with ⟨⟨atPrice, orders⟩, entryMem, elemMem⟩
  rcases List.append_of_mem entryMem with ⟨front, back, rfl⟩
  rcases List.append_of_mem elemMem with ⟨before, after, ordersEq⟩
  dsimp only at ordersEq
  subst ordersEq
  have moved : (front ++ (atPrice, before ++ elem :: after) :: back).Perm
      ((atPrice, before ++ elem :: after) :: (front ++ back)) := List.perm_middle
  refine ⟨_, (dir.perm moved).removeOrder ran, ?_⟩
  intro other used
  rcases (removes.orderInUse other).mp used with ⟨usedBefore, different⟩
  have listed := (moved.flatMap_right Prod.snd).mem_iff.mp (only other usedBefore)
  rw [Directory.ordersOf_without]
  simp only [List.flatMap_cons, List.mem_append, List.mem_cons] at listed ⊢
  tauto

theorem Indexed.matchBy (indexed : Indexed book)
    (ran : MEOrderBook.matchBy aggressor pointer leavesQty book = .ok left last) :
    Indexed last := by
  have traded : ∀ elem, Indexed (book.traded aggressor elem leavesQty) := by
    intro elem
    rcases indexed with ⟨levels, dir, only⟩
    exact ⟨levels, dir.traded, by simpa [OrdersOnly] using only⟩
  rcases matchBy_cases ran with ⟨elem, rfl, -, -, ⟨-, rfl⟩ | ⟨-, removed⟩⟩
  · exact traded elem
  · exact (traded elem).removeOrder removed

theorem Indexed.checkForMatch {price : Price} {qty : Quantity} (aggressor : Aggressor)
    (indexed : Indexed book)
    (ran : MEOrderBook.checkForMatch aggressor.clientId aggressor.clientOrderId
      aggressor.tickerId aggressor.side price qty aggressor.marketOrderId book = .ok left last) :
    Indexed last :=
  checkForMatch_invariant aggressor Indexed (fun indexed matched => indexed.matchBy matched)
    indexed ran

theorem Indexed.cancel (indexed : Indexed book)
    (ran : MEOrderBook.cancel clientId orderId tickerId book = .ok done last) : Indexed last := by
  rcases cancel_cases ran with ⟨-, rfl⟩ | ⟨elem, middle, -, -, removed, rfl⟩
  · exact indexed.of_sameMemory ⟨rfl, rfl, rfl, rfl⟩
  · have canceling : Indexed (book.canceling clientId orderId tickerId elem) :=
      indexed.of_sameMemory ⟨rfl, rfl, rfl, rfl⟩
    exact (canceling.removeOrder removed).of_sameMemory ⟨rfl, rfl, rfl, rfl⟩

theorem Indexed.rest (indexed : Indexed book) (cursors : CursorsInRange book)
    (restable : Restable book order) (ran : restOrder order book = .ok done last) :
    Indexed last := by
  rcases indexed with ⟨levels, dir, only⟩
  rcases dir.rest only cursors restable ran with ⟨_, levels', -, -, dir', only'⟩
  exact ⟨levels', dir', only'⟩

theorem Indexed.unused (indexed : Indexed book)
    (free : book.cidOidToOrder clientId orderId = none) (used : book.OrderInUse elem) :
    ¬((book.orderData elem).clientId = clientId ∧
      (book.orderData elem).clientOrderId = orderId) := by
  rcases indexed with ⟨levels, dir, only⟩
  rintro ⟨rfl, rfl⟩
  rw [(dir.key elem (only elem used)).2] at free
  cases free

/-- The state of the book that every legal call keeps. -/
structure Consistent (lo : Price) (book : MEOrderBook) : Prop where
  indexed : Indexed book
  cursors : CursorsInRange book
  window : ∀ elem, book.OrderInUse elem → InWindow lo (book.orderData elem).price

/-- Within a window no two prices share a slot. -/
theorem InWindow.eq_of_priceToIndex_eq {first second : Price} (firstIn : InWindow lo first)
    (secondIn : InWindow lo second) (same : priceToIndex first = priceToIndex second) :
    first = second := by
  have reduced : ∀ price : Price, (price % 2 ^ 64) % meMaxPriceLevels = price % 256 :=
    fun price => Int.emod_emod_of_dvd price (by decide)
  have apart : ∀ low first second : ℤ, low ≤ first ∧ first < low + 256 →
      low ≤ second ∧ second < low + 256 → (first % 256).toNat = (second % 256).toNat →
        first = second := by omega
  simp only [priceToIndex, reduced] at same
  exact apart lo first second firstIn secondIn same

namespace Consistent

theorem of_sameMemory (consistent : Consistent lo book) (same : SameMemory book last) :
    Consistent lo last where
  indexed := consistent.indexed.of_sameMemory same
  cursors := by
    refine ⟨?_, ?_⟩
    · rw [same.orderPool]
      exact consistent.cursors.order
    · rw [same.ordersAtPricePool]
      exact consistent.cursors.level
  window := by
    intro elem used
    rw [same.orderInUse] at used
    rw [same.orderData]
    exact consistent.window elem used

theorem of_retires (consistent : Consistent lo book) (retires : Retires book last)
    (indexed : Indexed last) : Consistent lo last where
  indexed := indexed
  cursors := retires.cursors consistent.cursors
  window elem used := by
    rw [retires.price]
    exact consistent.window elem (retires.orderInUse elem used)

theorem checkForMatch {price : Price} {qty : Quantity} (aggressor : Aggressor)
    (consistent : Consistent lo book)
    (ran : MEOrderBook.checkForMatch aggressor.clientId aggressor.clientOrderId
      aggressor.tickerId aggressor.side price qty aggressor.marketOrderId book = .ok left last) :
    Consistent lo last :=
  consistent.of_retires (Retires.of_checkForMatch aggressor ran)
    (consistent.indexed.checkForMatch aggressor ran)

theorem rest (consistent : Consistent lo book)
    (free : book.cidOidToOrder order.clientId order.clientOrderId = none)
    (inWindow : InWindow lo order.price) (ran : restOrder order book = .ok done last) :
    Consistent lo last := by
  have restable : Restable book order :=
    ⟨fun _ used => consistent.indexed.unused free used, fun elem used =>
      inWindow.eq_of_priceToIndex_eq (consistent.window elem used)⟩
  rcases rests_of_run consistent.cursors ran with ⟨elem, rests⟩
  refine ⟨consistent.indexed.rest consistent.cursors restable ran, rests.cursors, ?_⟩
  intro other used
  rw [rests.orderData]
  split
  · exact inWindow
  · rename_i different
    exact consistent.window other (((rests.orderInUse other).mp used).resolve_left different)

theorem submit {submission : Submission} (consistent : Consistent lo book)
    (free : book.cidOidToOrder submission.clientId submission.orderId = none)
    (inWindow : InWindow lo submission.price)
    (ran : submitBy submission book = .ok done last) : Consistent lo last := by
  rcases submitBy_cases ran with ⟨leftQuantity, middle, matched, settled⟩
  have accepting : Consistent lo (book.accepting submission) :=
    consistent.of_sameMemory ⟨rfl, rfl, rfl, rfl⟩
  have matching : Consistent lo middle :=
    accepting.checkForMatch (submission.aggressor book.nextMarketOrderId) matched
  have stillFree : middle.cidOidToOrder submission.clientId submission.orderId = none := by
    rcases held : middle.cidOidToOrder submission.clientId submission.orderId with _ | elem
    · rfl
    · have heldBefore := (Retires.of_checkForMatch
        (submission.aggressor book.nextMarketOrderId) matched).key _ _ elem held
      exact absurd (free.symm.trans heldBefore) (by simp)
  rcases settle_cases settled with ⟨-, rfl⟩ | ⟨rested, -, linked, rfl⟩
  · exact matching
  · exact (matching.rest stillFree inWindow linked).of_sameMemory ⟨rfl, rfl, rfl, rfl⟩

theorem step (consistent : Consistent lo book) (legal : op.Legal lo book)
    (ran : op.exec book = .ok result last) :
    Consistent lo last := by
  cases op with
  | submit submission =>
      rcases run_bind_eq_ok_iff.mp ran with ⟨_, _, ran, returned⟩
      cases returned
      exact consistent.submit legal.2.2.1 legal.2.2.2 ran
  | cancel clientId orderId tickerId =>
      rcases run_bind_eq_ok_iff.mp ran with ⟨_, _, ran, returned⟩
      cases returned
      exact consistent.of_retires (Retires.of_cancel ran) (consistent.indexed.cancel ran)
  | checkForMatch aggressor price qty =>
      rcases run_bind_eq_ok_iff.mp ran with ⟨_, _, ran, returned⟩
      cases returned
      exact consistent.checkForMatch aggressor ran
  | rest order =>
      rcases run_bind_eq_ok_iff.mp ran with ⟨_, _, ran, returned⟩
      cases returned
      exact consistent.rest legal.2.2.1 legal.2.2.2 ran
  | removeOrder elem =>
      rcases run_bind_eq_ok_iff.mp ran with ⟨_, _, ran, returned⟩
      cases returned
      exact consistent.of_retires (removesOrder_of_run ran).retires
        (consistent.indexed.removeOrder ran)

theorem empty (lo : Price) (tickerId : TickerId) : Consistent lo (MEOrderBook.empty tickerId) := by
  have sound := empty_wellFormed tickerId
  refine ⟨⟨[], sound.directory, sound.ordersOnly⟩, ⟨?_, ?_⟩, ?_⟩
  · change 0 < meMaxOrderIds
    decide
  · change 0 < meMaxPriceLevels
    decide
  · intro elem used
    exact absurd (sound.ordersOnly elem used) List.not_mem_nil

/-- Every book that a run of legal calls from the empty book reaches is consistent. -/
theorem of_run {tickerId : TickerId} {ops : List Op} {allowed : MEOrderBook → Op → Prop}
    (legal : ∀ {book op}, allowed book op → op.Legal lo book)
    (run : Run (Op.Step allowed) (MEOrderBook.empty tickerId) ops last) : Consistent lo last :=
  run.invariant (Consistent lo) (empty lo tickerId) fun consistent ⟨permitted, _, ran⟩ =>
    consistent.step (legal permitted) ran

end Consistent

end QuantEngine.MEOrderBook
