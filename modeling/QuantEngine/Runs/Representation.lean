import QuantEngine.Runs.KeyIndex

/-!
# The representation invariant

What `checkForMatch` and `removeOrdersAtPrice` rely on: BUY levels under
`bids_by_price_` and SELL levels under `asks_by_price_`. `addOrderAtPrice`
links the first level of a side under the other head pointer, so the invariant
is lost with the first order and holds of the empty book only.
-/

namespace QuantEngine.MEOrderBook

open Exec LinkedRing Runs

variable {book last : MEOrderBook} {lo : Price} {elem : ℕ} {ops : List Op} {tickerId : TickerId}
  {order : RestingOrder} {done : PUnit}

/-- The listed levels are those in which an order of the side rests. -/
def LevelsOfSide (book : MEOrderBook) (side : Side) (levels : List ℕ) : Prop :=
  ∀ atPrice, atPrice ∈ levels ↔
    ∃ elem, RestsIn book atPrice elem ∧ (book.orderData elem).side = side

/-- Each head pointer is null or heads a ring of exactly the levels of its side's resting orders,
and every slot leads to a level of one of the two rings. -/
def RepInv (book : MEOrderBook) : Prop :=
  ∃ bids asks,
    (HeadsRing book.nextEntry book.prevEntry book.bidsByPrice bids ∧
      LevelsOfSide book .buy bids ∧ ∀ atPrice ∈ bids, book.LevelInUse atPrice) ∧
    (HeadsRing book.nextEntry book.prevEntry book.asksByPrice asks ∧
      LevelsOfSide book .sell asks ∧ ∀ atPrice ∈ asks, book.LevelInUse atPrice) ∧
    ∀ index atPrice, index < meMaxPriceLevels → book.priceOrdersAtPrice index = some atPrice →
      atPrice ∈ bids ∨ atPrice ∈ asks

theorem repInv_empty (tickerId : TickerId) : RepInv (empty tickerId) := by
  have none : ∀ side, LevelsOfSide (empty tickerId) side [] := by
    intro side atPrice
    refine iff_of_false List.not_mem_nil ?_
    rintro ⟨_, ⟨used, -⟩, -⟩
    cases used.2
  refine ⟨[], [], ⟨⟨rfl, by simp⟩, none .buy, by simp⟩, ⟨⟨rfl, by simp⟩, none .sell, by simp⟩, ?_⟩
  rintro index atPrice - ⟨⟩

theorem not_repInv_of_null {atPrice : ℕ} (side : Side) (trades : side ≠ .invalid)
    (null : book.removalHead side = none) (rests : RestsIn book atPrice elem)
    (sideEq : (book.orderData elem).side = side) : ¬RepInv book := by
  rintro ⟨bids, asks, ⟨bidsRing, bidsLevels, -⟩, ⟨asksRing, asksLevels, -⟩, -⟩
  cases side with
  | invalid => exact trades rfl
  | buy =>
      have listed := (bidsLevels atPrice).mpr ⟨elem, rests, sideEq⟩
      have empty : bids = [] := List.head?_eq_none_iff.mp (bidsRing.1.symm.trans null)
      simp [empty] at listed
  | sell =>
      have listed := (asksLevels atPrice).mpr ⟨elem, rests, sideEq⟩
      have empty : asks = [] := List.head?_eq_none_iff.mp (asksRing.1.symm.trans null)
      simp [empty] at listed

/-- The first level of a side is put under the head pointer that removal reads for the other
side; the side's own head pointer keeps its value. -/
theorem addOrderAtPrice_first {atPrice : ℕ}
    (null : book.insertionHead (book.levelSide atPrice) = none)
    (ran : addOrderAtPrice (some atPrice) book = .ok done last) :
    last.insertionHead (book.levelSide atPrice) = some atPrice ∧
      last.removalHead (book.levelSide atPrice) = book.removalHead (book.levelSide atPrice) := by
  rcases run_bind_eq_ok_iff.mp ran with ⟨_, _, loaded, ran⟩
  rcases loadLevel_eq_ok_iff.mp loaded with ⟨_, ⟨⟩, bound, rfl, rfl⟩
  rw [run_modify_bind, run_get_bind] at ran
  change (if (book.setSlot _ _).insertionHead (book.levelSide atPrice) = none then _ else _ :
    BookM Unit) _ = _ at ran
  have null' : (book.setSlot (priceToIndex (book.level atPrice).price) (some atPrice)).insertionHead
      (book.levelSide atPrice) = none := null
  rw [if_pos null', run_modify_bind] at ran
  rcases storeLevel_eq_ok_iff.mp ran with ⟨_, ⟨⟩, -, rfl⟩
  change (((book.setSlot _ _).setInsertionHead (book.levelSide atPrice) _).setLevel _ _).insertionHead
      (book.levelSide atPrice) = _ ∧
    (((book.setSlot _ _).setInsertionHead (book.levelSide atPrice) _).setLevel _ _).removalHead
      (book.levelSide atPrice) = _
  cases book.levelSide atPrice <;> exact ⟨rfl, rfl⟩

/-- The first order of a book without levels rests on a side whose head pointer stays null. -/
theorem restOrder_first (cursors : CursorsInRange book)
    (slot : book.priceOrdersAtPrice (priceToIndex order.price) = none)
    (asks : book.asksByPrice = none) (bids : book.bidsByPrice = none)
    (ran : restOrder order book = .ok done last) :
    ∃ atPrice elem, RestsIn last atPrice elem ∧ (last.orderData elem).side = order.side ∧
      last.removalHead order.side = none := by
  rcases restOrder_cases cursors ran with ⟨elem, allocated, allocates, cursors', added⟩
  have data : allocated.orderData elem = order := by
    rw [allocates.orderData_eq, if_pos rfl]
  have adds := addsOrder_of_run cursors' added
  rcases addOrder_cases cursors'.level added with ⟨-, ⟨-, atPrice, opened, middle, opens, -, linked,
    rfl⟩ | ⟨atPrice, _, _, held, -⟩⟩
  · have heads : opened.insertionHead order.side = none ∧ opened.removalHead order.side = none := by
      simp only [insertionHead, removalHead, opens.asksByPrice, opens.bidsByPrice]
      change (if _ then allocated.asksByPrice else allocated.bidsByPrice) = _ ∧
        (if _ then allocated.bidsByPrice else allocated.asksByPrice) = _
      rw [allocates.asksByPrice, allocates.bidsByPrice, asks, bids]
      simp
    have levelSide : opened.levelSide atPrice = order.side := by
      rw [MEOrderBook.levelSide, opens.level, if_pos rfl, data]
    have first := addOrderAtPrice_first (by rw [levelSide]; exact heads.1) linked
    rw [levelSide] at first
    have slotFree : allocated.priceOrdersAtPrice (priceToIndex (allocated.orderData elem).price) =
        none := by
      rw [data, allocates.priceOrdersAtPrice, slot]
    rcases adds.opens slotFree with ⟨held, -, used, -, firstEq⟩
    refine ⟨held, elem, restsIn_first used firstEq, ?_, first.2.trans heads.2⟩
    rw [adds.orderData, data]
  · rw [data, allocates.priceOrdersAtPrice, slot] at held
    cases held

/-- Orders are rested and removed; no price rests on both sides. -/
def RestingCalls (lo : Price) (book : MEOrderBook) (op : Op) : Prop :=
  op.Legal lo book ∧
    match op with
    | .rest order => ∀ elem, Resting book elem →
        (book.orderData elem).price = order.price → (book.orderData elem).side = order.side
    | .removeOrder _ => True
    | _ => False

/-- The invariant holds in every state of a run exactly when the run never rests an order: the
first order breaks it. -/
theorem repInv_iff_of_run (run : Run (Op.Step (RestingCalls lo)) (empty tickerId) ops last) :
    (∀ front back middle, ops = front ++ back →
        Run (Op.Step (RestingCalls lo)) (empty tickerId) front middle → RepInv middle) ↔
      ∀ order, Op.rest order ∉ ops := by
  constructor
  · intro holds
    by_contra rested
    have nonempty : ops ≠ [] := by
      rintro rfl
      exact rested fun _ => List.not_mem_nil
    rcases run.first nonempty with ⟨op, rest, middle, rfl, ⟨legal, allowed⟩, result, ran⟩
    have broken := holds [op] rest middle rfl (Run.nil.snoc ⟨⟨legal, allowed⟩, result, ran⟩)
    cases op with
    | rest order =>
        rcases run_bind_eq_ok_iff.mp ran with ⟨_, _, ran, returned⟩
        cases returned
        rcases restOrder_first (Consistent.empty lo tickerId).cursors rfl rfl rfl ran with
          ⟨atPrice, elem, rests, sideEq, null⟩
        exact not_repInv_of_null _ legal.1 null rests sideEq broken
    | removeOrder elem => cases legal.2
    | submit submission => exact allowed
    | cancel clientId orderId tickerId => exact allowed
    | checkForMatch aggressor price qty => exact allowed
  · intro none front back middle split reached
    have nothing : ops = [] := by
      by_contra nonempty
      rcases run.first nonempty with ⟨op, rest, next, rfl, ⟨legal, allowed⟩, -⟩
      cases op with
      | rest order => exact none order List.mem_cons_self
      | removeOrder elem => cases legal.2
      | submit submission => exact allowed
      | cancel clientId orderId tickerId => exact allowed
      | checkForMatch aggressor price qty => exact allowed
    rw [nothing] at split
    have frontNil : front = [] := (List.append_eq_nil_iff.mp split.symm).1
    subst frontNil
    rw [reached.eq_start]
    exact repInv_empty tickerId

theorem run_single_sell :
    ∃ last, Run (Op.Step (RestingCalls 0)) (empty 0) [.rest (sellOrder 1 1 5)] last ∧
      last.asksByPrice = none ∧ RestsIn last 0 0 ∧ (last.orderData 0).side = .sell := by
  have executed : (Op.next (Op.Legal 0) (empty 0) (.rest (sellOrder 1 1 5))).any (fun book =>
      book.asksByPrice = none ∧ (book.LevelInUse 0 ∧ book.firstMeOrder 0 = some 0) ∧
        (book.orderData 0).side = .sell) = true := by
    decide +kernel
  rcases (Option.any_eq_true _ _).mp executed with ⟨last, reached, facts⟩
  rcases Op.step_of_next reached with ⟨legal, returned⟩
  rcases of_decide_eq_true facts with ⟨null, ⟨used, first⟩, sells⟩
  refine ⟨last, Run.nil.snoc ⟨⟨legal, ?_⟩, returned⟩, null, restsIn_first used first, sells⟩
  rintro elem ⟨_, used, -⟩
  cases used.2

theorem repInv_iff_of_run_sample :
    ¬∀ front back middle, [Op.rest (sellOrder 1 1 5)] = front ++ back →
      Run (Op.Step (RestingCalls 0)) (empty 0) front middle → RepInv middle := by
  rcases run_single_sell with ⟨last, run, -⟩
  rw [repInv_iff_of_run run]
  exact fun none => none _ List.mem_cons_self

/-- After one SELL order `asks_by_price_` is still null. -/
theorem repInv_fails_of_single_sell :
    ∃ last, Run (Op.Step (RestingCalls 0)) (empty 0) [.rest (sellOrder 1 1 5)] last ∧
      ¬RepInv last := by
  rcases run_single_sell with ⟨last, run, null, rests, sells⟩
  exact ⟨last, run, not_repInv_of_null .sell Side.noConfusion null rests sells⟩

end QuantEngine.MEOrderBook
