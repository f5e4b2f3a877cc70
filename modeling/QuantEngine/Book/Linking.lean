import QuantEngine.Book.Splicing
import QuantEngine.Book.Submitting

/-!
# The neighbours of a level

Whatever became of the rings, the links of a level in use lead to blocks of the
pool: a call that would follow a null link faults, and a call that returns has
written both links of the level it inserts. So a removal of a level in use
never faults on its links.
-/

namespace QuantEngine.MEOrderBook

open Exec

variable {book last middle : MEOrderBook} {elem atPrice first tail cell : ℕ} {done : PUnit}
  {side : Side} {price : Price} {order : RestingOrder} {clientId : ClientId} {orderId : OrderId}
  {tickerId : TickerId} {aggressor : Aggressor} {pointer target : Pointer}
  {leavesQty left : Quantity}

/-- The four stores behind `target`, when they return. -/
theorem spliceAfter_of_run (bound : elem < book.ordersAtPricePool.numElems)
    (ran : (do
      let targetLevel ← loadLevel target
      storeLevel targetLevel.nextEntry fun level => { level with prevEntry := some elem }
      let targetLevel ← loadLevel target
      storeLevel (some elem) fun level => { level with nextEntry := targetLevel.nextEntry }
      storeLevel target fun level => { level with nextEntry := some elem }
      storeLevel (some elem) fun level => { level with prevEntry := target } : BookM Unit) book =
        .ok done last) :
    ∃ tail first, tail < book.ordersAtPricePool.numElems ∧
      book.nextEntry tail = some first ∧ first < book.ordersAtPricePool.numElems ∧
      last = book.spliceAfter elem first tail := by
  rcases run_bind_eq_ok_iff.mp ran with ⟨_, _, loaded, ran⟩
  rcases loadLevel_eq_ok_iff.mp loaded with ⟨tail, rfl, tailBound, rfl, rfl⟩
  rcases run_bind_eq_ok_iff.mp ran with ⟨_, _, stored, ran⟩
  rcases storeLevel_eq_ok_iff.mp stored with ⟨first, nextTail, firstBound, rfl⟩
  have nextKept : ((book.setLevel first fun level =>
      { level with prevEntry := some elem }).level tail).nextEntry = some first := by
    rw [← nextTail]
    exact field_setLevel MEOrdersAtPrice.nextEntry fun _ => rfl
  rw [run_loadLevel_bind (by simpa using tailBound), nextKept,
    run_storeLevel_bind (by simpa using bound), run_storeLevel_bind (by simpa using tailBound),
    run_storeLevel (by simpa using bound)] at ran
  exact ⟨tail, first, tailBound, nextTail, firstBound, (EStateM.Result.ok.inj ran).2.symm⟩

/-- Moving a head pointer leaves the levels alone. -/
theorem ordersAtPricePool_moveHeads {movesBuy movesSell : Prop} [Decidable movesBuy]
    [Decidable movesSell]
    (ran : (do
      if movesBuy then
        modify fun book : MEOrderBook => { book with asksByPrice := pointer }
      if movesSell then
        modify fun book : MEOrderBook => { book with bidsByPrice := pointer } : BookM Unit) book =
          .ok done last) : last.ordersAtPricePool = book.ordersAtPricePool := by
  by_cases buys : movesBuy <;> by_cases sells : movesSell <;>
    simp only [buys, sells, if_true, if_false, run_modify_bind, run_modify,
      run_pure] at ran <;>
    cases ran <;> rfl

/-- A run of `addOrderAtPrice` that does not fault opened a ring, or spliced the level in between
two blocks of which one is linked to the other. -/
theorem addOrderAtPrice_cases (ran : addOrderAtPrice (some elem) book = .ok done last) :
    elem < book.ordersAtPricePool.numElems ∧
      (last = book.openRing elem ∨
        ∃ first tail, first < book.ordersAtPricePool.numElems ∧
          tail < book.ordersAtPricePool.numElems ∧
          (last.level = (book.spliceAfter elem first tail).level ∨
            last.level = (book.spliceBefore elem first tail).level)) := by
  have whole := ran
  rcases run_bind_eq_ok_iff.mp ran with ⟨_, _, loaded, ran⟩
  rcases loadLevel_eq_ok_iff.mp loaded with ⟨_, ⟨⟩, bound, rfl, rfl⟩
  refine ⟨bound, ?_⟩
  rw [run_modify_bind, run_get_bind, run_ite] at ran
  -- The slot is written first; the levels are those of `book` until the stores.
  set start := book.setSlot (priceToIndex (book.level elem).price) (some elem) with startEq
  have bound' : elem < start.ordersAtPricePool.numElems := bound
  have unchanged : ∀ {α : Type} {code : BookM α} {value : α} {state : MEOrderBook},
      Keeps (fun before after => after = before) code → code start = .ok value state →
        state = start := fun keeps ran => keeps.of_ok ran
  have trans : ∀ {first second third : MEOrderBook}, second = first → third = second →
      third = first := fun front back => back.trans front
  split at ran
  case isTrue empty =>
      left
      have opened := run_addOrderAtPrice_empty bound empty
      exact (EStateM.Result.ok.inj (whole.symm.trans opened)).2
  case isFalse heads =>
      right
      rcases run_bind_eq_ok_iff.mp ran with ⟨addAfter, _, tested, ran⟩
      cases unchanged (keeps_addAfterTest (fun _ => rfl) trans) tested
      rw [run_ite] at ran
      split at ran
      case isTrue after =>
          rcases run_bind_eq_ok_iff.mp ran with ⟨_, _, loaded, ran⟩
          cases unchanged (keeps_loadLevel fun _ => rfl) loaded
          rcases run_bind_eq_ok_iff.mp ran with ⟨_, _, tested, ran⟩
          cases unchanged (keeps_addAfterTest (fun _ => rfl) trans) tested
          rcases run_bind_eq_ok_iff.mp ran with ⟨target, _, looped, ran⟩
          cases unchanged (keeps_addOrderAtPriceLoop (fun _ => rfl) trans) looped
          have spliced : ∃ target', (do
              let targetLevel ← loadLevel target'
              storeLevel targetLevel.nextEntry fun level => { level with prevEntry := some elem }
              let targetLevel ← loadLevel target'
              storeLevel (some elem) fun level => { level with nextEntry := targetLevel.nextEntry }
              storeLevel target' fun level => { level with nextEntry := some elem }
              storeLevel (some elem) fun level => { level with prevEntry := target' } :
                BookM Unit) start = .ok done last := by
            rw [run_ite] at ran
            split at ran
            · rcases run_bind_eq_ok_iff.mp ran with ⟨level, _, loaded, ran⟩
              cases unchanged (keeps_loadLevel fun _ => rfl) loaded
              exact ⟨_, ran⟩
            · exact ⟨_, ran⟩
          rcases spliced with ⟨target', spliced⟩
          rcases spliceAfter_of_run bound' spliced with
            ⟨tail, first, tailBound, -, firstBound, rfl⟩
          exact ⟨first, tail, firstBound, tailBound, Or.inl rfl⟩
      case isFalse before =>
          rcases run_bind_eq_ok_iff.mp ran with ⟨_, _, loaded, ran⟩
          rcases loadLevel_eq_ok_iff.mp loaded with ⟨first, head, firstBound, rfl, rfl⟩
          rw [head] at ran
          rcases run_bind_eq_ok_iff.mp ran with ⟨_, _, stored, ran⟩
          rcases storeLevel_eq_ok_iff.mp stored with ⟨tail, prevFirst, tailBound, rfl⟩
          have prevKept : ((start.setLevel tail fun level =>
              { level with nextEntry := some elem }).level first).prevEntry = some tail := by
            rw [← prevFirst]
            exact field_setLevel MEOrdersAtPrice.prevEntry fun _ => rfl
          rw [run_loadLevel_bind (by simpa using firstBound), prevKept,
            run_storeLevel_bind (by simpa using bound'),
            run_storeLevel_bind (by simpa using bound'),
            run_storeLevel_bind (by simpa using firstBound),
            run_loadLevel_bind (by simpa using firstBound)] at ran
          have pool := ordersAtPricePool_moveHeads ran
          refine ⟨first, tail, firstBound, tailBound, Or.inr ?_⟩
          funext other
          rw [level, pool]
          rfl

section Spliced

variable (book : MEOrderBook) (elem first tail other : ℕ)

theorem nextEntry_spliceAfter : (book.spliceAfter elem first tail).nextEntry other =
    if other = tail then some elem else if other = elem then some first
    else book.nextEntry other := by
  simp only [nextEntry, spliceAfter, level_setLevel]
  grind

theorem prevEntry_spliceAfter : (book.spliceAfter elem first tail).prevEntry other =
    if other = elem then some tail else if other = first then some elem
    else book.prevEntry other := by
  simp only [prevEntry, spliceAfter, level_setLevel]
  grind

theorem nextEntry_spliceBefore : (book.spliceBefore elem first tail).nextEntry other =
    if other = elem then some first else if other = tail then some elem
    else book.nextEntry other := by
  simp only [nextEntry, spliceBefore, level_setLevel]
  grind

theorem prevEntry_spliceBefore : (book.spliceBefore elem first tail).prevEntry other =
    if other = first then some elem else if other = elem then some tail
    else book.prevEntry other := by
  simp only [prevEntry, spliceBefore, level_setLevel]
  grind

end Spliced

/-- The pointer leads to a level block of the pool. -/
def LeadsToLevel (book : MEOrderBook) (pointer : Pointer) : Prop :=
  ∃ atPrice, pointer = some atPrice ∧ atPrice < book.ordersAtPricePool.numElems

/-- An insertion that returns has written both links of the new level; another link it wrote
leads to a block of the pool. -/
theorem addOrderAtPrice_links (ran : addOrderAtPrice (some elem) book = .ok done last)
    (other : ℕ) :
    (LeadsToLevel book (last.prevEntry other) ∨
        other ≠ elem ∧ last.prevEntry other = book.prevEntry other) ∧
      (LeadsToLevel book (last.nextEntry other) ∨
        other ≠ elem ∧ last.nextEntry other = book.nextEntry other) := by
  rcases addOrderAtPrice_cases ran with
    ⟨bound, rfl | ⟨first, tail, firstBound, tailBound, same | same⟩⟩
  · rw [prevEntry_openRing, nextEntry_openRing]
    split
    · exact ⟨Or.inl ⟨elem, rfl, bound⟩, Or.inl ⟨elem, rfl, bound⟩⟩
    · rename_i different
      exact ⟨Or.inr ⟨different, rfl⟩, Or.inr ⟨different, rfl⟩⟩
  · rw [(levelViews_eq same).2.2.2.2, (levelViews_eq same).2.2.2.1,
      prevEntry_spliceAfter, nextEntry_spliceAfter]
    constructor
    · split_ifs with isNew isFirst
      · exact Or.inl ⟨tail, rfl, tailBound⟩
      · exact Or.inl ⟨elem, rfl, bound⟩
      · exact Or.inr ⟨isNew, rfl⟩
    · split_ifs with isTail isNew
      · exact Or.inl ⟨elem, rfl, bound⟩
      · exact Or.inl ⟨first, rfl, firstBound⟩
      · exact Or.inr ⟨isNew, rfl⟩
  · rw [(levelViews_eq same).2.2.2.2, (levelViews_eq same).2.2.2.1,
      prevEntry_spliceBefore, nextEntry_spliceBefore]
    constructor
    · split_ifs with isFirst isNew
      · exact Or.inl ⟨elem, rfl, bound⟩
      · exact Or.inl ⟨tail, rfl, tailBound⟩
      · exact Or.inr ⟨isNew, rfl⟩
    · split_ifs with isNew isTail
      · exact Or.inl ⟨first, rfl, firstBound⟩
      · exact Or.inl ⟨elem, rfl, bound⟩
      · exact Or.inr ⟨isNew, rfl⟩

/-- Both links of every level in use lead to level blocks. -/
structure LevelsLinked (book : MEOrderBook) : Prop where
  prev : ∀ atPrice, book.LevelInUse atPrice → LeadsToLevel book (book.prevEntry atPrice)
  next : ∀ atPrice, book.LevelInUse atPrice → LeadsToLevel book (book.nextEntry atPrice)

namespace LevelsLinked

/-- A call may take levels out of use, and set links to blocks of the pool. -/
theorem of_links (linked : LevelsLinked book)
    (size : last.ordersAtPricePool.numElems = book.ordersAtPricePool.numElems)
    (links : ∀ atPrice, last.LevelInUse atPrice →
      (LeadsToLevel book (last.prevEntry atPrice) ∨
        book.LevelInUse atPrice ∧ last.prevEntry atPrice = book.prevEntry atPrice) ∧
      (LeadsToLevel book (last.nextEntry atPrice) ∨
        book.LevelInUse atPrice ∧ last.nextEntry atPrice = book.nextEntry atPrice)) :
    LevelsLinked last := by
  refine ⟨?_, ?_⟩
  · intro atPrice used
    rw [LeadsToLevel, size]
    rcases (links atPrice used).1 with leads | ⟨usedBefore, same⟩
    · exact leads
    · rw [same]
      exact linked.prev atPrice usedBefore
  · intro atPrice used
    rw [LeadsToLevel, size]
    rcases (links atPrice used).2 with leads | ⟨usedBefore, same⟩
    · exact leads
    · rw [same]
      exact linked.next atPrice usedBefore

/-- Links and pool blocks that are the same are linked alike. -/
theorem congr (linked : LevelsLinked book)
    (size : last.ordersAtPricePool.numElems = book.ordersAtPricePool.numElems)
    (prev : last.prevEntry = book.prevEntry) (next : last.nextEntry = book.nextEntry)
    (inUse : ∀ atPrice, last.LevelInUse atPrice → book.LevelInUse atPrice) :
    LevelsLinked last :=
  linked.of_links size fun atPrice used =>
    ⟨Or.inr ⟨inUse atPrice used, congrFun prev atPrice⟩,
      Or.inr ⟨inUse atPrice used, congrFun next atPrice⟩⟩

theorem of_sameLevels (linked : LevelsLinked book)
    (same : last.ordersAtPricePool = book.ordersAtPricePool) : LevelsLinked last := by
  have levels : last.level = book.level := by
    funext atPrice
    rw [level, same, level]
  rcases levelViews_eq levels with ⟨-, -, -, next, prev⟩
  refine linked.congr (by rw [same]) prev next fun atPrice used => ?_
  rw [LevelInUse, same] at used
  exact used

theorem removeOrdersAtPrice (linked : LevelsLinked book)
    (ran : MEOrderBook.removeOrdersAtPrice side price book = .ok done last) :
    LevelsLinked last := by
  rcases removeOrdersAtPrice_cases ran with
    ⟨elem, -, -, ⟨-, rfl⟩ | ⟨before, after, -, -, -, beforeBound, afterBound, rfl⟩⟩
  · have same : (((book.setRemovalHead side none).setSlot (priceToIndex price) none).freeLevel
        elem).level = book.level := by
      simp
    rcases levelViews_eq same with ⟨-, -, -, next, prev⟩
    refine linked.congr (by simp) prev next fun atPrice used => ?_
    simpa using ((levelInUse_freeLevel _ _ _).mp used).1
  · have same : (((book.unlinkLevel side elem before after).setSlot (priceToIndex price)
        none).freeLevel elem).level = (book.unlinkLevel side elem before after).level := by
      simp
    rcases levelViews_eq same with ⟨-, -, -, next, prev⟩
    refine linked.of_links (by simp) fun atPrice used => ?_
    rcases (levelInUse_freeLevel _ _ _).mp used with ⟨usedBefore, different⟩
    rw [levelInUse_setSlot, levelInUse_unlinkLevel] at usedBefore
    rw [next, prev, prevEntry_unlinkLevel, nextEntry_unlinkLevel, if_neg different,
      if_neg different]
    constructor
    · split
      · exact Or.inl ⟨before, rfl, beforeBound⟩
      · exact Or.inr ⟨usedBefore, rfl⟩
    · split
      · exact Or.inl ⟨after, rfl, afterBound⟩
      · exact Or.inr ⟨usedBefore, rfl⟩

theorem removeOrder (linked : LevelsLinked book)
    (ran : MEOrderBook.removeOrder (some elem) book = .ok done last) : LevelsLinked last := by
  rcases removeOrder_cases ran with
    ⟨-, -, ⟨-, middle, removed, rfl⟩ | ⟨atPrice, before, after, -, -, -, -, rfl⟩⟩
  · exact (linked.removeOrdersAtPrice removed).of_sameLevels rfl
  · refine linked.congr (by simp) ?_ ?_ fun other used => by simpa using used
    · exact (levelViews_eq (level_release _ _)).2.2.2.2.trans (prevEntry_unlinkOrder ..)
    · exact (levelViews_eq (level_release _ _)).2.2.2.1.trans (nextEntry_unlinkOrder ..)

theorem matchBy (linked : LevelsLinked book)
    (ran : MEOrderBook.matchBy aggressor pointer leavesQty book = .ok left last) :
    LevelsLinked last := by
  have traded : ∀ elem, LevelsLinked (book.traded aggressor elem leavesQty) :=
    fun _ => linked.of_sameLevels rfl
  rcases matchBy_cases ran with ⟨elem, rfl, -, -, ⟨-, rfl⟩ | ⟨-, removed⟩⟩
  · exact traded elem
  · exact (traded elem).removeOrder removed

theorem checkForMatch {qty : Quantity} (aggressor : Aggressor) (linked : LevelsLinked book)
    (ran : MEOrderBook.checkForMatch aggressor.clientId aggressor.clientOrderId
      aggressor.tickerId aggressor.side price qty aggressor.marketOrderId book = .ok left last) :
    LevelsLinked last :=
  checkForMatch_invariant aggressor LevelsLinked (fun linked matched => linked.matchBy matched)
    linked ran

theorem cancel (linked : LevelsLinked book)
    (ran : MEOrderBook.cancel clientId orderId tickerId book = .ok done last) :
    LevelsLinked last := by
  rcases cancel_cases ran with ⟨-, rfl⟩ | ⟨elem, middle, -, -, removed, rfl⟩
  · exact linked.of_sameLevels rfl
  · have canceling : LevelsLinked (book.canceling clientId orderId tickerId elem) :=
      linked.of_sameLevels rfl
    exact (canceling.removeOrder removed).of_sameLevels rfl

theorem addOrderAtPrice {value : MEOrdersAtPrice} (linked : LevelsLinked book)
    (allocates : AllocatesLevel book middle elem value)
    (ran : MEOrderBook.addOrderAtPrice (some elem) middle = .ok done last) :
    LevelsLinked last := by
  have frame := addOrderAtPrice_frame ran
  have size : last.ordersAtPricePool.numElems = book.ordersAtPricePool.numElems :=
    (congrArg Outside.levelCapacity frame.outside).trans allocates.size
  have old : ∀ other, other ≠ elem → middle.level other = book.level other := by
    intro other different
    rw [allocates.level, if_neg different]
  have usedBefore : ∀ other, last.LevelInUse other → other ≠ elem → book.LevelInUse other := by
    intro other used different
    rw [frame.levelInUse, levelInUse_setSlot] at used
    exact ((allocates.inUse other).mp used).resolve_left different
  refine linked.of_links size fun other used => ?_
  have links := addOrderAtPrice_links ran other
  rw [LeadsToLevel, LeadsToLevel, allocates.size] at links
  refine ⟨links.1.imp_right ?_, links.2.imp_right ?_⟩
  · rintro ⟨different, same⟩
    refine ⟨usedBefore other used different, same.trans ?_⟩
    rw [prevEntry, prevEntry, old other different]
  · rintro ⟨different, same⟩
    refine ⟨usedBefore other used different, same.trans ?_⟩
    rw [nextEntry, nextEntry, old other different]

theorem addOrder (linked : LevelsLinked book) (cursors : CursorsInRange book)
    (ran : MEOrderBook.addOrder (some elem) book = .ok done last) : LevelsLinked last := by
  rcases (addOrder_cases cursors.level ran).2 with
    ⟨-, atPrice, allocated, middle, allocates, -, added, rfl⟩ |
    ⟨atPrice, first, tail, -, -, -, rfl⟩
  · have selfLinked : LevelsLinked (book.selfLink elem) := linked.of_sameLevels rfl
    exact (selfLinked.addOrderAtPrice allocates added).of_sameLevels rfl
  · exact linked.of_sameLevels rfl

theorem restOrder (linked : LevelsLinked book) (cursors : CursorsInRange book)
    (ran : MEOrderBook.restOrder order book = .ok done last) : LevelsLinked last := by
  rcases restOrder_cases cursors ran with ⟨elem, allocated, allocates, cursors', added⟩
  exact (linked.of_sameLevels allocates.ordersAtPricePool).addOrder cursors' added

theorem submit {submission : Submission} (linked : LevelsLinked book)
    (cursors : CursorsInRange book) (ran : submitBy submission book = .ok done last) :
    LevelsLinked last := by
  rcases submitBy_cases ran with ⟨leftQuantity, middle, matched, settled⟩
  have accepting : LevelsLinked (book.accepting submission) := linked.of_sameLevels rfl
  have matching : LevelsLinked middle :=
    accepting.checkForMatch (submission.aggressor book.nextMarketOrderId) matched
  have cursors' : CursorsInRange middle := (Retires.of_checkForMatch
    (submission.aggressor book.nextMarketOrderId) matched).cursors ⟨cursors.order, cursors.level⟩
  rcases settle_cases settled with ⟨-, rfl⟩ | ⟨rested, -, linked', rfl⟩
  · exact matching
  · exact (matching.restOrder cursors' linked').of_sameLevels rfl

theorem empty (tickerId : TickerId) : LevelsLinked (MEOrderBook.empty tickerId) := by
  have unused : ∀ atPrice, ¬(MEOrderBook.empty tickerId).LevelInUse atPrice := by
    rintro atPrice ⟨-, used⟩
    cases used
  exact ⟨fun atPrice used => absurd used (unused atPrice),
    fun atPrice used => absurd used (unused atPrice)⟩

/-- Removing a level in use returns: it is the only one of its ring, or has two neighbours. -/
theorem run_removeOrdersAtPrice (linked : LevelsLinked book) (side : Side)
    (slot : book.priceOrdersAtPrice (priceToIndex price) = some atPrice)
    (inUse : book.LevelInUse atPrice) :
    ∃ last, MEOrderBook.removeOrdersAtPrice side price book = .ok ⟨⟩ last := by
  rcases linked.prev atPrice inUse with ⟨before, prevEq, beforeBound⟩
  rcases linked.next atPrice inUse with ⟨after, nextEq, afterBound⟩
  by_cases alone : after = atPrice
  · rw [alone] at nextEq
    exact ⟨_, removeOrdersAtPrice_alone slot inUse nextEq⟩
  · exact ⟨_, removeOrdersAtPrice_linked side slot inUse prevEq nextEq alone beforeBound
      afterBound⟩

end LevelsLinked

/-- Removing a listed order returns. -/
theorem Directory.removeOrder_returns {levels : List Entry} (dir : Directory book levels)
    (linked : LevelsLinked book) (listed : elem ∈ ordersOf levels) :
    ∃ last, MEOrderBook.removeOrder (some elem) book = .ok ⟨⟩ last := by
  rcases List.mem_flatMap.mp listed with ⟨⟨atPrice, orders⟩, entryMem, elemMem⟩
  rcases List.append_of_mem entryMem with ⟨front, back, rfl⟩
  rcases List.append_of_mem elemMem with ⟨before, after, ordersEq⟩
  dsimp only at ordersEq
  subst ordersEq
  by_cases others : before ++ after = []
  · rw [List.append_eq_nil_iff] at others
    rcases others with ⟨rfl, rfl⟩
    have alone := (LinkedRing.isRing_singleton.mp (dir.ring _ entryMem)).2
    have slot := dir.slot _ entryMem
    rw [← dir.price _ entryMem elem elemMem] at slot
    have inUse : book.LevelInUse atPrice := (dir.levelInUse atPrice).mpr (by simp)
    rcases linked.run_removeOrdersAtPrice (book.orderData elem).side slot inUse with
      ⟨middle, removed⟩
    exact ⟨_, removeOrder_alone (dir.orderInUse elem listed) alone (dir.key elem listed).1 removed⟩
  · rcases (dir.perm List.perm_middle).run_removeOrder others with ⟨_, _, -, -, removed⟩
    exact ⟨_, removed⟩

end QuantEngine.MEOrderBook
