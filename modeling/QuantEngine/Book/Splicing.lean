import QuantEngine.Book.Insertion
import QuantEngine.Book.Ladder

/-!
# Where `addOrderAtPrice` splices a level in

On a ring of levels of the new level's side the loop of `addOrderAtPrice` goes
once round: its test never turns `add_after` off, which is shadowed inside the
loop. So the new level always ends up between the last level and the first,
and only a BUY level better than the first becomes the head.
-/

namespace QuantEngine.MEOrderBook

open Exec LinkedRing

variable {book last : MEOrderBook} {side : Side} {price : Price} {elem head target : ℕ}
  {cells rest : List ℕ}

instance (side : Side) (first second : Price) : Decidable (Better side first second) :=
  inferInstanceAs (Decidable (if side = .buy then second < first else first < second))

/-- `add_after` is set for a target whose price is better than the new one. -/
theorem run_addAfterTest (trades : side ≠ .invalid)
    (bound : target < book.ordersAtPricePool.numElems) :
    addAfterTest side price (some target) book =
      .ok (decide (Better side (book.levelPrice target) price)) book := by
  cases side with
  | invalid => exact absurd rfl trades
  | buy => exact run_loadLevel_bind bound
  | sell => exact run_loadLevel_bind bound

/-- `add_after` stays unset for a price that is not worse, and for the side INVALID. -/
theorem run_addAfterTest_unset (bound : target < book.ordersAtPricePool.numElems)
    (unset : ¬(side ≠ .invalid ∧ Better side (book.levelPrice target) price)) :
    addAfterTest side price (some target) book = .ok false book := by
  by_cases trades : side = .invalid
  · subst trades
    rfl
  · rw [run_addAfterTest trades bound, decide_eq_false fun better => unset ⟨trades, better⟩]

/-- The loop walks on to the head, whatever the prices it passes. -/
theorem run_addOrderAtPriceLoop {bound : ℕ} (trades : side ≠ .invalid)
    (headBound : head < book.ordersAtPricePool.numElems)
    (inPool : ∀ cell ∈ cells, cell < book.ordersAtPricePool.numElems) (absent : head ∉ cells)
    (chain : List.IsChain (Linked book.nextEntry book.prevEntry) (target :: (cells ++ [head])))
    (room : cells.length < bound) :
    addOrderAtPriceLoop side price (some head) bound (book.nextEntry target) book =
      .ok (some head) book := by
  induction cells generalizing target bound with
  | nil =>
      cases bound with
      | zero => cases room
      | succ bound =>
          rw [(List.isChain_cons_cons.mp chain).1.1, addOrderAtPriceLoop, if_pos rfl, run_pure]
  | cons cell cells ih =>
      cases bound with
      | zero => cases room
      | succ bound =>
          rcases List.isChain_cons_cons.mp chain with ⟨linked, chain⟩
          have different : some cell ≠ some head := by
            intro same
            exact absent (by simp [Option.some.inj same])
          have following : ∃ next, book.nextEntry cell = some next ∧
              next < book.ordersAtPricePool.numElems := by
            cases cells with
            | nil => exact ⟨head, (List.isChain_cons_cons.mp chain).1.1, headBound⟩
            | cons next cells =>
                exact ⟨next, (List.isChain_cons_cons.mp chain).1.1, inPool next (by simp)⟩
          rcases following with ⟨next, nextEq, nextBound⟩
          rw [linked.1, addOrderAtPriceLoop, if_neg different,
            run_loadLevel_bind (inPool cell List.mem_cons_self)]
          have tested : addAfterTest side price (some next) book = _ :=
            run_addAfterTest trades nextBound
          rw [← nextEq] at tested
          exact (run_bind_of_ok tested).trans
            (ih (fun other member => inPool other (List.mem_cons_of_mem _ member))
              (fun member => absent (List.mem_cons_of_mem _ member)) chain
              (Nat.lt_of_succ_lt_succ room))

/-- The links of the levels when `elem` is spliced in between `tail` and `first`. -/
structure Splices (book last : MEOrderBook) (elem first tail : ℕ) : Prop where
  nextEntry : ∀ other, last.nextEntry other =
    if other = elem then some first else if other = tail then some elem
    else book.nextEntry other
  prevEntry : ∀ other, last.prevEntry other =
    if other = first then some elem else if other = elem then some tail
    else book.prevEntry other

/-- The four stores made when `add_after` is set. -/
def spliceAfter (book : MEOrderBook) (elem first tail : ℕ) : MEOrderBook :=
  (((book.setLevel first fun level => { level with prevEntry := some elem }).setLevel
    elem fun level => { level with nextEntry := some first }).setLevel
      tail fun level => { level with nextEntry := some elem }).setLevel
        elem fun level => { level with prevEntry := some tail }

/-- The four stores made when it is not. -/
def spliceBefore (book : MEOrderBook) (elem first tail : ℕ) : MEOrderBook :=
  (((book.setLevel tail fun level => { level with nextEntry := some elem }).setLevel
    elem fun level => { level with prevEntry := some tail }).setLevel
      elem fun level => { level with nextEntry := some first }).setLevel
        first fun level => { level with prevEntry := some elem }

theorem splices_spliceAfter {first tail : ℕ} (apart : elem ≠ first) (apart' : elem ≠ tail) :
    Splices book (book.spliceAfter elem first tail) elem first tail := by
  refine ⟨fun other => ?_, fun other => ?_⟩
  · simp only [nextEntry, spliceAfter, level_setLevel]
    split_ifs <;> simp_all
  · simp only [prevEntry, spliceAfter, level_setLevel]
    split_ifs <;> simp_all

theorem splices_spliceBefore {first tail : ℕ} (apart : elem ≠ first) (apart' : elem ≠ tail) :
    Splices book (book.spliceBefore elem first tail) elem first tail := by
  refine ⟨fun other => ?_, fun other => ?_⟩
  · simp only [nextEntry, spliceBefore, level_setLevel]
    split_ifs <;> simp_all
  · simp only [prevEntry, spliceBefore, level_setLevel]
    split_ifs <;> simp_all

theorem levelPrice_spliceBefore {first tail other : ℕ} :
    (book.spliceBefore elem first tail).levelPrice other = book.levelPrice other := by
  simp only [levelPrice, spliceBefore, level_setLevel]
  split_ifs <;> simp_all

/-- A splice does not depend on the links that the new level had before. -/
theorem Splices.congr {start : MEOrderBook} {tail : ℕ} (splices : Splices book last elem head tail)
    (same : ∀ other, other ≠ elem → start.level other = book.level other) :
    Splices start last elem head tail := by
  refine ⟨fun other => ?_, fun other => ?_⟩
  · rw [splices.nextEntry]
    split_ifs with isNew isTail
    · rfl
    · rfl
    · rw [MEOrderBook.nextEntry, MEOrderBook.nextEntry, same other isNew]
  · rw [splices.prevEntry]
    split_ifs with isHead isNew
    · rfl
    · rfl
    · rw [MEOrderBook.prevEntry, MEOrderBook.prevEntry, same other isNew]

/-- A spliced-in level is the last of the ring read from the old head. -/
theorem Splices.ring {tail : ℕ} (splices : Splices book last elem head tail)
    (ring : IsRing book.nextEntry book.prevEntry (head :: rest)) (fresh : elem ∉ head :: rest)
    (tailEq : book.prevEntry head = some tail) (tailMem : tail ∈ head :: rest) :
    IsRing last.nextEntry last.prevEntry (head :: (rest ++ [elem])) := by
  have apart : elem ≠ head := fun same => fresh (by simp [same])
  refine ring.append fresh tailEq ?_ ?_ ?_ ?_ ?_ ?_
  · rw [splices.nextEntry, if_neg (ne_of_mem_of_not_mem tailMem fresh), if_pos rfl]
  · rw [splices.prevEntry, if_neg apart, if_pos rfl]
  · rw [splices.nextEntry, if_pos rfl]
  · rw [splices.prevEntry, if_pos rfl]
  · intro other otherMem different
    rw [splices.nextEntry, if_neg (ne_of_mem_of_not_mem otherMem fresh), if_neg different]
  · intro other otherMem different
    rw [splices.prevEntry, if_neg different, if_neg (ne_of_mem_of_not_mem otherMem fresh)]

section Spliced

variable {tail : ℕ} (bound : elem < book.ordersAtPricePool.numElems)
  (heads : book.insertionHead (book.levelSide elem) = some head)
  (ring : IsRing book.nextEntry book.prevEntry (head :: rest))
  (inPool : ∀ cell ∈ head :: rest, cell < book.ordersAtPricePool.numElems)
  (tailEq : book.prevEntry head = some tail)

include bound heads ring inPool tailEq

/-- For a level worse than the first the loop goes round, and the stores are made behind the
last level. -/
theorem run_addOrderAtPrice_after (trades : book.levelSide elem ≠ .invalid)
    (worse : Better (book.levelSide elem) (book.levelPrice head) (book.levelPrice elem)) :
    addOrderAtPrice (some elem) book =
      .ok ⟨⟩ ((book.setSlot (priceToIndex (book.levelPrice elem)) (some elem)).spliceAfter
        elem head tail) := by
  have heads' : (book.setSlot (priceToIndex (book.level elem).price) (some elem)).insertionHead
    (book.level elem).side = some head := heads
  unfold addOrderAtPrice
  rw [run_loadLevel_bind bound, run_modify_bind, run_get_bind]
  simp only [heads', Option.some_ne_none, if_false]
  -- The slot is written first; from here on only links change.
  set start := book.setSlot (priceToIndex (book.level elem).price) (some elem) with startEq
  have ring' : IsRing start.nextEntry start.prevEntry (head :: rest) := ring
  have inPool' : ∀ cell ∈ head :: rest, cell < start.ordersAtPricePool.numElems := inPool
  have bound' : elem < start.ordersAtPricePool.numElems := bound
  rcases ring'.linked_of_mem List.mem_cons_self with
    ⟨⟨second, secondMem, secondLinked⟩, final, finalMem, finalLinked⟩
  cases finalLinked.2.symm.trans tailEq
  have headBound := inPool' head List.mem_cons_self
  have tailBound := inPool' tail finalMem
  have nextHead : (start.level head).nextEntry = some second := secondLinked.1
  have prevHead : (start.level head).prevEntry = some tail := tailEq
  have nextTail : (start.level tail).nextEntry = some head := finalLinked.1
  have tested : addAfterTest (book.level elem).side (book.level elem).price (some head) start = _ :=
    run_addAfterTest trades headBound
  have tested' : addAfterTest (book.level elem).side (book.level elem).price (some second)
      start = _ := run_addAfterTest trades (inPool' second secondMem)
  have looped : addOrderAtPriceLoop (book.level elem).side (book.level elem).price (some head)
      (start.ordersAtPricePool.numElems + 1) (some second) start = .ok (some head) start := by
    rw [← secondLinked.1]
    have room : (head :: rest).length ≤ start.ordersAtPricePool.numElems :=
      length_le_of_nodup ring'.nodup inPool'
    exact run_addOrderAtPriceLoop trades headBound
      (fun cell member => inPool' cell (List.mem_cons_of_mem _ member))
      (List.nodup_cons.mp ring'.nodup).1 ring'.2 (Nat.lt_succ_of_lt room)
  have nextKept : ((start.setLevel head fun level =>
      { level with prevEntry := some elem }).level tail).nextEntry = some head := by
    rw [← nextTail]
    exact field_setLevel MEOrdersAtPrice.nextEntry fun _ => rfl
  have after : decide (Better (book.level elem).side (start.levelPrice head)
    (book.level elem).price) = true := decide_eq_true worse
  rw [run_bind_of_ok tested, run_ite, if_pos after, run_loadLevel_bind headBound, nextHead,
    run_bind_of_ok tested', run_bind_of_ok looped, if_pos rfl, run_loadLevel_bind headBound,
    run_pure_bind, prevHead,
    run_loadLevel_bind tailBound, nextTail, run_storeLevel_bind headBound,
    run_loadLevel_bind (by simpa using tailBound), nextKept,
    run_storeLevel_bind (by simpa using bound'), run_storeLevel_bind (by simpa using tailBound)]
  apply run_storeLevel
  simpa using bound'

/-- Otherwise the stores are made before the first level, and a BUY level better than it becomes
the head. -/
theorem run_addOrderAtPrice_before
    (unset : ¬(book.levelSide elem ≠ .invalid ∧
      Better (book.levelSide elem) (book.levelPrice head) (book.levelPrice elem))) :
    addOrderAtPrice (some elem) book = .ok ⟨⟩
      (if book.levelSide elem = .buy ∧ book.levelPrice head < book.levelPrice elem then
        { (book.setSlot (priceToIndex (book.levelPrice elem)) (some elem)).spliceBefore
          elem head tail with asksByPrice := some elem }
      else (book.setSlot (priceToIndex (book.levelPrice elem)) (some elem)).spliceBefore
        elem head tail) := by
  have heads' : (book.setSlot (priceToIndex (book.level elem).price) (some elem)).insertionHead
    (book.level elem).side = some head := heads
  unfold addOrderAtPrice
  rw [run_loadLevel_bind bound, run_modify_bind, run_get_bind]
  simp only [heads', Option.some_ne_none, if_false]
  change _ = EStateM.Result.ok PUnit.unit (if (book.level elem).side = .buy ∧
    (book.level head).price < (book.level elem).price then _ else _)
  -- The slot is written first; from here on only links and the head pointer change.
  set start := book.setSlot (priceToIndex (book.level elem).price) (some elem) with startEq
  have bound' : elem < start.ordersAtPricePool.numElems := bound
  have headBound : head < start.ordersAtPricePool.numElems := inPool head List.mem_cons_self
  have tailBound : tail < start.ordersAtPricePool.numElems := by
    rcases ring.linked_of_mem List.mem_cons_self with ⟨-, final, finalMem, finalLinked⟩
    cases finalLinked.2.symm.trans tailEq
    exact inPool tail finalMem
  have prevHead : (start.level head).prevEntry = some tail := tailEq
  have prevKept : ((start.setLevel tail fun level =>
      { level with nextEntry := some elem }).level head).prevEntry = some tail := by
    rw [← prevHead]
    exact field_setLevel MEOrdersAtPrice.prevEntry fun _ => rfl
  have tested : addAfterTest (book.level elem).side (book.level elem).price (some head) start =
      .ok false start := run_addAfterTest_unset headBound unset
  rw [run_bind_of_ok tested, run_ite, if_neg Bool.false_ne_true, run_loadLevel_bind headBound,
    prevHead,
    run_storeLevel_bind tailBound, run_loadLevel_bind (by simpa using headBound), prevKept,
    run_storeLevel_bind (by simpa using bound'), run_storeLevel_bind (by simpa using bound'),
    run_storeLevel_bind (by simpa using headBound),
    run_loadLevel_bind (by simpa using headBound)]
  set spliced := start.spliceBefore elem head tail with splicedEq
  rw [spliceBefore] at splicedEq
  rw [← splicedEq]
  have priceHead : (spliced.level head).price = (book.level head).price := by
    have same : (start.spliceBefore elem head tail).levelPrice head = start.levelPrice head :=
      levelPrice_spliceBefore
    rw [spliceBefore, ← splicedEq] at same
    exact same
  rw [priceHead, run_ite]
  split
  case isTrue moves =>
      rw [run_modify_bind, if_neg (by simp [moves.1]), splicedEq]
      rfl
  case isFalse stays =>
      rw [if_neg, splicedEq]
      · rfl
      · rintro ⟨sells, better⟩
        have sells' : book.levelSide elem = .sell := sells
        rw [sells', Better, if_neg Side.noConfusion] at unset
        exact unset ⟨Side.noConfusion, better⟩

end Spliced

/-- The head pointer moves to a BUY level better than the first, and for no other. -/
def splicedHead (book : MEOrderBook) (elem head : ℕ) : ℕ :=
  if book.levelSide elem = .buy ∧ book.levelPrice head < book.levelPrice elem then elem else head

/-- The level is spliced into the ring of the head pointer that is read, and the other head
pointer stays. -/
structure Inserts (book last : MEOrderBook) (elem head tail : ℕ) : Prop where
  splices : Splices book last elem head tail
  head : last.insertionHead (book.levelSide elem) = some (book.splicedHead elem head)
  otherHead : last.removalHead (book.levelSide elem) = book.removalHead (book.levelSide elem)

theorem addOrderAtPrice_inserts
    (bound : elem < book.ordersAtPricePool.numElems)
    (heads : book.insertionHead (book.levelSide elem) = some head)
    (ring : IsRing book.nextEntry book.prevEntry (head :: rest))
    (inPool : ∀ cell ∈ head :: rest, cell < book.ordersAtPricePool.numElems)
    (fresh : elem ∉ head :: rest) :
    ∃ last tail, addOrderAtPrice (some elem) book = .ok ⟨⟩ last ∧ tail ∈ head :: rest ∧
      book.prevEntry head = some tail ∧ Inserts book last elem head tail := by
  rcases ring.linked_of_mem List.mem_cons_self with ⟨-, tail, tailMem, -, tailEq⟩
  have apart : elem ≠ head := (ne_of_mem_of_not_mem List.mem_cons_self fresh).symm
  have apart' : elem ≠ tail := (ne_of_mem_of_not_mem tailMem fresh).symm
  let start := book.setSlot (priceToIndex (book.levelPrice elem)) (some elem)
  by_cases worse : book.levelSide elem ≠ .invalid ∧
      Better (book.levelSide elem) (book.levelPrice head) (book.levelPrice elem)
  · rcases worse with ⟨trades, worse⟩
    have splices : Splices start (start.spliceAfter elem head tail) elem head tail :=
      splices_spliceAfter apart apart'
    refine ⟨_, tail, run_addOrderAtPrice_after bound heads ring inPool tailEq trades worse,
      tailMem, tailEq, ⟨splices.nextEntry, splices.prevEntry⟩, ?_, rfl⟩
    rw [splicedHead, if_neg]
    · exact heads
    · rintro ⟨buys, better⟩
      rw [buys, Better, if_pos rfl] at worse
      exact absurd worse (not_lt_of_gt better)
  · have splices : Splices start (start.spliceBefore elem head tail) elem head tail :=
      splices_spliceBefore apart apart'
    refine ⟨_, tail, run_addOrderAtPrice_before bound heads ring inPool tailEq worse,
      tailMem, tailEq, ?_⟩
    split
    case isTrue moves =>
        refine ⟨⟨splices.nextEntry, splices.prevEntry⟩, ?_, ?_⟩
        · rw [splicedHead, if_pos moves, moves.1]
          rfl
        · rw [moves.1]
          rfl
    case isFalse stays =>
        refine ⟨⟨splices.nextEntry, splices.prevEntry⟩, ?_, rfl⟩
        rw [splicedHead, if_neg stays]
        exact heads

theorem addOrderAtPrice_splices
    (bound : elem < book.ordersAtPricePool.numElems)
    (heads : book.insertionHead (book.levelSide elem) = some head)
    (ring : IsRing book.nextEntry book.prevEntry (head :: rest))
    (inPool : ∀ cell ∈ head :: rest, cell < book.ordersAtPricePool.numElems)
    (fresh : elem ∉ head :: rest) :
    ∃ last, addOrderAtPrice (some elem) book = .ok ⟨⟩ last ∧
      IsRing last.nextEntry last.prevEntry (head :: (rest ++ [elem])) ∧
      last.insertionHead (book.levelSide elem) = some (book.splicedHead elem head) := by
  rcases addOrderAtPrice_inserts bound heads ring inPool fresh with
    ⟨last, tail, ran, tailMem, prevHead, inserts⟩
  exact ⟨last, ran, inserts.splices.ring ring fresh prevHead tailMem, inserts.head⟩

/-- `elem` as the only level of a ring that the head pointer its side reads now heads. -/
def openRing (book : MEOrderBook) (elem : ℕ) : MEOrderBook :=
  ((book.setSlot (priceToIndex (book.levelPrice elem)) (some elem)).setInsertionHead
    (book.levelSide elem) (some elem)).setLevel elem fun level =>
      { level with prevEntry := some elem, nextEntry := some elem }

theorem run_addOrderAtPrice_empty (bound : elem < book.ordersAtPricePool.numElems)
    (empty : book.insertionHead (book.levelSide elem) = none) :
    addOrderAtPrice (some elem) book = .ok ⟨⟩ (book.openRing elem) := by
  have empty' : (book.setSlot (priceToIndex (book.level elem).price) (some elem)).insertionHead
    (book.level elem).side = none := empty
  rw [addOrderAtPrice, run_loadLevel_bind bound, run_modify_bind, run_get_bind]
  simp only [empty', if_true]
  rw [run_modify_bind]
  apply run_storeLevel
  simpa using bound

section OpenRing

variable (book : MEOrderBook) (elem other : ℕ)

theorem nextEntry_openRing : (book.openRing elem).nextEntry other =
    if other = elem then some elem else book.nextEntry other := by
  simp only [nextEntry, openRing, level_setLevel, level_setInsertionHead, level_setSlot]
  split_ifs <;> rfl

theorem prevEntry_openRing : (book.openRing elem).prevEntry other =
    if other = elem then some elem else book.prevEntry other := by
  simp only [prevEntry, openRing, level_setLevel, level_setInsertionHead, level_setSlot]
  split_ifs <;> rfl

theorem bidsByPrice_openRing : (book.openRing elem).bidsByPrice =
    if book.levelSide elem = .buy then book.bidsByPrice else some elem := by
  rw [openRing]
  simp

theorem asksByPrice_openRing : (book.openRing elem).asksByPrice =
    if book.levelSide elem = .buy then some elem else book.asksByPrice := by
  rw [openRing]
  simp

end OpenRing

/-- The head pointer `addOrderAtPrice` reads for `side` heads a ring of levels of that side, best
price first. -/
structure SortedRing (book : MEOrderBook) (side : Side) (cells : List ℕ) : Prop where
  ring : HeadsRing book.nextEntry book.prevEntry (book.insertionHead side) cells
  inUse : ∀ cell ∈ cells, book.LevelInUse cell
  levelSide : ∀ cell ∈ cells, book.levelSide cell = side
  sorted : cells.Pairwise fun first second =>
    Better side (book.levelPrice first) (book.levelPrice second)

/-- A level of the side that is not in the ring and whose price is not either. -/
structure NewLevel (book : MEOrderBook) (side : Side) (cells : List ℕ) (elem : ℕ) : Prop where
  inUse : book.LevelInUse elem
  levelSide : book.levelSide elem = side
  fresh : elem ∉ cells
  price : ∀ cell ∈ cells, book.levelPrice cell ≠ book.levelPrice elem

/-- The ring of the old levels and the new one is sorted, read from the head pointer. -/
def InsertedSorted (last : MEOrderBook) (side : Side) (cells : List ℕ) (elem : ℕ) : Prop :=
  ∃ cells', SortedRing last side cells' ∧ cells'.Perm (elem :: cells)

theorem Better.trans {first second third : Price} (front : Better side first second)
    (back : Better side second third) : Better side first third := by
  unfold Better at *
  split at front
  · rw [if_pos ‹_›] at back ⊢
    exact lt_trans back front
  · rw [if_neg ‹_›] at back ⊢
    exact lt_trans front back

/-- The ring that the head pointer heads after an insertion. -/
def splicedCells (book : MEOrderBook) (elem head : ℕ) (rest : List ℕ) : List ℕ :=
  if book.levelSide elem = .buy ∧ book.levelPrice head < book.levelPrice elem then
    elem :: head :: rest
  else head :: (rest ++ [elem])

theorem headsRing_splicedCells
    (ring : IsRing last.nextEntry last.prevEntry (head :: (rest ++ [elem])))
    (heads : last.insertionHead side = some (book.splicedHead elem head)) :
    HeadsRing last.nextEntry last.prevEntry (last.insertionHead side)
      (book.splicedCells elem head rest) := by
  unfold splicedHead at heads
  unfold splicedCells
  split at heads
  · rw [if_pos ‹_›]
    refine ⟨heads, fun _ => ?_⟩
    have turned : IsRing last.nextEntry last.prevEntry ((head :: rest) ++ [elem]) := ring
    simpa using turned.rotate
  · rw [if_neg ‹_›]
    exact ⟨heads, fun _ => ring⟩

theorem splicedCells_perm : (book.splicedCells elem head rest).Perm (elem :: head :: rest) := by
  unfold splicedCells
  split
  · exact List.Perm.refl _
  · exact List.perm_append_singleton elem (head :: rest)

theorem erase_splicedCells (fresh : elem ∉ head :: rest) :
    (book.splicedCells elem head rest).erase elem = head :: rest := by
  unfold splicedCells
  split
  · exact List.erase_cons_head elem (head :: rest)
  · rw [← List.cons_append, List.erase_append_right _ fresh]
    simp

/-- On a ring of levels in any order of price `addOrderAtPrice` returns. The head pointer then
leads into a closed ring of the old levels and the new one, in which the old ones follow one
another as they did. -/
theorem addOrderAtPrice_keeps_ring (bound : elem < book.ordersAtPricePool.numElems)
    (heads : book.insertionHead (book.levelSide elem) = some head)
    (ring : IsRing book.nextEntry book.prevEntry (head :: rest))
    (inPool : ∀ cell ∈ head :: rest, cell < book.ordersAtPricePool.numElems)
    (fresh : elem ∉ head :: rest) :
    ∃ last cells, addOrderAtPrice (some elem) book = .ok ⟨⟩ last ∧
      last.insertionHead (book.levelSide elem) = cells.head? ∧
      IsRing last.nextEntry last.prevEntry cells ∧
      cells.Perm (elem :: head :: rest) ∧ cells.erase elem = head :: rest := by
  rcases addOrderAtPrice_splices bound heads ring inPool fresh with ⟨last, ran, ring', heads'⟩
  have spliced := headsRing_splicedCells ring' heads'
  have perm : (book.splicedCells elem head rest).Perm (elem :: head :: rest) := splicedCells_perm
  have nonempty := List.ne_nil_of_mem (perm.mem_iff.mpr List.mem_cons_self)
  exact ⟨last, _, ran, spliced.1, spliced.2 nonempty, perm, erase_splicedCells fresh⟩

theorem splicedCells_sorted_iff (sideEq : book.levelSide elem = side)
    (sorted : (head :: rest).Pairwise fun first second =>
      Better side (book.levelPrice first) (book.levelPrice second)) :
    ((book.splicedCells elem head rest).Pairwise fun first second =>
        Better side (book.levelPrice first) (book.levelPrice second)) ↔
      (∀ cell ∈ head :: rest, Better side (book.levelPrice cell) (book.levelPrice elem)) ∨
        side = .buy ∧
          ∀ cell ∈ head :: rest, Better side (book.levelPrice elem) (book.levelPrice cell) := by
  unfold splicedCells
  by_cases moves : book.levelSide elem = .buy ∧ book.levelPrice head < book.levelPrice elem
  · rw [if_pos moves]
    have buys : side = .buy := sideEq.symm.trans moves.1
    have first : Better side (book.levelPrice elem) (book.levelPrice head) := by
      rw [buys, Better, if_pos rfl]
      exact moves.2
    have all : ∀ cell ∈ head :: rest,
        Better side (book.levelPrice elem) (book.levelPrice cell) := by
      rintro cell (_ | ⟨_, member⟩)
      · exact first
      · exact first.trans ((List.pairwise_cons.mp sorted).1 cell member)
    exact ⟨fun _ => Or.inr ⟨buys, all⟩, fun _ => List.pairwise_cons.mpr ⟨all, sorted⟩⟩
  · rw [if_neg moves, ← List.cons_append, List.pairwise_append]
    simp only [List.mem_singleton, forall_eq]
    constructor
    · exact fun appended => Or.inl appended.2.2
    · rintro (worse | ⟨buys, better⟩)
      · exact ⟨sorted, List.pairwise_singleton _ _, worse⟩
      · have first := better head List.mem_cons_self
        rw [buys, Better, if_pos rfl] at first
        exact absurd ⟨sideEq.trans buys, first⟩ moves

/-- Whether the insertion is sorted is decided by the one ring it can have left. -/
theorem insertedSorted_iff (frame : SameButLinks
      (book.setSlot (priceToIndex (book.levelPrice elem)) (some elem)) last)
    (old : ∀ cell ∈ head :: rest, book.LevelInUse cell ∧ book.levelSide cell = side)
    (new : book.LevelInUse elem ∧ book.levelSide elem = side)
    (ring : HeadsRing last.nextEntry last.prevEntry (last.insertionHead side)
      (book.splicedCells elem head rest)) :
    InsertedSorted last side (head :: rest) elem ↔
      (book.splicedCells elem head rest).Pairwise fun first second =>
        Better side (book.levelPrice first) (book.levelPrice second) := by
  have prices : last.levelPrice = book.levelPrice := frame.levelPrice
  have sides : last.levelSide = book.levelSide := frame.levelSide
  have used : last.LevelInUse = book.LevelInUse := frame.levelInUse
  have listed : ∀ cell ∈ book.splicedCells elem head rest,
      book.LevelInUse cell ∧ book.levelSide cell = side := by
    intro cell member
    rcases List.mem_cons.mp (splicedCells_perm.mem_iff.mp member) with rfl | member
    · exact new
    · exact old cell member
  constructor
  · rintro ⟨cells', sorted, -⟩
    rw [← ring.unique sorted.ring, ← prices]
    exact sorted.sorted
  · intro sorted
    refine ⟨_, ⟨ring, ?_, ?_, ?_⟩, splicedCells_perm⟩
    · rw [used]
      exact fun cell member => (listed cell member).1
    · rw [sides]
      exact fun cell member => (listed cell member).2
    · rw [prices]
      exact sorted

/-- `addOrderAtPrice` returns on every sorted ring; it keeps the ring sorted when the new price is
worse than all of it or, for BUY, better than all of it, and in no other case. -/
theorem addOrderAtPrice_sorted_iff (trades : side ≠ .invalid)
    (sorted : SortedRing book side cells) (nonempty : cells ≠ [])
    (new : NewLevel book side cells elem) :
    ∃ last, addOrderAtPrice (some elem) book = .ok ⟨⟩ last ∧
      (InsertedSorted last side cells elem ↔
        (∀ cell ∈ cells, Better side (book.levelPrice cell) (book.levelPrice elem)) ∨
          side = .buy ∧
            ∀ cell ∈ cells, Better side (book.levelPrice elem) (book.levelPrice cell)) := by
  rcases cells with _ | ⟨head, rest⟩
  · exact absurd rfl nonempty
  rcases new with ⟨inUse, rfl, fresh, -⟩
  rcases addOrderAtPrice_splices inUse.1 sorted.ring.1 (sorted.ring.2 nonempty)
    (fun cell member => (sorted.inUse cell member).1) fresh with ⟨last, ran, ring, heads⟩
  refine ⟨last, ran, ?_⟩
  rw [insertedSorted_iff (addOrderAtPrice_frame ran)
    (fun cell member => ⟨sorted.inUse cell member, sorted.levelSide cell member⟩) ⟨inUse, rfl⟩
    (headsRing_splicedCells ring heads)]
  exact splicedCells_sorted_iff rfl sorted.sorted

def sampleBuyLevels : ℕ → MemPool.Object MEOrdersAtPrice
  | 0 => {
      object := { side := .buy, price := 10, prevEntry := some 1, nextEntry := some 1 }
      isFree := false }
  | 1 => {
      object := { side := .buy, price := 8, prevEntry := some 0, nextEntry := some 0 }
      isFree := false }
  | 2 => { object := { side := .buy, price := 9 }, isFree := false }
  | 3 => { object := { side := .buy, price := 11 }, isFree := false }
  | _ => { object := {} }

/-- A ring of the BUY levels 10 and 8, and two BUY levels at 9 and 11 to be inserted. -/
def sampleBuyRing : MEOrderBook where
  cidOidToOrder _ _ := none
  ordersAtPricePool := { numElems := 8, nextFreeIndex := 4, store := sampleBuyLevels }
  asksByPrice := some 0
  priceOrdersAtPrice _ := none
  orderPool := MemPool.new 8

theorem sampleBuyRing_sorted : SortedRing sampleBuyRing .buy [0, 1] where
  ring := ⟨rfl, fun _ => ⟨by decide, by
    simp [Linked, nextEntry, prevEntry, level, sampleBuyRing, sampleBuyLevels]⟩⟩
  inUse := by decide
  levelSide := by decide
  sorted := by decide

/-- Read from the level at 8, the ring of 8 and 10 is not sorted; a level at 9 becomes its head. -/
theorem addOrderAtPrice_keeps_ring_sample :
    ∃ last cells, addOrderAtPrice (some 2) { sampleBuyRing with asksByPrice := some 1 } =
        .ok ⟨⟩ last ∧
      last.insertionHead .buy = cells.head? ∧ IsRing last.nextEntry last.prevEntry cells ∧
      cells.Perm [2, 1, 0] ∧ cells.erase 2 = [1, 0] := by
  have ring : IsRing sampleBuyRing.nextEntry sampleBuyRing.prevEntry [1, 0] :=
    (sampleBuyRing_sorted.ring.2 (by decide)).rotate_one
  have bound : 2 < sampleBuyRing.ordersAtPricePool.numElems := by decide
  exact addOrderAtPrice_keeps_ring bound rfl ring (by decide) (by decide)

theorem addOrderAtPrice_sorted_sample :
    ∃ last, addOrderAtPrice (some 3) sampleBuyRing = .ok ⟨⟩ last ∧
      (InsertedSorted last .buy [0, 1] 3 ↔
        (∀ cell ∈ [0, 1], Better .buy (sampleBuyRing.levelPrice cell) (sampleBuyRing.levelPrice 3)) ∨
          Side.buy = .buy ∧
            ∀ cell ∈ [0, 1],
              Better .buy (sampleBuyRing.levelPrice 3) (sampleBuyRing.levelPrice cell)) :=
  addOrderAtPrice_sorted_iff (by decide) sampleBuyRing_sorted (by decide)
    ⟨by decide, by decide, by decide, by decide⟩

/-- Inserted between 10 and 8, the level at 9 comes last. -/
theorem not_insertedSorted_between :
    SortedRing sampleBuyRing .buy [0, 1] ∧ NewLevel sampleBuyRing .buy [0, 1] 2 ∧
      ∃ last, addOrderAtPrice (some 2) sampleBuyRing = .ok ⟨⟩ last ∧
        ¬InsertedSorted last .buy [0, 1] 2 := by
  refine ⟨sampleBuyRing_sorted, ⟨by decide, by decide, by decide, by decide⟩, ?_⟩
  have bound : 2 < sampleBuyRing.ordersAtPricePool.numElems := by decide
  rcases addOrderAtPrice_splices bound rfl (sampleBuyRing_sorted.ring.2 (by decide))
    (by decide) (by decide) with ⟨last, ran, ring, heads⟩
  have heads' : last.insertionHead .buy = _ := heads
  refine ⟨last, ran, ?_⟩
  rw [insertedSorted_iff (addOrderAtPrice_frame ran) (by decide) (by decide)
    (headsRing_splicedCells ring heads')]
  decide

end QuantEngine.MEOrderBook
