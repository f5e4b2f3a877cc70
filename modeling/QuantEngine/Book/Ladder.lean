import QuantEngine.Book.Directory
import QuantEngine.Book.Reference

/-!
# The ladders of a book

A ladder is the ring of levels that a head pointer reaches. Removal keeps a
ladder that is well linked and whose orders are all of one side; what it leaves
alone is collected in `Shrinks`, which also describes a whole matching loop.

`WellFormed` is the book the code is written for: both ladders pure and sorted
best price first, and everything else agreeing with them. Which of the two
sides is called `own` is a parameter, so that results about one side hold for
the other by `WellFormed.swap`.
-/

namespace QuantEngine.MEOrderBook

open Exec LinkedRing

variable {book last : MEOrderBook} {side : Side} {price : Price} {done : PUnit} {elem atPrice : ℕ}

theorem opposite_opposite (side : Side) : side.opposite.opposite = side := by
  cases side <;> rfl

section Heads

variable (book) (side) {pointer : Pointer}

@[simp]
theorem removalHead_setRemovalHead :
    (book.setRemovalHead side pointer).removalHead side = pointer := by
  unfold removalHead
  split <;> simp [*]

@[simp]
theorem insertionHead_setRemovalHead :
    (book.setRemovalHead side pointer).insertionHead side = book.insertionHead side := by
  unfold insertionHead
  split <;> simp [*]

theorem removalHead_unlinkLevel {before after : ℕ} :
    (book.unlinkLevel side elem before after).removalHead side =
      if book.removalHead side = some elem then some after else book.removalHead side := by
  unfold removalHead
  by_cases buys : side = .buy
  · simp [buys, bidsByPrice_unlinkLevel]
  · simp [buys, asksByPrice_unlinkLevel]

theorem insertionHead_unlinkLevel {before after : ℕ} :
    (book.unlinkLevel side elem before after).insertionHead side = book.insertionHead side := by
  unfold insertionHead
  by_cases buys : side = .buy
  · simp [buys, asksByPrice_unlinkLevel]
  · simp [buys, bidsByPrice_unlinkLevel]

theorem removalHead_opposite (trades : side ≠ .invalid) :
    book.removalHead side.opposite = book.insertionHead side := by
  cases side with
  | invalid => exact absurd rfl trades
  | buy => rfl
  | sell => rfl

end Heads

theorem insertionHead_of_removeOrdersAtPrice
    (ran : removeOrdersAtPrice side price book = .ok done last) :
    last.insertionHead side = book.insertionHead side := by
  rcases removeOrdersAtPrice_cases ran with
    ⟨elem, -, -, ⟨-, rfl⟩ | ⟨before, after, -, -, -, -, -, rfl⟩⟩
  · exact insertionHead_setRemovalHead book side
  · exact insertionHead_unlinkLevel book side

/-- Removing any level of a ring keeps the ring of the others. -/
theorem removeOrdersAtPrice_ring {front back : List ℕ}
    (ring : HeadsRing book.nextEntry book.prevEntry (book.removalHead side)
      (front ++ atPrice :: back))
    (slot : book.priceOrdersAtPrice (priceToIndex price) = some atPrice)
    (inUse : ∀ elem ∈ front ++ atPrice :: back, book.LevelInUse elem) :
    ∃ last, removeOrdersAtPrice side price book = .ok ⟨⟩ last ∧
      HeadsRing last.nextEntry last.prevEntry (last.removalHead side) (front ++ back) ∧
      last.insertionHead side = book.insertionHead side ∧
      ∀ elem ∉ front ++ atPrice :: back,
        last.nextEntry elem = book.nextEntry elem ∧ last.prevEntry elem = book.prevEntry elem := by
  have isRing := ring.2 (by simp)
  have used := inUse atPrice (by simp)
  by_cases others : front ++ back = []
  · rw [List.append_eq_nil_iff] at others
    rcases others with ⟨rfl, rfl⟩
    have alone : book.nextEntry atPrice = some atPrice := (isRing_singleton.mp isRing).1
    refine ⟨_, removeOrdersAtPrice_alone slot used alone, ⟨?_, by simp⟩, ?_, ?_⟩
    · exact removalHead_setRemovalHead book side
    · exact insertionHead_setRemovalHead book side
    · intro elem _
      have views := levelViews_eq (level_freeLevel
        ((book.setRemovalHead side none).setSlot (priceToIndex price) none) atPrice)
      rw [views.2.2.2.1, views.2.2.2.2]
      rcases levelViews_eq (level_setSlot (book.setRemovalHead side none) none (priceToIndex price))
        with ⟨-, -, -, nexts, prevs⟩
      rw [nexts, prevs]
      rcases levelViews_eq (level_setRemovalHead book side none) with ⟨-, -, -, nexts, prevs⟩
      rw [nexts, prevs]
      exact ⟨rfl, rfl⟩
  · rcases isRing.neighbours_mem others with
      ⟨before, beforeMem, after, afterMem, prevEq, nextEq⟩
    have fresh : atPrice ∉ front ++ back :=
      (List.nodup_cons.mp (List.perm_middle.nodup_iff.mp isRing.nodup)).1
    have wider : ∀ {elem}, elem ∈ front ++ back → elem ∈ front ++ atPrice :: back := by
      intro elem member
      simp only [List.mem_append, List.mem_cons] at member ⊢
      tauto
    have ran := removeOrdersAtPrice_linked side slot used prevEq nextEq
      (ne_of_mem_of_not_mem afterMem fresh) (inUse before (wider beforeMem)).1
      (inUse after (wider afterMem)).1
    set unlinked := book.unlinkLevel side atPrice before after with unlinkedEq
    have views := levelViews_eq (show ((unlinked.setSlot (priceToIndex price) none).freeLevel
      atPrice).level = unlinked.level by simp)
    have nexts : ∀ elem, ((unlinked.setSlot (priceToIndex price) none).freeLevel
        atPrice).nextEntry elem =
          if elem = atPrice then none else if elem = before then some after
          else book.nextEntry elem := by
      intro elem
      rw [views.2.2.2.1, unlinkedEq, nextEntry_unlinkLevel]
    have prevs : ∀ elem, ((unlinked.setSlot (priceToIndex price) none).freeLevel
        atPrice).prevEntry elem =
          if elem = atPrice then none else if elem = after then some before
          else book.prevEntry elem := by
      intro elem
      rw [views.2.2.2.2, unlinkedEq, prevEntry_unlinkLevel]
    refine ⟨_, ran, ⟨?_, fun _ => ?_⟩, ?_, ?_⟩
    · change unlinked.removalHead side = _
      rw [unlinkedEq, removalHead_unlinkLevel, ring.1]
      cases front with
      | nil =>
          rw [List.nil_append, List.head?_cons, if_pos rfl]
          exact (isRing.head?_remove others nextEq).symm
      | cons head tail =>
          rw [if_neg]
          · rfl
          · intro same
            exact fresh (by simp [← Option.some.inj same])
    · refine isRing.remove others prevEq nextEq ?_ ?_ ?_ ?_
      · rw [nexts, if_neg (ne_of_mem_of_not_mem beforeMem fresh), if_pos rfl]
      · rw [prevs, if_neg (ne_of_mem_of_not_mem afterMem fresh), if_pos rfl]
      · intro other otherMem different
        rw [nexts, if_neg (ne_of_mem_of_not_mem otherMem fresh), if_neg different]
      · intro other otherMem different
        rw [prevs, if_neg (ne_of_mem_of_not_mem otherMem fresh), if_neg different]
    · exact insertionHead_unlinkLevel book side
    · intro elem absent
      have apart : elem ≠ atPrice := fun same => absent (by simp [same])
      rw [nexts, prevs, if_neg apart, if_neg apart,
        if_neg (ne_of_mem_of_not_mem (wider beforeMem) absent).symm,
        if_neg (ne_of_mem_of_not_mem (wider afterMem) absent).symm]
      exact ⟨rfl, rfl⟩

/-- What trading and cancelling on one side leave alone: `own` lists that side's levels before
and `own'` after. -/
structure Shrinks (book last : MEOrderBook) (side : Side) (own own' : List Entry) : Prop where
  levels : (levelsOf own').Sublist (levelsOf own)
  orders : (ordersOf own').Sublist (ordersOf own)
  levelSide : last.levelSide = book.levelSide
  levelPrice : last.levelPrice = book.levelPrice
  otherHead : last.insertionHead side = book.insertionHead side
  links : ∀ elem ∉ levelsOf own,
    last.nextEntry elem = book.nextEntry elem ∧ last.prevEntry elem = book.prevEntry elem
  data : ∀ elem, last.orderData elem =
    { book.orderData elem with quantity := (last.orderData elem).quantity }
  otherData : ∀ elem ∉ ordersOf own, last.orderData elem = book.orderData elem
  inUse : ∀ elem, last.OrderInUse elem → book.OrderInUse elem
  gone : ∀ elem ∈ ordersOf own, elem ∉ ordersOf own' → ¬last.OrderInUse elem

namespace Shrinks

variable {own own' own'' others : List Entry}

theorem refl (book : MEOrderBook) (side : Side) (own : List Entry) :
    Shrinks book book side own own where
  levels := List.Sublist.refl _
  orders := List.Sublist.refl _
  levelSide := rfl
  levelPrice := rfl
  otherHead := rfl
  links _ _ := ⟨rfl, rfl⟩
  data _ := rfl
  otherData _ _ := rfl
  inUse _ used := used
  gone _ listed absent := absurd listed absent

theorem trans {first second third : MEOrderBook} (front : Shrinks first second side own own')
    (back : Shrinks second third side own' own'') : Shrinks first third side own own'' where
  levels := back.levels.trans front.levels
  orders := back.orders.trans front.orders
  levelSide := back.levelSide.trans front.levelSide
  levelPrice := back.levelPrice.trans front.levelPrice
  otherHead := back.otherHead.trans front.otherHead
  links elem absent := by
    have absent' : elem ∉ levelsOf own' := fun member => absent (front.levels.subset member)
    exact ⟨(back.links elem absent').1.trans (front.links elem absent).1,
      (back.links elem absent').2.trans (front.links elem absent).2⟩
  data elem := by
    rw [back.data elem, front.data elem]
  otherData elem absent := by
    have absent' : elem ∉ ordersOf own' := fun member => absent (front.orders.subset member)
    exact (back.otherData elem absent').trans (front.otherData elem absent)
  inUse elem used := front.inUse elem (back.inUse elem used)
  gone elem listed absent := by
    by_cases kept : elem ∈ ordersOf own'
    · exact back.gone elem kept absent
    · exact fun used => front.gone elem listed kept (back.inUse elem used)

theorem ordersOnly (shrinks : Shrinks book last side own own')
    (only : OrdersOnly book (own ++ others)) : OrdersOnly last (own' ++ others) := by
  intro elem used
  have listed := only elem (shrinks.inUse elem used)
  simp only [ordersOf, List.flatMap_append, List.mem_append] at listed ⊢
  refine listed.imp_left fun inOwn => ?_
  by_contra absent
  exact shrinks.gone elem inOwn absent used

end Shrinks

/-- The listed levels form the ladder of `side`; nothing is said of the sides of their orders. -/
structure Ringed (book : MEOrderBook) (side : Side) (own others : List Entry) : Prop where
  directory : Directory book (own ++ others)
  ring : HeadsRing book.nextEntry book.prevEntry (book.removalHead side) (levelsOf own)

/-- The listing with `elem` taken out of its level. -/
abbrev takeOut (front : List Entry) (atPrice : ℕ) (remaining : List ℕ) (back : List Entry) :
    List Entry :=
  front ++ Directory.without atPrice remaining back

theorem ordersOf_takeOut {front back : List Entry} {remaining : List ℕ} :
    ordersOf (takeOut front atPrice remaining back) =
      ordersOf front ++ (remaining ++ ordersOf back) := by
  rw [← Directory.ordersOf_without atPrice]
  exact List.flatMap_append

theorem ordersOf_takeOut_perm {front back : List Entry} {before after : List ℕ} :
    (ordersOf (front ++ (atPrice, before ++ elem :: after) :: back)).Perm
      (elem :: ordersOf (takeOut front atPrice (before ++ after) back)) := by
  rw [ordersOf_takeOut, ordersOf, List.flatMap_append, List.flatMap_cons]
  have moved : (ordersOf front ++ before ++ elem :: (after ++ ordersOf back)).Perm _ :=
    List.perm_middle
  simpa using moved

theorem levelsOf_takeOut {front back : List Entry} {remaining : List ℕ} :
    levelsOf (takeOut front atPrice remaining back) =
      if remaining = [] then levelsOf front ++ levelsOf back
      else levelsOf front ++ atPrice :: levelsOf back := by
  unfold takeOut Directory.without
  split <;> simp

theorem without_perm {remaining : List ℕ} {front back others : List Entry} :
    (Directory.without atPrice remaining (front ++ back ++ others)).Perm
      (takeOut front atPrice remaining back ++ others) := by
  unfold takeOut Directory.without
  split
  · exact List.Perm.refl _
  · simp [List.perm_middle.symm]

theorem RemovesOrder.shrinks {front back : List Entry} {before after : List ℕ}
    (removes : RemovesOrder book last elem)
    (otherHead : last.insertionHead side = book.insertionHead side)
    (links : ∀ other ∉ levelsOf (front ++ (atPrice, before ++ elem :: after) :: back),
      last.nextEntry other = book.nextEntry other ∧ last.prevEntry other = book.prevEntry other) :
    Shrinks book last side (front ++ (atPrice, before ++ elem :: after) :: back)
      (takeOut front atPrice (before ++ after) back) where
  levels := by
    rw [levelsOf_takeOut]
    simp only [levelsOf, List.map_append, List.map_cons]
    split
    · exact List.Sublist.append_left (List.sublist_cons_self _ _) _
    · exact List.Sublist.refl _
  orders := by
    rw [ordersOf_takeOut]
    simp only [ordersOf, List.flatMap_append, List.flatMap_cons]
    refine List.Sublist.append_left (List.Sublist.append_right ?_ _) _
    exact List.Sublist.append_left (List.sublist_cons_self _ _) _
  levelSide := removes.levelSide
  levelPrice := removes.levelPrice
  otherHead := otherHead
  links := links
  data elem := by rw [removes.orderData]
  otherData elem _ := by rw [removes.orderData]
  inUse other used := ((removes.orderInUse other).mp used).1
  gone other listed absent := by
    intro used
    have different := ((removes.orderInUse other).mp used).2
    rw [ordersOf_takeOut] at absent
    simp only [ordersOf, List.flatMap_append, List.flatMap_cons, List.mem_append,
      List.mem_cons] at listed absent
    tauto

/-- The order's side matters only when its level is removed with it. -/
theorem Ringed.removeOrder {own others front back : List Entry} {before after : List ℕ}
    (ringed : Ringed book side own others)
    (split : own = front ++ (atPrice, before ++ elem :: after) :: back)
    (elemSide : before ++ after = [] → (book.orderData elem).side = side) :
    ∃ last, MEOrderBook.removeOrder (some elem) book = .ok ⟨⟩ last ∧
      Ringed last side (takeOut front atPrice (before ++ after) back) others ∧
      Shrinks book last side own (takeOut front atPrice (before ++ after) back) := by
  subst split
  have moved : (front ++ (atPrice, before ++ elem :: after) :: back ++ others).Perm
      ((atPrice, before ++ elem :: after) :: (front ++ back ++ others)) := by
    simp [List.perm_middle]
  have dir := ringed.directory.perm moved
  have levelsEq : levelsOf (front ++ (atPrice, before ++ elem :: after) :: back) =
      levelsOf front ++ atPrice :: levelsOf back := by simp
  by_cases alone : before ++ after = []
  · have sameSide := elemSide alone
    rw [List.append_eq_nil_iff] at alone
    rcases alone with ⟨rfl, rfl⟩
    have ring := dir.ring _ List.mem_cons_self
    have elemPrice : (book.orderData elem).price = book.levelPrice atPrice :=
      dir.price _ List.mem_cons_self elem (by simp)
    have slot := dir.slot _ List.mem_cons_self
    rw [← elemPrice] at slot
    have ladder := ringed.ring
    rw [levelsEq] at ladder
    have used : ∀ other ∈ levelsOf front ++ atPrice :: levelsOf back, book.LevelInUse other := by
      intro other otherMem
      refine (ringed.directory.levelInUse other).mpr ?_
      rw [levelsOf, List.map_append]
      exact List.mem_append_left _ (by rwa [← levelsEq] at otherMem)
    rcases removeOrdersAtPrice_ring ladder slot used with
      ⟨middle, removed, ladder', otherHead, links⟩
    have ran := removeOrder_alone (dir.orderInUse elem (by simp)) (isRing_singleton.mp ring).2
      (dir.key elem (by simp)).1 (by rw [sameSide]; exact removed)
    rcases levelViews_eq (level_release middle elem) with ⟨-, -, -, nexts, prevs⟩
    refine ⟨_, ran, ⟨(dir.removeOrder ran).perm without_perm, ?_⟩, ?_⟩
    · rw [levelsOf_takeOut, if_pos (List.append_nil []), nexts, prevs]
      exact ladder'
    · refine (removesOrder_of_run ran).shrinks otherHead ?_
      rw [nexts, prevs, levelsEq]
      exact links
  · rcases dir.run_removeOrder alone with ⟨prior, following, -, -, ran⟩
    rcases levelViews_eq (level_release (book.unlinkOrder atPrice elem prior following) elem) with
      ⟨-, -, -, nexts, prevs⟩
    rw [nextEntry_unlinkOrder] at nexts
    rw [prevEntry_unlinkOrder] at prevs
    have sameHeads : ((book.unlinkOrder atPrice elem prior following).release elem).removalHead side =
          book.removalHead side ∧
        ((book.unlinkOrder atPrice elem prior following).release elem).insertionHead side =
          book.insertionHead side := by
      simp [removalHead, insertionHead]
    refine ⟨_, ran, ⟨(dir.removeOrder ran).perm without_perm, ?_⟩, ?_⟩
    · rw [levelsOf_takeOut, if_neg alone, nexts, prevs, sameHeads.1, ← levelsEq]
      exact ringed.ring
    · refine (removesOrder_of_run ran).shrinks sameHeads.2 ?_
      rw [nexts, prevs]
      exact fun _ _ => ⟨rfl, rfl⟩

/-- The price of the first level is strictly better for `side` than that of the second. -/
def Better (side : Side) (first second : Price) : Prop :=
  if side = .buy then second < first else first < second

/-- `side`'s head pointer is null or heads a ring of levels of that side, best price first. -/
structure Ladder (book : MEOrderBook) (side : Side) (own : List Entry) : Prop where
  ring : HeadsRing book.nextEntry book.prevEntry (book.removalHead side) (levelsOf own)
  levelSide : ∀ atPrice ∈ levelsOf own, book.levelSide atPrice = side
  orderSide : ∀ elem ∈ ordersOf own, (book.orderData elem).side = side
  sorted : (levelsOf own).Pairwise fun first second =>
    Better side (book.levelPrice first) (book.levelPrice second)

/-- A ladder is the same levels, heads and sides of orders. -/
theorem Ladder.congr {own own' : List Entry} (ladder : Ladder book side own)
    (level : last.level = book.level) (heads : last.removalHead side = book.removalHead side)
    (levels : levelsOf own' = levelsOf own)
    (orderSide : ∀ elem ∈ ordersOf own', (last.orderData elem).side = side) :
    Ladder last side own' := by
  rcases levelViews_eq level with ⟨sides, prices, -, nexts, prevs⟩
  refine ⟨?_, ?_, orderSide, ?_⟩
  · rw [nexts, prevs, heads, levels]
    exact ladder.ring
  · rw [sides, levels]
    exact ladder.levelSide
  · rw [prices, levels]
    exact ladder.sorted

/-- Every listed order has some quantity left. -/
def Positive (book : MEOrderBook) (levels : List Entry) : Prop :=
  ∀ elem ∈ ordersOf levels, (book.orderData elem).quantity ≠ 0

/-- An arranged book: both ladders are pure and sorted and everything else agrees with them. The
ids given to its orders may repeat. -/
structure Arranged (book : MEOrderBook) (side : Side) (own others : List Entry) : Prop where
  directory : Directory book (own ++ others)
  ordersOnly : OrdersOnly book (own ++ others)
  ladder : Ladder book side own
  otherLadder : Ladder book side.opposite others

namespace Arranged

variable {own own' others : List Entry}

theorem swap (arranged : Arranged book side own others) :
    Arranged book side.opposite others own := by
  have same : (own ++ others).Perm (others ++ own) := List.perm_append_comm
  have sameOrders := same.flatMap_right Prod.snd
  refine ⟨arranged.directory.perm same, ?_, arranged.otherLadder, ?_⟩
  · exact fun elem used => sameOrders.mem_iff.mp (arranged.ordersOnly elem used)
  · rw [opposite_opposite]
    exact arranged.ladder

theorem ringed (arranged : Arranged book side own others) : Ringed book side own others :=
  ⟨arranged.directory, arranged.ladder.ring⟩

theorem otherData (arranged : Arranged book side own others)
    (shrinks : Shrinks book last side own own') :
    ∀ elem ∈ ordersOf others, last.orderData elem = book.orderData elem := by
  have nodup := arranged.directory.ordersNodup
  rw [ordersOf, List.flatMap_append, List.nodup_append'] at nodup
  exact fun elem listed => shrinks.otherData elem fun inOwn => nodup.2.2 inOwn listed

theorem shrink (arranged : Arranged book side own others) (trades : side ≠ .invalid)
    (ringed : Ringed last side own' others) (shrinks : Shrinks book last side own own') :
    Arranged last side own' others := by
  have levelsNodup := arranged.directory.levelsNodup
  rw [levelsOf, List.map_append, List.nodup_append'] at levelsNodup
  have otherLinks : ∀ atPrice ∈ levelsOf others, last.nextEntry atPrice = book.nextEntry atPrice ∧
      last.prevEntry atPrice = book.prevEntry atPrice :=
    fun atPrice listed => shrinks.links atPrice fun inOwn => levelsNodup.2.2 inOwn listed
  have sideEq : ∀ elem, (last.orderData elem).side = (book.orderData elem).side := by
    intro elem
    rw [shrinks.data]
  refine ⟨ringed.directory, shrinks.ordersOnly arranged.ordersOnly, ⟨ringed.ring, ?_, ?_, ?_⟩,
    ⟨⟨?_, ?_⟩, ?_, ?_, ?_⟩⟩
  · rw [shrinks.levelSide]
    exact fun atPrice listed => arranged.ladder.levelSide atPrice (shrinks.levels.subset listed)
  · intro elem listed
    rw [sideEq]
    exact arranged.ladder.orderSide elem (shrinks.orders.subset listed)
  · rw [shrinks.levelPrice]
    exact arranged.ladder.sorted.sublist shrinks.levels
  · rw [removalHead_opposite _ _ trades, shrinks.otherHead, ← removalHead_opposite _ _ trades]
    exact arranged.otherLadder.ring.1
  · intro nonempty
    exact (arranged.otherLadder.ring.2 nonempty).congr
      (fun atPrice listed => (otherLinks atPrice listed).1)
      fun atPrice listed => (otherLinks atPrice listed).2
  · rw [shrinks.levelSide]
    exact arranged.otherLadder.levelSide
  · intro elem listed
    rw [sideEq]
    exact arranged.otherLadder.orderSide elem listed
  · rw [shrinks.levelPrice]
    exact arranged.otherLadder.sorted

theorem removeOrder {front back : List Entry} {before after : List ℕ}
    (arranged : Arranged book side own others) (trades : side ≠ .invalid)
    (split : own = front ++ (atPrice, before ++ elem :: after) :: back) :
    ∃ last, MEOrderBook.removeOrder (some elem) book = .ok ⟨⟩ last ∧
      Arranged last side (takeOut front atPrice (before ++ after) back) others ∧
      Shrinks book last side own (takeOut front atPrice (before ++ after) back) := by
  have elemSide : (book.orderData elem).side = side :=
    arranged.ladder.orderSide elem (by simp [split, ordersOf])
  rcases arranged.ringed.removeOrder split fun _ => elemSide with ⟨last, ran, ringed, shrinks⟩
  exact ⟨last, ran, arranged.shrink trades ringed shrinks, shrinks⟩

end Arranged

/-- A well-formed book; `own` lists the levels of `side` and `others` those of the other side. -/
structure WellFormed (book : MEOrderBook) (side : Side) (own others : List Entry) : Prop where
  directory : Directory book (own ++ others)
  ordersOnly : OrdersOnly book (own ++ others)
  ladder : Ladder book side own
  otherLadder : Ladder book side.opposite others
  ids : ((ordersOf (own ++ others)).map fun elem => (book.orderData elem).marketOrderId).Nodup

theorem Arranged.wellFormed {own others : List Entry} (arranged : Arranged book side own others)
    (ids : ((ordersOf (own ++ others)).map fun elem =>
      (book.orderData elem).marketOrderId).Nodup) : WellFormed book side own others :=
  ⟨arranged.directory, arranged.ordersOnly, arranged.ladder, arranged.otherLadder, ids⟩

namespace WellFormed

variable {own own' others : List Entry}

theorem arranged (sound : WellFormed book side own others) : Arranged book side own others :=
  ⟨sound.directory, sound.ordersOnly, sound.ladder, sound.otherLadder⟩

theorem swap (sound : WellFormed book side own others) :
    WellFormed book side.opposite others own := by
  have sameOrders : (ordersOf (own ++ others)).Perm (ordersOf (others ++ own)) :=
    List.perm_append_comm.flatMap_right Prod.snd
  exact sound.arranged.swap.wellFormed ((sameOrders.map _).nodup_iff.mp sound.ids)

theorem ringed (sound : WellFormed book side own others) : Ringed book side own others :=
  sound.arranged.ringed

theorem shrink (sound : WellFormed book side own others) (trades : side ≠ .invalid)
    (ringed : Ringed last side own' others) (shrinks : Shrinks book last side own own') :
    WellFormed last side own' others := by
  refine (sound.arranged.shrink trades ringed shrinks).wellFormed ?_
  have idEq : ∀ elem, (last.orderData elem).marketOrderId =
      (book.orderData elem).marketOrderId := by
    intro elem
    rw [shrinks.data]
  simp only [idEq]
  refine sound.ids.sublist (List.Sublist.map _ ?_)
  simp only [ordersOf, List.flatMap_append]
  exact List.Sublist.append_right shrinks.orders _

end WellFormed

/-- The empty book is well formed. -/
theorem empty_wellFormed (tickerId : TickerId) : WellFormed (empty tickerId) .sell [] [] := by
  have noOrder : ∀ elem, ¬(empty tickerId).OrderInUse elem := by
    intro elem used
    cases used.2
  have noLevel : ∀ elem, ¬(empty tickerId).LevelInUse elem := by
    intro elem used
    cases used.2
  have ladder : ∀ side, Ladder (empty tickerId) side [] := by
    intro side
    refine ⟨⟨?_, fun none => absurd rfl none⟩, by simp, by simp, List.Pairwise.nil⟩
    cases side <;> rfl
  refine ⟨?_, fun elem used => absurd used (noOrder elem), ladder .sell, ladder .buy,
    List.nodup_nil⟩
  refine ⟨List.nodup_nil, List.nodup_nil, by simp, by simp, by simp, by simp, ?_, ?_, by simp,
    by simp, ?_⟩
  · rintro index elem - ⟨⟩
  · exact fun elem => iff_of_false (noLevel elem) (by simp)
  · rintro clientId orderId elem - ⟨⟩

def sampleLevels : ℕ → MemPool.Object MEOrdersAtPrice
  | 0 => {
      object := {
        side := .sell, price := 10, firstMeOrder := some 0, prevEntry := some 0,
        nextEntry := some 0 }
      isFree := false }
  | 1 => {
      object := {
        side := .buy, price := 9, firstMeOrder := some 2, prevEntry := some 1,
        nextEntry := some 1 }
      isFree := false }
  | _ => { object := {} }

def sampleOrders : ℕ → MemPool.Object MEOrder
  | 0 => {
      object := {
        tickerId := 0, clientId := 1, clientOrderId := 1, marketOrderId := 1, side := .sell,
        price := 10, quantity := 5, priority := 1, prevOrder := some 1, nextOrder := some 1 }
      isFree := false }
  | 1 => {
      object := {
        tickerId := 0, clientId := 1, clientOrderId := 2, marketOrderId := 2, side := .sell,
        price := 10, quantity := 7, priority := 2, prevOrder := some 0, nextOrder := some 0 }
      isFree := false }
  | 2 => {
      object := {
        tickerId := 0, clientId := 2, clientOrderId := 1, marketOrderId := 3, side := .buy,
        price := 9, quantity := 4, priority := 1, prevOrder := some 2, nextOrder := some 2 }
      isFree := false }
  | _ => { object := {} }

/-- A small well-formed book: two SELL orders at 10 and one BUY order at 9. -/
def sampleBook : MEOrderBook where
  tickerId := 0
  cidOidToOrder clientId orderId :=
    if clientId = 1 ∧ orderId = 1 then some 0
    else if clientId = 1 ∧ orderId = 2 then some 1
    else if clientId = 2 ∧ orderId = 1 then some 2
    else none
  ordersAtPricePool := { numElems := 4, nextFreeIndex := 2, store := sampleLevels }
  bidsByPrice := some 1
  asksByPrice := some 0
  priceOrdersAtPrice index := if index = 10 then some 0 else if index = 9 then some 1 else none
  orderPool := { numElems := 4, nextFreeIndex := 3, store := sampleOrders }
  nextMarketOrderId := 4

theorem sampleBook_wellFormed : WellFormed sampleBook .sell [(0, [0, 1])] [(1, [2])] where
  directory := {
    levelsNodup := by decide
    ordersNodup := by decide
    ring := by
      intro entry entryMem
      simp only [List.cons_append, List.nil_append, List.mem_cons, List.not_mem_nil,
        or_false] at entryMem
      rcases entryMem with rfl | rfl
      · refine ⟨by decide, ?_⟩
        simp [Linked, nextOrder, prevOrder, order, sampleBook, sampleOrders]
      · refine ⟨by decide, ?_⟩
        simp [Linked, nextOrder, prevOrder, order, sampleBook, sampleOrders]
    first := by decide
    price := by decide
    slot := by decide
    slotOnly := by
      intro index elem _ held
      simp only [sampleBook] at held
      split_ifs at held with ten nine
      · cases held
        exact ⟨by decide, ten⟩
      · cases held
        exact ⟨by decide, nine⟩
    levelInUse := by
      intro elem
      rcases elem with _ | _ | elem
      · decide
      · decide
      · simp [LevelInUse, MemPool.InUse, sampleBook, sampleLevels]
    orderInUse := by decide
    key := by decide
    keyOnly := by
      intro clientId orderId elem _ held
      simp only [sampleBook] at held
      split_ifs at held with first second third
      · cases held
        exact ⟨by decide, first.1.symm, first.2.symm⟩
      · cases held
        exact ⟨by decide, second.1.symm, second.2.symm⟩
      · cases held
        exact ⟨by decide, third.1.symm, third.2.symm⟩ }
  ordersOnly := by
    intro elem used
    rcases elem with _ | _ | _ | elem
    · decide
    · decide
    · decide
    · simp [OrderInUse, MemPool.InUse, sampleBook, sampleOrders] at used
  ladder := ⟨⟨rfl, fun _ => isRing_singleton.mpr ⟨rfl, rfl⟩⟩, by decide, by decide,
    List.pairwise_singleton _ _⟩
  otherLadder := ⟨⟨rfl, fun _ => isRing_singleton.mpr ⟨rfl, rfl⟩⟩, by decide, by decide,
    List.pairwise_singleton _ _⟩
  ids := by decide

end QuantEngine.MEOrderBook
