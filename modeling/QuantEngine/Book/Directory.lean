import QuantEngine.Book.Removal
import QuantEngine.Library.Ring
import Mathlib.Data.List.Perm.Subperm

/-!
# The directory of a book

A directory lists the level blocks of a book, each with the order blocks that
its ring links in order. `Directory` says that the order rings, the slot table,
the key map and the pools agree with such a list. It says nothing about the two
head pointers or the ring of levels: those are wrong in books the program
reaches, while the directory survives every operation that does not fault.
-/

namespace QuantEngine.MEOrderBook

open Exec LinkedRing

/-- A level block with the order blocks of its ring, first order first. -/
abbrev Entry := ℕ × List ℕ

/-- The level blocks listed. -/
abbrev levelsOf (levels : List Entry) : List ℕ := levels.map Prod.fst

/-- The order blocks listed. -/
abbrev ordersOf (levels : List Entry) : List ℕ := levels.flatMap Prod.snd

theorem priceToIndex_lt (price : Price) : priceToIndex price < meMaxPriceLevels := by
  unfold priceToIndex meMaxPriceLevels
  omega

theorem length_le_of_nodup {cells : List ℕ} {size : ℕ} (nodup : cells.Nodup)
    (inPool : ∀ cell ∈ cells, cell < size) : cells.length ≤ size := by
  have inRange : cells ⊆ List.range size := fun cell member =>
    List.mem_range.mpr (inPool cell member)
  simpa using (List.subperm_of_subset nodup inRange).length_le

section Unlinked

variable {book : MEOrderBook} {elem atPrice prior following : ℕ} {front back : List ℕ}

/-- The other orders of the ring are linked to each other. -/
theorem isRing_unlinkOrder
    (ring : IsRing book.nextOrder book.prevOrder (front ++ elem :: back))
    (others : front ++ back ≠ []) (prevElem : book.prevOrder elem = some prior)
    (nextElem : book.nextOrder elem = some following) :
    IsRing (book.unlinkOrder atPrice elem prior following).nextOrder
      (book.unlinkOrder atPrice elem prior following).prevOrder (front ++ back) := by
  have elemFresh : elem ∉ front ++ back :=
    (List.nodup_cons.mp (List.perm_middle.nodup_iff.mp ring.nodup)).1
  rcases ring.neighbours_mem others with ⟨_, priorMem, _, followingMem, prevEq, nextEq⟩
  cases prevElem.symm.trans prevEq
  cases nextElem.symm.trans nextEq
  refine ring.remove others prevElem nextElem ?_ ?_ ?_ ?_
  · rw [nextOrder_unlinkOrder, if_neg (ne_of_mem_of_not_mem priorMem elemFresh), if_pos rfl]
  · rw [prevOrder_unlinkOrder, if_neg (ne_of_mem_of_not_mem followingMem elemFresh), if_pos rfl]
  · intro other otherMem different
    rw [nextOrder_unlinkOrder, if_neg (ne_of_mem_of_not_mem otherMem elemFresh), if_neg different]
  · intro other otherMem different
    rw [prevOrder_unlinkOrder, if_neg (ne_of_mem_of_not_mem otherMem elemFresh), if_neg different]

/-- The first order moves on when it is the one that is unlinked. -/
theorem firstMeOrder_unlinkOrder_eq
    (ring : IsRing book.nextOrder book.prevOrder (front ++ elem :: back))
    (others : front ++ back ≠ []) (nextElem : book.nextOrder elem = some following)
    (first : book.firstMeOrder atPrice = (front ++ elem :: back).head?) :
    (book.unlinkOrder atPrice elem prior following).firstMeOrder atPrice =
      (front ++ back).head? := by
  rw [firstMeOrder_unlinkOrder]
  cases front with
  | nil =>
      rw [if_pos ⟨rfl, first⟩]
      exact (ring.head?_remove others nextElem).symm
  | cons head tail =>
      rw [if_neg]
      · exact first
      · rintro ⟨-, isFirst⟩
        cases first.symm.trans isFirst
        exact (List.nodup_cons.mp ring.nodup).1 (List.mem_append_right tail List.mem_cons_self)

end Unlinked

structure Directory (book : MEOrderBook) (levels : List Entry) : Prop where
  levelsNodup : (levelsOf levels).Nodup
  ordersNodup : (ordersOf levels).Nodup
  ring : ∀ entry ∈ levels, IsRing book.nextOrder book.prevOrder entry.2
  first : ∀ entry ∈ levels, book.firstMeOrder entry.1 = entry.2.head?
  price : ∀ entry ∈ levels, ∀ elem ∈ entry.2,
    (book.orderData elem).price = book.levelPrice entry.1
  slot : ∀ entry ∈ levels,
    book.priceOrdersAtPrice (priceToIndex (book.levelPrice entry.1)) = some entry.1
  slotOnly : ∀ index elem, index < meMaxPriceLevels → book.priceOrdersAtPrice index = some elem →
    elem ∈ levelsOf levels ∧ index = priceToIndex (book.levelPrice elem)
  levelInUse : ∀ elem, book.LevelInUse elem ↔ elem ∈ levelsOf levels
  orderInUse : ∀ elem ∈ ordersOf levels, book.OrderInUse elem
  key : ∀ elem ∈ ordersOf levels,
    KeyInRange (book.orderData elem).clientId (book.orderData elem).clientOrderId ∧
      book.cidOidToOrder (book.orderData elem).clientId (book.orderData elem).clientOrderId =
        some elem
  keyOnly : ∀ clientId orderId elem, KeyInRange clientId orderId →
    book.cidOidToOrder clientId orderId = some elem →
      elem ∈ ordersOf levels ∧ (book.orderData elem).clientId = clientId ∧
        (book.orderData elem).clientOrderId = orderId

/-- No order block is in use but the ones listed. -/
def OrdersOnly (book : MEOrderBook) (levels : List Entry) : Prop :=
  ∀ elem, book.OrderInUse elem → elem ∈ ordersOf levels

namespace Directory

variable {book last : MEOrderBook} {levels levels' rest : List Entry} {entry : Entry}
  {elem atPrice : ℕ} {front back : List ℕ}

theorem perm (dir : Directory book levels) (same : levels.Perm levels') :
    Directory book levels' where
  levelsNodup := (same.map Prod.fst).nodup_iff.mp dir.levelsNodup
  ordersNodup := (same.flatMap_right Prod.snd).nodup_iff.mp dir.ordersNodup
  ring entry member := dir.ring entry (same.mem_iff.mpr member)
  first entry member := dir.first entry (same.mem_iff.mpr member)
  price entry member := dir.price entry (same.mem_iff.mpr member)
  slot entry member := dir.slot entry (same.mem_iff.mpr member)
  slotOnly index elem bound held := by
    rw [← (same.map Prod.fst).mem_iff]
    exact dir.slotOnly index elem bound held
  levelInUse elem := by
    rw [← (same.map Prod.fst).mem_iff]
    exact dir.levelInUse elem
  orderInUse elem member := dir.orderInUse elem ((same.flatMap_right Prod.snd).mem_iff.mpr member)
  key elem member := dir.key elem ((same.flatMap_right Prod.snd).mem_iff.mpr member)
  keyOnly clientId orderId elem range held := by
    rw [← (same.flatMap_right Prod.snd).mem_iff]
    exact dir.keyOnly clientId orderId elem range held

/-- A directory speaks of the listed orders' links, keys and prices only. -/
theorem congr (dir : Directory book levels)
    (links : ∀ elem ∈ ordersOf levels,
      last.nextOrder elem = book.nextOrder elem ∧ last.prevOrder elem = book.prevOrder elem)
    (data : ∀ elem ∈ ordersOf levels, (last.orderData elem).price = (book.orderData elem).price ∧
      (last.orderData elem).clientId = (book.orderData elem).clientId ∧
      (last.orderData elem).clientOrderId = (book.orderData elem).clientOrderId)
    (orderInUse : ∀ elem ∈ ordersOf levels, last.OrderInUse elem)
    (level : last.level = book.level) (levelInUse : last.LevelInUse = book.LevelInUse)
    (slots : last.priceOrdersAtPrice = book.priceOrdersAtPrice)
    (keys : last.cidOidToOrder = book.cidOidToOrder) : Directory last levels := by
  rcases levelViews_eq level with ⟨-, prices, firsts, -, -⟩
  have listed : ∀ {entry elem}, entry ∈ levels → elem ∈ entry.2 → elem ∈ ordersOf levels :=
    fun entryMem elemMem => List.mem_flatMap.mpr ⟨_, entryMem, elemMem⟩
  refine ⟨dir.levelsNodup, dir.ordersNodup, ?_, ?_, ?_, ?_, ?_, ?_, orderInUse, ?_, ?_⟩
  · intro entry entryMem
    exact (dir.ring entry entryMem).congr
      (fun elem elemMem => (links elem (listed entryMem elemMem)).1)
      fun elem elemMem => (links elem (listed entryMem elemMem)).2
  · rw [firsts]
    exact dir.first
  · rw [prices]
    intro entry entryMem elem elemMem
    rw [(data elem (listed entryMem elemMem)).1]
    exact dir.price entry entryMem elem elemMem
  · rw [prices, slots]
    exact dir.slot
  · rw [prices, slots]
    exact dir.slotOnly
  · rw [levelInUse]
    exact dir.levelInUse
  · intro elem elemMem
    rw [(data elem elemMem).2.1, (data elem elemMem).2.2, keys]
    exact dir.key elem elemMem
  · rw [keys]
    intro clientId orderId elem range held
    rcases dir.keyOnly clientId orderId elem range held with ⟨elemMem, rfl, rfl⟩
    exact ⟨elemMem, (data elem elemMem).2⟩

theorem length_le (dir : Directory book levels) :
    (ordersOf levels).length ≤ book.orderPool.numElems := by
  exact length_le_of_nodup dir.ordersNodup fun elem elemMem => (dir.orderInUse elem elemMem).1

theorem ne_nil (dir : Directory book levels) (member : entry ∈ levels) : entry.2 ≠ [] :=
  (dir.ring entry member).ne_nil

theorem level_ne (dir : Directory book ((atPrice, front) :: rest)) (member : entry ∈ rest) :
    entry.1 ≠ atPrice := by
  have nodup := dir.levelsNodup
  simp only [levelsOf, List.map_cons, List.nodup_cons] at nodup
  rintro rfl
  exact nodup.1 (List.mem_map_of_mem member)

theorem order_disjoint (dir : Directory book ((atPrice, front) :: rest)) (member : entry ∈ rest)
    (listed : elem ∈ entry.2) : elem ∉ front := by
  have nodup := dir.ordersNodup
  simp only [ordersOf, List.flatMap_cons, List.nodup_append'] at nodup
  exact fun inFront => nodup.2.2 inFront (List.mem_flatMap.mpr ⟨entry, member, listed⟩)

theorem key_ne (dir : Directory book levels) {other : ℕ} (member : elem ∈ ordersOf levels)
    (otherMember : other ∈ ordersOf levels) (different : other ≠ elem) :
    ¬((book.orderData other).clientId = (book.orderData elem).clientId ∧
      (book.orderData other).clientOrderId = (book.orderData elem).clientOrderId) := by
  rintro ⟨sameClient, sameOrder⟩
  have held := (dir.key other otherMember).2
  rw [sameClient, sameOrder, (dir.key elem member).2] at held
  exact different (Option.some.inj held).symm

/-- Clearing a listed order's entry leaves the key map right for the other orders. -/
theorem keys_release {remaining : List ℕ} (last : MEOrderBook) (dir : Directory book levels)
    (member : elem ∈ ordersOf levels)
    (listed : ∀ other, other ∈ remaining ↔ other ∈ ordersOf levels ∧ other ≠ elem)
    (sameData : last.orderData = book.orderData)
    (cleared : ∀ clientId orderId, last.cidOidToOrder clientId orderId =
      if clientId = (book.orderData elem).clientId ∧ orderId = (book.orderData elem).clientOrderId
      then none else book.cidOidToOrder clientId orderId) :
    (∀ other ∈ remaining,
      KeyInRange (last.orderData other).clientId (last.orderData other).clientOrderId ∧
        last.cidOidToOrder (last.orderData other).clientId (last.orderData other).clientOrderId =
          some other) ∧
      ∀ clientId orderId other, KeyInRange clientId orderId →
        last.cidOidToOrder clientId orderId = some other →
          other ∈ remaining ∧ (last.orderData other).clientId = clientId ∧
            (last.orderData other).clientOrderId = orderId := by
  rw [sameData]
  constructor
  · intro other otherMem
    rcases (listed other).mp otherMem with ⟨otherListed, different⟩
    refine ⟨(dir.key other otherListed).1, ?_⟩
    rw [cleared, if_neg (dir.key_ne member otherListed different)]
    exact (dir.key other otherListed).2
  · intro clientId orderId other range held
    rw [cleared] at held
    split at held
    · cases held
    · rename_i otherKey
      rcases dir.keyOnly clientId orderId other range held with ⟨otherListed, rfl, rfl⟩
      refine ⟨(listed other).mpr ⟨otherListed, ?_⟩, rfl, rfl⟩
      rintro rfl
      exact otherKey ⟨rfl, rfl⟩

/-- Unlinking an order that is not alone in its level. -/
theorem unlink {before after : ℕ}
    (dir : Directory book ((atPrice, front ++ elem :: back) :: rest)) (others : front ++ back ≠ [])
    (prevElem : book.prevOrder elem = some before) (nextElem : book.nextOrder elem = some after) :
    Directory ((book.unlinkOrder atPrice elem before after).release elem)
      ((atPrice, front ++ back) :: rest) := by
  have ring := dir.ring _ List.mem_cons_self
  have elemFresh : elem ∉ front ++ back :=
    (List.nodup_cons.mp (List.perm_middle.nodup_iff.mp ring.nodup)).1
  rcases ring.neighbours_mem others with ⟨before', beforeMem, after', afterMem, prevEq, nextEq⟩
  cases prevElem.symm.trans prevEq
  cases nextElem.symm.trans nextEq
  have ordersPerm : (ordersOf ((atPrice, front ++ elem :: back) :: rest)).Perm
      (elem :: ordersOf ((atPrice, front ++ back) :: rest)) := by
    simp only [ordersOf, List.flatMap_cons]
    exact (List.perm_middle.append_right _)
  have ordersNodup := List.nodup_cons.mp (ordersPerm.nodup_iff.mp dir.ordersNodup)
  have listed : ∀ other, other ∈ ordersOf ((atPrice, front ++ back) :: rest) ↔
      other ∈ ordersOf ((atPrice, front ++ elem :: back) :: rest) ∧ other ≠ elem := by
    intro other
    rw [ordersPerm.mem_iff, List.mem_cons]
    constructor
    · intro member
      exact ⟨Or.inr member, fun same => ordersNodup.1 (same ▸ member)⟩
    · rintro ⟨same | member, different⟩
      · exact absurd same different
      · exact member
  have elemListed : elem ∈ ordersOf ((atPrice, front ++ elem :: back) :: rest) :=
    ordersPerm.mem_iff.mpr List.mem_cons_self
  have keys := keys_release ((book.unlinkOrder atPrice elem before after).release elem)
    dir elemListed listed (by simp) (by simp [cidOidToOrder_release])
  rcases levelViews_eq (level_release (book.unlinkOrder atPrice elem before after) elem) with
    ⟨-, priceEq, firstEq, -, -⟩
  have inOld : ∀ {entry}, entry ∈ rest → entry ∈ (atPrice, front ++ elem :: back) :: rest :=
    fun member => List.mem_cons_of_mem _ member
  refine ⟨dir.levelsNodup, ordersNodup.2, ?_, ?_, ?_, ?_, ?_, ?_, ?_, keys.1, keys.2⟩
  · simp only [nextOrder_release, prevOrder_release]
    rintro entry (_ | ⟨_, entryMem⟩)
    · exact isRing_unlinkOrder ring others prevElem nextElem
    · have outside : ∀ other ∈ entry.2, other ≠ elem ∧ other ∉ front ++ back := by
        intro other otherMem
        have apart := dir.order_disjoint entryMem otherMem
        simp only [List.mem_append, List.mem_cons, not_or] at apart ⊢
        exact ⟨apart.2.1, apart.1, apart.2.2⟩
      refine (dir.ring entry (inOld entryMem)).congr ?_ ?_
      · intro other otherMem
        rw [nextOrder_unlinkOrder, if_neg (outside other otherMem).1,
          if_neg (ne_of_mem_of_not_mem beforeMem (outside other otherMem).2).symm]
      · intro other otherMem
        rw [prevOrder_unlinkOrder, if_neg (outside other otherMem).1,
          if_neg (ne_of_mem_of_not_mem afterMem (outside other otherMem).2).symm]
  · rw [firstEq]
    have firstOld := dir.first _ List.mem_cons_self
    rintro entry (_ | ⟨_, entryMem⟩)
    · exact firstMeOrder_unlinkOrder_eq ring others nextElem firstOld
    · rw [firstMeOrder_unlinkOrder, if_neg (fun same => dir.level_ne entryMem same.1)]
      exact dir.first entry (inOld entryMem)
  · rw [priceEq, levelPrice_unlinkOrder, orderData_release, orderData_unlinkOrder]
    rintro entry (_ | ⟨_, entryMem⟩) other otherMem
    · refine dir.price _ List.mem_cons_self other ?_
      simp only [List.mem_append, List.mem_cons] at otherMem ⊢
      tauto
    · exact dir.price entry (inOld entryMem) other otherMem
  · rw [priceEq, levelPrice_unlinkOrder, priceOrdersAtPrice_release, priceOrdersAtPrice_unlinkOrder]
    rintro entry (_ | ⟨_, entryMem⟩)
    · exact dir.slot (atPrice, front ++ elem :: back) List.mem_cons_self
    · exact dir.slot entry (inOld entryMem)
  · rw [priceEq, levelPrice_unlinkOrder, priceOrdersAtPrice_release, priceOrdersAtPrice_unlinkOrder]
    exact dir.slotOnly
  · rw [levelInUse_release, levelInUse_unlinkOrder]
    exact dir.levelInUse
  · intro other otherMem
    rw [orderInUse_release, orderInUse_unlinkOrder]
    rcases (listed other).mp otherMem with ⟨otherListed, different⟩
    exact ⟨dir.orderInUse other otherListed, different⟩

/-- Removing a level whose only order is removed with it. -/
theorem close {removed : ℕ} {middle : MEOrderBook}
    (dir : Directory book ((atPrice, [elem]) :: rest))
    (removes : RemovesLevel book middle (priceToIndex (book.orderData elem).price) removed) :
    Directory (middle.release elem) rest := by
  have elemPrice : (book.orderData elem).price = book.levelPrice atPrice :=
    dir.price _ List.mem_cons_self elem (by simp)
  have removedEq : removed = atPrice := by
    have held := removes.held
    rw [elemPrice, dir.slot _ List.mem_cons_self] at held
    exact (Option.some.inj held).symm
  subst removedEq
  have ordersNodup := List.nodup_cons.mp dir.ordersNodup
  have levelsNodup := List.nodup_cons.mp dir.levelsNodup
  have listed : ∀ other, other ∈ ordersOf rest ↔
      other ∈ ordersOf ((removed, [elem]) :: rest) ∧ other ≠ elem := by
    intro other
    simp only [ordersOf, List.flatMap_cons, List.singleton_append, List.mem_cons]
    constructor
    · intro member
      exact ⟨Or.inr member, ne_of_mem_of_not_mem member ordersNodup.1⟩
    · rintro ⟨same | member, different⟩
      · exact absurd same different
      · exact member
  have sameViews := orderViews_eq removes.order
  have keys := keys_release (middle.release elem) dir (by simp) listed
    (by simp [sameViews.1])
    (by simp [cidOidToOrder_release, removes.cidOidToOrder, sameViews.1])
  rcases levelViews_eq (level_release middle elem) with ⟨-, priceEq, firstEq, -, -⟩
  have inOld : ∀ {entry}, entry ∈ rest → entry ∈ (removed, [elem]) :: rest :=
    fun member => List.mem_cons_of_mem _ member
  have otherSlot : ∀ entry ∈ rest, priceToIndex (book.levelPrice entry.1) ≠
      priceToIndex (book.orderData elem).price := by
    intro entry entryMem same
    have held := dir.slot entry (inOld entryMem)
    rw [same, removes.held] at held
    exact dir.level_ne entryMem (Option.some.inj held).symm
  refine ⟨levelsNodup.2, ordersNodup.2, ?_, ?_, ?_, ?_, ?_, ?_, ?_, keys.1, keys.2⟩
  · rw [nextOrder_release, prevOrder_release, sameViews.2.1, sameViews.2.2]
    exact fun entry entryMem => dir.ring entry (inOld entryMem)
  · rw [firstEq, removes.firstMeOrder]
    exact fun entry entryMem => dir.first entry (inOld entryMem)
  · rw [priceEq, removes.levelPrice, orderData_release, sameViews.1]
    exact fun entry entryMem => dir.price entry (inOld entryMem)
  · rw [priceEq, removes.levelPrice, priceOrdersAtPrice_release]
    intro entry entryMem
    rw [removes.slot, if_neg (otherSlot entry entryMem)]
    exact dir.slot entry (inOld entryMem)
  · rw [priceEq, removes.levelPrice, priceOrdersAtPrice_release]
    intro index other bound held
    rw [removes.slot] at held
    split at held
    · cases held
    · rename_i otherIndex
      rcases dir.slotOnly index other bound held with ⟨member, indexEq⟩
      refine ⟨?_, indexEq⟩
      rcases List.mem_cons.mp member with same | member
      · rw [same, ← elemPrice] at indexEq
        exact absurd indexEq otherIndex
      · exact member
  · intro other
    rw [levelInUse_release, removes.levelInUse, dir.levelInUse]
    simp only [levelsOf, List.map_cons, List.mem_cons]
    constructor
    · rintro ⟨same | member, different⟩
      · exact absurd same different
      · exact member
    · intro member
      exact ⟨Or.inr member, ne_of_mem_of_not_mem member levelsNodup.1⟩
  · intro other otherMem
    rw [orderInUse_release, removes.orderInUse]
    rcases (listed other).mp otherMem with ⟨otherListed, different⟩
    exact ⟨dir.orderInUse other otherListed, different⟩

/-- The directory after the order's removal: its level goes with its last order. -/
def without (atPrice : ℕ) (remaining : List ℕ) (rest : List Entry) : List Entry :=
  if remaining = [] then rest else (atPrice, remaining) :: rest

theorem ordersOf_without (atPrice : ℕ) {remaining : List ℕ} :
    ordersOf (without atPrice remaining rest) = remaining ++ ordersOf rest := by
  unfold without
  split
  · simp [*]
  · simp

theorem removeOrder {done : PUnit}
    (dir : Directory book ((atPrice, front ++ elem :: back) :: rest))
    (ran : MEOrderBook.removeOrder (some elem) book = .ok done last) :
    Directory last (without atPrice (front ++ back) rest) := by
  have ring := dir.ring _ List.mem_cons_self
  rcases removeOrder_cases ran with ⟨-, -, ⟨alone, middle, removed, rfl⟩ |
    ⟨slotHolder, before, after, held, prevElem, nextElem, linked, rfl⟩⟩
  · have only : front ++ elem :: back = [elem] :=
      (ring.prev_eq_self_iff (by simp)).mp alone
    have none : front ++ back = [] := by
      have lengths := congrArg List.length only
      simp only [List.length_append, List.length_cons, List.length_nil] at lengths
      exact List.eq_nil_of_length_eq_zero (by simp only [List.length_append]; omega)
    rcases removesLevel_of_run removed with ⟨_, removes⟩
    rw [without, if_pos none]
    rw [only] at dir
    exact dir.close removes
  · have others : front ++ back ≠ [] := by
      intro none
      rw [List.append_eq_nil_iff] at none
      rcases none with ⟨rfl, rfl⟩
      have alone := (isRing_singleton.mp ring).2
      exact linked (Option.some.inj (prevElem.symm.trans alone))
    have elemPrice : (book.orderData elem).price = book.levelPrice atPrice :=
      dir.price _ List.mem_cons_self elem (by simp)
    have holderEq : slotHolder = atPrice := by
      rw [elemPrice, dir.slot _ List.mem_cons_self] at held
      exact (Option.some.inj held).symm
    rw [without, if_neg others, holderEq]
    exact dir.unlink others prevElem nextElem

theorem run_removeOrder (dir : Directory book ((atPrice, front ++ elem :: back) :: rest))
    (others : front ++ back ≠ []) :
    ∃ before after, book.prevOrder elem = some before ∧ book.nextOrder elem = some after ∧
      MEOrderBook.removeOrder (some elem) book =
        .ok ⟨⟩ ((book.unlinkOrder atPrice elem before after).release elem) := by
  have ring := dir.ring _ List.mem_cons_self
  have elemFresh : elem ∉ front ++ back :=
    (List.nodup_cons.mp (List.perm_middle.nodup_iff.mp ring.nodup)).1
  rcases ring.neighbours_mem others with ⟨before, beforeMem, after, afterMem, prevElem, nextElem⟩
  have listed : ∀ {other}, other ∈ front ++ elem :: back →
      other ∈ ordersOf ((atPrice, front ++ elem :: back) :: rest) := by
    intro other member
    simp only [ordersOf, List.flatMap_cons, List.mem_append]
    exact Or.inl (List.mem_append.mp member)
  have wider : ∀ {other}, other ∈ front ++ back → other ∈ front ++ elem :: back := by
    intro other member
    simp only [List.mem_append, List.mem_cons] at member ⊢
    tauto
  have elemPrice : (book.orderData elem).price = book.levelPrice atPrice :=
    dir.price _ List.mem_cons_self elem (by simp)
  refine ⟨before, after, prevElem, nextElem, ?_⟩
  apply removeOrder_linked
  · rw [elemPrice]
    exact dir.slot _ List.mem_cons_self
  · exact ((dir.levelInUse atPrice).mpr (by simp)).1
  · exact dir.orderInUse elem (listed (by simp))
  · exact prevElem
  · exact nextElem
  · exact ne_of_mem_of_not_mem beforeMem elemFresh
  · exact (dir.orderInUse before (listed (wider beforeMem))).1
  · exact (dir.orderInUse after (listed (wider afterMem))).1
  · exact (dir.key elem (listed (by simp))).1

end Directory

end QuantEngine.MEOrderBook
