import Mathlib.Data.List.Chain
import Mathlib.Data.List.Rotate

/-!
# Circular doubly linked rings

A ring is a list of cells in which `next` and `prev`, two partial functions on
cells, walk the list forwards and backwards and join its last cell to its
first. The functions stand for the link fields of some heap, so every lemma
says what a ring becomes when the fields of a few cells are rewritten.

Positions in a ring are relative: `IsRing.rotate` moves any cell to the front,
and insertion and removal are stated at the ends only.
-/

namespace LinkedRing

universe u

variable {Cell : Type u}

/-- `second` follows `first` in both link directions. -/
def Linked (next prev : Cell → Option Cell) (first second : Cell) : Prop :=
  next first = some second ∧ prev second = some first

/-- The cells of the list form one circular doubly linked ring, read from its head. -/
def IsRing (next prev : Cell → Option Cell) : List Cell → Prop
  | [] => False
  | head :: rest =>
      (head :: rest).Nodup ∧ List.IsChain (Linked next prev) (head :: (rest ++ [head]))

/-- `pointer` is null for the empty list and otherwise heads the ring of the list's cells. -/
def HeadsRing (next prev : Cell → Option Cell) (pointer : Option Cell) (cells : List Cell) :
    Prop :=
  pointer = cells.head? ∧ (cells ≠ [] → IsRing next prev cells)

section Basic

variable {next prev next' prev' : Cell → Option Cell}

theorem IsRing.ne_nil {cells : List Cell} (ring : IsRing next prev cells) : cells ≠ [] := by
  rintro rfl
  exact ring

theorem IsRing.nodup {cells : List Cell} (ring : IsRing next prev cells) : cells.Nodup := by
  cases cells with
  | nil => exact List.nodup_nil
  | cons head rest => exact ring.1

/-- Links of cells outside the ring are irrelevant to it. -/
theorem IsRing.congr {cells : List Cell} (ring : IsRing next prev cells)
    (sameNext : ∀ cell ∈ cells, next' cell = next cell)
    (samePrev : ∀ cell ∈ cells, prev' cell = prev cell) : IsRing next' prev' cells := by
  cases cells with
  | nil => exact ring
  | cons head rest =>
      refine ⟨ring.1, ring.2.imp_of_mem_imp ?_⟩
      intro first second firstMem secondMem linked
      have inRing : ∀ {cell}, cell ∈ head :: (rest ++ [head]) → cell ∈ head :: rest := by
        intro cell cellMem
        simp only [List.mem_cons, List.mem_append, List.not_mem_nil, or_false] at cellMem ⊢
        tauto
      exact ⟨(sameNext first (inRing firstMem)).trans linked.1,
        (samePrev second (inRing secondMem)).trans linked.2⟩

@[simp]
theorem isRing_singleton {cell : Cell} :
    IsRing next prev [cell] ↔ next cell = some cell ∧ prev cell = some cell := by
  simp [IsRing, Linked]

theorem IsRing.rotate_one {head : Cell} {rest : List Cell}
    (ring : IsRing next prev (head :: rest)) : IsRing next prev (rest ++ [head]) := by
  cases rest with
  | nil => exact ring
  | cons second tail =>
      rcases ring with ⟨nodup, chain⟩
      refine ⟨?_, ?_⟩
      · exact (List.perm_append_singleton head (second :: tail)).nodup_iff.mpr nodup
      · simp only [List.cons_append, List.isChain_cons_cons] at chain
        have joined : List.IsChain (Linked next prev) (second :: (tail ++ head :: second :: [])) :=
          List.isChain_cons_append_cons_cons.mpr
            ⟨chain.2, chain.1, List.isChain_singleton _⟩
        simpa using joined

theorem IsRing.rotate {front back : List Cell} (ring : IsRing next prev (front ++ back)) :
    IsRing next prev (back ++ front) := by
  induction front generalizing back with
  | nil => simpa using ring
  | cons head tail ih =>
      have rotated : IsRing next prev (tail ++ (back ++ [head])) := by
        simpa using IsRing.rotate_one ring
      simpa using ih rotated

end Basic

section Links

variable {next prev : Cell → Option Cell} {head cell : Cell} {rest front back : List Cell}

theorem IsRing.next_head {second : Cell} (ring : IsRing next prev (head :: second :: rest)) :
    next head = some second :=
  (List.isChain_cons_cons.mp ring.2).1.1

theorem IsRing.prev_second {second : Cell} (ring : IsRing next prev (head :: second :: rest)) :
    prev second = some head :=
  (List.isChain_cons_cons.mp ring.2).1.2

theorem IsRing.linked_last {last : Cell} (ring : IsRing next prev (front ++ [last])) :
    ∃ head, (front ++ [last]).head? = some head ∧ Linked next prev last head := by
  have rotated : IsRing next prev (last :: front) := by simpa using ring.rotate
  cases front with
  | nil => exact ⟨last, rfl, isRing_singleton.mp ring⟩
  | cons head rest => exact ⟨head, rfl, rotated.next_head, rotated.prev_second⟩

/-- Which cells a cell of a ring is linked to depends on the list alone. -/
theorem exists_neighbours {cells : List Cell} (member : cell ∈ cells) :
    ∃ before ∈ cells, ∃ after ∈ cells, ∀ {next prev : Cell → Option Cell}, IsRing next prev cells →
      Linked next prev before cell ∧ Linked next prev cell after := by
  rcases List.append_of_mem member with ⟨front, back, rfl⟩
  have inRing : ∀ other ∈ cell :: (back ++ front), other ∈ front ++ cell :: back := by
    intro other otherMem
    simp only [List.mem_cons, List.mem_append] at otherMem ⊢
    tauto
  have rotated : ∀ {next prev : Cell → Option Cell}, IsRing next prev (front ++ cell :: back) →
      IsRing next prev (cell :: (back ++ front)) := by
    intro next prev ring
    simpa using ring.rotate
  rcases rest_eq : back ++ front with _ | ⟨second, tail⟩
  · rw [rest_eq] at rotated
    refine ⟨cell, member, cell, member, fun ring => ?_⟩
    have alone := isRing_singleton.mp (rotated ring)
    exact ⟨alone, alone⟩
  · rcases List.eq_nil_or_concat (second :: tail) with none | ⟨init, last, last_eq⟩
    · cases none
    · rw [rest_eq] at rotated inRing
      refine ⟨last, inRing last (by simp [last_eq]), second, inRing second (by simp), ?_⟩
      intro next prev ring
      have turned : IsRing next prev ((cell :: init) ++ [last]) := by
        simpa [last_eq] using rotated ring
      have moved : IsRing next prev (last :: cell :: init) := by simpa using turned.rotate
      exact ⟨⟨moved.next_head, moved.prev_second⟩, (rotated ring).next_head,
        (rotated ring).prev_second⟩

theorem IsRing.linked_of_mem {cells : List Cell} (ring : IsRing next prev cells)
    (member : cell ∈ cells) :
    (∃ after ∈ cells, Linked next prev cell after) ∧
      ∃ before ∈ cells, Linked next prev before cell := by
  rcases exists_neighbours member with ⟨before, beforeMem, after, afterMem, neighbours⟩
  exact ⟨⟨after, afterMem, (neighbours ring).2⟩, before, beforeMem, (neighbours ring).1⟩

/-- The list determines the links of its cells. -/
theorem IsRing.links_eq {next' prev' : Cell → Option Cell} {cells : List Cell}
    (ring : IsRing next prev cells) (ring' : IsRing next' prev' cells) (member : cell ∈ cells) :
    next' cell = next cell ∧ prev' cell = prev cell := by
  rcases exists_neighbours member with ⟨before, -, after, -, neighbours⟩
  have links := neighbours ring
  have links' := neighbours ring'
  exact ⟨links'.2.1.trans links.2.1.symm, links'.1.2.trans links.1.2.symm⟩

/-- The head and the links determine the list. -/
theorem IsRing.unique {rest' : List Cell} (ring : IsRing next prev (head :: rest))
    (ring' : IsRing next prev (head :: rest')) : rest' = rest := by
  have absent := (List.nodup_cons.mp ring.nodup).1
  have absent' := (List.nodup_cons.mp ring'.nodup).1
  have chain := ring.2
  have chain' := ring'.2
  clear ring ring'
  -- Both lists are walked at once from a common cell up to the head.
  suffices walk : ∀ start, List.IsChain (Linked next prev) (start :: (rest ++ [head])) →
      List.IsChain (Linked next prev) (start :: (rest' ++ [head])) → rest' = rest from
    walk head chain chain'
  clear chain chain'
  induction rest generalizing rest' with
  | nil =>
      intro start chain chain'
      cases rest' with
      | nil => rfl
      | cons second tail =>
          have same := (List.isChain_cons_cons.mp chain).1.1.symm.trans
            (List.isChain_cons_cons.mp chain').1.1
          exact absurd (by simp [Option.some.inj same]) absent'
  | cons cell rest ih =>
      intro start chain chain'
      cases rest' with
      | nil =>
          have same := (List.isChain_cons_cons.mp chain').1.1.symm.trans
            (List.isChain_cons_cons.mp chain).1.1
          exact absurd (by simp [Option.some.inj same]) absent
      | cons second tail =>
          rcases List.isChain_cons_cons.mp chain with ⟨linked, chain⟩
          rcases List.isChain_cons_cons.mp chain' with ⟨linked', chain'⟩
          cases Option.some.inj (linked'.1.symm.trans linked.1)
          rw [ih (fun member => absent (List.mem_cons_of_mem _ member))
            (fun member => absent' (List.mem_cons_of_mem _ member)) _ chain chain']

theorem HeadsRing.unique {pointer : Option Cell} {cells cells' : List Cell}
    (ring : HeadsRing next prev pointer cells) (ring' : HeadsRing next prev pointer cells') :
    cells' = cells := by
  have same : cells.head? = cells'.head? := ring.1.symm.trans ring'.1
  cases cells with
  | nil => exact List.head?_eq_none_iff.mp same.symm
  | cons head rest =>
      cases cells' with
      | nil => cases same
      | cons head' rest' =>
          cases Option.some.inj same
          rw [(ring.2 (List.cons_ne_nil _ _)).unique (ring'.2 (List.cons_ne_nil _ _))]

/-- Following `next` from the head reaches exactly the cells of the ring. -/
theorem IsRing.reaches_iff (ring : IsRing next prev (head :: rest)) :
    Relation.ReflTransGen (fun first second => next first = some second) head cell ↔
      cell ∈ head :: rest := by
  constructor
  · intro reaches
    induction reaches with
    | refl => exact List.mem_cons_self
    | tail _ linked ih =>
        rcases (ring.linked_of_mem ih).1 with ⟨after, afterMem, afterLinked⟩
        cases linked.symm.trans afterLinked.1
        exact afterMem
  · intro member
    refine List.IsChain.induction _ _ ring.2 ?_ (fun _ => Relation.ReflTransGen.refl) cell ?_
    · exact fun first second linked reaches => reaches.tail linked.1
    · simp only [List.mem_cons, List.mem_append] at member ⊢
      tauto

theorem IsRing.prev_eq_self_iff {cells : List Cell} (ring : IsRing next prev cells)
    (member : cell ∈ cells) : prev cell = some cell ↔ cells = [cell] := by
  constructor
  · intro selfLinked
    rcases List.append_of_mem member with ⟨front, back, rfl⟩
    have rotated : IsRing next prev (cell :: (back ++ front)) := by simpa using ring.rotate
    rcases List.eq_nil_or_concat (back ++ front) with rest_eq | ⟨init, last, rest_eq⟩
    · simp only [List.append_eq_nil_iff] at rest_eq
      simp [rest_eq]
    · rw [rest_eq] at rotated
      have turned : IsRing next prev ((cell :: init) ++ [last]) := by simpa using rotated
      have moved : IsRing next prev (last :: cell :: init) := by simpa using turned.rotate
      have lastEq : last = cell := by
        simpa using moved.prev_second.symm.trans selfLinked
      simp [lastEq] at moved
      exact absurd moved.nodup (by simp)
  · rintro rfl
    exact (isRing_singleton.mp ring).2

end Links

section Rewriting

variable {next prev next' prev' : Cell → Option Cell} {head cell before after last new : Cell}
  {rest front back : List Cell}

/-- A chain of distinct cells whose ends are linked is a ring. -/
theorem isRing_of_chain (nodup : (head :: rest).Nodup)
    (chain : List.IsChain (Linked next prev) (head :: rest))
    (lastEq : (head :: rest).getLast? = some last) (closed : Linked next prev last head) :
    IsRing next prev (head :: rest) := by
  refine ⟨nodup, ?_⟩
  change List.IsChain _ ((head :: rest) ++ [head])
  refine List.isChain_append.mpr ⟨chain, List.isChain_singleton _, ?_⟩
  intro final finalMem first firstMem
  simp only [List.head?_cons, Option.mem_def, Option.some.injEq] at firstMem
  rw [lastEq, Option.mem_def, Option.some.injEq] at finalMem
  subst firstMem finalMem
  exact closed

theorem IsRing.getLast?_eq (ring : IsRing next prev (head :: rest))
    (prevHead : prev head = some last) : (head :: rest).getLast? = some last := by
  rcases List.eq_nil_or_concat (head :: rest) with empty | ⟨init, final, split⟩
  · simp at empty
  · have ringInit : IsRing next prev (init ++ [final]) := by
      rw [← List.concat_eq_append, ← split]
      exact ring
    rcases ringInit.linked_last with ⟨first, firstEq, linked⟩
    have headEq : head = first := by
      have : (head :: rest).head? = some first := by rw [split]; simpa using firstEq
      simpa using this
    subst first
    have finalEq : final = last := by simpa using linked.2.symm.trans prevHead
    rw [split, ← finalEq]
    simp

theorem IsRing.next_last (ring : IsRing next prev (head :: rest))
    (prevHead : prev head = some last) : next last = some head := by
  have lastMem : last ∈ head :: rest := List.mem_of_getLast? (ring.getLast?_eq prevHead)
  rcases ring.linked_of_mem (List.mem_cons_self : head ∈ head :: rest) with ⟨-, final, -, linked⟩
  have finalEq : final = last := by simpa using linked.2.symm.trans prevHead
  exact finalEq ▸ linked.1

/-- Splicing a new cell between the last cell and the head appends it to the ring. -/
theorem IsRing.append (ring : IsRing next prev (head :: rest)) (fresh : new ∉ head :: rest)
    (prevHead : prev head = some last)
    (nextLast : next' last = some new) (prevNew : prev' new = some last)
    (nextNew : next' new = some head) (prevHead' : prev' head = some new)
    (sameNext : ∀ cell ∈ head :: rest, cell ≠ last → next' cell = next cell)
    (samePrev : ∀ cell ∈ head :: rest, cell ≠ head → prev' cell = prev cell) :
    IsRing next' prev' (head :: (rest ++ [new])) := by
  have lastEq := ring.getLast?_eq prevHead
  have inner : List.IsChain (Linked next prev) (head :: rest) :=
    (List.isChain_append.mp (show List.IsChain _ ((head :: rest) ++ [head]) from ring.2)).1
  have moved : List.IsChain (Linked next' prev') (head :: rest) := by
    refine inner.imp_of_mem_tail_imp ?_
    intro first second firstMem secondMem linked
    have secondNe : second ≠ head := by
      rintro rfl
      exact (List.nodup_cons.mp ring.nodup).1 secondMem
    have firstNe : first ≠ last := by
      rintro rfl
      exact secondNe (by simpa using linked.1.symm.trans (ring.next_last prevHead))
    exact ⟨(sameNext first firstMem firstNe).trans linked.1,
      (samePrev second (List.mem_cons_of_mem _ secondMem) secondNe).trans linked.2⟩
  have newLast : (head :: (rest ++ [new])).getLast? = some new := by
    rw [← List.cons_append]
    exact List.getLast?_concat
  refine isRing_of_chain ?_ ?_ newLast ⟨nextNew, prevHead'⟩
  · rw [← List.cons_append, (List.perm_append_singleton new (head :: rest)).nodup_iff]
    exact List.nodup_cons.mpr ⟨fresh, ring.nodup⟩
  · rw [← List.cons_append]
    refine List.isChain_append.mpr ⟨moved, List.isChain_singleton _, ?_⟩
    intro final finalMem first firstMem
    simp only [List.head?_cons, Option.mem_def, Option.some.injEq] at firstMem
    rw [lastEq, Option.mem_def, Option.some.injEq] at finalMem
    subst firstMem finalMem
    exact ⟨nextLast, prevNew⟩

/-- Linking the head's two neighbours to each other removes the head from the ring. -/
theorem IsRing.remove_head (ring : IsRing next prev (cell :: after :: rest))
    (prevCell : prev cell = some before)
    (nextBefore : next' before = some after) (prevAfter : prev' after = some before)
    (sameNext : ∀ other ∈ after :: rest, other ≠ before → next' other = next other)
    (samePrev : ∀ other ∈ after :: rest, other ≠ after → prev' other = prev other) :
    IsRing next' prev' (after :: rest) := by
  have nodup := List.nodup_cons.mp ring.nodup
  have inner : List.IsChain (Linked next prev) (after :: rest) :=
    (List.isChain_append.mp
      (show List.IsChain _ ((after :: rest) ++ [cell]) from
        (List.isChain_cons_cons.mp ring.2).2)).1
  refine isRing_of_chain nodup.2 ?_ ?_ ⟨nextBefore, prevAfter⟩
  · refine inner.imp_of_mem_tail_imp ?_
    intro first second firstMem secondMem linked
    have secondNe : second ≠ after := by
      rintro rfl
      exact (List.nodup_cons.mp nodup.2).1 secondMem
    have firstNe : first ≠ before := by
      rintro rfl
      have secondEq : second = cell := by
        simpa using linked.1.symm.trans (ring.next_last prevCell)
      exact nodup.1 (secondEq ▸ List.mem_cons_of_mem _ secondMem)
    exact ⟨(sameNext first firstMem firstNe).trans linked.1,
      (samePrev second (List.mem_cons_of_mem _ secondMem) secondNe).trans linked.2⟩
  · have lastEq := ring.getLast?_eq prevCell
    simpa using lastEq

/-- Linking a cell's two neighbours to each other removes it, wherever it stands. -/
theorem IsRing.remove (ring : IsRing next prev (front ++ cell :: back))
    (others : front ++ back ≠ [])
    (prevCell : prev cell = some before) (nextCell : next cell = some after)
    (nextBefore : next' before = some after) (prevAfter : prev' after = some before)
    (sameNext : ∀ other ∈ front ++ back, other ≠ before → next' other = next other)
    (samePrev : ∀ other ∈ front ++ back, other ≠ after → prev' other = prev other) :
    IsRing next' prev' (front ++ back) := by
  have rotated : IsRing next prev (cell :: (back ++ front)) := by simpa using ring.rotate
  have memRotated : ∀ {other}, other ∈ back ++ front → other ∈ front ++ back := by
    intro other
    simp only [List.mem_append]
    exact Or.symm
  apply IsRing.rotate
  rcases rest_eq : back ++ front with _ | ⟨second, tail⟩
  · simp only [List.append_eq_nil_iff] at rest_eq
    simp [rest_eq] at others
  · rw [rest_eq] at rotated memRotated
    have secondEq : second = after := by simpa using rotated.next_head.symm.trans nextCell
    subst second
    exact rotated.remove_head prevCell nextBefore prevAfter
      (fun other otherMem => sameNext other (memRotated otherMem))
      (fun other otherMem => samePrev other (memRotated otherMem))

theorem IsRing.neighbours_mem (ring : IsRing next prev (front ++ cell :: back))
    (others : front ++ back ≠ []) :
    ∃ before ∈ front ++ back, ∃ after ∈ front ++ back,
      prev cell = some before ∧ next cell = some after := by
  have rotated : IsRing next prev (cell :: (back ++ front)) := by simpa using ring.rotate
  have memRotated : ∀ {other}, other ∈ back ++ front → other ∈ front ++ back := by
    intro other
    simp only [List.mem_append]
    exact Or.symm
  rcases rest_eq : back ++ front with _ | ⟨after, tail⟩
  · simp only [List.append_eq_nil_iff] at rest_eq
    simp [rest_eq] at others
  · rw [rest_eq] at rotated memRotated
    rcases rotated.linked_of_mem
      (List.mem_cons_self : cell ∈ cell :: after :: tail) with ⟨-, before, beforeMem, linked⟩
    refine ⟨before, memRotated ?_, after, memRotated (by simp), linked.2, rotated.next_head⟩
    rcases List.mem_cons.mp beforeMem with rfl | tailMem
    · exact absurd ((rotated.prev_eq_self_iff (by simp)).mp linked.2) (by simp)
    · exact tailMem

/-- Removing the head moves the head of the ring to the next cell. -/
theorem IsRing.head?_remove (ring : IsRing next prev (cell :: back)) (others : back ≠ [])
    (nextCell : next cell = some after) : back.head? = some after := by
  rcases back with _ | ⟨second, tail⟩
  · exact absurd rfl others
  · exact ring.next_head.symm.trans nextCell

end Rewriting

end LinkedRing
