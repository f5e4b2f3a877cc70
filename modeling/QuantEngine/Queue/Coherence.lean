import QuantEngine.Queue.Threads

/-!
# What every interleaving keeps

The two indices count the elements published and released, modulo the size of
the store, and lag behind the place of their thread by at most one. As long as
fewer elements than the store has are published and not released, no two of
them share a slot, and none of them shares one with an element being written.
-/

namespace QuantEngine

universe u

namespace LFQueue

variable {T : Type u} {numElem : ℕ}

/-- What the place of the producer says about the elements written, published and counted. -/
def Producer.Fits (written published counted : ℕ) : Producer T numElem → Prop
  | .idle => written = published ∧ counted = published
  | .holding slot _ => (slot : ℕ) = published % numElem ∧ written = published ∧ counted = published
  | .stored => written = published + 1 ∧ counted = published
  | .loaded index =>
      (index : ℕ) = published % numElem ∧ written = published + 1 ∧ counted = published
  | .advanced => written = published ∧ counted + 1 = published

/-- What the place of the consumer says about the elements released and counted out. -/
def Consumer.Fits (published released discounted : ℕ) : Consumer numElem → Prop
  | .idle => discounted = released
  | .comparing index => (index : ℕ) = released % numElem ∧ discounted = released
  | .differing => released < published ∧ discounted = released
  | .loaded index =>
      (index : ℕ) = released % numElem ∧ released < published ∧ discounted = released
  | .advanced => discounted + 1 = released

theorem Producer.Fits.written_le {producer : Producer T numElem} {written published counted : ℕ}
    (fits : producer.Fits written published counted) :
    published ≤ written ∧ written ≤ published + 1 ∧ counted ≤ published ∧
      published ≤ counted + 1 := by
  cases producer <;> simp only [Producer.Fits] at fits <;> omega

theorem Consumer.Fits.discounted_le {consumer : Consumer numElem}
    {published released discounted : ℕ} (fits : consumer.Fits published released discounted) :
    discounted ≤ released ∧ released ≤ discounted + 1 := by
  cases consumer <;> simp only [Consumer.Fits] at fits <;> omega

/-- Publishing takes nothing from what the consumer knows. -/
theorem Consumer.Fits.publish {consumer : Consumer numElem} {published released discounted : ℕ}
    (fits : consumer.Fits published released discounted) :
    consumer.Fits (published + 1) released discounted := by
  cases consumer <;> simp only [Consumer.Fits] at fits ⊢ <;> omega

theorem mod_ne_of_lt {first second : ℕ} (less : first < second) (near : second < first + numElem) :
    first % numElem ≠ second % numElem := by
  intro same
  have congruent : 0 % numElem = (second - first) % numElem := by
    apply Nat.ModEq.add_left_cancel' first
    rw [Nat.ModEq, Nat.add_zero, Nat.add_sub_cancel' less.le]
    exact same
  rw [Nat.zero_mod, Nat.mod_eq_of_lt (by omega)] at congruent
  omega

namespace Threads

variable {threads last : Threads T numElem} {action : Action T} {actions : List (Action T)}

/-- The invariant of two threads that keep a place free. -/
structure Coherent (threads : Threads T numElem) : Prop where
  nextReadIndex : (threads.queue.nextReadIndex : ℕ) = threads.released % numElem
  nextWriteIndex : (threads.queue.nextWriteIndex : ℕ) = threads.published % numElem
  numElements : Counter.Counts threads.queue.numElements threads.counted threads.discounted
  order : threads.released ≤ threads.published
  room : threads.published < threads.released + numElem
  producer : threads.producer.Fits threads.written.length threads.published threads.counted
  consumer : threads.consumer.Fits threads.published threads.released threads.discounted
  next : ∀ slot, threads.next = some slot →
    (slot : ℕ) = threads.released % numElem ∧ threads.released < threads.published
  stored : ∀ count (inRange : count < threads.written.length), threads.released ≤ count →
    ∀ slot : Fin numElem, (slot : ℕ) = count % numElem →
      threads.queue.store slot = threads.written[count]

theorem coherent_new [Inhabited T] [NeZero numElem] :
    (new numElem : Threads T numElem).Coherent where
  nextReadIndex := (Nat.zero_mod numElem).symm
  nextWriteIndex := (Nat.zero_mod numElem).symm
  numElements := Counter.counts_zero
  order := Nat.le_refl 0
  room := by
    rw [new, Nat.zero_add]
    exact Nat.pos_of_neZero numElem
  producer := ⟨rfl, rfl⟩
  consumer := rfl
  next slot isNext := by cases isNext
  stored count inRange := absurd inRange (Nat.not_lt_zero count)

theorem Coherent.index_eq_iff (coherent : threads.Coherent) :
    threads.queue.nextReadIndex = threads.queue.nextWriteIndex ↔
      threads.released = threads.published := by
  rw [← Fin.val_inj, coherent.nextReadIndex, coherent.nextWriteIndex]
  constructor
  · intro same
    by_contra differ
    exact mod_ne_of_lt (Nat.lt_of_le_of_ne coherent.order differ) coherent.room same
  · intro same
    rw [same]

/-- The producer publishes an element only if a place stays free. -/
def KeepsRoom (threads : Threads T numElem) : Action T → Prop
  | .producer => ∀ index, threads.producer = .loaded index →
      threads.published + 1 < threads.released + numElem
  | _ => True

instance [DecidableEq T] (threads : Threads T numElem) (action : Action T) :
    Decidable (threads.KeepsRoom action) :=
  match action with
  | .producer => inferInstanceAs (Decidable (∀ index, threads.producer = .loaded index → _))
  | .getNextToWriteTo _ => inferInstanceAs (Decidable True)
  | .size => inferInstanceAs (Decidable True)
  | .getNextToRead => inferInstanceAs (Decidable True)
  | .read => inferInstanceAs (Decidable True)
  | .updataReadIndex => inferInstanceAs (Decidable True)
  | .consumer => inferInstanceAs (Decidable True)

/-- Every step keeps the invariant, if the producer keeps a place free and the consumer calls
`updataReadIndex` only when something is there to be released. -/
theorem Coherent.step (coherent : threads.Coherent) (room : threads.KeepsRoom action)
    (releases : action = .updataReadIndex → threads.released < threads.published)
    (ran : threads.step action = some last) : last.Coherent := by
  have producing := coherent.producer
  have consuming := coherent.consumer
  cases access_of_step ran with
  | getNextToWriteTo idle =>
      rw [idle] at producing
      exact { coherent with producer := ⟨coherent.nextWriteIndex, producing⟩ }
  | storeElement place =>
      rename_i slot value
      rw [place] at producing
      rcases producing with ⟨slotEq, written, counted⟩
      refine { coherent with producer := ⟨?_, counted⟩, stored := ?_ }
      · simp [written]
      · intro count inRange unreleased other otherEq
        rcases Nat.lt_or_ge count threads.written.length with old | new
        · have differ : other ≠ slot := by
            rw [← Fin.val_ne_iff, otherEq, slotEq]
            have kept : threads.released ≤ count := unreleased
            have near := coherent.room
            apply mod_ne_of_lt <;> omega
          simp only [Function.update_of_ne differ, List.getElem_append_left old]
          exact coherent.stored count old unreleased other otherEq
        · have last : count = threads.written.length := by
            simp only [List.length_append, List.length_singleton] at inRange
            omega
          subst last
          have same : other = slot := by
            rw [← Fin.val_inj, otherEq, slotEq, written]
          simp [same]
  | loadWriteIndex place =>
      rw [place] at producing
      exact { coherent with producer := ⟨coherent.nextWriteIndex, producing⟩ }
  | storeWriteIndex place =>
      rw [place] at producing
      rcases producing with ⟨indexEq, written, counted⟩
      refine { coherent with
        nextWriteIndex := val_indexAfter indexEq
        order := Nat.le_succ_of_le coherent.order
        room := room _ place
        producer := ⟨written, by simp [counted]⟩
        consumer := coherent.consumer.publish
        next := ?_ }
      intro slot isNext
      have behind := coherent.next slot isNext
      exact ⟨behind.1, Nat.lt_succ_of_lt behind.2⟩
  | addElement place =>
      rw [place] at producing
      exact { coherent with
        numElements := coherent.numElements.add
        producer := producing }
  | size idle => exact { coherent with }
  | getNextToRead idle =>
      rw [idle] at consuming
      exact { coherent with consumer := ⟨coherent.nextReadIndex, consuming⟩ }
  | findEmpty place same =>
      rw [place] at consuming
      exact { coherent with consumer := consuming.2, next := fun _ isNext => nomatch isNext }
  | findElement place differ =>
      rw [place] at consuming
      rcases consuming with ⟨indexEq, discounted⟩
      refine { coherent with consumer := ⟨?_, discounted⟩ }
      apply Nat.lt_of_le_of_ne coherent.order
      intro same
      apply differ
      rw [← coherent.index_eq_iff.mpr same, ← Fin.val_inj, indexEq, coherent.nextReadIndex]
  | returnElement place =>
      rw [place] at consuming
      refine { coherent with consumer := consuming.2, next := ?_ }
      rintro slot ⟨⟩
      exact ⟨coherent.nextReadIndex, consuming.1⟩
  | read idle isNext => exact { coherent with }
  | updataReadIndex idle =>
      rw [idle] at consuming
      exact { coherent with consumer := ⟨coherent.nextReadIndex, releases rfl, consuming⟩ }
  | storeReadIndex place =>
      rw [place] at consuming
      rcases consuming with ⟨indexEq, behind, discounted⟩
      refine { coherent with
        nextReadIndex := val_indexAfter indexEq
        order := behind
        room := ?_
        consumer := congrArg (· + 1) discounted
        next := fun _ isNext => nomatch isNext
        stored := ?_ }
      · have room := coherent.room
        dsimp only
        omega
      · intro count inRange unreleased
        exact coherent.stored count inRange (Nat.le_of_succ_le unreleased)
  | subElement place =>
      rw [place] at consuming
      exact { coherent with
        numElements := coherent.numElements.sub
        consumer := consuming }

end Threads

end LFQueue

end QuantEngine
