import QuantEngine.Queue.Coherence

/-!
# Producers and consumers

Three sets of rules by which the callers of a queue use it. A consumer that
releases each element after reading it sees the elements in order. One that
looks at `size()` first never decrements `num_elements_` ahead of the producer.
One that does not, as the loop of the matching engine, may do so between the two
stores of `updateWriteIndex`, and the counter wraps.
-/

namespace QuantEngine

universe u

namespace LFQueue.Threads

open Runs

variable {T : Type u} {numElem : ℕ} {threads last : Threads T numElem} {action : Action T}
  {actions : List (Action T)}

/-- How many elements the consumer has read. -/
def readCount (threads : Threads T numElem) : ℕ := threads.released + threads.hasRead.toNat

/-- The consumer has read the elements written first, and releases only what it has read. -/
structure ReadsInOrder (threads : Threads T numElem) : Prop where
  coherent : threads.Coherent
  read : threads.read = threads.written.take threads.readCount
  hasRead : threads.hasRead = true → threads.released < threads.published
  releasing : ∀ index, threads.consumer = .loaded index → threads.hasRead = true

theorem ReadsInOrder.readCount_le (inOrder : threads.ReadsInOrder) :
    threads.readCount ≤ threads.written.length := by
  have written := inOrder.coherent.producer.written_le
  have order := inOrder.coherent.order
  unfold readCount
  cases has : threads.hasRead with
  | false => simp; omega
  | true =>
      have behind := inOrder.hasRead has
      simp; omega

theorem readsInOrder_new [Inhabited T] [NeZero numElem] :
    (new numElem : Threads T numElem).ReadsInOrder where
  coherent := coherent_new
  read := rfl
  hasRead has := by cases has
  releasing index isLoaded := by cases isLoaded

/-- The element under the consumer's pointer is the one at its count. -/
theorem Coherent.store_next {slot : Fin numElem} (coherent : threads.Coherent)
    (isNext : threads.next = some slot) :
    threads.written[threads.released]? = some (threads.queue.store slot) := by
  rcases coherent.next slot isNext with ⟨slotEq, behind⟩
  have inRange : threads.released < threads.written.length :=
    Nat.lt_of_lt_of_le behind coherent.producer.written_le.1
  rw [List.getElem?_eq_getElem inRange,
    coherent.stored threads.released inRange (Nat.le_refl _) slot slotEq]

/-- A consumer that reads each element once, before it releases it. -/
def ReadsOnce (threads : Threads T numElem) : Action T → Prop
  | .read => threads.hasRead = false
  | .updataReadIndex => threads.hasRead = true
  | _ => True

instance (threads : Threads T numElem) (action : Action T) :
    Decidable (threads.ReadsOnce action) :=
  match action with
  | .read => inferInstanceAs (Decidable (_ = _))
  | .updataReadIndex => inferInstanceAs (Decidable (_ = _))
  | .getNextToWriteTo _ => inferInstanceAs (Decidable True)
  | .producer => inferInstanceAs (Decidable True)
  | .size => inferInstanceAs (Decidable True)
  | .getNextToRead => inferInstanceAs (Decidable True)
  | .consumer => inferInstanceAs (Decidable True)

theorem ReadsInOrder.step (inOrder : threads.ReadsInOrder) (room : threads.KeepsRoom action)
    (once : threads.ReadsOnce action) (ran : threads.step action = some last) :
    last.ReadsInOrder := by
  have coherent' : last.Coherent := by
    refine inOrder.coherent.step room ?_ ran
    rintro rfl
    exact inOrder.hasRead once
  cases access_of_step ran with
  | storeElement place =>
      refine { inOrder with coherent := coherent', read := ?_ }
      exact inOrder.read.trans (List.take_append_of_le_length inOrder.readCount_le).symm
  | storeWriteIndex place =>
      exact { inOrder with
        coherent := coherent'
        hasRead := fun has => Nat.lt_succ_of_lt (inOrder.hasRead has) }
  | read idle isNext =>
      have unreadYet : threads.hasRead = false := once
      have behind := (inOrder.coherent.next _ isNext).2
      have stored := inOrder.coherent.store_next isNext
      have soFar := inOrder.read
      refine ⟨coherent', ?_, fun _ => behind, fun _ _ => rfl⟩
      simp only [readCount, unreadYet, Bool.toNat_false, Nat.add_zero, Bool.toNat_true]
        at soFar ⊢
      rw [soFar, List.take_add_one, stored]
      rfl
  | updataReadIndex idle =>
      exact { inOrder with coherent := coherent', releasing := fun _ _ => once }
  | storeReadIndex place =>
      have has := inOrder.releasing _ place
      have soFar := inOrder.read
      refine ⟨coherent', ?_, fun has => (nomatch has), fun _ place => nomatch place⟩
      simpa [readCount, has] using soFar
  | getNextToWriteTo idle => exact { inOrder with coherent := coherent' }
  | loadWriteIndex place => exact { inOrder with coherent := coherent' }
  | addElement place => exact { inOrder with coherent := coherent' }
  | size idle => exact { inOrder with coherent := coherent' }
  | getNextToRead idle =>
      exact { inOrder with coherent := coherent', releasing := fun _ place => nomatch place }
  | findEmpty place same =>
      exact { inOrder with coherent := coherent', releasing := fun _ place => nomatch place }
  | findElement place differ =>
      exact { inOrder with coherent := coherent', releasing := fun _ place => nomatch place }
  | returnElement place =>
      exact { inOrder with coherent := coherent', releasing := fun _ place => nomatch place }
  | subElement place =>
      exact { inOrder with coherent := coherent', releasing := fun _ place => nomatch place }

/-- The producer starts a write only while at least two places are free; the consumer gets a
pointer, reads the element once if the pointer is not null, and then releases it. -/
def InTurn (threads : Threads T numElem) : Action T → Prop
  | .getNextToWriteTo _ => threads.published + 1 < threads.released + numElem
  | .getNextToRead => threads.next = none
  | .read => threads.hasRead = false
  | .updataReadIndex => threads.next ≠ none ∧ threads.hasRead = true
  | _ => True

instance (threads : Threads T numElem) (action : Action T) : Decidable (threads.InTurn action) :=
  match action with
  | .getNextToWriteTo _ => inferInstanceAs (Decidable (_ < _))
  | .getNextToRead => inferInstanceAs (Decidable (_ = _))
  | .read => inferInstanceAs (Decidable (_ = _))
  | .updataReadIndex => inferInstanceAs (Decidable (_ ∧ _))
  | .producer => inferInstanceAs (Decidable True)
  | .size => inferInstanceAs (Decidable True)
  | .consumer => inferInstanceAs (Decidable True)

/-- A write in progress has a place to publish its element in. -/
def Reserved (threads : Threads T numElem) : Prop :=
  (∃ slot value, threads.producer = .holding slot value) ∨ threads.producer = .stored ∨
    (∃ index, threads.producer = .loaded index) → threads.published + 1 < threads.released + numElem

theorem Reserved.keepsRoom (reserved : threads.Reserved) : threads.KeepsRoom action := by
  cases action with
  | producer => exact fun index place => reserved (Or.inr (Or.inr ⟨index, place⟩))
  | _ => trivial

theorem InTurn.readsOnce (allowed : threads.InTurn action) : threads.ReadsOnce action := by
  cases action with
  | read => exact allowed
  | updataReadIndex => exact allowed.2
  | _ => trivial

theorem Reserved.step (reserved : threads.Reserved) (allowed : threads.InTurn action)
    (ran : threads.step action = some last) : last.Reserved := by
  cases access_of_step ran with
  | getNextToWriteTo idle => exact fun _ => allowed
  | storeElement place => exact fun _ => reserved (Or.inl ⟨_, _, place⟩)
  | loadWriteIndex place => exact fun _ => reserved (Or.inr (Or.inl place))
  | storeWriteIndex place => rintro (⟨_, _, ⟨⟩⟩ | ⟨⟨⟩⟩ | ⟨_, ⟨⟩⟩)
  | addElement place => rintro (⟨_, _, ⟨⟩⟩ | ⟨⟨⟩⟩ | ⟨_, ⟨⟩⟩)
  | storeReadIndex place =>
      intro writing
      have room := reserved writing
      dsimp only
      omega
  | _ => exact reserved

theorem readsInOrder_of_run [Inhabited T] [NeZero numElem]
    (run : Run (Step InTurn) (new numElem : Threads T numElem) actions threads) :
    threads.ReadsInOrder ∧ threads.Reserved := by
  apply run.invariant (fun threads => threads.ReadsInOrder ∧ threads.Reserved)
  · exact ⟨readsInOrder_new, by rintro (⟨_, _, ⟨⟩⟩ | ⟨⟨⟩⟩ | ⟨_, ⟨⟩⟩)⟩
  · rintro threads action last ⟨inOrder, reserved⟩ ⟨allowed, ran⟩
    exact ⟨inOrder.step reserved.keepsRoom allowed.readsOnce ran, reserved.step allowed ran⟩

/-- The values read are the first ones written, in order, and the producer never holds the slot
that the consumer holds. -/
theorem fifo_of_run [Inhabited T] [NeZero numElem]
    (run : Run (Step InTurn) (new numElem : Threads T numElem) actions threads) :
    threads.read <+: threads.written ∧
      ∀ slot value, threads.producer = .holding slot value → threads.next ≠ some slot := by
  have inOrder := (readsInOrder_of_run run).1
  constructor
  · rw [inOrder.read]
    exact List.take_prefix _ _
  · intro slot value place isNext
    have producing := inOrder.coherent.producer
    rw [place] at producing
    rcases inOrder.coherent.next slot isNext with ⟨nextEq, behind⟩
    exact mod_ne_of_lt behind inOrder.coherent.room (nextEq.symm.trans producing.1)

/-- The producer holds the second slot while the consumer has read the first. -/
theorem fifo_of_run_sample : ∃ threads : Threads ℕ 3, threads.read = [7] ∧
    threads.producer = .holding 1 8 ∧ threads.read <+: threads.written ∧
      threads.next ≠ some 1 := by
  have executed : (execute (permitted InTurn step) (new 3 : Threads ℕ 3)
      [.getNextToWriteTo 7, .producer, .producer, .producer, .getNextToRead, .consumer,
        .producer, .consumer, .getNextToWriteTo 8, .read]).any (fun (threads : Threads ℕ 3) =>
        threads.read = [7] ∧ threads.producer = .holding 1 8) = true := by
    decide +kernel
  rcases (Option.any_eq_true _ _).mp executed with ⟨threads, reached, facts⟩
  rcases of_decide_eq_true facts with ⟨reads, place⟩
  have run : Run (Step InTurn) (new 3) _ threads := Run.of_permitted reached
  rcases fifo_of_run run with ⟨inOrder, apart⟩
  exact ⟨threads, reads, place, inOrder, apart 1 8 place⟩

/-- The producer keeps a place free; the consumer reads and releases only after it has seen
`size()` positive since it last released an element. -/
def SizeGuarded (threads : Threads T numElem) : Action T → Prop
  | .read => threads.sawSome = true
  | .updataReadIndex => threads.sawSome = true
  | action => threads.KeepsRoom action

instance [DecidableEq T] (threads : Threads T numElem) (action : Action T) :
    Decidable (threads.SizeGuarded action) :=
  match action with
  | .read => inferInstanceAs (Decidable (_ = _))
  | .updataReadIndex => inferInstanceAs (Decidable (_ = _))
  | .getNextToWriteTo value =>
      inferInstanceAs (Decidable (threads.KeepsRoom (.getNextToWriteTo value)))
  | .producer => inferInstanceAs (Decidable (threads.KeepsRoom .producer))
  | .size => inferInstanceAs (Decidable (threads.KeepsRoom .size))
  | .getNextToRead => inferInstanceAs (Decidable (threads.KeepsRoom .getNextToRead))
  | .consumer => inferInstanceAs (Decidable (threads.KeepsRoom .consumer))

/-- The counter is ahead of the consumer. -/
structure Guarded (threads : Threads T numElem) : Prop where
  coherent : threads.Coherent
  released : threads.released ≤ threads.counted
  sawSome : threads.sawSome = true → threads.released < threads.counted
  releasing : ∀ index, threads.consumer = .loaded index → threads.released < threads.counted

theorem guarded_new [Inhabited T] [NeZero numElem] : (new numElem : Threads T numElem).Guarded where
  coherent := coherent_new
  released := Nat.le_refl 0
  sawSome saw := by cases saw
  releasing index isLoaded := by cases isLoaded

/-- While the consumer has not decremented too often, the counter is at most the size of the
store. -/
theorem Coherent.toNat_numElements (coherent : threads.Coherent) (fits : numElem < 2 ^ 64)
    (order : threads.discounted ≤ threads.counted) :
    threads.queue.numElements.toNat = threads.counted - threads.discounted ∧
      threads.queue.numElements.toNat ≤ numElem := by
  have writing := coherent.producer.written_le
  have reading := coherent.consumer.discounted_le
  have room := coherent.room
  have exact := coherent.numElements.toNat order (by omega)
  omega

theorem Guarded.toNat_numElements (guarded : threads.Guarded) (fits : numElem < 2 ^ 64) :
    threads.queue.numElements.toNat = threads.counted - threads.discounted ∧
      threads.queue.numElements.toNat ≤ numElem := by
  have reading := guarded.coherent.consumer.discounted_le
  have ahead := guarded.released
  exact guarded.coherent.toNat_numElements fits (by omega)

theorem SizeGuarded.keepsRoom (allowed : threads.SizeGuarded action) :
    threads.KeepsRoom action := by
  cases action <;> first | exact allowed | trivial

theorem Guarded.step (fits : numElem < 2 ^ 64) (guarded : threads.Guarded)
    (allowed : threads.SizeGuarded action) (ran : threads.step action = some last) :
    last.Guarded := by
  have published := guarded.coherent.producer.written_le
  have coherent' : last.Coherent := by
    refine guarded.coherent.step allowed.keepsRoom ?_ ran
    rintro rfl
    exact Nat.lt_of_lt_of_le (guarded.sawSome allowed) published.2.2.1
  cases access_of_step ran with
  | addElement place =>
      exact ⟨coherent', Nat.le_succ_of_le guarded.released,
        fun saw => Nat.lt_succ_of_lt (guarded.sawSome saw),
        fun index place => Nat.lt_succ_of_lt (guarded.releasing index place)⟩
  | size idle =>
      refine { guarded with coherent := coherent', sawSome := ?_ }
      intro saw
      rcases (Bool.or_eq_true _ _).mp saw with before | now
      · exact guarded.sawSome before
      · have consuming := guarded.coherent.consumer
        rw [idle] at consuming
        have counter := (guarded.toNat_numElements fits).1
        have positive : threads.queue.numElements.toNat ≠ 0 := fun zero =>
          of_decide_eq_true now (UInt64.toNat_inj.mp zero)
        have same : threads.discounted = threads.released := consuming
        dsimp only
        omega
  | updataReadIndex idle =>
      exact { guarded with coherent := coherent', releasing := fun _ _ => guarded.sawSome allowed }
  | storeReadIndex place =>
      exact ⟨coherent', guarded.releasing _ place, fun saw => (nomatch saw),
        fun _ place => nomatch place⟩
  | getNextToWriteTo idle => exact { guarded with coherent := coherent' }
  | storeElement place => exact { guarded with coherent := coherent' }
  | loadWriteIndex place => exact { guarded with coherent := coherent' }
  | storeWriteIndex place => exact { guarded with coherent := coherent' }
  | read idle isNext => exact { guarded with coherent := coherent' }
  | getNextToRead idle =>
      exact { guarded with coherent := coherent', releasing := fun _ place => nomatch place }
  | findEmpty place same =>
      exact { guarded with coherent := coherent', releasing := fun _ place => nomatch place }
  | findElement place differ =>
      exact { guarded with coherent := coherent', releasing := fun _ place => nomatch place }
  | returnElement place =>
      exact { guarded with coherent := coherent', releasing := fun _ place => nomatch place }
  | subElement place =>
      exact { guarded with coherent := coherent', releasing := fun _ place => nomatch place }

theorem guarded_of_run [Inhabited T] [NeZero numElem] (fits : numElem < 2 ^ 64)
    (run : Run (Step SizeGuarded) (new numElem : Threads T numElem) actions threads) :
    threads.Guarded :=
  run.invariant Guarded guarded_new fun guarded ⟨allowed, ran⟩ => guarded.step fits allowed ran

/-- The consumer's next access is the last one of a call of `getNextToRead`. -/
def Returns (threads last : Threads T numElem) : Prop :=
  (threads.consumer = .differing ∨ ∃ index, threads.consumer = .comparing index) ∧
    threads.step .consumer = some last ∧ last.consumer = .idle

/-- A consumer that looks at the size, and reads each element once before it releases it. -/
def SizedReads (threads : Threads T numElem) (action : Action T) : Prop :=
  threads.SizeGuarded action ∧ threads.ReadsOnce action

instance [DecidableEq T] (threads : Threads T numElem) (action : Action T) :
    Decidable (threads.SizedReads action) :=
  inferInstanceAs (Decidable (_ ∧ _))

theorem readsInOrder_of_sizedReads [Inhabited T] [NeZero numElem]
    (run : Run (Step SizedReads) (new numElem : Threads T numElem) actions threads) :
    threads.ReadsInOrder :=
  run.invariant ReadsInOrder readsInOrder_new fun inOrder ⟨allowed, ran⟩ =>
    inOrder.step allowed.1.keepsRoom allowed.2 ran

/-- The counter stays within the store, and a call of `getNextToRead` after a positive `size()`
returns the oldest element that is not released. A consumer that reads before it releases has
then read exactly the elements before this one, if it is not at this one for a second time. -/
theorem sizeGuard_of_run [Inhabited T] [NeZero numElem] (fits : numElem < 2 ^ 64)
    (run : Run (Step SizeGuarded) (new numElem : Threads T numElem) actions threads) :
    threads.queue.numElements.toNat ≤ numElem ∧ ∀ last, threads.sawSome = true →
      threads.Returns last → ∃ slot, last.next = some slot ∧
        last.written[last.released]? = some (last.queue.store slot) ∧
        (Run (Step SizedReads) (new numElem) actions threads → last.hasRead = false →
          last.read = last.written.take last.released) := by
  have guarded := guarded_of_run fits run
  refine ⟨(guarded.toNat_numElements fits).2, ?_⟩
  rintro last saw ⟨inCall, ran, idle⟩
  have published := guarded.coherent.producer.written_le
  have behind := guarded.sawSome saw
  have coherent' : last.Coherent :=
    (guarded.step fits (show threads.SizeGuarded .consumer from trivial) ran).coherent
  cases access_of_step ran with
  | findEmpty place same =>
      have consuming := guarded.coherent.consumer
      rw [place] at consuming
      have sameIndex : threads.queue.nextReadIndex = threads.queue.nextWriteIndex := by
        rw [← same, ← Fin.val_inj, consuming.1, guarded.coherent.nextReadIndex]
      have all := guarded.coherent.index_eq_iff.mp sameIndex
      omega
  | findElement place differ => cases idle
  | returnElement place =>
      refine ⟨_, rfl, coherent'.store_next rfl, ?_⟩
      intro sized unread
      have inOrder := (readsInOrder_of_sizedReads sized).read
      have same : threads.hasRead = false := unread
      rwa [readCount, same, Bool.toNat_false, Nat.add_zero] at inOrder
  | storeReadIndex place => cases idle
  | subElement place =>
      rw [place] at inCall
      rcases inCall with ⟨⟨⟩⟩ | ⟨_, ⟨⟩⟩

/-- The consumer has read and released the first of two elements and finds the second. -/
theorem sizeGuard_of_run_sample : ∃ threads last : Threads ℕ 3,
    threads.queue.numElements.toNat ≤ 3 ∧ threads.Returns last ∧ last.next = some 1 ∧
      last.written = [7, 8] ∧ last.written[last.released]? = some (last.queue.store 1) ∧
      last.read = last.written.take last.released ∧ last.released = 1 := by
  have executed : (execute (permitted SizedReads step) (new 3 : Threads ℕ 3)
      [.getNextToWriteTo 7, .producer, .producer, .producer, .producer, .size, .getNextToRead,
        .getNextToWriteTo 8, .consumer, .producer, .consumer, .read, .producer, .updataReadIndex,
        .consumer, .producer, .producer, .consumer, .size, .getNextToRead, .consumer]).any
      (fun (threads : Threads ℕ 3) => threads.sawSome = true ∧ threads.consumer = .differing ∧
        threads.queue.nextReadIndex = 1 ∧ threads.written = [7, 8] ∧ threads.released = 1 ∧
        threads.hasRead = false) = true := by
    decide +kernel
  rcases (Option.any_eq_true _ _).mp executed with ⟨threads, reached, facts⟩
  rcases of_decide_eq_true facts with ⟨saw, place, index, written, released, unread⟩
  have sized : Run (Step SizedReads) (new 3) _ threads := Run.of_permitted reached
  have run : Run (Step SizeGuarded) (new 3) _ threads :=
    sized.weaken fun ⟨allowed, ran⟩ => ⟨allowed.1, ran⟩
  have returns : threads.Returns
      { threads with consumer := .idle, next := some threads.queue.nextReadIndex } :=
    ⟨Or.inl place, by rw [step, stepConsumer, place], rfl⟩
  rcases sizeGuard_of_run (by decide) run with ⟨bounded, finds⟩
  rcases finds _ saw returns with ⟨slot, isNext, stored, readSoFar⟩
  have second : slot = 1 := (Option.some.inj isNext).symm.trans index
  subst second
  exact ⟨threads, _, bounded, returns, isNext, written, stored, readSoFar sized unread, released⟩

/-- The producer keeps a place free; the consumer releases an element whenever `getNextToRead`
returned one, as the loop of the matching engine does. -/
def PointerGuarded (threads : Threads T numElem) : Action T → Prop
  | .getNextToRead => threads.next = none
  | .updataReadIndex => threads.next ≠ none
  | action => threads.KeepsRoom action

instance [DecidableEq T] (threads : Threads T numElem) (action : Action T) :
    Decidable (threads.PointerGuarded action) :=
  match action with
  | .getNextToRead => inferInstanceAs (Decidable (_ = _))
  | .updataReadIndex => inferInstanceAs (Decidable (_ ≠ _))
  | .getNextToWriteTo value =>
      inferInstanceAs (Decidable (threads.KeepsRoom (.getNextToWriteTo value)))
  | .producer => inferInstanceAs (Decidable (threads.KeepsRoom .producer))
  | .size => inferInstanceAs (Decidable (threads.KeepsRoom .size))
  | .read => inferInstanceAs (Decidable (threads.KeepsRoom .read))
  | .consumer => inferInstanceAs (Decidable (threads.KeepsRoom .consumer))

/-- The consumer is about to count out an element that the producer, which has published it, has
not yet counted: everything published is released. -/
def Overtakes (threads : Threads T numElem) : Prop :=
  threads.consumer = .advanced ∧ threads.producer = .advanced ∧
    threads.queue.nextReadIndex = threads.queue.nextWriteIndex

/-- The steps of a run in which the consumer never overtakes the producer. -/
def InStep (threads : Threads T numElem) (action : Action T) : Prop :=
  threads.PointerGuarded action ∧ (action = .consumer → ¬threads.Overtakes)

instance [DecidableEq T] (threads : Threads T numElem) (action : Action T) :
    Decidable (threads.InStep action) :=
  inferInstanceAs (Decidable (_ ∧ (_ → ¬(_ ∧ _ ∧ _))))

theorem PointerGuarded.keepsRoom (allowed : threads.PointerGuarded action) :
    threads.KeepsRoom action := by
  cases action <;> first | exact allowed | trivial

theorem Coherent.pointerGuarded (coherent : threads.Coherent)
    (allowed : threads.PointerGuarded action) (ran : threads.step action = some last) :
    last.Coherent := by
  refine coherent.step allowed.keepsRoom ?_ ran
  rintro rfl
  rcases Option.ne_none_iff_exists'.mp allowed with ⟨slot, isNext⟩
  exact (coherent.next slot isNext).2

theorem discounted_le_counted_of_run [Inhabited T] [NeZero numElem]
    (run : Run (Step InStep) (new numElem : Threads T numElem) actions threads) :
    threads.Coherent ∧ threads.discounted ≤ threads.counted := by
  apply run.invariant (fun threads => threads.Coherent ∧ threads.discounted ≤ threads.counted)
  · exact ⟨coherent_new, Nat.le_refl 0⟩
  · rintro threads action last ⟨coherent, order⟩ ⟨⟨allowed, inStep⟩, ran⟩
    refine ⟨coherent.pointerGuarded allowed ran, ?_⟩
    cases access_of_step ran with
    | addElement place => exact Nat.le_succ_of_le order
    | subElement place =>
        have consuming := coherent.consumer
        have producing := coherent.producer
        have released := coherent.order
        rw [place] at consuming
        have last : threads.discounted + 1 = threads.released := consuming
        change threads.discounted + 1 ≤ threads.counted
        by_cases behind : threads.producer = .advanced
        · have some : threads.released ≠ threads.published := fun all =>
            inStep rfl ⟨place, behind, coherent.index_eq_iff.mpr all⟩
          rw [behind] at producing
          have counted := producing.2
          omega
        · have counted : threads.counted = threads.published := by
            cases inWrite : threads.producer <;> rw [inWrite] at producing behind
            case advanced => exact absurd rfl behind
            case idle => exact producing.2
            case stored => exact producing.2
            all_goals exact producing.2.2
          omega
    | _ => exact order

/-- Without overtaking the counter stays within the store, and the step that overtakes wraps
it. -/
theorem counterBound_of_run [Inhabited T] [NeZero numElem] (fits : numElem < 2 ^ 64)
    (run : Run (Step InStep) (new numElem : Threads T numElem) actions threads) :
    threads.queue.numElements.toNat ≤ numElem ∧ ∀ last, threads.Overtakes →
      threads.step .consumer = some last → last.queue.numElements.toNat = 2 ^ 64 - 1 := by
  rcases discounted_le_counted_of_run run with ⟨coherent, order⟩
  refine ⟨(coherent.toNat_numElements fits order).2, ?_⟩
  rintro last ⟨counting, behind, same⟩ ran
  have coherent' : last.Coherent :=
    coherent.pointerGuarded (show threads.PointerGuarded .consumer from trivial) ran
  have consuming := coherent.consumer
  have producing := coherent.producer
  have all := coherent.index_eq_iff.mp same
  rw [counting] at consuming
  rw [behind] at producing
  rw [step, stepConsumer, counting] at ran
  cases ran
  have counts : Counter.Counts (threads.queue.numElements - 1) threads.counted
      (threads.discounted + 1) := coherent.numElements.sub
  have overtaken : threads.discounted = threads.counted := by
    have last : threads.discounted + 1 = threads.released := consuming
    have next := producing.2
    omega
  rw [overtaken] at counts
  exact counts.wrapped

theorem counterBound_of_run_sample : ∃ threads : Threads ℕ 2, threads.released = 1 ∧
    threads.queue.numElements.toNat ≤ 2 := by
  have executed : (execute (permitted InStep step) (new 2 : Threads ℕ 2)
      [.getNextToWriteTo 7, .producer, .producer, .producer, .getNextToRead, .consumer,
        .consumer, .updataReadIndex, .consumer, .producer, .consumer]).any
      (fun (threads : Threads ℕ 2) => threads.released = 1) = true := by
    decide +kernel
  rcases (Option.any_eq_true _ _).mp executed with ⟨threads, reached, released⟩
  have run : Run (Step InStep) (new 2) _ threads := Run.of_permitted reached
  exact ⟨threads, of_decide_eq_true released, (counterBound_of_run (by decide) run).1⟩

/-- The consumer finds, releases and counts out an element that the producer has not counted. -/
theorem counter_wraps_of_overtaking : ∃ threads : Threads ℕ 2,
    Run (Step PointerGuarded) (new 2) [.getNextToWriteTo 7, .producer, .producer, .producer,
      .getNextToRead, .consumer, .consumer, .read, .updataReadIndex, .consumer, .consumer] threads ∧
      threads.queue.numElements.toNat = 2 ^ 64 - 1 := by
  have executed : (execute (permitted PointerGuarded step) (new 2 : Threads ℕ 2)
      [.getNextToWriteTo 7, .producer, .producer, .producer, .getNextToRead, .consumer,
        .consumer, .read, .updataReadIndex, .consumer, .consumer]).any
      (fun (threads : Threads ℕ 2) => threads.queue.numElements.toNat = 2 ^ 64 - 1) = true := by
    decide +kernel
  rcases (Option.any_eq_true _ _).mp executed with ⟨threads, reached, wrapped⟩
  exact ⟨threads, Run.of_permitted reached, of_decide_eq_true wrapped⟩

end LFQueue.Threads

end QuantEngine
