import QuantEngine.Engine.Outgoing
import QuantEngine.Queue.Rules
import QuantEngine.Runs.Feed

/-!
# Market data on its way to a reader

A book sends its market updates into a queue while another thread reads them.
The reader falls behind by as many updates as the queue holds, and a call of the
book may be in the middle of its updates.

Whenever the reader has read all that was sent up to the end of a call, it knows
the orders that were in use then, whatever the book has done since.
-/

namespace QuantEngine.MEOrderBook

open Exec LFQueue LFQueue.Threads Runs

/-- A book, and the queue of its updates with both threads. -/
structure MarketData (numElem : ℕ) where
  book : MEOrderBook
  threads : Threads MEMarketUpdate numElem
  /-- The updates that the current call has not begun to send. -/
  backlog : List MEMarketUpdate := []
  /-- The book as it was constructed and as each call has left it. -/
  past : List MEOrderBook

/-- A call of the book, or the next access of one of the threads to the queue. -/
inductive MarketData.Action where
  | call (op : Op)
  | access (action : LFQueue.Action MEMarketUpdate)

variable {numElem : ℕ} {system last : MarketData numElem} {tickerId : TickerId}

namespace MarketData

/-- The book is called by the thread that sends, so no call starts before the last update of the
call before it is sent. -/
def step (system : MarketData numElem) : Action → Option (MarketData numElem)
  | .call op =>
      if system.threads.producer = .idle ∧ system.backlog = [] then
        (op.perform system.book).map fun book => { system with
          book := book
          backlog := book.updates.drop system.book.updates.length
          past := system.past ++ [book] }
      else none
  | .access (.getNextToWriteTo update) =>
      match system.backlog with
      | [] => none
      | next :: rest =>
          if next = update then
            (system.threads.step (.getNextToWriteTo update)).map fun threads => { system with
              threads := threads
              backlog := rest }
          else none
  | .access action =>
      (system.threads.step action).map fun threads => { system with threads := threads }

/-- Orders and cancellations; the queue is never full, and the reader reads each update once before
it releases it. -/
def Rules (system : MarketData numElem) : Action → Prop
  | .call op => op.IsTrading
  | .access action => system.threads.KeepsRoom action ∧ system.threads.ReadsOnce action

instance (system : MarketData numElem) (action : Action) : Decidable (system.Rules action) :=
  match action with
  | .call op => inferInstanceAs (Decidable op.IsTrading)
  | .access (.getNextToWriteTo _) => inferInstanceAs (Decidable (True ∧ True))
  | .access .producer => inferInstanceAs (Decidable (system.threads.KeepsRoom .producer ∧ True))
  | .access .size => inferInstanceAs (Decidable (True ∧ True))
  | .access .getNextToRead => inferInstanceAs (Decidable (True ∧ True))
  | .access .read => inferInstanceAs (Decidable (True ∧ _ = false))
  | .access .updataReadIndex => inferInstanceAs (Decidable (True ∧ _ = true))
  | .access .consumer => inferInstanceAs (Decidable (True ∧ True))

def new (numElem : ℕ) [NeZero numElem] (tickerId : TickerId) : MarketData numElem where
  book := empty tickerId
  threads := Threads.new numElem
  past := [empty tickerId]

def Step (system : MarketData numElem) (action : Action) (last : MarketData numElem) : Prop :=
  system.Rules action ∧ system.step action = some last

end MarketData

theorem TradingStep.updates_prefix {book next : MEOrderBook} {op : Op}
    (stepped : TradingStep book op next) : book.updates <+: next.updates := by
  rcases stepped with ⟨trading, result, ran⟩
  have reached : finalState (op.exec book) = next := by
    rw [ran]
    rfl
  rw [← reached]
  cases op with
  | checkForMatch aggressor price qty => exact absurd trading id
  | rest order => exact absurd trading id
  | removeOrder elem => exact absurd trading id
  | cancel clientId orderId tickerId =>
      rw [Op.exec, finalState_bind_pure]
      rcases cancel_messages with ⟨_, updates, -, published, -⟩
      exact ⟨updates, published.symm⟩
  | submit submission =>
      rw [Op.exec, finalState_bind_pure]
      rcases submitBy_messages with ⟨-, added, addedEq, -⟩
      rcases matchSubmission_traded with ⟨trades, -, updates⟩
      rw [addedEq, updates, List.append_assoc]
      exact List.prefix_append _ _

/-- The update of a write that has not reached the store. -/
def inHand : Producer MEMarketUpdate numElem → List MEMarketUpdate
  | .holding _ update => [update]
  | _ => []

@[simp]
theorem inHand_idle : inHand (.idle : Producer MEMarketUpdate numElem) = [] := rfl

section Threads

variable {threads following : Threads MEMarketUpdate numElem}

theorem written_of_send {update : MEMarketUpdate}
    (ran : threads.step (.getNextToWriteTo update) = some following) :
    following.written ++ inHand following.producer =
      threads.written ++ inHand threads.producer ++ [update] := by
  cases access_of_step ran with
  | getNextToWriteTo idle => simp [inHand, idle]

theorem written_of_access {action : LFQueue.Action MEMarketUpdate}
    (other : ∀ update, action ≠ .getNextToWriteTo update)
    (ran : threads.step action = some following) :
    following.written ++ inHand following.producer =
      threads.written ++ inHand threads.producer := by
  cases access_of_step ran with
  | getNextToWriteTo idle => exact absurd rfl (other _)
  | storeElement place => simp [inHand, place]
  | loadWriteIndex place => simp [inHand, place]
  | storeWriteIndex place => simp [inHand, place]
  | addElement place => simp [inHand, place]
  | _ => rfl

end Threads

/-- The queue gets the updates of the calls in order, and each book of the past is that of a run. -/
structure Relays (tickerId : TickerId) (system : MarketData numElem) : Prop where
  inOrder : system.threads.ReadsInOrder
  sent : system.book.updates =
    system.threads.written ++ inHand system.threads.producer ++ system.backlog
  run : ∃ ops, Run TradingStep (empty tickerId) ops system.book ∧
    ops.length + 1 = system.past.length
  past : ∀ book ∈ system.past, book.updates <+: system.book.updates ∧
    ∃ ops, Run TradingStep (empty tickerId) ops book ∧ ops.length + 1 ≤ system.past.length

namespace Relays

theorem new [NeZero numElem] : Relays tickerId (MarketData.new numElem tickerId) where
  inOrder := readsInOrder_new
  sent := rfl
  run := ⟨[], Run.nil, rfl⟩
  past book member := by
    rw [List.mem_singleton.mp member]
    exact ⟨List.prefix_refl _, [], Run.nil, Nat.le_refl _⟩

theorem call {op : Op} (relays : Relays tickerId system) (trading : op.IsTrading)
    (ran : system.step (.call op) = some last) : Relays tickerId last := by
  rw [MarketData.step] at ran
  split at ran
  case isFalse => cases ran
  case isTrue ready =>
      rcases Option.map_eq_some_iff.mp ran with ⟨book, performed, rfl⟩
      have stepped : TradingStep system.book op book := ⟨trading, Op.exec_of_perform performed⟩
      have longer := stepped.updates_prefix
      rcases relays.run with ⟨ops, run, count⟩
      have sent := relays.sent
      rw [ready.1, ready.2, inHand_idle, List.append_nil, List.append_nil] at sent
      refine ⟨relays.inOrder, ?_, ⟨ops ++ [op], run.snoc stepped, ?_⟩, ?_⟩
      · dsimp only
        rw [ready.1, inHand_idle, List.append_nil, ← sent]
        exact (List.prefix_iff_eq_append.mp longer).symm
      · simp [count]
      · intro earlier member
        rcases List.mem_append.mp member with before | now
        · rcases relays.past earlier before with ⟨isPrefix, front, run, fits⟩
          refine ⟨isPrefix.trans longer, front, run, ?_⟩
          simp only [List.length_append, List.length_singleton]
          omega
        · rw [List.mem_singleton.mp now]
          refine ⟨List.prefix_refl _, ops ++ [op], run.snoc stepped, ?_⟩
          simp [count]

/-- An access to the queue leaves the book alone. -/
theorem access {threads : Threads MEMarketUpdate numElem} {backlog : List MEMarketUpdate}
    {action : LFQueue.Action MEMarketUpdate} (relays : Relays tickerId system)
    (allowed : system.threads.KeepsRoom action ∧ system.threads.ReadsOnce action)
    (ran : system.threads.step action = some threads)
    (sent : threads.written ++ inHand threads.producer ++ backlog =
      system.threads.written ++ inHand system.threads.producer ++ system.backlog) :
    Relays tickerId { system with threads := threads, backlog := backlog } where
  inOrder := relays.inOrder.step allowed.1 allowed.2 ran
  sent := relays.sent.trans sent.symm
  run := relays.run
  past := relays.past

/-- The next update of the backlog goes into the queue. -/
theorem send {update : MEMarketUpdate} (relays : Relays tickerId system)
    (allowed : system.threads.KeepsRoom (.getNextToWriteTo update) ∧
      system.threads.ReadsOnce (.getNextToWriteTo update))
    (ran : system.step (.access (.getNextToWriteTo update)) = some last) :
    Relays tickerId last := by
  rw [MarketData.step] at ran
  split at ran
  case h_1 => cases ran
  case h_2 next rest backlog =>
      split at ran
      case isFalse => cases ran
      case isTrue same =>
          subst same
          rcases Option.map_eq_some_iff.mp ran with ⟨threads, stepped, rfl⟩
          refine relays.access allowed stepped ?_
          rw [written_of_send stepped, backlog, List.append_assoc]
          rfl

theorem step {action : MarketData.Action} (relays : Relays tickerId system)
    (stepped : system.Step action last) : Relays tickerId last := by
  rcases stepped with ⟨rules, ran⟩
  cases action with
  | call op => exact relays.call rules ran
  | access action =>
      cases action
      case getNextToWriteTo update => exact relays.send rules ran
      all_goals
        rcases Option.map_eq_some_iff.mp ran with ⟨threads, stepped, rfl⟩
        refine relays.access rules stepped ?_
        rw [written_of_access (fun _ other => by cases other) stepped]

theorem of_run [NeZero numElem] {actions : List MarketData.Action}
    (run : Run MarketData.Step (MarketData.new numElem tickerId) actions system) :
    Relays tickerId system :=
  run.invariant (Relays tickerId) new fun relays stepped => relays.step stepped

end Relays

/-- What the reader has read is the beginning of what the book has sent, and whenever it ends
where the updates of a call end, it tells exactly the orders that were in use then. -/
theorem mirrored_of_run [NeZero numElem] {actions : List MarketData.Action}
    (run : Run MarketData.Step (MarketData.new numElem tickerId) actions system)
    (room : system.past.length < UInt64.size) :
    system.threads.read <+: system.book.updates ∧
      ∀ book ∈ system.past, system.threads.read.length = book.updates.length →
        Describes (feed system.threads.read) book := by
  have relays := Relays.of_run run
  have reads : system.threads.read <+: system.book.updates := by
    rw [relays.inOrder.read, relays.sent, List.append_assoc]
    exact (List.take_prefix _ _).trans (List.prefix_append _ _)
  refine ⟨reads, fun book member lengths => ?_⟩
  rcases relays.past book member with ⟨isPrefix, ops, ran, fits⟩
  have same : system.threads.read = book.updates :=
    List.IsPrefix.eq_of_length (List.prefix_of_prefix_length_le reads isPrefix lengths.le) lengths
  rw [same]
  exact (Described.of_run ran (by omega)).describes

/-- The reader knows an order that the book has cancelled in the meantime. -/
theorem mirrored_of_run_sample : ∃ (system : MarketData 2) (book : MEOrderBook),
    book.OrderInUse 0 ∧ ¬system.book.OrderInUse 0 ∧ Describes (feed system.threads.read) book := by
  let update : MEMarketUpdate := ⟨.add, 1, 0, .buy, 10, 5, 1⟩
  let accesses : List (LFQueue.Action MEMarketUpdate) :=
    [.getNextToWriteTo update] ++ List.replicate 4 .producer ++
      [.getNextToRead, .consumer, .consumer, .read]
  have executed : (execute (permitted MarketData.Rules MarketData.step) (MarketData.new 2 0)
      ([.call (.submit (limitOrder 1 .buy 10 5))] ++ accesses.map MarketData.Action.access ++
        [.call (.cancel 1 1 0)])).any (fun (system : MarketData 2) =>
          (∃ book ∈ system.past, book.OrderInUse 0 ∧
            system.threads.read.length = book.updates.length) ∧
          ¬system.book.OrderInUse 0 ∧ system.past.length = 3) = true := by
    decide +kernel
  rcases (Option.any_eq_true _ _).mp executed with ⟨system, reached, facts⟩
  rcases of_decide_eq_true facts with ⟨⟨book, member, used, lengths⟩, unused, count⟩
  have run : Run MarketData.Step (MarketData.new 2 0) _ system := Run.of_permitted reached
  have room : system.past.length < UInt64.size := by
    rw [count]
    decide
  exact ⟨system, book, used, unused, (mirrored_of_run run room).2 book member lengths⟩

end QuantEngine.MEOrderBook
