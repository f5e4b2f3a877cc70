import QuantEngine.Runs.Safety

/-!
# Runs of `add` as it is

A level is created only by `addOrder`, and `add` gets there only past
`getNextPriority`, which reads the level of the price. So from an empty book no
order ever comes to rest: the first order with a quantity stops the process
after its ACCEPTED response, and until then orders of quantity zero are accepted
and cancellations are rejected.
-/

namespace QuantEngine.MEOrderBook

open Exec

/-- A call of `add` or of `cancel`. -/
inductive Entering where
  /-- `add`; the priority in the submission is not an argument of it. -/
  | add (submission : Submission)
  | cancel (clientId : ClientId) (orderId : OrderId) (tickerId : TickerId)

namespace Entering

def run : Entering → BookM Unit
  | .add submission => addBy submission
  | .cancel clientId orderId tickerId => MEOrderBook.cancel clientId orderId tickerId

/-- The calls in order, up to the first that does not return. -/
def runAll : List Entering → BookM Unit
  | [] => pure ⟨⟩
  | call :: calls => do
      call.run
      runAll calls

/-- The order has no quantity; the ids are in range, or the client id is not and is looked at
first. -/
def Idle : Entering → Prop
  | .add submission => submission.qty = 0
  | .cancel clientId orderId _ =>
      meMaxNumClients ≤ clientId.toNat ∨ KeyInRange clientId orderId

instance (call : Entering) : Decidable call.Idle :=
  match call with
  | .add _ => inferInstanceAs (Decidable (_ = _))
  | .cancel .. => inferInstanceAs (Decidable (_ ∨ _))

/-- How a call that is not idle stops the process. -/
def fault : Entering → Fault
  | .add _ => .nullPointer
  | .cancel .. => .outOfRange

/-- What stops the calls: the fault of the first one that is not idle. -/
def stops (calls : List Entering) : Option Fault :=
  (calls.find? fun call => ¬call.Idle).map fault

/-- The response a call gets from a book without orders, before it stops or returns. -/
def answer (marketOrderId : OrderId) : Entering → List MEClientResponse
  | .add submission => [submission.acceptedResponse marketOrderId]
  | .cancel clientId orderId tickerId =>
      if (cancel clientId orderId tickerId).Idle then [rejectResponse clientId orderId tickerId]
      else []

/-- The market order id after a call. -/
def nextId (marketOrderId : OrderId) : Entering → OrderId
  | .add _ => marketOrderId + 1
  | .cancel .. => marketOrderId

/-- The responses to the calls, up to the first that stops the process. -/
def answers : OrderId → List Entering → List MEClientResponse
  | _, [] => []
  | marketOrderId, call :: calls =>
      call.answer marketOrderId ++
        if call.Idle then answers (call.nextId marketOrderId) calls else []

end Entering

variable {book last : MEOrderBook} {submission : Submission} {clientId : ClientId}
  {orderId : OrderId} {tickerId : TickerId} {call : Entering} {calls : List Entering}

/-- A book in which no order has ever rested. -/
structure Blank (book : MEOrderBook) : Prop where
  bidsByPrice : book.bidsByPrice = none
  asksByPrice : book.asksByPrice = none
  priceOrdersAtPrice : ∀ index, book.priceOrdersAtPrice index = none
  cidOidToOrder : ∀ clientId orderId, book.cidOidToOrder clientId orderId = none
  orders : ∀ elem, ¬book.OrderInUse elem
  levels : ∀ elem, ¬book.LevelInUse elem
  updates : book.updates = []

theorem blank_empty (tickerId : TickerId) : Blank (empty tickerId) where
  bidsByPrice := rfl
  asksByPrice := rfl
  priceOrdersAtPrice _ := rfl
  cidOidToOrder _ _ := rfl
  orders _ used := absurd used.2 Bool.noConfusion
  levels _ used := absurd used.2 Bool.noConfusion
  updates := rfl

/-- The call has answered, and returns exactly if it is idle. -/
structure Answered (call : Entering) (book last : MEOrderBook) : Prop where
  ran : call.run book = if call.Idle then .ok ⟨⟩ last else .error call.fault last
  blank : Blank last
  nextMarketOrderId : last.nextMarketOrderId = call.nextId book.nextMarketOrderId
  responses : last.responses = book.responses ++ call.answer book.nextMarketOrderId

namespace Blank

/-- Without resting orders nothing is matched. -/
theorem run_matchAt {marketOrderId : OrderId} {qty : Quantity} {side : Side} {price : Price}
    (blank : Blank book) :
    matchAt (submission.aggressor marketOrderId) side price qty book = .ok qty book := by
  cases side with
  | invalid => rfl
  | buy =>
      exact (run_checkForMatch { submission.aggressor marketOrderId with side := .buy }
        Side.noConfusion).trans (loopBy_stop (Or.inr blank.asksByPrice))
  | sell =>
      exact (run_checkForMatch { submission.aggressor marketOrderId with side := .sell }
        Side.noConfusion).trans (loopBy_stop (Or.inr blank.bidsByPrice))

theorem add (blank : Blank book) (submission : Submission) :
    Answered (.add submission) book (book.accepting submission) where
  ran := by
    have accepted : Blank (book.accepting submission) := { blank with }
    rw [Entering.run, run_addBy, run_bind_of_ok accepted.run_matchAt]
    by_cases nothing : submission.qty = 0
    · have idle : (Entering.add submission).Idle := nothing
      rw [if_neg (not_not_intro nothing), if_pos idle]
      rfl
    · have stops : ¬(Entering.add submission).Idle := nothing
      rw [if_pos nothing, if_neg stops]
      exact run_bind_of_error (run_getNextPriority_null (accepted.priceOrdersAtPrice _))
  blank := { blank with }
  nextMarketOrderId := rfl
  responses := rfl

theorem cancel (blank : Blank book) (clientId : ClientId) (orderId : OrderId)
    (tickerId : TickerId) : ∃ last, Answered (.cancel clientId orderId tickerId) book last := by
  by_cases idle : (Entering.cancel clientId orderId tickerId).Idle
  · have unknown : KeyUnknown book clientId orderId :=
      idle.imp_right fun range => ⟨range, blank.cidOidToOrder clientId orderId⟩
    refine ⟨book.rejected clientId orderId tickerId, ?_, { blank with }, rfl, ?_⟩
    · rw [if_pos idle]
      exact run_cancel_unknown unknown
    · rw [Entering.answer, if_pos idle]
      rfl
  · refine ⟨book, ?_, blank, rfl, ?_⟩
    · have outside := idle
      simp only [Entering.Idle, not_or, not_le] at outside
      have thrown : loadKey clientId orderId book = .error .outOfRange book := by
        simp [loadKey, outside.2]
      rw [if_neg idle, Entering.run, MEOrderBook.cancel, if_pos outside.1]
      exact run_bind_of_error thrown
    · rw [Entering.answer, if_neg idle, List.append_nil]

theorem run_call (blank : Blank book) (call : Entering) : ∃ last, Answered call book last := by
  cases call with
  | add submission => exact ⟨_, blank.add submission⟩
  | cancel clientId orderId tickerId => exact blank.cancel clientId orderId tickerId

/-- The calls return exactly if all of them are idle, and in either case the book stays blank. -/
theorem runAll (blank : Blank book) (calls : List Entering) :
    ((∃ last, Entering.runAll calls book = .ok ⟨⟩ last) ↔ ∀ call ∈ calls, call.Idle) ∧
      (∀ fault, (∃ last, Entering.runAll calls book = .error fault last) ↔
        Entering.stops calls = some fault) ∧
      Blank (finalState (Entering.runAll calls book)) ∧
      (finalState (Entering.runAll calls book)).responses =
        book.responses ++ Entering.answers book.nextMarketOrderId calls := by
  induction calls generalizing book with
  | nil =>
      refine ⟨iff_of_true ⟨book, rfl⟩ (by simp), fun fault => iff_of_false ?_ ?_, blank, ?_⟩
      · rintro ⟨_, ⟨⟩⟩
      · rintro ⟨⟩
      · exact (List.append_nil book.responses).symm
  | cons call calls ih =>
      rcases blank.run_call call with ⟨last, answered⟩
      have ran := answered.ran
      by_cases idle : call.Idle
      · rw [if_pos idle] at ran
        rw [Entering.runAll, run_bind_of_ok ran, List.forall_mem_cons, Entering.answers,
          if_pos idle, ← List.append_assoc, ← answered.responses, ← answered.nextMarketOrderId]
        rw [and_iff_right idle, Entering.stops, List.find?_cons_of_neg (by simpa using idle)]
        exact ih answered.blank
      · rw [if_neg idle] at ran
        rw [Entering.runAll, run_bind_of_error ran, Entering.answers, if_neg idle,
          List.append_nil, ← answered.responses]
        refine ⟨iff_of_false ?_ ?_, fun fault => ?_, answered.blank, rfl⟩
        · rintro ⟨_, ⟨⟩⟩
        · exact fun allIdle => idle (allIdle call List.mem_cons_self)
        · rw [Entering.stops, List.find?_cons_of_pos (by simpa using idle), Option.map_some,
            Option.some.injEq]
          constructor
          · rintro ⟨_, ⟨⟩⟩
            rfl
          · rintro rfl
            exact ⟨_, rfl⟩

end Blank

/-- From an empty book on, `add` and `cancel` as they are never rest an order and never send a
market update. The calls return exactly as long as every order has quantity zero and every known
client cancels an order id in range. The first other call stops them: an order reads the level that
is not there, a cancellation indexes the orders of the client out of range. -/
theorem standstill (tickerId : TickerId) (calls : List Entering) :
    ((∃ last, Entering.runAll calls (empty tickerId) = .ok ⟨⟩ last) ↔
        ∀ call ∈ calls, call.Idle) ∧
      (∀ fault, (∃ last, Entering.runAll calls (empty tickerId) = .error fault last) ↔
        Entering.stops calls = some fault) ∧
      Blank (finalState (Entering.runAll calls (empty tickerId))) ∧
      (finalState (Entering.runAll calls (empty tickerId))).responses =
        Entering.answers 1 calls :=
  (blank_empty tickerId).runAll calls

end QuantEngine.MEOrderBook
