import QuantEngine.MatchingEngine

/-!
# Dispatch of requests

What the engine's loop does with a queue of requests, against what dispatching
them to the order books would do. The two book operations are taken as opaque
functions that answer every call.

The loop reads every request once and in order, and then drops it: the dispatch
cases of `processClientRequest` have no call to a book.
-/

namespace QuantEngine

/-- The response answers the request. -/
def MEClientRequest.AnsweredBy (request : MEClientRequest) (response : MEClientResponse) : Prop :=
  (response.type = .accepted ∨ response.type = .canceled ∨ response.type = .cancelRejected) ∧
    response.clientId = request.clientId ∧ response.clientOrderId = request.orderId

/-- A request for one of the books, of a type the engine dispatches. -/
def MEClientRequest.Dispatchable (request : MEClientRequest) : Prop :=
  (request.type = .new ∨ request.type = .cancel) ∧ request.tickerId.toNat < meMaxTickers

/-- `MEOrderBook::add` and `MEOrderBook::cancel` as functions of the book, with the responses
they send. -/
structure BookOperations (Book : Type) where
  add : ClientId → OrderId → TickerId → Side → Price → Quantity → Book →
    Book × List MEClientResponse
  cancel : ClientId → OrderId → TickerId → Book → Book × List MEClientResponse
  add_answers : ∀ clientId orderId tickerId side price qty book,
    ∃ response ∈ (add clientId orderId tickerId side price qty book).2,
      response.type = .accepted ∧
        response.clientId = clientId ∧ response.clientOrderId = orderId
  cancel_answers : ∀ clientId orderId tickerId book,
    ∃ response ∈ (cancel clientId orderId tickerId book).2,
      (response.type = .canceled ∨ response.type = .cancelRejected) ∧
        response.clientId = clientId ∧ response.clientOrderId = orderId

namespace BookOperations

variable {Book : Type} (operations : BookOperations Book)

/-- The operation a request asks for, on the book of its ticker. -/
def apply (request : MEClientRequest) (book : Book) : Book × List MEClientResponse :=
  match request.type with
  | .new => operations.add request.clientId request.orderId request.tickerId request.side
      request.price request.quantity book
  | .cancel => operations.cancel request.clientId request.orderId request.tickerId book
  | .invalid => (book, [])

/-- One request applied to the book of its ticker and to no other. -/
def dispatch (request : MEClientRequest) (books : Fin meMaxTickers → Book) :
    (Fin meMaxTickers → Book) × List MEClientResponse :=
  if inRange : request.tickerId.toNat < meMaxTickers then
    let applied := operations.apply request (books ⟨request.tickerId.toNat, inRange⟩)
    (Function.update books ⟨request.tickerId.toNat, inRange⟩ applied.1, applied.2)
  else (books, [])

/-- The requests applied one after another. -/
def dispatchAll : List MEClientRequest → (Fin meMaxTickers → Book) →
    (Fin meMaxTickers → Book) × List MEClientResponse
  | [], books => (books, [])
  | request :: requests, books =>
      let first := operations.dispatch request books
      let rest := dispatchAll requests first.1
      (rest.1, first.2 ++ rest.2)

end BookOperations

namespace MatchingEngine

open LFQueue

variable {Book : Type} {numElem : ℕ} {engine : MatchingEngine Book numElem}
  {requests : List MEClientRequest}

theorem run_orderBook {tickerId : TickerId} (inRange : tickerId.toNat < meMaxTickers) :
    (orderBook tickerId : EngineM Book numElem Book) engine =
      .ok (engine.tickerOrderBook ⟨tickerId.toNat, inRange⟩) engine := by
  simp [orderBook, inRange]

theorem run_processClientRequest {request : MEClientRequest}
    (dispatchable : request.Dispatchable) :
    (processClientRequest request : EngineM Book numElem Unit) engine = .ok ⟨⟩ engine := by
  rw [processClientRequest, Exec.run_bind_of_ok (run_orderBook dispatchable.2)]
  rcases dispatchable.1 with type | type <;> simp [type]

theorem run_turn_nil (queued : engine.incomingRequest.Holds []) :
    (runTurn : EngineM Book numElem Unit) engine = .ok ⟨⟩ engine := by
  simp [runTurn, queued.getNextToRead]

/-- The engine past the request at the front of its queue. -/
def advanced (engine : MatchingEngine Book numElem) : MatchingEngine Book numElem :=
  { engine with incomingRequest := engine.incomingRequest.updataReadIndex }

theorem run_turn_cons {request : MEClientRequest}
    (queued : engine.incomingRequest.Holds (request :: requests))
    (dispatchable : request.Dispatchable) :
    (runTurn : EngineM Book numElem Unit) engine = .ok ⟨⟩ engine.advanced := by
  simp only [runTurn, Exec.run_get_bind, queued.getNextToRead, List.head?_cons]
  rw [Exec.run_bind_of_ok (run_processClientRequest dispatchable), Exec.run_modify, advanced]

/-- Any number of turns advances the queue past that many requests and does nothing else. -/
theorem run_drops (queued : engine.incomingRequest.Holds requests)
    (dispatchable : ∀ request ∈ requests, request.Dispatchable) (turns : ℕ) :
    ∃ queue, (run turns : EngineM Book numElem Unit) engine =
        .ok ⟨⟩ { engine with incomingRequest := queue } ∧
      queue.Holds (requests.drop turns) := by
  induction turns generalizing engine requests with
  | zero => exact ⟨engine.incomingRequest, rfl, by simpa using queued⟩
  | succ turns ih =>
      cases requests with
      | nil =>
          rcases ih queued dispatchable with ⟨queue, ran, held⟩
          exact ⟨queue, by rw [run, Exec.run_bind_of_ok (run_turn_nil queued), ran],
            by simpa using held⟩
      | cons request requests =>
          have remaining : engine.advanced.incomingRequest.Holds requests :=
            queued.updataReadIndex
          rcases ih remaining
            (fun other member => dispatchable other (List.mem_cons_of_mem _ member)) with
            ⟨queue, ran, held⟩
          refine ⟨queue, ?_, by simpa using held⟩
          rw [run, Exec.run_bind_of_ok (run_turn_cons queued (dispatchable request (by simp)))]
          exact ran

/-- However many turns the loop makes, it has applied exactly the requests it took from the
queue, each to the book of its ticker, and has answered every one of them. -/
def Dispatched (operations : BookOperations Book) (requests : List MEClientRequest)
    (engine : MatchingEngine Book numElem) : Prop :=
  ∀ turns, ∃ last sent,
    (run turns : EngineM Book numElem Unit) engine = .ok ⟨⟩ last ∧
    last.incomingRequest.Holds (requests.drop turns) ∧
    (last.tickerOrderBook, sent) =
      operations.dispatchAll (requests.take turns) engine.tickerOrderBook ∧
    last.responses = engine.responses ++ sent ∧
    ∀ request ∈ requests.take turns, ∃ response ∈ sent, request.AnsweredBy response

/-- The loop dispatches its requests only when there are none. -/
theorem dispatched_iff {operations : BookOperations Book}
    (queued : engine.incomingRequest.Holds requests)
    (dispatchable : ∀ request ∈ requests, request.Dispatchable) :
    Dispatched operations requests engine ↔ requests = [] := by
  constructor
  · intro dispatched
    cases requests with
    | nil => rfl
    | cons request requests =>
        rcases dispatched 1 with ⟨last, sent, ran, -, -, logged, answered⟩
        rcases run_drops queued dispatchable 1 with ⟨queue, dropped, -⟩
        rw [dropped] at ran
        cases ran
        have silent : sent = [] := by simpa using logged
        rcases answered request (by simp) with ⟨response, member, -⟩
        simp [silent] at member
  · rintro rfl turns
    rcases run_drops queued dispatchable turns with ⟨queue, ran, held⟩
    exact ⟨_, [], ran, held, by simp [BookOperations.dispatchAll], by simp, by simp⟩

/-- Books that only record the requests they were given, and answer each. -/
def recordingBooks : BookOperations (List MEClientRequest) where
  add clientId orderId tickerId side price qty book :=
    (book ++ [⟨.new, clientId, tickerId, orderId, side, price, qty⟩],
      [{ type := .accepted, clientId := clientId, clientOrderId := orderId }])
  cancel clientId orderId tickerId book :=
    (book ++ [{ type := .cancel, clientId := clientId, tickerId := tickerId, orderId := orderId }],
      [{ type := .canceled, clientId := clientId, clientOrderId := orderId }])
  add_answers := by simp
  cancel_answers := by simp

/-- A request to buy on the first ticker. -/
def newRequest : MEClientRequest where
  type := .new
  clientId := 1
  tickerId := 0
  orderId := 1
  side := .buy
  price := 10
  quantity := 5

/-- An engine of empty books with the requests in its queue. -/
def engineWith (requests : List MEClientRequest) : MatchingEngine (List MEClientRequest) 4 where
  tickerOrderBook := fun _ => []
  incomingRequest := requests.foldl LFQueue.write (LFQueue.new 4)

theorem engineWith_holds (room : requests.length < 4) :
    (engineWith requests).incomingRequest.Holds requests := by
  simpa [engineWith] using LFQueue.new_holds.foldl_write (by simpa using room)

/-- One order to buy is taken from the queue and no book ever sees it. -/
theorem not_dispatched_newRequest :
    (engineWith [newRequest]).incomingRequest.Holds [newRequest] ∧
      newRequest.Dispatchable ∧
      ¬ Dispatched recordingBooks [newRequest] (engineWith [newRequest]) := by
  have queued : (engineWith [newRequest]).incomingRequest.Holds [newRequest] :=
    engineWith_holds (by decide)
  have dispatchable : newRequest.Dispatchable := ⟨Or.inl rfl, by decide⟩
  refine ⟨queued, dispatchable, ?_⟩
  intro dispatched
  rcases dispatched 1 with ⟨last, sent, ran, -, applied, -, -⟩
  rcases run_drops queued (by simpa using dispatchable) 1 with ⟨queue, dropped, -⟩
  rw [dropped] at ran
  cases ran
  have recorded : ([] : List MEClientRequest) =
      (recordingBooks.dispatch newRequest fun _ => []).1 ⟨0, by decide⟩ :=
    congrFun (congrArg Prod.fst applied) ⟨0, by decide⟩
  exact absurd recorded (by decide)

/-- A queued request is dropped; an empty queue has nothing to drop. -/
theorem dispatched_iff_sample :
    (Dispatched recordingBooks [newRequest] (engineWith [newRequest]) ↔ [newRequest] = []) ∧
      (Dispatched recordingBooks [] (engineWith []) ↔ ([] : List MEClientRequest) = []) :=
  ⟨dispatched_iff (engineWith_holds (by decide)) (by
      simp [MEClientRequest.Dispatchable, newRequest, meMaxTickers]),
    dispatched_iff (engineWith_holds (by decide)) (by simp)⟩

end MatchingEngine

end QuantEngine
