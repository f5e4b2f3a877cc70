import QuantEngine.LFQueue
import QuantEngine.Library.Exec
import QuantEngine.Types

/-!
# The matching engine

The model of `MatchingEngine`: the array of order books, the loop that reads
the incoming queue, and the dispatch of one request. The books are of any type,
since no code of the engine looks inside one after its construction.

`responses` is the stream of everything handed to `sendClientResponse`.
-/

namespace QuantEngine

universe u

/-- `MatchingEngine`, reading requests from a queue of `numElem` elements. -/
structure MatchingEngine (Book : Type u) (numElem : ℕ) where
  tickerOrderBook : Fin meMaxTickers → Book
  incomingRequest : LFQueue MEClientRequest numElem
  responses : List MEClientResponse := []

/-- Code of the engine; a fault keeps the engine as it was when the process stopped. -/
abbrev EngineM (Book : Type) (numElem : ℕ) := EStateM Fault (MatchingEngine Book numElem)

namespace MatchingEngine

variable {Book : Type} {numElem : ℕ}

/-- `ticker_order_book_[tickerId]`. -/
def orderBook (tickerId : TickerId) : EngineM Book numElem Book := do
  let engine ← get
  if inRange : tickerId.toNat < meMaxTickers then
    pure (engine.tickerOrderBook ⟨tickerId.toNat, inRange⟩)
  else throw .outOfRange

/-- `processClientRequest`: the cases `NEW` and `CANCEL` do nothing but leave the `switch`. -/
def processClientRequest (clientRequest : MEClientRequest) : EngineM Book numElem Unit := do
  let _ ← orderBook clientRequest.tickerId
  match clientRequest.type with
  | .new => pure ()
  | .cancel => pure ()
  | type => throw (.fatal ("Received invalid client-request-type:" ++
      clientRequestTypeToString type))

/-- The body of the `while` loop of `run`. -/
def runTurn : EngineM Book numElem Unit := do
  let engine ← get
  match engine.incomingRequest.getNextToRead with
  | none => pure ()
  | some clientRequest => do
      processClientRequest clientRequest
      modify fun engine => { engine with incomingRequest := engine.incomingRequest.updataReadIndex }

/-- `run`, where `run_` is found set `turns` times before `stop` clears it. -/
def run : ℕ → EngineM Book numElem Unit
  | 0 => pure ()
  | turns + 1 => do
      runTurn
      run turns

/-- `sendClientResponse` on the queue `outgoing_response_`: nothing asks whether it is full. -/
def sendClientResponse (outgoingResponse : LFQueue MEClientResponse numElem)
    (clientResponse : MEClientResponse) : LFQueue MEClientResponse numElem :=
  (outgoingResponse.storeNextToWriteTo clientResponse).updateWriteIndex

/-- `sendMarketUpdate` on the queue `outgoing_md_updates_`. -/
def sendMarketUpdate (outgoingMdUpdates : LFQueue MEMarketUpdate numElem)
    (marketUpdate : MEMarketUpdate) : LFQueue MEMarketUpdate numElem :=
  (outgoingMdUpdates.storeNextToWriteTo marketUpdate).updateWriteIndex

end MatchingEngine

end QuantEngine
