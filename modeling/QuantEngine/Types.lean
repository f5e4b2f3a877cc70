import Mathlib.Data.Nat.Notation

/-!
# Shared types and messages

The scalar types of `types.h`, the request, response and market-update records
exchanged with the matching engine, and the ways in which the modelled program
can stop abnormally.

Identifiers, quantities and priorities keep the width the source gives them.
A price is an `int64_t` in the source; it is only ever compared and reduced
modulo the number of price slots, so it is an `Int` here.
-/

namespace QuantEngine

abbrev OrderId := UInt64
abbrev TickerId := UInt32
abbrev ClientId := UInt32
abbrev Price := Int
abbrev Quantity := UInt32
abbrev Priority := UInt64

/-- `OrderId_INVALID`, the largest `uint64_t`. -/
def orderIdInvalid : OrderId := 18446744073709551615
/-- `TickerId_INVALID`, the largest `uint32_t`. -/
def tickerIdInvalid : TickerId := 4294967295
/-- `ClientId_INVALID`, the largest `uint32_t`. -/
def clientIdInvalid : ClientId := 4294967295
/-- `Price_INVALID`, the largest `int64_t`. -/
def priceInvalid : Price := 9223372036854775807
/-- `Quantity_INVALID`, the largest `uint32_t`. -/
def quantityInvalid : Quantity := 4294967295
/-- `Priority_INVALID`, the largest `uint64_t`. -/
def priorityInvalid : Priority := 18446744073709551615

inductive Side where
  | invalid
  | buy
  | sell
  deriving DecidableEq, Repr

/-- The side an aggressor of side `side` trades against. -/
def Side.opposite : Side → Side
  | .invalid => .invalid
  | .buy => .sell
  | .sell => .buy

def meMaxTickers : ℕ := 8
def meMaxNumClients : ℕ := 256
def meMaxOrderIds : ℕ := 1024 * 1024
def meMaxPriceLevels : ℕ := 256

inductive ClientRequestType where
  | invalid
  | new
  | cancel
  deriving DecidableEq, Repr

def clientRequestTypeToString : ClientRequestType → String
  | .new => "NEW"
  | .cancel => "CANCEL"
  | .invalid => "INVALID"

structure MEClientRequest where
  type : ClientRequestType := .invalid
  clientId : ClientId := clientIdInvalid
  tickerId : TickerId := tickerIdInvalid
  orderId : OrderId := orderIdInvalid
  side : Side := .invalid
  price : Price := priceInvalid
  quantity : Quantity := quantityInvalid
  deriving DecidableEq, Repr

instance : Inhabited MEClientRequest := ⟨{}⟩

inductive ClientResponseType where
  | invalid
  | accepted
  | canceled
  | filled
  | cancelRejected
  deriving DecidableEq, Repr

structure MEClientResponse where
  type : ClientResponseType := .invalid
  clientId : ClientId := clientIdInvalid
  tickerId : TickerId := tickerIdInvalid
  clientOrderId : OrderId := orderIdInvalid
  marketOrderId : OrderId := orderIdInvalid
  side : Side := .invalid
  price : Price := priceInvalid
  execQty : Quantity := quantityInvalid
  leftQty : Quantity := quantityInvalid
  deriving DecidableEq, Repr

inductive MarketUpdateType where
  | invalid
  | add
  | modify
  | cancel
  | trade
  deriving DecidableEq, Repr

structure MEMarketUpdate where
  type : MarketUpdateType := .invalid
  orderId : OrderId := orderIdInvalid
  tickerId : TickerId := tickerIdInvalid
  side : Side := .invalid
  price : Price := priceInvalid
  quantity : Quantity := quantityInvalid
  priority : Priority := priorityInvalid
  deriving DecidableEq, Repr

/-- How the modelled code can stop without returning. -/
inductive Fault where
  /-- A null pointer was dereferenced. -/
  | nullPointer
  /-- A pointer outside the pool's storage was dereferenced. -/
  | wildPointer
  /-- An array was indexed past its end (`operator[]`, or `at` in a `noexcept` function). -/
  | outOfRange
  /-- `ASSERT` failed and the process exited. -/
  | assertFailed (message : String)
  /-- `FATAL` was called and the process exited. -/
  | fatal (message : String)
  /-- A loop used up its bound without reaching its exit. -/
  | diverged
  deriving DecidableEq, Repr

end QuantEngine
