import QuantEngine.Library.Unambiguous
import QuantEngine.Types

/-!
# The texts of the messages

What `toString` of a request, a response and a market update returns. The texts
are for the log only; nothing in the program reads them back. They could be
read back all the same: `INVALID` stands for the one value of each type that is
reserved for it, and no value is written with the blank or bracket behind it.
-/

namespace QuantEngine

open Text

def orderIdToString (orderId : OrderId) : String :=
  if orderId = orderIdInvalid then "INVALID" else toString orderId.toNat

def tickerIdToString (tickerId : TickerId) : String :=
  if tickerId = tickerIdInvalid then "INVALID" else toString tickerId.toNat

def clientIdToString (clientId : ClientId) : String :=
  if clientId = clientIdInvalid then "INVALID" else toString clientId.toNat

def priceToString (price : Price) : String :=
  if price = priceInvalid then "INVALID" else toString price

def qtyToString (quantity : Quantity) : String :=
  if quantity = quantityInvalid then "INVALID" else toString quantity.toNat

def priorityToString (priority : Priority) : String :=
  if priority = priorityInvalid then "INVALID" else toString priority.toNat

def sideToString : Side → String
  | .buy => "BUY"
  | .sell => "SELL"
  | .invalid => "INVALID"

def clientResponseTypeToString : ClientResponseType → String
  | .accepted => "ACCEPTED"
  | .canceled => "CANCELED"
  | .filled => "FILLED"
  | .cancelRejected => "CANCEL_REJECTED"
  | .invalid => "INVALID"

def marketUpdateTypeToString : MarketUpdateType → String
  | .add => "ADD"
  | .modify => "MODIFY"
  | .cancel => "CANCEL"
  | .trade => "TRADE"
  | .invalid => "INVALID"

def MEClientRequest.toString (request : MEClientRequest) : String :=
  "MEClientRequest" ++ " [" ++ "type:" ++ clientRequestTypeToString request.type ++
    " client:" ++ clientIdToString request.clientId ++
    " ticker:" ++ tickerIdToString request.tickerId ++
    " oid:" ++ orderIdToString request.orderId ++ " side:" ++ sideToString request.side ++
    " qty:" ++ qtyToString request.quantity ++ " price:" ++ priceToString request.price ++ "]"

def MEClientResponse.toString (response : MEClientResponse) : String :=
  "MEClientResponse" ++ " [" ++ "type:" ++ clientResponseTypeToString response.type ++
    " client:" ++ clientIdToString response.clientId ++
    " ticker:" ++ tickerIdToString response.tickerId ++
    " coid:" ++ orderIdToString response.clientOrderId ++
    " moid:" ++ orderIdToString response.marketOrderId ++
    " side:" ++ sideToString response.side ++
    " exec_qty:" ++ qtyToString response.execQty ++
    " left_qty:" ++ qtyToString response.leftQty ++
    " price:" ++ priceToString response.price ++ "]"

def MEMarketUpdate.toString (update : MEMarketUpdate) : String :=
  "MEMarketUpdate" ++ " [" ++ " type:" ++ marketUpdateTypeToString update.type ++
    " ticker:" ++ tickerIdToString update.tickerId ++ " oid:" ++ orderIdToString update.orderId ++
    " side:" ++ sideToString update.side ++ " qty:" ++ qtyToString update.quantity ++
    " price:" ++ priceToString update.price ++
    " priority:" ++ priorityToString update.priority ++ "]"

/-- A character that is in no number and in no name of a type or side. -/
structure Closing (ending : Char) : Prop where
  digit : ¬ending.isDigit
  sign : ending ≠ '-'
  upper : ¬ending.isUpper
  underscore : ending ≠ '_'

theorem closing_blank : Closing ' ' := by constructor <;> decide

theorem closing_bracket : Closing ']' := by constructor <;> decide

theorem closing_nul : Closing '\x00' := by constructor <;> decide

/-- The characters of the names. -/
def IsName (word : String) : Prop := ∀ letter ∈ word.toList, letter.isUpper ∨ letter = '_'

section Fields

variable {ending : Char} {α : Type}

theorem IsName.free {word : String} (isName : IsName word) (closing : Closing ending) :
    ending ∉ word.toList := by
  intro member
  rcases isName ending member with upper | underscore
  · exact closing.upper upper
  · exact closing.underscore underscore

/-- A number, or `INVALID` for the value that is reserved for it. -/
theorem delimited_number [DecidableEq α] {number : α → ℕ} (injective : Function.Injective number)
    (special : α) (closing : Closing ending) :
    Delimited (fun elem => (if elem = special then "INVALID" else toString (number elem)).toList)
      ending := by
  have digits : Delimited (fun elem => (number elem).repr.toList) ending :=
    (delimited_repr closing.digit).comp injective
  have fresh : ∀ elem, (number elem).repr.toList ≠ "INVALID".toList := by
    intro elem same
    have digit : 'I' ∈ (number elem).repr.toList := by
      rw [same]
      decide
    exact absurd (isDigit_of_mem_repr digit) (by decide)
  have free : ending ∉ "INVALID".toList := IsName.free (by simp [IsName]) closing
  have marked : Delimited (fun elem => if elem = special then "INVALID".toList
      else (number elem).repr.toList) ending := digits.except fresh free
  simp only [apply_ite String.toList]
  exact marked

theorem delimited_orderId (closing : Closing ending) :
    Delimited (fun orderId => (orderIdToString orderId).toList) ending :=
  delimited_number (fun _ _ => UInt64.toNat_inj.mp) orderIdInvalid closing

theorem delimited_tickerId (closing : Closing ending) :
    Delimited (fun tickerId => (tickerIdToString tickerId).toList) ending :=
  delimited_number (fun _ _ => UInt32.toNat_inj.mp) tickerIdInvalid closing

theorem delimited_clientId (closing : Closing ending) :
    Delimited (fun clientId => (clientIdToString clientId).toList) ending :=
  delimited_number (fun _ _ => UInt32.toNat_inj.mp) clientIdInvalid closing

theorem delimited_qty (closing : Closing ending) :
    Delimited (fun quantity => (qtyToString quantity).toList) ending :=
  delimited_number (fun _ _ => UInt32.toNat_inj.mp) quantityInvalid closing

theorem delimited_priority (closing : Closing ending) :
    Delimited (fun priority => (priorityToString priority).toList) ending :=
  delimited_number (fun _ _ => UInt64.toNat_inj.mp) priorityInvalid closing

/-- A price may be negative, and is then written with a sign. -/
theorem delimited_price (closing : Closing ending) :
    Delimited (fun price => (priceToString price).toList) ending := by
  have fresh : ∀ price : Price, price.repr.toList ≠ "INVALID".toList := by
    intro price same
    have character : 'I' ∈ price.repr.toList := by
      rw [same]
      decide
    rcases isDigit_of_mem_intRepr character with digit | sign
    · exact absurd digit (by decide)
    · exact absurd sign (by decide)
  have free : ending ∉ "INVALID".toList := IsName.free (by simp [IsName]) closing
  have marked : Delimited (fun price : Price => if price = priceInvalid then "INVALID".toList
      else price.repr.toList) ending :=
    (delimited_intRepr ⟨closing.digit, closing.sign⟩).except fresh free
  simp only [priceToString, apply_ite String.toList]
  exact marked

/-- The names of an enumeration. -/
theorem delimited_name {name : α → String} (injective : Function.Injective name)
    (isName : ∀ elem, IsName (name elem)) (closing : Closing ending) :
    Delimited (fun elem => (name elem).toList) ending where
  injective _ _ same := injective (String.toList_injective same)
  free elem := (isName elem).free closing

theorem delimited_side (closing : Closing ending) :
    Delimited (fun side => (sideToString side).toList) ending := by
  refine delimited_name ?_ ?_ closing
  · rintro ⟨⟩ ⟨⟩ same <;> first | rfl | exact absurd same (by decide)
  · rintro ⟨⟩ <;> simp [IsName, sideToString]

theorem delimited_clientRequestType (closing : Closing ending) :
    Delimited (fun type => (clientRequestTypeToString type).toList) ending := by
  refine delimited_name ?_ ?_ closing
  · rintro ⟨⟩ ⟨⟩ same <;> first | rfl | exact absurd same (by decide)
  · rintro ⟨⟩ <;> simp [IsName, clientRequestTypeToString]

theorem delimited_clientResponseType (closing : Closing ending) :
    Delimited (fun type => (clientResponseTypeToString type).toList) ending := by
  refine delimited_name ?_ ?_ closing
  · rintro ⟨⟩ ⟨⟩ same <;> first | rfl | exact absurd same (by decide)
  · rintro ⟨⟩ <;> simp [IsName, clientResponseTypeToString]

theorem delimited_marketUpdateType (closing : Closing ending) :
    Delimited (fun type => (marketUpdateTypeToString type).toList) ending := by
  refine delimited_name ?_ ?_ closing
  · rintro ⟨⟩ ⟨⟩ same <;> first | rfl | exact absurd same (by decide)
  · rintro ⟨⟩ <;> simp [IsName, marketUpdateTypeToString]

end Fields

theorem MEClientRequest.unambiguous :
    Unambiguous fun request : MEClientRequest => request.toString.toList := by
  have tells : Tells (fun request : MEClientRequest => request.toString.toList) fun request =>
      (request.type, request.clientId, request.tickerId, request.orderId, request.side,
        request.quantity, request.price, ()) := by
    unfold MEClientRequest.toString
    simp only [String.toList_append, List.append_assoc]
    refine .label _ (.label _ (.label _ ?_))
    refine .place (delimited_clientRequestType closing_blank) (fun _ => rfl) (.label _ ?_)
    refine .place (delimited_clientId closing_blank) (fun _ => rfl) (.label _ ?_)
    refine .place (delimited_tickerId closing_blank) (fun _ => rfl) (.label _ ?_)
    refine .place (delimited_orderId closing_blank) (fun _ => rfl) (.label _ ?_)
    refine .place (delimited_side closing_blank) (fun _ => rfl) (.label _ ?_)
    refine .place (delimited_qty closing_blank) (fun _ => rfl) (.label _ ?_)
    refine .place (delimited_price closing_bracket) (fun _ => rfl) ?_
    exact .constant _ _
  apply tells.unambiguous
  rintro ⟨⟩ ⟨⟩ same
  simp only [Prod.mk.injEq] at same
  rcases same with ⟨rfl, rfl, rfl, rfl, rfl, rfl, rfl, -⟩
  rfl

theorem MEClientResponse.unambiguous :
    Unambiguous fun response : MEClientResponse => response.toString.toList := by
  have tells : Tells (fun response : MEClientResponse => response.toString.toList) fun response =>
      (response.type, response.clientId, response.tickerId, response.clientOrderId,
        response.marketOrderId, response.side, response.execQty, response.leftQty,
        response.price, ()) := by
    unfold MEClientResponse.toString
    simp only [String.toList_append, List.append_assoc]
    refine .label _ (.label _ (.label _ ?_))
    refine .place (delimited_clientResponseType closing_blank) (fun _ => rfl) (.label _ ?_)
    refine .place (delimited_clientId closing_blank) (fun _ => rfl) (.label _ ?_)
    refine .place (delimited_tickerId closing_blank) (fun _ => rfl) (.label _ ?_)
    refine .place (delimited_orderId closing_blank) (fun _ => rfl) (.label _ ?_)
    refine .place (delimited_orderId closing_blank) (fun _ => rfl) (.label _ ?_)
    refine .place (delimited_side closing_blank) (fun _ => rfl) (.label _ ?_)
    refine .place (delimited_qty closing_blank) (fun _ => rfl) (.label _ ?_)
    refine .place (delimited_qty closing_blank) (fun _ => rfl) (.label _ ?_)
    refine .place (delimited_price closing_bracket) (fun _ => rfl) ?_
    exact .constant _ _
  apply tells.unambiguous
  rintro ⟨⟩ ⟨⟩ same
  simp only [Prod.mk.injEq] at same
  rcases same with ⟨rfl, rfl, rfl, rfl, rfl, rfl, rfl, rfl, rfl, -⟩
  rfl

theorem MEMarketUpdate.unambiguous :
    Unambiguous fun update : MEMarketUpdate => update.toString.toList := by
  have tells : Tells (fun update : MEMarketUpdate => update.toString.toList) fun update =>
      (update.type, update.tickerId, update.orderId, update.side, update.quantity, update.price,
        update.priority, ()) := by
    unfold MEMarketUpdate.toString
    simp only [String.toList_append, List.append_assoc]
    refine .label _ (.label _ (.label _ ?_))
    refine .place (delimited_marketUpdateType closing_blank) (fun _ => rfl) (.label _ ?_)
    refine .place (delimited_tickerId closing_blank) (fun _ => rfl) (.label _ ?_)
    refine .place (delimited_orderId closing_blank) (fun _ => rfl) (.label _ ?_)
    refine .place (delimited_side closing_blank) (fun _ => rfl) (.label _ ?_)
    refine .place (delimited_qty closing_blank) (fun _ => rfl) (.label _ ?_)
    refine .place (delimited_price closing_blank) (fun _ => rfl) (.label _ ?_)
    refine .place (delimited_priority closing_bracket) (fun _ => rfl) ?_
    exact .constant _ _
  apply tells.unambiguous
  rintro ⟨⟩ ⟨⟩ same
  simp only [Prod.mk.injEq] at same
  rcases same with ⟨rfl, rfl, rfl, rfl, rfl, rfl, rfl, -⟩
  rfl

theorem MEClientRequest.nulFree (request : MEClientRequest) :
    '\x00' ∉ request.toString.toList := by
  unfold MEClientRequest.toString
  simp only [String.toList_append, List.mem_append, not_or]
  simp [(delimited_clientRequestType closing_nul).free, (delimited_clientId closing_nul).free,
    (delimited_tickerId closing_nul).free, (delimited_orderId closing_nul).free,
    (delimited_side closing_nul).free, (delimited_qty closing_nul).free,
    (delimited_price closing_nul).free]

theorem MEClientResponse.nulFree (response : MEClientResponse) :
    '\x00' ∉ response.toString.toList := by
  unfold MEClientResponse.toString
  simp only [String.toList_append, List.mem_append, not_or]
  simp [(delimited_clientResponseType closing_nul).free, (delimited_clientId closing_nul).free,
    (delimited_tickerId closing_nul).free, (delimited_orderId closing_nul).free,
    (delimited_side closing_nul).free, (delimited_qty closing_nul).free,
    (delimited_price closing_nul).free]

theorem MEMarketUpdate.nulFree (update : MEMarketUpdate) :
    '\x00' ∉ update.toString.toList := by
  unfold MEMarketUpdate.toString
  simp only [String.toList_append, List.mem_append, not_or]
  simp [(delimited_marketUpdateType closing_nul).free, (delimited_tickerId closing_nul).free,
    (delimited_orderId closing_nul).free, (delimited_side closing_nul).free,
    (delimited_qty closing_nul).free, (delimited_price closing_nul).free,
    (delimited_priority closing_nul).free]

/-- A message whose text is written to the log. -/
inductive Message where
  | request (clientRequest : MEClientRequest)
  | response (clientResponse : MEClientResponse)
  | update (marketUpdate : MEMarketUpdate)
  deriving DecidableEq

namespace Message

def toString : Message → String
  | .request clientRequest => clientRequest.toString
  | .response clientResponse => clientResponse.toString
  | .update marketUpdate => marketUpdate.toString

theorem nulFree (message : Message) : '\x00' ∉ message.toString.toList := by
  cases message <;> rw [toString]
  case request clientRequest => exact clientRequest.nulFree
  case response clientResponse => exact clientResponse.nulFree
  case update marketUpdate => exact marketUpdate.nulFree

/-- The first word of the text. -/
def className : Message → String
  | .request _ => "MEClientRequest"
  | .response _ => "MEClientResponse"
  | .update _ => "MEMarketUpdate"

theorem toString_eq (message : Message) :
    ∃ rest, message.toString.toList = message.className.toList ++ ' ' :: rest := by
  cases message <;> rw [toString, className]
  case request clientRequest =>
      unfold MEClientRequest.toString
      simp only [String.toList_append, List.append_assoc]
      exact ⟨_, congrArg _ rfl⟩
  case response clientResponse =>
      unfold MEClientResponse.toString
      simp only [String.toList_append, List.append_assoc]
      exact ⟨_, congrArg _ rfl⟩
  case update marketUpdate =>
      unfold MEMarketUpdate.toString
      simp only [String.toList_append, List.append_assoc]
      exact ⟨_, congrArg _ rfl⟩

/-- No name of a class is the beginning of another with a blank behind it. -/
theorem className_eq_of_append {first second : Message} {rest others : List Char}
    (same : first.toString.toList ++ rest = second.toString.toList ++ others) :
    first.className = second.className := by
  obtain ⟨firstRest, firstText⟩ := first.toString_eq
  obtain ⟨secondRest, secondText⟩ := second.toString_eq
  rw [firstText, secondText] at same
  cases first <;> cases second <;> simp [className] at same ⊢

theorem unambiguous : Unambiguous fun message : Message => message.toString.toList := by
  intro first second rest others same
  have classes := className_eq_of_append same
  cases first <;> cases second <;>
    simp only [className, String.reduceEq] at classes
  case request.request =>
      rcases MEClientRequest.unambiguous same with ⟨messages, remaining⟩
      exact ⟨congrArg Message.request messages, remaining⟩
  case response.response =>
      rcases MEClientResponse.unambiguous same with ⟨messages, remaining⟩
      exact ⟨congrArg Message.response messages, remaining⟩
  case update.update =>
      rcases MEMarketUpdate.unambiguous same with ⟨messages, remaining⟩
      exact ⟨congrArg Message.update messages, remaining⟩

/-- The texts of requests, responses and updates are never confused, neither at the beginning of
a longer text nor in a sequence of them. -/
theorem messages_of_texts :
    (∀ (first second : Message) (rest others : List Char),
      first.toString.toList ++ rest = second.toString.toList ++ others ↔
        first = second ∧ rest = others) ∧
    ∀ messages others : List Message,
      messages.flatMap (fun message => message.toString.toList) =
        others.flatMap (fun message => message.toString.toList) ↔ messages = others := by
  have nonempty : ∀ message : Message, message.toString.toList ≠ [] := by
    intro message empty
    obtain ⟨rest, text⟩ := message.toString_eq
    simp [empty] at text
  refine ⟨?_, ?_⟩
  · intro first second rest others
    constructor
    · intro same
      exact unambiguous same
    · rintro ⟨rfl, rfl⟩
      rfl
  · intro messages others
    constructor
    · intro same
      exact unambiguous.flatMap_injective nonempty same
    · rintro rfl
      rfl

end Message

end QuantEngine
