import QuantEngine.MatchingEngine
import QuantEngine.Queue.Delivery

/-!
# The outgoing messages

The two streams of the matching engine, each a queue with a reader of its own.
The engine sends without asking whether a queue is full, so what a reader
obtains depends on how far it falls behind.
-/

namespace QuantEngine.MatchingEngine

open LFQueue (Delivery)

/-- A call of one of the two senders, or a read by the reader of one of the two queues. -/
inductive OutgoingCall where
  | sendClientResponse (clientResponse : MEClientResponse)
  | sendMarketUpdate (marketUpdate : MEMarketUpdate)
  | readResponse
  | readUpdate

/-- The two outgoing queues. -/
structure Outgoing (numResponses numUpdates : ℕ) where
  responses : Delivery MEClientResponse numResponses
  updates : Delivery MEMarketUpdate numUpdates

variable {numResponses numUpdates : ℕ}

namespace Outgoing

def call (outgoing : Outgoing numResponses numUpdates) :
    OutgoingCall → Outgoing numResponses numUpdates
  | .sendClientResponse clientResponse => { outgoing with
      responses := { outgoing.responses with
        queue := sendClientResponse outgoing.responses.queue clientResponse
        sent := outgoing.responses.sent ++ [clientResponse] } }
  | .sendMarketUpdate marketUpdate => { outgoing with
      updates := { outgoing.updates with
        queue := sendMarketUpdate outgoing.updates.queue marketUpdate
        sent := outgoing.updates.sent ++ [marketUpdate] } }
  | .readResponse => { outgoing with responses := outgoing.responses.read }
  | .readUpdate => { outgoing with updates := outgoing.updates.read }

instance : Inhabited MEClientResponse := ⟨{}⟩

instance : Inhabited MEMarketUpdate := ⟨{}⟩

variable [NeZero numResponses] [NeZero numUpdates]

variable (numResponses numUpdates) in
/-- Two constructed queues after these calls. -/
def after (calls : List OutgoingCall) : Outgoing numResponses numUpdates :=
  calls.foldl call { responses := Delivery.new numResponses, updates := Delivery.new numUpdates }

/-- What a call does to the queue of responses. -/
def responseCall : OutgoingCall → Option (LFQueue.Call MEClientResponse)
  | .sendClientResponse clientResponse => some (.write clientResponse)
  | .readResponse => some .read
  | _ => none

/-- What a call does to the queue of updates. -/
def updateCall : OutgoingCall → Option (LFQueue.Call MEMarketUpdate)
  | .sendMarketUpdate marketUpdate => some (.write marketUpdate)
  | .readUpdate => some .read
  | _ => none

/-- Neither queue notices the calls on the other. -/
theorem after_eq (calls : List OutgoingCall) : after numResponses numUpdates calls =
    { responses := Delivery.after numResponses (calls.filterMap responseCall)
      updates := Delivery.after numUpdates (calls.filterMap updateCall) } := by
  induction calls using List.reverseRecOn with
  | nil => rfl
  | append_singleton calls next ih =>
      rw [after, List.foldl_append, ← after, ih, List.filterMap_append, List.filterMap_append]
      cases next with
      | sendClientResponse clientResponse =>
          simp only [responseCall, updateCall, List.filterMap_cons, List.filterMap_nil,
            List.append_nil, Delivery.after_concat]
          rfl
      | sendMarketUpdate marketUpdate =>
          simp only [responseCall, updateCall, List.filterMap_cons, List.filterMap_nil,
            List.append_nil, Delivery.after_concat]
          rfl
      | readResponse =>
          simp only [responseCall, updateCall, List.filterMap_cons, List.filterMap_nil,
            List.append_nil, Delivery.after_concat]
          rfl
      | readUpdate =>
          simp only [responseCall, updateCall, List.filterMap_cons, List.filterMap_nil,
            List.append_nil, Delivery.after_concat]
          rfl

/-- All responses and updates are delivered in order if and only if at every moment fewer of them
were unread than their queue has elements. -/
theorem delivered_iff (calls : List OutgoingCall) :
    (after numResponses numUpdates calls).responses.Delivered ∧
        (after numResponses numUpdates calls).updates.Delivered ↔
      ∀ front, front <+: calls →
        (after numResponses numUpdates front).responses.unread.length < numResponses ∧
          (after numResponses numUpdates front).updates.unread.length < numUpdates := by
  simp only [after_eq, Delivery.deliveredAll_iff]
  constructor
  · rintro ⟨responses, updates⟩ front isPrefix
    exact ⟨responses _ (isPrefix.filterMap _), updates _ (isPrefix.filterMap _)⟩
  · intro room
    constructor
    · intro part partPrefix
      rcases List.prefix_filterMap_iff.mp partPrefix with ⟨front, isPrefix, rfl⟩
      exact (room front isPrefix).1
    · intro part partPrefix
      rcases List.prefix_filterMap_iff.mp partPrefix with ⟨front, isPrefix, rfl⟩
      exact (room front isPrefix).2

theorem delivered_iff_sample :
    (after 2 1 [.sendClientResponse { type := .accepted }, .readResponse]).responses.Delivered ∧
        (after 2 1 [.sendClientResponse { type := .accepted }, .readResponse]).updates.Delivered ↔
      ∀ front, front <+: [.sendClientResponse { type := .accepted }, .readResponse] →
        (after 2 1 front).responses.unread.length < 2 ∧
          (after 2 1 front).updates.unread.length < 1 :=
  delivered_iff [.sendClientResponse { type := .accepted }, .readResponse]

/-- Two responses sent into a queue of two elements are never obtained. -/
theorem not_delivered_of_full : ¬(after 2 1 [.sendClientResponse { type := .accepted },
    .sendClientResponse { type := .filled }]).responses.Delivered := by
  intro delivered
  have obtained := delivered.complete 0 (by decide)
  exact absurd obtained (by decide)

end Outgoing

end QuantEngine.MatchingEngine
