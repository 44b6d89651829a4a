import BusTester.Domain.BusMessage
import BusTester.Text.Utf8

/-!
# From a delivery to the client

The handler that `WireConsumerAsync` installs turns what the broker dispatches into a `BusMessage`,
and `MessageReceivedDto.FromDomain` turns a `BusMessage` into what SignalR pushes. The first can
throw, since it runs the constructor of `BusMessage`; the exception ends the handler, and the
delivery has been acknowledged already.
-/

namespace BusTester

/-- What the handler reads of `BasicDeliverEventArgs`. -/
structure Delivery where
  exchange : Utf16
  routingKey : Utf16
  body : List UInt8
  replyTo : Option Utf16
  correlationId : Option Utf16
deriving DecidableEq

namespace Delivery

/-- The payload that the handler decodes. -/
def payload (delivery : Delivery) : Utf16 := Utf8.getString delivery.body

/-- The exchange as it is shown: the default exchange has no name. -/
def exchangeName (delivery : Delivery) : Utf16 :=
  if delivery.exchange.length = 0 then Utf16.ofString "(default)" else delivery.exchange

/-- The message that the handler of `WireConsumerAsync` passes to `onMessage`. -/
def received (delivery : Delivery) : Except BusException BusMessage :=
  BusMessage.create (some delivery.exchangeName) (some delivery.routingKey) (some delivery.payload)
    delivery.replyTo delivery.correlationId none

/-- The calls of `onMessage` that the handler makes for the delivery. -/
def onMessageCalls (delivery : Delivery) : List BusMessage :=
  match delivery.received with
  | .error _ => []
  | .ok message => [message]

theorem not_whiteSpaceOnly_exchangeName_iff (delivery : Delivery) :
    ¬WhiteSpaceOnly delivery.exchangeName ↔ ¬WhiteSpaceOnly delivery.exchange := by
  unfold exchangeName
  split
  · rename_i hempty
    refine iff_of_true (by decide) fun hblank ↦ ?_
    exact absurd hempty hblank.1.ne'
  · exact Iff.rfl

/-- **A delivery with a payload is received unless its exchange is named by white space.** -/
theorem exists_received_iff {delivery : Delivery}
    (hpayload : Utf16.isNullOrWhiteSpace (some delivery.payload) = false) :
    (∃ message, delivery.received = .ok message) ↔ ¬WhiteSpaceOnly delivery.exchange := by
  rw [← not_whiteSpaceOnly_exchangeName_iff]
  constructor
  · rintro ⟨message, hmessage⟩
    obtain ⟨⟨target, htarget, hvalid⟩, -⟩ := BusMessage.accepts_of_create hmessage
    cases htarget
    exact hvalid
  · intro hvalid
    exact BusMessage.exists_create_of_accepts ⟨⟨_, rfl, hvalid⟩, hpayload⟩ _ _ _ _

/-! ## Every delivery -/

/-- The handler takes the delivery: it does not throw, and calls `onMessage` exactly once, with the
decoded payload. -/
def Accepted (delivery : Delivery) : Prop :=
  ∃ message, delivery.received = .ok message ∧ delivery.onMessageCalls = [message] ∧
    message.payload = delivery.payload

/-- The body is no encoding of white space, of which there may be none, and the exchange has no
name or one that is not white space only. -/
structure Presentable (delivery : Delivery) : Prop where
  body : ¬∃ text : Utf16, (∀ c ∈ text, Utf16.isWhiteSpace c = true) ∧
    delivery.body = Utf8.getBytes text
  exchange : delivery.exchange = [] ∨ ∃ c ∈ delivery.exchange, Utf16.isWhiteSpace c = false

theorem not_whiteSpaceOnly_iff {name : Utf16} :
    ¬WhiteSpaceOnly name ↔ name = [] ∨ ∃ c ∈ name, Utf16.isWhiteSpace c = false := by
  have htrim : name.trim = [] ↔ ∀ c ∈ name, Utf16.isWhiteSpace c = true := by
    rw [Utf16.trim, Utf16.trimWith, List.rdropWhile_eq_nil_iff]
    constructor
    · intro h c hc
      by_contra hplain
      have hne : name.dropWhile Utf16.isWhiteSpace ≠ [] := fun hnil ↦
        hplain (List.dropWhile_eq_nil_iff.mp hnil c hc)
      exact Bool.eq_false_iff.mp (List.head_dropWhile_not _ hne) (h _ (List.head_mem hne))
    · intro h c hc
      exact h c ((List.dropWhile_suffix _).subset hc)
  rw [WhiteSpaceOnly, List.length_eq_zero_iff, htrim, List.length_pos_iff]
  simp only [not_and_or, not_not, not_forall, Bool.not_eq_true, exists_prop]

/-- **Which deliveries are accepted.** -/
theorem accepted_iff (delivery : Delivery) : delivery.Accepted ↔ delivery.Presentable := by
  have hbody : Utf16.isNullOrWhiteSpace (some delivery.payload) = false ↔
      ¬∃ text : Utf16, (∀ c ∈ text, Utf16.isWhiteSpace c = true) ∧
        delivery.body = Utf8.getBytes text := by
    rw [← Utf8.isNullOrWhiteSpace_getString_iff, Bool.not_eq_true, payload]
  constructor
  · rintro ⟨message, hreceived, -, hpayload⟩
    have hfull := hpayload ▸ message.payload_valid
    have hexchange := (exists_received_iff hfull).mp ⟨message, hreceived⟩
    exact ⟨hbody.mp hfull, not_whiteSpaceOnly_iff.mp hexchange⟩
  · intro h
    have hexchange := not_whiteSpaceOnly_iff.mpr h.exchange
    obtain ⟨message, hreceived⟩ := (exists_received_iff (hbody.mpr h.body)).mpr hexchange
    obtain ⟨-, -, hpayload, -⟩ := BusMessage.create_eq_ok hreceived
    refine ⟨message, hreceived, ?_, (Option.some.inj hpayload).symm⟩
    rw [onMessageCalls, hreceived]

/-- A message with an empty body, published to the default exchange, is lost. -/
theorem not_accepted_of_empty_body :
    ¬Accepted ⟨[], Utf16.ofString "orders", [], none, none⟩ := by
  rintro ⟨message, hreceived, -⟩
  cases hreceived

end Delivery

/-- The payload of `MessageReceived`. -/
structure MessageReceivedDto where
  subscriptionId : Guid
  exchange : Utf16
  routingKey : Utf16
  payload : Utf16
  replyTo : Option Utf16
  correlationId : Option Utf16
deriving DecidableEq

namespace MessageReceivedDto

def fromDomain (subscriptionId : Guid) (message : BusMessage) : MessageReceivedDto where
  subscriptionId := subscriptionId
  exchange := message.target
  routingKey := message.routingKey.getD []
  payload := message.payload
  replyTo := message.replyTo
  correlationId := message.correlationId

end MessageReceivedDto

end BusTester
