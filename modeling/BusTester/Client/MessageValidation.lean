import BusTester.Client.ReplyLoop
import BusTester.Infrastructure.RabbitMqAdapter

/-!
# The validation of the form and that of the backend

A message is checked three times: by the form, by the constructor of `BusMessage` and by the guard
of `SendAsync`. They differ by design in the routing key, which the form lets be empty and the
broker does not, and the two runtimes differ in U+0085, which only .NET takes for white space.
`notRefused_iff` says which messages of a valid form the backend accepts, and that these two
differences are all there is.
-/

namespace BusTester

open Utf16 (isNullOrWhiteSpace isWhiteSpace isJsWhiteSpace trimWith_eq_nil_iff)

/-- The constructor of the message does not throw, and `SendAsync` does not reject its routing
key. -/
def SendMessageRequest.NotRefused (request : SendMessageRequest) : Prop :=
  ∃ message, SendMessageUseCase.message (MessagesController.send request) = .ok message ∧
    ∀ (s : RabbitMqAdapter.State ℕ) (i : ℕ), RabbitMqAdapter.start s i (.send message)
      ≠ s.throw i RabbitMqAdapter.requiresRoutingKey

namespace RabbitMqAdapter

/-- **The guard of `SendAsync`** rejects blank routing keys only. -/
theorem start_send_ne_iff {message : BusMessage} :
    (∀ (s : State ℕ) (i : ℕ), start s i (.send message) ≠ s.throw i requiresRoutingKey) ↔
      isNullOrWhiteSpace message.routingKey = false := by
  constructor
  · intro h
    by_contra hblank
    refine h .initial 0 (if_pos ?_)
    simpa using hblank
  · intro hkey s i hthrow
    have hcall := congrFun (congrArg State.calls hthrow) i
    simp only [start, hkey, Bool.false_eq_true, if_false] at hcall
    split at hcall
    · simp only [State.throw, State.goto, Function.update_self, Pc.ended.injEq,
        Except.error.injEq] at hcall
      cases hcall
    · simp [State.throw, State.goto] at hcall

end RabbitMqAdapter

namespace SendComponent

variable {c : SendComponent} {s : Utf16}

/-! ## The two notions of white space -/

theorem isNullOrWhiteSpace_some : isNullOrWhiteSpace (some s) = true ↔ ∀ c ∈ s, isWhiteSpace c :=
  List.all_eq_true

/-- Without U+0085, what is not blank for the form is not blank for the backend. -/
theorem isNullOrWhiteSpace_of_jsTrim (h : s.jsTrim ≠ []) (hnel : 0x85 ∉ s) :
    isNullOrWhiteSpace (some s) = false := by
  rw [Bool.eq_false_iff, ne_eq, isNullOrWhiteSpace_some]
  refine fun hblank ↦ h (trimWith_eq_nil_iff.mpr fun u hu ↦ ?_)
  have hspace := hblank u hu
  rw [isWhiteSpace, Bool.or_eq_true, beq_iff_eq] at hspace
  rcases hspace with rfl | hcommon
  · exact absurd hu hnel
  · rw [isJsWhiteSpace, hcommon, Bool.or_true]

theorem whiteSpaceOnly_iff : WhiteSpaceOnly s ↔ s ≠ [] ∧ isNullOrWhiteSpace (some s) = true := by
  rw [WhiteSpaceOnly, List.length_pos_iff, List.length_eq_zero_iff, Utf16.trim,
    trimWith_eq_nil_iff, isNullOrWhiteSpace_some]

/-! ## A form without errors -/

theorem fields_of_not_hasErrors (h : c.hasErrors = false) :
    (c.exchange = [] ∨ c.exchange.jsTrim ≠ []) ∧ c.payload.jsTrim ≠ [] ∧
      (c.routingKey = [] ∨ c.routingKey.jsTrim ≠ []) := by
  rw [hasErrors, Bool.or_eq_false_iff, Bool.or_eq_false_iff] at h
  obtain ⟨⟨hexchange, hpayload⟩, hkey⟩ := h
  refine ⟨?_, ?_, ?_⟩
  · by_contra hnot
    rw [not_or, not_not] at hnot
    simp [exchangeError, hnot] at hexchange
  · intro hblank
    simp [payloadError, hblank] at hpayload
  · by_contra hnot
    rw [not_or, not_not] at hnot
    simp [routingKeyError, hnot] at hkey

theorem notRefused_bound_iff {request : SendRequest} : request.bound.NotRefused ↔
    isNullOrWhiteSpace (some request.routingKey) = false ∧
      isNullOrWhiteSpace (some request.payload) = false ∧ ¬WhiteSpaceOnly request.exchange := by
  constructor
  · rintro ⟨message, hmessage, hguard⟩
    rw [RabbitMqAdapter.start_send_ne_iff] at hguard
    obtain ⟨-, hkey, -⟩ := BusMessage.create_eq_ok hmessage
    obtain ⟨⟨target, htarget, hvalid⟩, hpayload⟩ := BusMessage.accepts_of_create hmessage
    cases htarget
    exact ⟨by rw [← hguard, ← hkey]; rfl, hpayload, hvalid⟩
  · rintro ⟨hkey, hpayload, hexchange⟩
    have haccepts : BusMessage.Accepts (some request.exchange) (some request.payload) :=
      ⟨⟨_, rfl, hexchange⟩, hpayload⟩
    obtain ⟨message, hmessage⟩ := BusMessage.exists_create_of_accepts haccepts
      (some request.routingKey) none request.correlationId (some request.headers)
    refine ⟨message, hmessage, RabbitMqAdapter.start_send_ne_iff.mpr ?_⟩
    rw [← (BusMessage.create_eq_ok hmessage).2.1]
    exact hkey

/-- **When the backend accepts what a valid form posts**: the routing key is not blank, the payload
is not blank and the exchange is not white space only, all in the sense of .NET. A routing key that
is given and fields without U+0085 are enough. -/
theorem notRefused_iff (herrors : c.hasErrors = false) (hexpect : c.expectReply = false) :
    ∃ request ∈ c.send, request.endpoint = .messages ∧
      (request.bound.NotRefused ↔ isNullOrWhiteSpace (some c.routingKey) = false ∧
        isNullOrWhiteSpace (some c.payload) = false ∧ ¬WhiteSpaceOnly c.exchange) ∧
      (c.routingKey ≠ [] → 0x85 ∉ c.routingKey → 0x85 ∉ c.payload → 0x85 ∉ c.exchange →
        request.bound.NotRefused) := by
  have hsend : c.send = some ⟨.messages, c.exchange, c.routingKey, c.payload, c.resolvedHeaders,
      c.postedCorrelationId⟩ := by
    rw [SendComponent.send, herrors, hexpect]
    rfl
  refine ⟨_, hsend, rfl, notRefused_bound_iff, fun hkey hkeyNel hpayloadNel hexchangeNel ↦ ?_⟩
  obtain ⟨hexchange, hpayload, hkeyTrim⟩ := fields_of_not_hasErrors herrors
  refine notRefused_bound_iff.mpr
    ⟨isNullOrWhiteSpace_of_jsTrim (hkeyTrim.resolve_left hkey) hkeyNel,
      isNullOrWhiteSpace_of_jsTrim hpayload hpayloadNel, fun hspace ↦ ?_⟩
  obtain ⟨hne, hblank⟩ := whiteSpaceOnly_iff.mp hspace
  have hfilled := isNullOrWhiteSpace_of_jsTrim (hexchange.resolve_left hne) hexchangeNel
  rw [hblank] at hfilled
  cases hfilled

/-- A form with an exchange and a payload. -/
private def orderForm (routingKey : Utf16) : SendComponent :=
  { SendComponent.initial with
    exchange := Utf16.ofString "orders", routingKey, payload := Utf16.ofString "1" }

/-- With a routing key the message is accepted. -/
theorem notRefused_of_routingKey :
    ∃ request ∈ (orderForm (Utf16.ofString "created")).send, request.bound.NotRefused := by
  obtain ⟨request, hrequest, -, haccepted, -⟩ :=
    notRefused_iff (c := orderForm (Utf16.ofString "created")) (by decide) (by decide)
  exact ⟨request, hrequest, haccepted.mpr (by decide)⟩

/-- Without one the form is valid all the same, and the message is refused. -/
theorem refused_of_empty_routingKey : (orderForm []).hasErrors = false ∧
    (orderForm []).expectReply = false ∧
    ∃ request ∈ (orderForm []).send, ¬request.bound.NotRefused := by
  refine ⟨by decide, by decide, _, rfl, fun hrefused ↦ ?_⟩
  exact absurd (notRefused_bound_iff.mp hrefused).1 (by decide)

end SendComponent

end BusTester
