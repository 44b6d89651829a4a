import BusTester.Infrastructure.Delivery
import BusTester.Infrastructure.Methods

/-!
# From a publication to a received message

The broker hands a publication on as it was made: body, exchange, routing key and the two
properties are unchanged, and a property that was not set is absent. What the adapter publishes is
then always received, since a message that could be built has a target and a payload, and neither
becomes blank on the way.

`received_of_published` follows a message all the way, from the `publishing` suspension of
`SendAsync` to the record that is pushed to the client.
-/

namespace BusTester

namespace RabbitMqAdapter

/-- The delivery of a publication. -/
def Publication.delivered (p : Publication) : Delivery where
  exchange := p.exchange
  routingKey := p.routingKey
  body := p.body
  replyTo := p.properties.bind BasicProperties.replyTo
  correlationId := p.properties.bind BasicProperties.correlationId

variable {message : BusMessage}

/-- Both publish paths carry `replyTo`: on the plain one there is none. -/
@[simp] theorem replyTo_publicationOf :
    (publicationOf message).properties.bind BasicProperties.replyTo = message.replyTo := by
  unfold publicationOf
  cases hreplyTo : message.replyTo with
  | some replyTo => simp
  | none => split <;> rfl

@[simp] theorem correlationId_publicationOf :
    (publicationOf message).properties.bind BasicProperties.correlationId
      = message.correlationId := by
  unfold publicationOf
  cases hcorrelation : message.correlationId with
  | some correlationId => simp
  | none => split <;> rfl

@[simp] theorem headers_publicationOf :
    ((publicationOf message).properties.bind BasicProperties.headers).getD .empty
      = message.headers := by
  have hempty : ¬0 < message.headers.entries.length → StringMap.empty = message.headers := by
    intro hnot
    exact StringMap.ext (List.length_eq_zero_iff.mp (Nat.eq_zero_of_not_pos hnot)).symm
  unfold publicationOf
  split
  · by_cases hheaders : 0 < message.headers.entries.length
    · simp only [if_pos hheaders]
      rfl
    · simp only [if_neg hheaders]
      exact hempty hheaders
  · rename_i hnone
    simp only [not_or] at hnone
    exact hempty hnone.2.2

/-- **Every published message is received**, with the properties it was sent with. -/
theorem exists_received_delivered (message : BusMessage) :
    ∃ received, (publicationOf message).delivered.received = .ok received ∧
      received.target = (publicationOf message).delivered.exchangeName ∧
      received.payload = Utf8.getString (Utf8.getBytes message.payload) ∧
      received.routingKey = some (message.routingKey.getD []) ∧
      received.replyTo = message.replyTo ∧ received.correlationId = message.correlationId := by
  have hpayload :
      Utf16.isNullOrWhiteSpace (some (publicationOf message).delivered.payload) = false :=
    (Utf8.isNullOrWhiteSpace_getString_getBytes message.payload).trans message.payload_valid
  obtain ⟨received, hreceived⟩ := (Delivery.exists_received_iff hpayload).mpr message.target_valid
  obtain ⟨htarget, hroutingKey, hdecoded, hreplyTo, hcorrelation, -⟩ :=
    BusMessage.create_eq_ok hreceived
  refine ⟨received, hreceived, (Option.some.inj htarget).symm, (Option.some.inj hdecoded).symm,
    hroutingKey.symm, ?_, ?_⟩
  · rw [← hreplyTo]
    exact replyTo_publicationOf
  · rw [← hcorrelation]
    exact correlationId_publicationOf

/-! ## What is sent is what is received -/

/-- The client is shown the message that was sent. -/
structure Shows (dto : MessageReceivedDto) (message : BusMessage) : Prop where
  exchange : dto.exchange
    = if message.target.length = 0 then Utf16.ofString "(default)" else message.target
  routingKey : some dto.routingKey = message.routingKey
  payload : dto.payload = message.payload
  replyTo : dto.replyTo = message.replyTo
  correlationId : dto.correlationId = message.correlationId

variable {ι : Type} [DecidableEq ι] [Inhabited ι] {s t : State ι} {i : ι} {ch : ChannelId}
  {newGuid : Guid} {as : List (Label ι)}

/-- A message is only published with a routing key. -/
theorem routingKey_of_publishing (hrun : Transition.run step State.initial as = some s)
    (hcall : s.calls i = .publishing message ch) :
    Utf16.isNullOrWhiteSpace message.routingKey = false := by
  rcases within_of_run (i := i) hrun with hidle | ⟨call, hwithin⟩
  · cases hcall.symm.trans hidle
  · rw [hcall] at hwithin
    cases hwithin with
    | publishing _ _ hroutingKey => exact hroutingKey

/-- **What is sent is what is received.** The publication of a message with a well-formed payload
makes the consumer call `onMessage` once, and the client is shown the message that was sent. -/
theorem received_of_published (hrun : Transition.run step State.initial as = some s)
    (hcall : s.calls i = .publishing message ch)
    (hstep : step s (.resume i .completed newGuid) = some t)
    (hpayload : Utf8.isWellFormed message.payload = true) (subscriptionId : Guid) :
    ∃ p received, t.published = s.published ++ [p] ∧ p.delivered.onMessageCalls = [received] ∧
      Shows (.fromDomain subscriptionId received) message := by
  obtain ⟨received, hreceived, htarget, hdecoded, hroutingKey, hreplyTo, hcorrelation⟩ :=
    exists_received_delivered message
  have hkey : message.routingKey = some (message.routingKey.getD []) := by
    cases hmessage : message.routingKey with
    | none =>
      have hsome := routingKey_of_publishing hrun hcall
      rw [hmessage] at hsome
      cases hsome
    | some routingKey => rfl
  refine ⟨publicationOf message, received, ?_, ?_, ?_⟩
  · simp only [step, resume, hcall, resumeSend, Option.some.injEq] at hstep
    rw [← hstep]
    rfl
  · rw [Delivery.onMessageCalls, hreceived]
  · refine ⟨htarget, ?_, ?_, hreplyTo, hcorrelation⟩
    · change some (received.routingKey.getD []) = message.routingKey
      rw [hroutingKey, hkey]
      rfl
    · exact hdecoded.trans (Utf8.getString_getBytes_of_isWellFormed hpayload)

/-! ## A message with a pair of surrogates -/

/-- A message whose payload is one character outside the basic plane. -/
private def surrogatePair : BusMessage where
  target := Utf16.ofString "symbols"
  routingKey := Utf16.ofString "flags"
  payload := [0xD83D, 0xDE00]
  replyTo := some (Utf16.ofString "replies")
  correlationId := none
  headers := .empty
  target_valid := by decide
  payload_valid := by decide

/-- The adapter connects, declares the exchange and sends it. -/
private def pairPublishing : List (Label Bool) :=
  [.start false (.teardown (.connect .localhost)), .succeed false, .succeed false,
    .start true (.send surrogatePair), .succeed true, .succeed true]

theorem received_of_surrogatePair :
    ∃ (s t : State Bool) (p : Publication) (received : BusMessage),
      Transition.run step State.initial pairPublishing = some s ∧
      t.published = s.published ++ [p] ∧ p.delivered.onMessageCalls = [received] ∧
      Shows (.fromDomain ⟨7⟩ received) surrogatePair := by
  obtain ⟨s, t, hrun, hcall, hstep⟩ : ∃ s t,
      Transition.run step State.initial pairPublishing = some s ∧
      s.calls true = .publishing surrogatePair 0 ∧ step s (.succeed true) = some t :=
    ⟨_, _, rfl, rfl, rfl⟩
  obtain ⟨p, received, hreceived⟩ := received_of_published hrun hcall hstep (by decide) ⟨7⟩
  exact ⟨s, t, p, received, hrun, hreceived⟩

end RabbitMqAdapter

end BusTester
