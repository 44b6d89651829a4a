import BusTester.Api.MessagesController
import BusTester.Client.MessagesComponent
import BusTester.Client.SendPanel
import BusTester.Infrastructure.Transport

/-!
# A request and the reply to it

The way of a correlation id from the client that asks for a reply, through the broker to the client
that gives it, and back to the reply panel of the first. `Request` is what the first client's
backend did, `Response` what the second client and its backend did with the message they received;
their fields are the hops, each of which was successful.

All hops but one hand the correlation id on as it is. The send panel trims the field it was filled
into, so the loop closes exactly for the ids that trimming leaves alone (`closes_iff`).
-/

namespace BusTester

/-- The body of a plain send, as model binding reads it: `replyTo` is not in it. -/
def SendRequest.bound (request : SendRequest) : SendMessageRequest where
  exchange := request.exchange
  routingKey := request.routingKey
  payload := request.payload
  replyTo := none
  correlationId := request.correlationId
  headers := request.headers

namespace SendPanel

open SendComponent Transition

/-! ## A pre-filled form -/

/-- The fields that `applyReplyDraft` fills in, apart from the empty payload. -/
structure Prefilled (form : SendComponent) (target : ReplyTarget) : Prop where
  replyMode : form.replyMode = true
  exchange : form.exchange = []
  routingKey : form.routingKey = target.routingKey
  correlationId : form.correlationId = target.correlationId.getD []

/-- The draft effect applies the draft that is there. -/
def State.Applies (s : State) (confirmed : Bool) : Prop :=
  ∃ draft ∈ s.replyDraft.draft,
    draft.seq ≠ s.form.lastAppliedDraftSeq ∧ (s.form.isDirty && !confirmed) = false

instance (s : State) (confirmed : Bool) : Decidable (s.Applies confirmed) :=
  Option.decidableExistsMem s.replyDraft.draft

/-- Steps that neither edit nor refill the pre-filled fields. -/
def KeepsPrefill (s : State) : Label → Prop
  | .edit (.exchange _) | .edit (.routingKey _) | .edit (.correlationId _) => False
  | .useRecent _ | .useTemplate _ => False
  | .draftEffect confirmed => ¬s.Applies confirmed
  | _ => True

variable {s t u : State} {a : Label} {as : List Label} {target : ReplyTarget} {confirmed : Bool}

theorem prefilled_of_applies
    (happlies : State.Applies { s with replyDraft := s.replyDraft.request target } confirmed)
    (hrun : run step s [.request target, .draftEffect confirmed] = some t) :
    Prefilled t.form target := by
  obtain ⟨draft, hdraft, happlied⟩ := happlies
  cases hdraft
  simp only [run_cons, run_nil, step, ReplyDraftService.request, Option.bind_some] at hrun
  rw [if_pos happlied] at hrun
  cases hrun
  change Prefilled (s.form.applyReplyDraft target _ confirmed) target
  rw [applyReplyDraft_of_applied happlied.1 happlied.2]
  exact ⟨rfl, rfl, rfl, rfl⟩

theorem Prefilled.step (hs : Prefilled s.form target) (hkeeps : KeepsPrefill s a)
    (hstep : SendPanel.step s a = some t) : Prefilled t.form target := by
  have hedit : ∀ {form : SendComponent}, form.replyMode = s.form.replyMode →
      form.exchange = s.form.exchange → form.routingKey = s.form.routingKey →
      form.correlationId = s.form.correlationId → Prefilled form target :=
    fun hmode hexchange hroutingKey hcorrelation ↦ ⟨hmode.trans hs.replyMode,
      hexchange.trans hs.exchange, hroutingKey.trans hs.routingKey,
      hcorrelation.trans hs.correlationId⟩
  cases a with
  | edit e =>
    cases hstep
    cases e <;> first | exact hkeeps.elim | exact hedit rfl rfl rfl rfl
  | send =>
    simp only [SendPanel.step] at hstep
    split at hstep <;> cases hstep <;> exact hs
  | succeeded k sentAt stored =>
    simp only [SendPanel.step] at hstep
    split at hstep
    · cases hstep
    · split at hstep <;> cases hstep
      · exact hs
      · cases stored <;> exact hedit rfl rfl rfl rfl
  | failed k =>
    simp only [SendPanel.step, Option.ite_none_right_eq_some, Option.some.injEq] at hstep
    obtain ⟨-, rfl⟩ := hstep
    exact hs
  | useRecent entry | useTemplate template => exact hkeeps.elim
  | saveTemplate | deleteTemplate name | request target | clear =>
    cases hstep
    exact hs
  | draftEffect confirmed =>
    simp only [SendPanel.step] at hstep
    split at hstep
    · cases hstep
      exact hs
    · rename_i draft hdraft
      have hnot : ¬(draft.seq ≠ s.form.lastAppliedDraftSeq ∧
          (s.form.isDirty && !confirmed) = false) :=
        fun happlied ↦ hkeeps ⟨draft, hdraft, happlied⟩
      rw [if_neg hnot, applyReplyDraft_of_not_applied hnot] at hstep
      cases hstep
      exact hedit rfl rfl rfl rfl

theorem send_of_prefilled {form : SendComponent} {posted : SendRequest}
    (hform : Prefilled form target) (hexpect : form.expectReply = false)
    (hsend : form.send = some posted) :
    posted.endpoint = .messages ∧ posted.exchange = [] ∧ posted.routingKey = target.routingKey ∧
      posted.correlationId =
        if (target.correlationId.getD []).jsTrim ≠ [] then
          some (target.correlationId.getD []).jsTrim
        else none := by
  unfold SendComponent.send at hsend
  rw [hexpect] at hsend
  split at hsend
  · cases hsend
  · cases hsend
    refine ⟨rfl, hform.exchange, hform.routingKey, ?_⟩
    simp only [postedCorrelationId, hform.replyMode, hform.correlationId, true_and]

end SendPanel

namespace ReplyLoop

open SendMessageWithReplyUseCase (Port Services correlationIdOf messageOf handleAsync)
open RabbitMqAdapter (Publication BasicProperties publicationOf)
open Transition

/-! ## The hops -/

/-- A send-with-reply that has returned, and the message it sent. -/
structure Request where
  port : Port
  command : SendMessageWithReplyCommand
  before : Services
  after : Services
  handle : SubscriptionHandle
  correlationId : Utf16
  queueName : Utf16
  message : BusMessage
  returned : (handleAsync port command).run.run before = (.ok ⟨handle, correlationId⟩, after)
  declared : port.declareTemporaryReplyQueueAndSubscribe = .ok (handle, queueName)
  built : messageOf port command queueName = .ok message

/-- A client has received the request on one of its subscriptions, responds to it without touching
the pre-filled fields, and its backend publishes the reply. -/
structure Response (r : Request) where
  subscriptionId : Guid
  received : BusMessage
  seq : ℕ
  target : ReplyTarget
  delivered : (publicationOf r.message).delivered.received = .ok received
  responded :
    MessagesComponent.respond ⟨.fromDomain subscriptionId received, seq⟩ = some target
  before : SendPanel.State
  confirmed : Bool
  filled : SendPanel.State
  applies : SendPanel.State.Applies
    { before with replyDraft := before.replyDraft.request target } confirmed
  fills : run SendPanel.step before [.request target, .draftEffect confirmed] = some filled
  edits : List SendPanel.Label
  edited : SendPanel.State
  keeps : Guarded SendPanel.step SendPanel.KeepsPrefill filled edits
  edits_run : run SendPanel.step filled edits = some edited
  expectsNoReply : edited.form.expectReply = false
  posted : SendRequest
  sent : edited.form.send = some posted
  reply : BusMessage
  built : SendMessageUseCase.message (MessagesController.send posted.bound) = .ok reply
  routable : Utf16.isNullOrWhiteSpace reply.routingKey = false

/-- The reply is addressed to the reply queue through the default exchange and carries the
correlation id, and the panel of the client that asked lists it once it has been pushed. -/
structure Closes {r : Request} (x : Response r) (hub : BusHubService)
    (pending : List ReplySubscription) : Prop where
  exchange : (publicationOf x.reply).exchange = []
  routingKey : (publicationOf x.reply).routingKey = r.queueName
  correlationId :
    (publicationOf x.reply).properties.bind BasicProperties.correlationId = some r.correlationId
  listed : ∃ received, (publicationOf x.reply).delivered.received = .ok received ∧
    ∃ entry ∈ MessagesComponent.replyPanel
        (hub.onMessageReceived (.fromDomain r.handle.value received)).messages pending,
      entry.subscriptionId = r.handle.value ∧ entry.correlationId = r.correlationId ∧
        ⟨.fromDomain r.handle.value received, hub.nextSeq⟩ ∈ entry.replies

variable {r : Request}

/-! ## The correlation id on its way -/

theorem Request.correlationId_eq (r : Request) :
    r.correlationId = correlationIdOf r.command.correlationId r.port.newGuid := by
  have hreturned := r.returned
  cases hsupported : r.port.capabilities.supportsRequestReply with
  | false =>
    obtain ⟨ex, hrun⟩ := SendMessageWithReplyUseCase.run_of_not_supported hsupported
    rw [hrun] at hreturned
    cases (Prod.mk.inj hreturned).1
  | true =>
    rw [SendMessageWithReplyUseCase.run_of_message_accepted hsupported r.declared r.built]
      at hreturned
    split at hreturned
    · cases (Prod.mk.inj hreturned).1
    · have hresult := Except.ok.inj (Prod.mk.inj hreturned).1
      exact (congrArg SendWithReplyResult.correlationId hresult).symm

theorem correlationIdOf_ne_nil (correlationId : Option Utf16) (newGuid : Guid) :
    correlationIdOf correlationId newGuid ≠ [] := by
  unfold correlationIdOf
  split
  · exact newGuid.toString_ne_nil
  · rename_i c
    split
    · exact newGuid.toString_ne_nil
    · rename_i hblank
      rintro rfl
      exact hblank rfl

/-- **The request asks for a reply** to the queue, under the returned correlation id. -/
theorem Request.message_eq (r : Request) :
    r.message.replyTo = some r.queueName ∧ r.message.correlationId = some r.correlationId := by
  obtain ⟨-, -, -, hreplyTo, hcorrelation, -⟩ := BusMessage.create_eq_ok r.built
  rw [r.correlationId_eq]
  exact ⟨hreplyTo.symm, hcorrelation.symm⟩

theorem Response.target_eq (x : Response r) : x.target = ⟨r.queueName, some r.correlationId⟩ := by
  obtain ⟨received, hreceived, -, -, -, hreplyTo, hcorrelation⟩ :=
    RabbitMqAdapter.exists_received_delivered r.message
  obtain rfl : received = x.received := Except.ok.inj (hreceived.symm.trans x.delivered)
  rw [r.message_eq.1] at hreplyTo
  rw [r.message_eq.2] at hcorrelation
  have hresponded := x.responded
  unfold MessagesComponent.respond MessageReceivedDto.fromDomain at hresponded
  simp only [hreplyTo, hcorrelation] at hresponded
  split at hresponded
  · cases hresponded
  · exact (Option.some.inj hresponded).symm

theorem Response.prefilled (x : Response r) : SendPanel.Prefilled x.edited.form x.target :=
  invariant_of_guarded (P := fun s ↦ SendPanel.Prefilled s.form x.target)
    (SendPanel.prefilled_of_applies x.applies x.fills)
    (fun _ _ _ hs hkeeps hstep ↦ hs.step hkeeps hstep) x.keeps x.edits_run

/-- **The reply as it is built**: the only field that is not handed on is the correlation id, which
is trimmed. -/
theorem Response.reply_eq (x : Response r) :
    x.reply.target = [] ∧ x.reply.routingKey = some r.queueName ∧
      x.reply.correlationId =
        if r.correlationId.jsTrim ≠ [] then some r.correlationId.jsTrim else none := by
  obtain ⟨-, hexchange, hroutingKey, hcorrelation⟩ :=
    SendPanel.send_of_prefilled x.prefilled x.expectsNoReply x.sent
  rw [x.target_eq] at hroutingKey hcorrelation
  obtain ⟨htarget, hkey, -, -, hid, -⟩ := BusMessage.create_eq_ok x.built
  refine ⟨?_, ?_, ?_⟩
  · exact (Option.some.inj htarget).symm.trans hexchange
  · exact hkey.symm.trans (congrArg some hroutingKey)
  · exact hid.symm.trans hcorrelation

/-! ## The loop -/

/-- A pushed reply is listed in every pending entry that it matches. -/
theorem exists_entry_of_pushed {hub : BusHubService} {pending : List ReplySubscription}
    {message : MessageReceivedDto} {p : ReplySubscription} (hp : p ∈ pending)
    (hsubscription : message.subscriptionId = p.subscriptionId)
    (hcorrelation : message.correlationId = some p.correlationId) :
    ∃ entry ∈ MessagesComponent.replyPanel (hub.onMessageReceived message).messages pending,
      entry.subscriptionId = p.subscriptionId ∧ entry.correlationId = p.correlationId ∧
        ⟨message, hub.nextSeq⟩ ∈ entry.replies := by
  refine ⟨_, List.mem_map_of_mem hp, rfl, rfl, ?_⟩
  rw [List.mem_filter, decide_eq_true_iff]
  exact ⟨List.mem_cons_self, hsubscription, hcorrelation⟩

/-- **The loop closes exactly for the correlation ids that trimming leaves alone.** -/
theorem closes_iff (r : Request) (x : Response r) (hub : BusHubService)
    {pending : List ReplySubscription} (hpending : ⟨r.handle.value, r.correlationId⟩ ∈ pending) :
    Closes x hub pending ↔ r.correlationId.jsTrim = r.correlationId := by
  obtain ⟨htarget, hroutingKey, hcorrelation⟩ := x.reply_eq
  constructor
  · intro hcloses
    have hsame := hcloses.correlationId
    rw [RabbitMqAdapter.correlationId_publicationOf, hcorrelation,
      Option.ite_none_right_eq_some] at hsame
    exact Option.some.inj hsame.2
  · intro htrim
    have hne : r.correlationId ≠ [] := by
      rw [r.correlationId_eq]
      exact correlationIdOf_ne_nil _ _
    rw [htrim, if_pos hne] at hcorrelation
    obtain ⟨received, hreceived, -, -, -, -, hid⟩ :=
      RabbitMqAdapter.exists_received_delivered x.reply
    rw [hcorrelation] at hid
    refine ⟨htarget, ?_, ?_, received, hreceived, exists_entry_of_pushed hpending rfl hid⟩
    · change x.reply.routingKey.getD [] = r.queueName
      rw [hroutingKey]
      rfl
    · rw [RabbitMqAdapter.correlationId_publicationOf, hcorrelation]

theorem jsTrim_toString (newGuid : Guid) : newGuid.toString.jsTrim = newGuid.toString :=
  Utf16.trimWith_eq_self fun _ hc ↦ (Guid.not_whiteSpace_of_mem_toString hc).2

/-! ## Two correlation ids

One client asks the queue `orders` for a reply under an id of its own, another one answers with the
payload `2`. -/

section Example

private def queueName : Utf16 := Utf16.ofString "amq.gen-1"

private def asked (c : Utf16) (hc : correlationIdOf (some c) ⟨2⟩ = c) : Request where
  port :=
    { capabilities := ⟨Utf16.ofString "RabbitMQ", true⟩
      declareTemporaryReplyQueueAndSubscribe := .ok (⟨⟨1⟩⟩, queueName)
      send := fun _ ↦ .ok ()
      newGuid := ⟨2⟩ }
  command := ⟨some [], some (Utf16.ofString "orders"), some (Utf16.ofString "1"), some c, none⟩
  before := ⟨.initial, ∅⟩
  after := Services.subscribed ⟨.initial, ∅⟩ ⟨⟨1⟩⟩
  handle := ⟨⟨1⟩⟩
  correlationId := c
  queueName := queueName
  message :=
    { target := []
      routingKey := Utf16.ofString "orders"
      payload := Utf16.ofString "1"
      replyTo := queueName
      correlationId := c
      headers := .empty
      target_valid := by decide
      payload_valid := by decide }
  declared := rfl
  built := by
    unfold messageOf
    rw [hc]
    rfl
  returned := by
    rw [SendMessageWithReplyUseCase.run_of_message_accepted rfl rfl (by
      unfold messageOf
      rw [hc]
      rfl)]
    change (Except.ok (SendWithReplyResult.mk _ (correlationIdOf (some c) ⟨2⟩)), _) = _
    rw [hc]

/-- The responder's panel after the pre-fill. -/
private def filled (c : Utf16) : SendPanel.State :=
  let handed : SendPanel.State :=
    { SendPanel.State.initial ⟨[], []⟩ with
      replyDraft := ReplyDraftService.request ⟨none⟩ ⟨queueName, some c⟩ }
  handed.fill (handed.form.applyReplyDraft ⟨queueName, some c⟩ 1 false)

/-- The responder has typed the payload. -/
private def typed (c : Utf16) : SendPanel.State :=
  { filled c with form := (filled c).form.edit (.payload (Utf16.ofString "2")) }

private def answered (c : Utf16) (hc : correlationIdOf (some c) ⟨2⟩ = c) :
    Response (asked c hc) where
  subscriptionId := ⟨3⟩
  received :=
    { target := Utf16.ofString "(default)"
      routingKey := Utf16.ofString "orders"
      payload := Utf16.ofString "1"
      replyTo := queueName
      correlationId := c
      headers := .empty
      target_valid := by decide
      payload_valid := by decide }
  seq := 0
  target := ⟨queueName, some c⟩
  delivered := rfl
  responded := rfl
  before := .initial ⟨[], []⟩
  confirmed := false
  filled := filled c
  applies := ⟨_, rfl, Nat.one_ne_zero, rfl⟩
  fills := rfl
  edits := [.edit (.payload (Utf16.ofString "2"))]
  edited := typed c
  keeps := ⟨trivial, fun _ _ ↦ trivial⟩
  edits_run := rfl
  expectsNoReply := rfl
  posted :=
    ⟨.messages, [], queueName, Utf16.ofString "2", .empty, (typed c).form.postedCorrelationId⟩
  sent := rfl
  reply :=
    { target := []
      routingKey := queueName
      payload := Utf16.ofString "2"
      replyTo := none
      correlationId := (typed c).form.postedCorrelationId
      headers := .empty
      target_valid := by decide
      payload_valid := by decide }
  built := rfl
  routable := rfl

/-- The loop closes for the id `corr 1`. -/
theorem closes_of_trimmed_id :
    ∃ (r : Request) (x : Response r), r.correlationId = Utf16.ofString "corr 1" ∧
      Closes x .initial [⟨r.handle.value, r.correlationId⟩] :=
  ⟨asked (Utf16.ofString "corr 1") (by decide), answered _ _, rfl,
    (closes_iff _ _ _ List.mem_cons_self).mpr (by decide)⟩

/-- For the id ` a`, with a leading blank, the reply carries `a` and is not listed. -/
theorem not_closes_of_padded_id :
    ∃ (r : Request) (x : Response r), r.correlationId = Utf16.ofString " a" ∧
      (publicationOf x.reply).properties.bind BasicProperties.correlationId
        = some (Utf16.ofString "a") ∧
      ¬Closes x .initial [⟨r.handle.value, r.correlationId⟩] :=
  ⟨asked (Utf16.ofString " a") (by decide), answered _ _, rfl, by decide,
    fun hcloses ↦ absurd hcloses.correlationId (by decide)⟩

end Example

end ReplyLoop

end BusTester
