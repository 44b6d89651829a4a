import BusTester.Application.Coordinator
import Mathlib.Data.Finset.Basic

/-!
# Sending a message that expects a reply

`SendMessageWithReplyUseCase.HandleAsync` declares and subscribes a temporary reply queue,
registers the handle, builds the message and sends it; when the send throws it unsubscribes and
unregisters the handle before it rethrows. The definition follows the source statement by
statement, in a monad that keeps the state when an exception is thrown.

The port is a parameter: what it answers is given by a `Port`, and its live subscriptions are part
of the state. Two of its operations are taken as `IBusPort` promises them: a successful declare
returns a live handle, and an unsubscribe succeeds.

The message is built between the declare and the `try`, so a command that `BusMessage` refuses
leaves the reply queue behind: `leavesNothingBehind_iff` says that this is the only way.
-/

namespace BusTester

/-- `BrokerCapabilities`. -/
structure BrokerCapabilities where
  brokerName : Utf16
  supportsRequestReply : Bool
deriving DecidableEq

/-- `SendMessageWithReplyCommand`. -/
structure SendMessageWithReplyCommand where
  target : Option Utf16
  routingKey : Option Utf16
  payload : Option Utf16
  correlationId : Option Utf16
  headers : Option StringMap

/-- `SendWithReplyResult`. -/
structure SendWithReplyResult where
  subscriptionId : SubscriptionHandle
  correlationId : Utf16
deriving DecidableEq

namespace SendMessageWithReplyUseCase

/-- What the port answers to one execution of the use case, and the identifier that
`Guid.NewGuid()` would give. -/
structure Port where
  capabilities : BrokerCapabilities
  declareTemporaryReplyQueueAndSubscribe : Except BusException (SubscriptionHandle × Utf16)
  send : BusMessage → Except BusException Unit
  newGuid : Guid

/-- What the use case changes: the coordinator, and the subscriptions live in the port. -/
structure Services where
  coordinator : SubscriptionCoordinator
  live : Finset SubscriptionHandle

/-- Computations that may throw, and keep their effects when they do. -/
abbrev UseCaseM := ExceptT BusException (StateM Services)

namespace Port

/-- The handle that a successful declare returns is new to both registries. -/
def FreshIn (port : Port) (s : Services) : Prop :=
  ∀ handle queueName, port.declareTemporaryReplyQueueAndSubscribe = .ok (handle, queueName) →
    ¬s.coordinator.IsRegistered handle ∧ handle ∉ s.live

def declareAsync (port : Port) : UseCaseM (SubscriptionHandle × Utf16) := do
  match port.declareTemporaryReplyQueueAndSubscribe with
  | .error ex => throw ex
  | .ok (handle, queueName) =>
    modify fun s ↦ { s with live := insert handle s.live }
    return (handle, queueName)

def sendAsync (port : Port) (message : BusMessage) : UseCaseM Unit :=
  match port.send message with
  | .error ex => throw ex
  | .ok () => return ()

def unsubscribeAsync (handle : SubscriptionHandle) : UseCaseM Unit :=
  modify fun s ↦ { s with live := s.live.erase handle }

end Port

def register (handle : SubscriptionHandle) : UseCaseM Unit :=
  modify fun s ↦ { s with coordinator := s.coordinator.register handle }

def unregister (handle : SubscriptionHandle) : UseCaseM Unit :=
  modify fun s ↦ { s with coordinator := s.coordinator.unregister handle }

/-- The correlation id: the caller's unless it is blank, else a generated one. -/
def correlationIdOf (correlationId : Option Utf16) (newGuid : Guid) : Utf16 :=
  match correlationId with
  | none => newGuid.toString
  | some c => if Utf16.isNullOrWhiteSpace (some c) then newGuid.toString else c

/-- The `try` block: send, and on an exception undo the subscription and rethrow. -/
def sendOrCleanUp (port : Port) (registeredHandle : SubscriptionHandle) (message : BusMessage) :
    UseCaseM Unit := do
  try
    port.sendAsync message
  catch ex =>
    Port.unsubscribeAsync registeredHandle
    unregister registeredHandle
    throw ex

/-- `SendMessageWithReplyUseCase.HandleAsync`. -/
def handleAsync (port : Port) (command : SendMessageWithReplyCommand) :
    UseCaseM SendWithReplyResult := do
  if !port.capabilities.supportsRequestReply then
    throw (.requestReplyNotSupported (Utf16.ofString "The connected broker '"
      ++ port.capabilities.brokerName
      ++ Utf16.ofString "' does not support request-reply messaging."))
  let (registeredHandle, queueName) ← port.declareAsync
  register registeredHandle
  let correlationId := correlationIdOf command.correlationId port.newGuid
  let message ← ExceptT.mk (pure (BusMessage.create command.target command.routingKey
    command.payload queueName correlationId command.headers))
  sendOrCleanUp port registeredHandle message
  return { subscriptionId := registeredHandle, correlationId }

/-- A failed execution leaves the registered handles and the live subscriptions as they were. -/
def LeavesNothingBehind (port : Port) (command : SendMessageWithReplyCommand) (s : Services) :
    Prop :=
  ∀ ex s', (handleAsync port command).run.run s = (.error ex, s') →
    (∀ handle, s'.coordinator.IsRegistered handle ↔ s.coordinator.IsRegistered handle) ∧
      s'.live = s.live

/-! ## What one execution does -/

/-- The state between the registration of the handle and the end of the use case. -/
def Services.subscribed (s : Services) (handle : SubscriptionHandle) : Services :=
  { coordinator := s.coordinator.register handle, live := insert handle s.live }

/-- The state after the clean-up of the `catch` block. -/
def Services.cleanedUp (s : Services) (handle : SubscriptionHandle) : Services :=
  { coordinator := s.coordinator.unregister handle, live := s.live.erase handle }

variable {port : Port} {command : SendMessageWithReplyCommand} {s : Services}
  {handle : SubscriptionHandle} {queueName : Utf16} {ex : BusException} {message : BusMessage}

/-- The constructor call of `HandleAsync`. -/
def messageOf (port : Port) (command : SendMessageWithReplyCommand) (queueName : Utf16) :
    Except BusException BusMessage :=
  BusMessage.create command.target command.routingKey command.payload queueName
    (correlationIdOf command.correlationId port.newGuid) command.headers

theorem run_of_not_supported (h : port.capabilities.supportsRequestReply = false) :
    ∃ ex, (handleAsync port command).run.run s = (.error ex, s) := by
  simp only [handleAsync, h]
  exact ⟨_, rfl⟩

private theorem run_map {α β : Type} (f : α → β) (x : UseCaseM α) :
    (f <$> x).run.run s = ((x.run.run s).1.map f, (x.run.run s).2) := by
  rw [ExceptT.run_map]
  rfl

section Supported

variable (h : port.capabilities.supportsRequestReply = true)
include h

theorem run_of_declare_throws (hdeclare : port.declareTemporaryReplyQueueAndSubscribe = .error ex) :
    (handleAsync port command).run.run s = (.error ex, s) := by
  unfold handleAsync Port.declareAsync
  rw [hdeclare]
  simp [h]
  rfl

variable (hdeclare : port.declareTemporaryReplyQueueAndSubscribe = .ok (handle, queueName))
include hdeclare

private theorem run_of_declared : (handleAsync port command).run.run s
    = (do
        let message ← ExceptT.mk (pure (messageOf port command queueName))
        sendOrCleanUp port handle message
        return ⟨handle, correlationIdOf command.correlationId port.newGuid⟩ :
          UseCaseM SendWithReplyResult).run.run (s.subscribed handle) := by
  simp only [handleAsync, h, Port.declareAsync, hdeclare]
  rfl

/-- The message is refused after the handle was registered, outside the `try`. -/
theorem run_of_message_refused (hmessage : messageOf port command queueName = .error ex) :
    (handleAsync port command).run.run s = (.error ex, s.subscribed handle) := by
  rw [run_of_declared h hdeclare, hmessage]
  rfl

theorem run_of_message_accepted (hmessage : messageOf port command queueName = .ok message) :
    (handleAsync port command).run.run s
      = match port.send message with
        | .error ex => (.error ex, (s.subscribed handle).cleanedUp handle)
        | .ok () => (.ok ⟨handle, correlationIdOf command.correlationId port.newGuid⟩,
            s.subscribed handle) := by
  have hmap := run_map (s := s.subscribed handle) (fun _ ↦ SendWithReplyResult.mk handle
    (correlationIdOf command.correlationId port.newGuid)) (sendOrCleanUp port handle message)
  rw [run_of_declared h hdeclare, hmessage]
  refine hmap.trans ?_
  unfold sendOrCleanUp Port.sendAsync
  cases port.send message <;> rfl

end Supported

theorem cleanedUp_subscribed (hregistered : ¬s.coordinator.IsRegistered handle)
    (hlive : handle ∉ s.live) : (s.subscribed handle).cleanedUp handle = s := by
  simp only [Services.cleanedUp, Services.subscribed,
    SubscriptionCoordinator.unregister_register hregistered, Finset.erase_insert hlive]

/-- The commands of which `BusMessage` refuses the target or the payload, reaching a port that has
already declared the reply queue. -/
def RefusedAfterDeclare (port : Port) (command : SendMessageWithReplyCommand) : Prop :=
  port.capabilities.supportsRequestReply = true ∧
    (∃ declared, port.declareTemporaryReplyQueueAndSubscribe = .ok declared) ∧
    ¬BusMessage.Accepts command.target command.payload

/-- **A failed send-with-reply leaves nothing behind, except for a refused message.** -/
theorem leavesNothingBehind_iff (hfresh : port.FreshIn s) :
    LeavesNothingBehind port command s ↔ ¬RefusedAfterDeclare port command := by
  constructor
  · rintro hclean ⟨hsupported, ⟨⟨handle, queueName⟩, hdeclare⟩, hrefused⟩
    obtain ⟨ex, hmessage⟩ : ∃ ex, messageOf port command queueName = .error ex := by
      cases hm : messageOf port command queueName with
      | error ex => exact ⟨ex, rfl⟩
      | ok message => exact absurd (BusMessage.accepts_of_create hm) hrefused
    have hafter := hclean _ _ (run_of_message_refused hsupported hdeclare hmessage)
    exact (hfresh handle queueName hdeclare).1
      ((hafter.1 handle).mp SubscriptionCoordinator.isRegistered_register_self)
  · intro hnot ex s' hrun
    -- Every other failure ends in the state before the call.
    suffices s' = s by
      rw [this]
      exact ⟨fun _ ↦ Iff.rfl, rfl⟩
    cases hsupported : port.capabilities.supportsRequestReply with
    | false =>
      obtain ⟨ex', hrun'⟩ := run_of_not_supported hsupported
      exact (Prod.mk.inj (hrun.symm.trans hrun')).2
    | true =>
      cases hdeclare : port.declareTemporaryReplyQueueAndSubscribe with
      | error ex' =>
        exact (Prod.mk.inj (hrun.symm.trans (run_of_declare_throws hsupported hdeclare))).2
      | ok declared =>
        obtain ⟨handle, queueName⟩ := declared
        have haccepts : BusMessage.Accepts command.target command.payload := by
          by_contra hrefused
          exact hnot ⟨hsupported, ⟨_, hdeclare⟩, hrefused⟩
        obtain ⟨message, hmessage⟩ : ∃ message, messageOf port command queueName = .ok message :=
          BusMessage.exists_create_of_accepts haccepts _ _ _ _
        have hrun' := run_of_message_accepted (s := s) hsupported hdeclare hmessage
        cases hsend : port.send message with
        | error ex' =>
          rw [hsend] at hrun'
          -- The one failure after the declare: the `catch` block undoes both registrations.
          rw [(Prod.mk.inj (hrun.symm.trans hrun')).2]
          exact cleanedUp_subscribed (hfresh handle queueName hdeclare).1
            (hfresh handle queueName hdeclare).2
        | ok _ =>
          rw [hsend] at hrun'
          cases (Prod.mk.inj (hrun.symm.trans hrun')).1

/-! ## Two concrete executions

A port that declares the queue `amq.gen-1` for a fresh handle, and an idle process. -/

private def firstHandle : SubscriptionHandle := ⟨⟨1⟩⟩

private def declaringPort (send : BusMessage → Except BusException Unit) : Port where
  capabilities := ⟨Utf16.ofString "RabbitMQ", true⟩
  declareTemporaryReplyQueueAndSubscribe := .ok (firstHandle, Utf16.ofString "amq.gen-1")
  send := send
  newGuid := ⟨2⟩

private def commandWithPayload (payload : Utf16) : SendMessageWithReplyCommand where
  target := Utf16.ofString "orders"
  routingKey := Utf16.ofString "orders.created"
  payload := payload
  correlationId := none
  headers := none

private def idle : Services := ⟨SubscriptionCoordinator.initial, ∅⟩

private theorem declaringPort_freshIn_idle (send : BusMessage → Except BusException Unit) :
    (declaringPort send).FreshIn idle := by
  intro handle queueName _
  simp [idle, SubscriptionCoordinator.initial, SubscriptionCoordinator.IsRegistered]

/-- A send that throws is undone. -/
theorem leavesNothingBehind_of_failing_send :
    LeavesNothingBehind (declaringPort fun _ ↦ .error (.busPublish []))
      (commandWithPayload (Utf16.ofString "1")) idle :=
  (leavesNothingBehind_iff (declaringPort_freshIn_idle _)).mpr fun hrefused ↦
    hrefused.2.2 (by decide)

/-- An empty payload is refused after the declare, and the reply queue stays subscribed. -/
theorem not_leavesNothingBehind_of_empty_payload :
    (declaringPort fun _ ↦ .ok ()).FreshIn idle ∧
      ¬LeavesNothingBehind (declaringPort fun _ ↦ .ok ()) (commandWithPayload []) idle := by
  refine ⟨declaringPort_freshIn_idle _, fun hclean ↦ ?_⟩
  have hmessage : messageOf (declaringPort fun _ ↦ .ok ()) (commandWithPayload [])
      (Utf16.ofString "amq.gen-1") = .error BusMessage.payloadRequired := by decide
  have hlive := (hclean _ _ (run_of_message_refused rfl rfl hmessage)).2
  exact absurd hlive (by decide)

end SendMessageWithReplyUseCase

end BusTester
