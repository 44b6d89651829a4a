import BusTester.Client.BusHub
import BusTester.Client.SendComponent

/-!
# The messages panel

The chips of `MessagesComponent`, the subscribe form, and the reply panel. What the methods do to
the services around the component, and the callbacks of the requests they make, is in the steps of
the page.
-/

namespace BusTester

/-- A chip. -/
structure Subscription where
  id : Guid
  queueName : Utf16
deriving DecidableEq

/-- A pending send-with-reply subscription. -/
structure ReplySubscription where
  subscriptionId : Guid
  correlationId : Utf16
deriving DecidableEq

/-- An entry of the reply panel. -/
structure ReplyPanelEntry where
  subscriptionId : Guid
  correlationId : Utf16
  replies : List ReceivedMessage
deriving DecidableEq

structure MessagesComponent where
  queueName : Utf16
  subscriptions : List Subscription
  errorMessage : Option Utf16
deriving DecidableEq

namespace MessagesComponent

def initial : MessagesComponent := ⟨[], [], none⟩

/-- `isDuplicateQueue`. -/
def isDuplicateQueue (c : MessagesComponent) : Bool :=
  c.subscriptions.any fun s ↦ s.queueName = c.queueName

/-- The success callback of the subscribe request, up to the join. -/
def onSubscribed (c : MessagesComponent) (id : Guid) (queueName : Utf16) : MessagesComponent :=
  { c with subscriptions := c.subscriptions ++ [⟨id, queueName⟩] }

/-- The chip goes, as in `finishUnsubscribe`. -/
def removeChip (c : MessagesComponent) (subscriptionId : Guid) : MessagesComponent :=
  { c with subscriptions := c.subscriptions.filter fun s ↦ s.id ≠ subscriptionId }

def withError (c : MessagesComponent) (message : Utf16) : MessagesComponent :=
  { c with errorMessage := some message }

/-- `replyPanel`, over the messages of the hub service and the pending replies. -/
def replyPanel (messages : List ReceivedMessage) (pending : List ReplySubscription) :
    List ReplyPanelEntry :=
  pending.map fun p ↦
    { subscriptionId := p.subscriptionId
      correlationId := p.correlationId
      replies := messages.filter fun m ↦
        m.subscriptionId = p.subscriptionId ∧ m.correlationId = some p.correlationId }

/-- The target that `respond` requests; `none` where it returns because `replyTo` is falsy. -/
def respond (message : ReceivedMessage) : Option ReplyTarget :=
  match message.replyTo with
  | none => none
  | some replyTo => if replyTo = [] then none else some ⟨replyTo, message.correlationId⟩

/-- `ApiClientService.errorDetail`: the detail of the problem, or the text given. -/
def errorDetail (detail : Option Utf16) (fallback : Utf16) : Utf16 :=
  match detail with
  | none => fallback
  | some detail => if 0 < detail.length then detail else fallback

end MessagesComponent

end BusTester
