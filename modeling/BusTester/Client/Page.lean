import BusTester.Client.MessagesComponent
import BusTester.Transition.Run
import Mathlib.Logic.Function.Basic

/-!
# The page and its subscriptions

`MessagesComponent`, the with-reply half of `SendComponent` and the two services they share, with
everything they have in flight: requests to the API, continuations of the start promise, and
invocations of the hub. What comes from outside (a response, the outcome of `connection.start()` or
of an invocation, a push, a callback of the connection) is a label, and a page may see them in any
order.

Chips and pending replies go through the same life. They are listed when the response to a POST
arrives, their group is joined after the start promise has resolved, and when the DELETE has settled
in either way the group is left, the messages are cleared and the entry is removed. A `Flow` says
which of the two is meant.

Callbacks of the connection are atomic with the changes of the connection they report. An invocation
on a connection that is not up is rejected at once, and losing the connection rejects all that are
pending. Errors of SignalR carry no problem details, so `errorDetail` falls back on the given text;
toasts are left out.

`moves_of_step` lists what a step can be. What is said of a step elsewhere is derived from it.
-/

namespace BusTester

namespace Page

open Transition

/-! ## What can be in flight -/

/-- The two ways to subscribe: the form of the messages panel, and a send with reply. -/
inductive Flow where
  | subscribe
  | withReply
deriving DecidableEq

/-- `hubReady.then(() => joinSubscription(...))`. -/
structure Join where
  flow : Flow
  subscriptionId : Guid
deriving DecidableEq

/-- A pending `connection.invoke(...)`. -/
inductive Invocation where
  | joinSubscription (join : Join)
  | leaveSubscription (subscriptionId : Guid)
deriving DecidableEq

/-- A request to the API. -/
inductive Request where
  | subscribe (queueName : Utf16)
  | sendWithReply (body : SendRequest)
  /-- `DELETE /api/subscriptions/{id}`, from `unsubscribe` or `unsubscribeReply`. -/
  | unsubscribe (flow : Flow) (subscriptionId : Guid)
deriving DecidableEq

inductive Response where
  /-- `SubscriptionResponse`. -/
  | subscribed (id : Guid)
  /-- `SendWithReplyResponse`. -/
  | sent (subscriptionId : Guid) (correlationId : Utf16)
  | unsubscribed
  /-- An error, with the detail of its problem. -/
  | failed (detail : Option Utf16)
deriving DecidableEq

/-- The subscription that a response returns. -/
def Response.handle : Response → Option (Flow × Guid)
  | .subscribed id => some (.subscribe, id)
  | .sent id _ => some (.withReply, id)
  | .unsubscribed | .failed _ => none

def Response.isFailure : Response → Bool
  | .failed _ => true
  | .subscribed _ | .sent .. | .unsubscribed => false

/-- The subscription that a request is about to end. -/
def Request.leaves : Request → Option (Flow × Guid)
  | .unsubscribe flow id => some (flow, id)
  | .subscribe _ | .sendWithReply _ => none

/-! ## States and steps -/

structure State where
  hub : BusHubService
  component : MessagesComponent
  /-- `ReplySubscriptionService.pending()`. -/
  pending : List ReplySubscription
  requests : ℕ → Option Request
  nextRequest : ℕ
  awaitingStart : List Join
  invocations : List Invocation

def State.initial : State where
  hub := .initial
  component := .initial
  pending := []
  requests := fun _ ↦ none
  nextRequest := 0
  awaitingStart := []
  invocations := []

inductive Label where
  | editQueueName (value : Utf16)
  | subscribeToQueue
  /-- `sendWithReply` of the send panel. -/
  | sendWithReply (body : SendRequest)
  /-- `unsubscribe`, or `unsubscribeReply`. -/
  | unsubscribe (flow : Flow) (subscriptionId : Guid)
  /-- The request `n` is answered. -/
  | respond (n : ℕ) (response : Response)
  /-- `connection.start()` settles. -/
  | started (ok : Bool)
  /-- The oldest continuation of the settled start promise runs. -/
  | startSettled
  /-- The oldest pending invocation settles. -/
  | settled (ok : Bool)
  | messageReceived (message : MessageReceivedDto)
  | onreconnecting
  | onreconnected
  | onclose
deriving DecidableEq

namespace State

/-- The ids of the entries that are shown. -/
def listed (s : State) : Flow → List Guid
  | .subscribe => s.component.subscriptions.map Subscription.id
  | .withReply => s.pending.map ReplySubscription.subscriptionId

/-- The ids of all entries. -/
def shown (s : State) : List Guid := s.listed .subscribe ++ s.listed .withReply

/-- A join of the subscription is pending, or will be made. -/
def Joins (s : State) (id : Guid) : Prop :=
  (∃ join ∈ s.awaitingStart, join.subscriptionId = id) ∨
    ∃ join, .joinSubscription join ∈ s.invocations ∧ join.subscriptionId = id

def IsConnected (s : State) : Prop := s.hub.connectionState = .connected

instance (s : State) : Decidable s.IsConnected := inferInstanceAs (Decidable (_ = _))

def post (s : State) (request : Request) : State :=
  { s with
    requests := Function.update s.requests s.nextRequest (some request)
    nextRequest := s.nextRequest + 1 }

/-- The `catch` of an invocation, and of the chain that leads to a join. -/
def reject (s : State) : Invocation → State
  | .joinSubscription ⟨.subscribe, _⟩ =>
    { s with component :=
        s.component.withError (Utf16.ofString "No se pudo unir al grupo de suscripción.") }
  | .joinSubscription ⟨.withReply, _⟩ => s
  | .leaveSubscription _ =>
    { s with component :=
        s.component.withError (Utf16.ofString "No se pudo salir del grupo de suscripción.") }

/-- `connection.invoke`. -/
def invoke (s : State) (invocation : Invocation) : State :=
  if s.IsConnected then { s with invocations := s.invocations ++ [invocation] }
  else s.reject invocation

/-- The entry is removed from the list it is shown in. -/
def drop (s : State) (flow : Flow) (id : Guid) : State :=
  match flow with
  | .subscribe => { s with component := s.component.removeChip id }
  | .withReply => { s with pending := s.pending.filter fun p ↦ p.subscriptionId ≠ id }

/-- `finishUnsubscribe` and `finishUnsubscribeReply`. -/
def finish (s : State) (flow : Flow) (id : Guid) : State :=
  let left := s.invoke (.leaveSubscription id)
  drop { left with hub := left.hub.clearSubscription id } flow id

def finishUnsubscribe (s : State) (subscriptionId : Guid) : State :=
  s.finish .subscribe subscriptionId

def finishUnsubscribeReply (s : State) (subscriptionId : Guid) : State :=
  s.finish .withReply subscriptionId

/-- The callbacks of a request. -/
def onResponse (s : State) : Request → Response → Option State
  | .subscribe queueName, .subscribed id => some { s with
      component := s.component.onSubscribed id queueName
      awaitingStart := s.awaitingStart ++ [⟨.subscribe, id⟩] }
  | .subscribe _, .failed detail => some { s with
      component := s.component.withError (MessagesComponent.errorDetail detail
        (Utf16.ofString "No se pudo suscribir a la cola.")) }
  | .sendWithReply _, .sent id correlationId => some { s with
      pending := s.pending ++ [⟨id, correlationId⟩]
      awaitingStart := s.awaitingStart ++ [⟨.withReply, id⟩] }
  | .sendWithReply _, .failed _ => some s
  -- Success and error of a DELETE have the same callback.
  | .unsubscribe .subscribe id, .unsubscribed
  | .unsubscribe .subscribe id, .failed _ => some (s.finishUnsubscribe id)
  | .unsubscribe .withReply id, .unsubscribed
  | .unsubscribe .withReply id, .failed _ => some (s.finishUnsubscribeReply id)
  | _, _ => none

/-- The connection is lost: what was pending on it is rejected, in order. -/
def rejectAll (s : State) : State :=
  s.invocations.foldl reject { s with invocations := [] }

end State

/-- One step of the page. -/
def step (s : State) : Label → Option State
  | .editQueueName value => some { s with component := { s.component with queueName := value } }
  | .subscribeToQueue =>
    -- The guard looks at the chips, not at the requests in flight.
    if s.component.isDuplicateQueue then some s
    else
      some (State.post { s with
        hub := s.hub.start
        component := { s.component with errorMessage := none } } (.subscribe s.component.queueName))
  | .sendWithReply body =>
    if body.endpoint = .withReply then
      some (State.post { s with hub := s.hub.start } (.sendWithReply body))
    else none
  | .unsubscribe flow id => some (s.post (.unsubscribe flow id))
  | .respond n response =>
    match s.requests n with
    | none => none
    | some request =>
      State.onResponse { s with requests := Function.update s.requests n none } request response
  | .started ok =>
    if s.hub.startPromise = some .pending then some { s with hub := s.hub.onStarted ok } else none
  | .startSettled =>
    -- Continuations of one promise run in the order in which they were attached.
    match s.hub.startPromise, s.awaitingStart with
    | some .resolved, join :: rest =>
      some (State.invoke { s with awaitingStart := rest } (.joinSubscription join))
    | some .rejected, join :: rest =>
      some (State.reject { s with awaitingStart := rest } (.joinSubscription join))
    | _, _ => none
  | .settled ok =>
    match s.invocations with
    | [] => none
    | invocation :: rest =>
      if ok then some { s with invocations := rest }
      else some (State.reject { s with invocations := rest } invocation)
  | .messageReceived message => some { s with hub := s.hub.onMessageReceived message }
  | .onreconnecting =>
    if s.IsConnected then some (State.rejectAll { s with hub := s.hub.onreconnecting }) else none
  | .onreconnected =>
    if s.hub.connectionState = .reconnecting then some { s with hub := s.hub.onreconnected }
    else none
  | .onclose =>
    if s.IsConnected ∨ s.hub.connectionState = .reconnecting then
      some (State.rejectAll { s with hub := s.hub.onclose })
    else none

/-! ## What a step can be -/

/-- The state once the request `n` is no longer in flight. -/
def State.answered (s : State) (n : ℕ) : State :=
  { s with requests := Function.update s.requests n none }

/-- The steps of the page, each with what it needs and what it makes of the state. -/
inductive Moves (s : State) : Label → State → Prop where
  | edits (value : Utf16) : Moves s (.editQueueName value)
      { s with component := { s.component with queueName := value } }
  | refuses (hduplicate : s.component.isDuplicateQueue = true) : Moves s .subscribeToQueue s
  | subscribes (hnot : s.component.isDuplicateQueue = false) : Moves s .subscribeToQueue
      (State.post { s with
        hub := s.hub.start
        component := { s.component with errorMessage := none } } (.subscribe s.component.queueName))
  | sends (body : SendRequest) (hbody : body.endpoint = .withReply) : Moves s (.sendWithReply body)
      (State.post { s with hub := s.hub.start } (.sendWithReply body))
  | unsubscribes (flow : Flow) (id : Guid) :
      Moves s (.unsubscribe flow id) (s.post (.unsubscribe flow id))
  /-- A subscription is shown, and its join waits for the connection. -/
  | subscribed (n : ℕ) (queueName : Utf16) (id : Guid)
      (hrequest : s.requests n = some (.subscribe queueName)) :
      Moves s (.respond n (.subscribed id)) { s.answered n with
        component := s.component.onSubscribed id queueName
        awaitingStart := s.awaitingStart ++ [⟨.subscribe, id⟩] }
  | notSubscribed (n : ℕ) (queueName : Utf16) (detail : Option Utf16)
      (hrequest : s.requests n = some (.subscribe queueName)) :
      Moves s (.respond n (.failed detail)) { s.answered n with
        component := s.component.withError (MessagesComponent.errorDetail detail
          (Utf16.ofString "No se pudo suscribir a la cola.")) }
  | sent (n : ℕ) (body : SendRequest) (id : Guid) (correlationId : Utf16)
      (hrequest : s.requests n = some (.sendWithReply body)) :
      Moves s (.respond n (.sent id correlationId)) { s.answered n with
        pending := s.pending ++ [⟨id, correlationId⟩]
        awaitingStart := s.awaitingStart ++ [⟨.withReply, id⟩] }
  | notSent (n : ℕ) (body : SendRequest) (detail : Option Utf16)
      (hrequest : s.requests n = some (.sendWithReply body)) :
      Moves s (.respond n (.failed detail)) (s.answered n)
  /-- Success and error of a DELETE do the same. -/
  | finishes (n : ℕ) (flow : Flow) (id : Guid) (response : Response)
      (hrequest : s.requests n = some (.unsubscribe flow id)) :
      Moves s (.respond n response) ((s.answered n).finish flow id)
  | started (ok : Bool) (hpromise : s.hub.startPromise = some .pending) :
      Moves s (.started ok) { s with hub := s.hub.onStarted ok }
  | joins (join : Join) (rest : List Join) (hpromise : s.hub.startPromise = some .resolved)
      (hawaiting : s.awaitingStart = join :: rest) : Moves s .startSettled
      (State.invoke { s with awaitingStart := rest } (.joinSubscription join))
  /-- The connection was not started, and the join is not made. -/
  | skips (join : Join) (rest : List Join) (hpromise : s.hub.startPromise = some .rejected)
      (hawaiting : s.awaitingStart = join :: rest) : Moves s .startSettled
      (State.reject { s with awaitingStart := rest } (.joinSubscription join))
  | succeeds (invocation : Invocation) (rest : List Invocation)
      (hinvocations : s.invocations = invocation :: rest) :
      Moves s (.settled true) { s with invocations := rest }
  | fails (invocation : Invocation) (rest : List Invocation)
      (hinvocations : s.invocations = invocation :: rest) :
      Moves s (.settled false) (State.reject { s with invocations := rest } invocation)
  | receives (message : MessageReceivedDto) :
      Moves s (.messageReceived message) { s with hub := s.hub.onMessageReceived message }
  | loses (hup : s.IsConnected) :
      Moves s .onreconnecting (State.rejectAll { s with hub := s.hub.onreconnecting })
  | restores (hstate : s.hub.connectionState = .reconnecting) :
      Moves s .onreconnected { s with hub := s.hub.onreconnected }
  | closes (hup : s.IsConnected ∨ s.hub.connectionState = .reconnecting) :
      Moves s .onclose (State.rejectAll { s with hub := s.hub.onclose })

variable {s t : State} {a : Label}

theorem moves_of_respond {n : ℕ} {response : Response}
    (hstep : step s (.respond n response) = some t) : Moves s (.respond n response) t := by
  simp only [step] at hstep
  split at hstep
  · cases hstep
  · rename_i request hrequest
    unfold State.onResponse at hstep
    split at hstep <;> cases hstep
    · exact .subscribed n _ _ hrequest
    · exact .notSubscribed n _ _ hrequest
    · exact .sent n _ _ _ hrequest
    · exact .notSent n _ _ hrequest
    · exact .finishes n .subscribe _ _ hrequest
    · exact .finishes n .subscribe _ _ hrequest
    · exact .finishes n .withReply _ _ hrequest
    · exact .finishes n .withReply _ _ hrequest

theorem moves_of_step (hstep : step s a = some t) : Moves s a t := by
  cases a with
  | editQueueName value =>
    cases hstep
    exact .edits value
  | subscribeToQueue =>
    simp only [step] at hstep
    split at hstep <;> rename_i hduplicate <;> cases hstep
    · exact .refuses hduplicate
    · exact .subscribes (Bool.eq_false_iff.mpr hduplicate)
  | sendWithReply body =>
    obtain ⟨hbody, ht⟩ := Option.ite_none_right_eq_some.mp hstep
    cases ht
    exact .sends body hbody
  | unsubscribe flow id =>
    cases hstep
    exact .unsubscribes flow id
  | respond n response => exact moves_of_respond hstep
  | started ok =>
    obtain ⟨hpromise, ht⟩ := Option.ite_none_right_eq_some.mp hstep
    cases ht
    exact .started ok hpromise
  | startSettled =>
    simp only [step] at hstep
    split at hstep
    · rename_i join rest hpromise hawaiting
      cases hstep
      exact .joins join rest hpromise hawaiting
    · rename_i join rest hpromise hawaiting
      cases hstep
      exact .skips join rest hpromise hawaiting
    · cases hstep
  | settled ok =>
    simp only [step] at hstep
    split at hstep
    · cases hstep
    · rename_i invocation rest hinvocations
      cases ok <;> cases hstep
      · exact .fails invocation rest hinvocations
      · exact .succeeds invocation rest hinvocations
  | messageReceived message =>
    cases hstep
    exact .receives message
  | onreconnecting =>
    obtain ⟨hup, ht⟩ := Option.ite_none_right_eq_some.mp hstep
    cases ht
    exact .loses hup
  | onreconnected =>
    obtain ⟨hstate, ht⟩ := Option.ite_none_right_eq_some.mp hstep
    cases ht
    exact .restores hstate
  | onclose =>
    obtain ⟨hup, ht⟩ := Option.ite_none_right_eq_some.mp hstep
    cases ht
    exact .closes hup

/-! ## Tables of what is in flight -/

section Tables

variable {α : Type} {table : ℕ → Option α} {n m : ℕ} {a b : α}

theorem written_cases (h : Function.update table n (some a) m = some b) :
    (m = n ∧ b = a) ∨ (m ≠ n ∧ table m = some b) := by
  by_cases hmn : m = n
  · rw [hmn, Function.update_self] at h
    exact Or.inl ⟨hmn, (Option.some.inj h).symm⟩
  · rw [Function.update_of_ne hmn] at h
    exact Or.inr ⟨hmn, h⟩

theorem of_cleared (h : Function.update table n none m = some b) :
    m ≠ n ∧ table m = some b := by
  have hmn : m ≠ n := by
    rintro rfl
    rw [Function.update_self] at h
    cases h
  exact ⟨hmn, (Function.update_of_ne hmn none table).symm.trans h⟩

end Tables

end Page

end BusTester
