import BusTester.Infrastructure.Delivery

/-!
# The hub service of the client

`BusHubService` wraps the SignalR connection: it keeps every message pushed so far, newest first,
the state of the connection as its callbacks report it, and the one promise of `connection.start()`
that all callers share.
-/

namespace BusTester

/-- `ReceivedMessage`: a pushed message with the number of its receipt. -/
structure ReceivedMessage extends MessageReceivedDto where
  seq : ℕ
deriving DecidableEq

/-- `HubConnectionState`. -/
inductive HubConnectionState where
  | idle
  | connecting
  | connected
  | reconnecting
  | disconnected
deriving DecidableEq

/-- The promise that `start` caches. -/
inductive StartPromise where
  | pending
  | resolved
  | rejected
deriving DecidableEq

structure BusHubService where
  messages : List ReceivedMessage
  connectionState : HubConnectionState
  startPromise : Option StartPromise
  nextSeq : ℕ
deriving DecidableEq

namespace BusHubService

def initial : BusHubService := ⟨[], .idle, none, 0⟩

/-- The handler of `MessageReceived`. -/
def onMessageReceived (s : BusHubService) (message : MessageReceivedDto) : BusHubService :=
  { s with messages := ⟨message, s.nextSeq⟩ :: s.messages, nextSeq := s.nextSeq + 1 }

def onreconnecting (s : BusHubService) : BusHubService :=
  { s with connectionState := .reconnecting }

def onreconnected (s : BusHubService) : BusHubService := { s with connectionState := .connected }

def onclose (s : BusHubService) : BusHubService := { s with connectionState := .disconnected }

/-- `start`, up to the promise it returns: a repeated call changes nothing. -/
def start (s : BusHubService) : BusHubService :=
  match s.startPromise with
  | none => { s with connectionState := .connecting, startPromise := some .pending }
  | some _ => s

/-- `connection.start()` settles. -/
def onStarted (s : BusHubService) (ok : Bool) : BusHubService :=
  if ok then { s with connectionState := .connected, startPromise := some .resolved }
  else { s with connectionState := .disconnected, startPromise := some .rejected }

def clearSubscription (s : BusHubService) (subscriptionId : Guid) : BusHubService :=
  { s with messages := s.messages.filter fun m ↦ m.subscriptionId ≠ subscriptionId }

/-- The pushes for one subscription, in the order of their receipt. -/
def received (s : BusHubService) (subscriptionId : Guid) : List MessageReceivedDto :=
  ((s.messages.filter fun m ↦ m.subscriptionId = subscriptionId).map
    ReceivedMessage.toMessageReceivedDto).reverse

variable {s : BusHubService} {message : MessageReceivedDto} {id other : Guid}

@[simp] theorem messages_start : s.start.messages = s.messages := by
  unfold start
  split <;> rfl

@[simp] theorem messages_onStarted {ok : Bool} : (s.onStarted ok).messages = s.messages := by
  cases ok <;> rfl

@[simp] theorem nextSeq_start : s.start.nextSeq = s.nextSeq := by
  unfold start
  split <;> rfl

@[simp] theorem nextSeq_onStarted {ok : Bool} : (s.onStarted ok).nextSeq = s.nextSeq := by
  cases ok <;> rfl

theorem received_onMessageReceived :
    (s.onMessageReceived message).received id
      = s.received id ++ if message.subscriptionId = id then [message] else [] := by
  unfold received onMessageReceived
  by_cases h : message.subscriptionId = id <;> simp [h]

theorem received_clearSubscription (h : id ≠ other) :
    (s.clearSubscription other).received id = s.received id := by
  unfold received clearSubscription
  rw [List.filter_filter]
  congr 2
  refine List.filter_congr fun m _ ↦ ?_
  by_cases hm : m.subscriptionId = id
  · simp [hm, h]
  · simp [hm]

end BusHubService

end BusTester
