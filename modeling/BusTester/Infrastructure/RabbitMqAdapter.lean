import BusTester.Domain.BusConnectionConfig
import BusTester.Transition.Run
import Mathlib.Data.Fintype.Defs
import Mathlib.Logic.Function.Basic
import Mathlib.Tactic.Simps.Basic

/-!
# The RabbitMQ adapter, at await granularity

`RabbitMqAdapter` is one object shared by all requests, and its methods are asynchronous. A method
runs without interruption from one `await` to the next, so a call is modelled by the place where it
is suspended (`Pc`) and each resumption is one atomic step. Any number of calls may be in flight,
indexed by an arbitrary type `ι`; they share the connection field, the dictionary of subscription
channels and the semaphore that guards it.

## What a label carries

`Label.start` runs a call up to its first suspension. `Label.resume` says how the awaited operation
settled and runs the call up to its next suspension or its end. Whatever the client library, the
broker and the runtime decide is in the label: whether an awaited operation completed or failed, the
name of a declared queue, the next `Guid.NewGuid()`. The remaining labels are events of the broker.

## The client library

Connections and channels are objects on a heap. Closing a connection closes its channels, disposing
an open object closes it, an operation that ends with `OperationInterruptedException` leaves its
channel or connection closed by the broker, and an operation that fails in another way leaves the
object as it was. (`CreateChannelAsync` has no channel yet when it fails; its connection is lost in
a step of the broker, if at all.) A channel remembers the call that opened it, because the consumer
on it invokes the callback that was passed to that call. The broker may register a consumer at any
time after it was asked to, before `BasicConsumeAsync` returns or after the call has given up
waiting.

The dictionary is a list with the latest entry at the end. The dictionary of .NET gives the slot of
a removed entry to the next one, so it may enumerate its entries in another order. What is proved of
a failing `foreach` is about an arbitrary list; nothing else depends on the order.
-/

namespace BusTester

namespace RabbitMqAdapter

abbrev ConnectionId := ℕ
abbrev ChannelId := ℕ

/-! ## The client library's objects -/

/-- The settings of the `ConnectionFactory` that a connection was created with; a credential that
the configuration lacks is left at the library's default. -/
structure ConnectionFactory where
  hostName : Utf16
  port : ℤ
  userName : Option Utf16
  password : Option Utf16
deriving DecidableEq

/-- An `IConnection`. -/
structure Connection where
  factory : ConnectionFactory
  isOpen : Bool
  disposed : Bool
deriving DecidableEq

/-- The consumer on a channel: none, asked for by `BasicConsumeAsync`, or registered. -/
inductive Consumer where
  | none
  | requested
  | active
deriving DecidableEq

/-- An `IChannel`, opened on `connection` by the call `openedBy`. -/
structure Channel (ι : Type) where
  connection : ConnectionId
  openedBy : ι
  consumer : Consumer
  isOpen : Bool
  disposed : Bool
deriving DecidableEq

/-- The ways in which an awaited operation of the library can fail. -/
inductive Failure where
  | operationInterrupted
  /-- `BrokerUnreachableException`, `SocketException` or `TimeoutException`. -/
  | unreachable
  | canceled
  | other
deriving DecidableEq

/-- An exception of the library that the adapter does not map. -/
def Failure.raw : Failure → BusException
  | .canceled => .operationCanceled
  | .operationInterrupted | .unreachable | .other => .other

/-- How an awaited operation settles. -/
inductive Awaited where
  | completed
  /-- The result of `QueueDeclareAsync`. -/
  | declared (queueName : Utf16)
  | failed (failure : Failure)
deriving DecidableEq

/-! ## Calls -/

/-- The methods that run `TeardownAsync`. -/
inductive Caller where
  | connect (config : BusConnectionConfig)
  | disconnect
  | dispose
deriving DecidableEq

/-- The methods that start a consumer. -/
inductive Consumption where
  | subscribe (queueName : Utf16)
  | declareTemporary
deriving DecidableEq

inductive Call where
  | teardown (caller : Caller)
  | send (message : BusMessage)
  | consume (method : Consumption)
  | unsubscribe (handle : SubscriptionHandle)
deriving DecidableEq

/-- What a call returns. -/
inductive Result where
  | done
  | subscribed (handle : SubscriptionHandle)
  | declared (handle : SubscriptionHandle) (queueName : Utf16)
deriving DecidableEq

/-- The handle that the caller gets. -/
def returnedHandle : Except BusException Result → Option SubscriptionHandle
  | .ok (.subscribed handle) | .ok (.declared handle _) => some handle
  | _ => none

/-- The `await` at which a call is suspended. -/
inductive Pc where
  | idle
  -- `TeardownAsync` and the rest of `ConnectAsync`
  | waitingToTearDown (caller : Caller)
  | closingChannel (caller : Caller) (channel : ChannelId) (rest : List ChannelId)
  | disposingChannel (caller : Caller) (channel : ChannelId) (rest : List ChannelId)
  | closingConnection (caller : Caller) (connection : ConnectionId)
  | disposingConnection (caller : Caller) (connection : ConnectionId)
  | creatingConnection (config : BusConnectionConfig)
  -- `SendAsync`
  | openingToSend (message : BusMessage) (connection : ConnectionId)
  | declaringExchange (message : BusMessage) (channel : ChannelId)
  | publishing (message : BusMessage) (channel : ChannelId)
  | disposingAfterSend (message : BusMessage) (channel : ChannelId) (failure : Option Failure)
  -- `SubscribeAsync` and `DeclareTemporaryReplyQueueAndSubscribeAsync`
  | openingToConsume (method : Consumption) (connection : ConnectionId)
  | declaringQueue (channel : ChannelId)
  | consuming (method : Consumption) (queueName : Utf16) (channel : ChannelId)
  | waitingToRegister (method : Consumption) (queueName : Utf16) (channel : ChannelId)
    (handle : SubscriptionHandle)
  -- `UnsubscribeAsync`
  | waitingToUnsubscribe (handle : SubscriptionHandle)
  | closingUnsubscribed (channel : ChannelId)
  | disposingUnsubscribed (channel : ChannelId)
  | ended (result : Except BusException Result)
deriving DecidableEq

/-- The call has not been made, or has ended. -/
def Pc.atRest : Pc → Bool
  | .idle | .ended _ => true
  | _ => false

/-! ## The adapter's state -/

/-- `BasicProperties`, as far as the adapter sets them. -/
structure BasicProperties where
  replyTo : Option Utf16
  correlationId : Option Utf16
  headers : Option StringMap
deriving DecidableEq

/-- What `BasicPublishAsync` is given; without properties on the plain overload. -/
structure Publication where
  exchange : Utf16
  routingKey : Utf16
  properties : Option BasicProperties
  body : List UInt8
deriving DecidableEq

/-- The adapter, the objects it has obtained and its calls. `issued` lists the handles made so far,
`published` what has reached the broker. -/
structure State (ι : Type) where
  /-- `_connection`. -/
  connection : Option ConnectionId
  /-- `_subscriptionChannels`. -/
  subscriptionChannels : List (SubscriptionHandle × ChannelId)
  /-- The call that has entered `_subscriptionsLock`. -/
  lockHolder : Option ι
  connections : ConnectionId → Connection
  nextConnection : ConnectionId
  channels : ChannelId → Channel ι
  nextChannel : ChannelId
  calls : ι → Pc
  issued : List SubscriptionHandle
  published : List Publication

variable {ι : Type} [DecidableEq ι]

/-- A new adapter: nothing connected, nothing in flight. -/
def State.initial [Inhabited ι] : State ι where
  connection := none
  subscriptionChannels := []
  lockHolder := none
  connections := fun _ ↦ ⟨⟨[], 0, none, none⟩, false, false⟩
  nextConnection := 0
  channels := fun _ ↦ ⟨0, default, .none, false, false⟩
  nextChannel := 0
  calls := fun _ ↦ .idle
  issued := []
  published := []

namespace State

/-- Suspend the call `i` at `pc`, or end it. -/
@[simps -fullyApplied] def goto (s : State ι) (i : ι) (pc : Pc) : State ι :=
  { s with calls := Function.update s.calls i pc }

@[simps -fullyApplied] def closeChannel (s : State ι) (ch : ChannelId) : State ι :=
  { s with channels := Function.update s.channels ch { s.channels ch with isOpen := false } }

@[simps -fullyApplied] def disposeChannel (s : State ι) (ch : ChannelId) : State ι :=
  { s with
    channels := Function.update s.channels ch
      { s.channels ch with isOpen := false, disposed := true } }

/-- The channels after their connection `c` has closed. -/
def channelsWithout (s : State ι) (c : ConnectionId) (ch : ChannelId) : Channel ι :=
  if (s.channels ch).connection = c then { s.channels ch with isOpen := false } else s.channels ch

@[simps -fullyApplied] def closeConnection (s : State ι) (c : ConnectionId) : State ι :=
  { s with
    connections := Function.update s.connections c { s.connections c with isOpen := false }
    channels := s.channelsWithout c }

@[simps -fullyApplied] def disposeConnection (s : State ι) (c : ConnectionId) : State ι :=
  { s with
    connections := Function.update s.connections c
      { s.connections c with isOpen := false, disposed := true }
    channels := s.channelsWithout c }

/-- A new channel on `c`, opened by `i`; closed already when its connection is. -/
@[simps -fullyApplied] def openChannel (s : State ι) (i : ι) (c : ConnectionId) : State ι :=
  { s with
    channels := Function.update s.channels s.nextChannel
      ⟨c, i, .none, (s.connections c).isOpen, false⟩
    nextChannel := s.nextChannel + 1 }

/-- The request of `BasicConsumeAsync`. -/
@[simps -fullyApplied] def requestConsume (s : State ι) (ch : ChannelId) : State ι :=
  { s with
    channels := Function.update s.channels ch { s.channels ch with consumer := .requested } }

/-- `_connection = await factory.CreateConnectionAsync(ct)`. -/
@[simps -fullyApplied] def connected (s : State ι) (factory : ConnectionFactory) : State ι :=
  { s with
    connection := some s.nextConnection
    connections := Function.update s.connections s.nextConnection ⟨factory, true, false⟩
    nextConnection := s.nextConnection + 1 }

/-- What the broker does to the channel of an operation that failed. -/
def interrupt (s : State ι) (ch : ChannelId) (failure : Failure) : State ι :=
  if failure = .operationInterrupted then s.closeChannel ch else s

/-- What the broker does to the connection of an operation that failed. -/
def interruptConnection (s : State ι) (c : ConnectionId) (failure : Failure) : State ι :=
  if failure = .operationInterrupted ∧ (s.connections c).isOpen = true then s.closeConnection c
  else s

/-- No call is in flight. -/
def Quiescent (s : State ι) : Prop := ∀ i, (s.calls i).atRest = true

instance [Fintype ι] (s : State ι) : Decidable s.Quiescent :=
  inferInstanceAs (Decidable (∀ i, (s.calls i).atRest = true))

/-- End the call `i` with an exception. -/
def throw (s : State ι) (i : ι) (ex : BusException) : State ι := s.goto i (.ended (.error ex))

def return' (s : State ι) (i : ι) (result : Result) : State ι := s.goto i (.ended (.ok result))

end State

/-! ## `TeardownAsync`, `ConnectAsync`, `DisconnectAsync`, `DisposeAsync` -/

/-- The factory that `ConnectAsync` configures. -/
def factoryOf (config : BusConnectionConfig) : ConnectionFactory where
  hostName := config.firstServer.host
  port := config.firstServer.port
  userName := config.username
  password := config.password

def couldNotConnect (config : BusConnectionConfig) : BusException :=
  .busConnection (Utf16.ofString "Could not connect to RabbitMQ at " ++ config.firstServer.host
    ++ Utf16.ofString (":" ++ toString config.firstServer.port ++ "."))

/-- An exception leaves `TeardownAsync`; `DisposeAsync` swallows it. -/
def teardownThrow (s : State ι) (i : ι) (caller : Caller) (ex : BusException) : State ι :=
  match caller with
  | .connect _ | .disconnect => s.throw i ex
  | .dispose => s.return' i .done

/-- `TeardownAsync` has returned: `ConnectAsync` goes on to create the connection. -/
def teardownReturn (s : State ι) (i : ι) (caller : Caller) : State ι :=
  match caller with
  | .connect config => s.goto i (.creatingConnection config)
  | .disconnect | .dispose => s.return' i .done

/-- After the `try` block: close the connection if it is open, else go straight to its disposal. -/
def teardownConnection (s : State ι) (i : ι) (caller : Caller) : State ι :=
  match s.connection with
  | none => teardownReturn s i caller
  | some c =>
    if (s.connections c).isOpen then s.goto i (.closingConnection caller c)
    else s.goto i (.disposingConnection caller c)

/-- The `foreach` over the channels not yet torn down, and the end of the `try` block. -/
def teardownLoop (s : State ι) (i : ι) (caller : Caller) : List ChannelId → State ι
  | ch :: rest =>
    if (s.channels ch).isOpen then s.goto i (.closingChannel caller ch rest)
    else s.goto i (.disposingChannel caller ch rest)
  | [] => teardownConnection { s with subscriptionChannels := [], lockHolder := none } i caller

/-- `await _connection.DisposeAsync()`, which reads the field again. -/
def teardownDispose (s : State ι) (i : ι) (caller : Caller) : State ι :=
  match s.connection with
  | none => teardownThrow s i caller .nullReference
  | some c => s.goto i (.disposingConnection caller c)

/-! ## `SendAsync` -/

def requiresRoutingKey : BusException :=
  .argument (Utf16.ofString "RabbitMQ requires a non-blank routing key.")
    (Utf16.ofString "message")

def noActiveConnection : BusException :=
  .busConnection
    (Utf16.ofString "No active RabbitMQ connection. Call ConnectAsync first.")

def couldNotPublish (message : BusMessage) : BusException :=
  .busPublish (Utf16.ofString "Could not publish to exchange '" ++ message.target
    ++ Utf16.ofString "'.")

/-- The arguments of `BasicPublishAsync`: properties are built when a reply address, a correlation
id or a header is present. -/
def publicationOf (message : BusMessage) : Publication where
  exchange := message.target
  routingKey := message.routingKey.getD []
  properties :=
    if message.replyTo.isSome ∨ message.correlationId.isSome ∨
        0 < message.headers.entries.length then
      some {
        replyTo := message.replyTo
        correlationId := message.correlationId
        headers := if 0 < message.headers.entries.length then some message.headers else none }
    else none
  body := Utf8.getBytes message.payload

/-- The `catch` clause of `SendAsync`, after the channel was disposed. -/
def endSend (s : State ι) (i : ι) (message : BusMessage) : Option Failure → State ι
  | none => s.return' i .done
  | some .operationInterrupted => s.throw i (couldNotPublish message)
  | some failure => s.throw i failure.raw

/-! ## `SubscribeAsync` and `DeclareTemporaryReplyQueueAndSubscribeAsync` -/

def couldNotConsume : Consumption → BusException
  | .subscribe queueName =>
    .busSubscription (Utf16.ofString "Could not subscribe to queue '" ++ queueName
      ++ Utf16.ofString "'.")
  | .declareTemporary =>
    .busSubscription (Utf16.ofString "Could not declare/subscribe to a temporary reply queue.")

/-- The `catch` clause of the two methods. -/
def consumeThrow (s : State ι) (i : ι) (method : Consumption) : Failure → State ι
  | .operationInterrupted => s.throw i (couldNotConsume method)
  | failure => s.throw i failure.raw

/-- What the two methods return. -/
def consumeResult (handle : SubscriptionHandle) (queueName : Utf16) : Consumption → Result
  | .subscribe _ => .subscribed handle
  | .declareTemporary => .declared handle queueName

/-! ## Steps -/

inductive Label (ι : Type) where
  /-- Run a new call up to its first suspension. -/
  | start (i : ι) (call : Call)
  /-- Run the call `i` from the settled `await` on; `newGuid` is what `Guid.NewGuid()` returns. -/
  | resume (i : ι) (awaited : Awaited) (newGuid : Guid)
  /-- The broker registers the consumer requested on the channel. -/
  | brokerConsumes (channel : ChannelId)
  | connectionLost (connection : ConnectionId)
  | channelLost (channel : ChannelId)
deriving DecidableEq

/-- The awaited operation of the call `i` succeeds; no new GUID is needed. -/
def Label.succeed (i : ι) : Label ι := .resume i .completed ⟨0⟩

/-- The first segment of a call. -/
def start (s : State ι) (i : ι) : Call → State ι
  | .teardown caller => s.goto i (.waitingToTearDown caller)
  | .send message =>
    if Utf16.isNullOrWhiteSpace message.routingKey then s.throw i requiresRoutingKey
    else
      match s.connection with
      | none => s.throw i noActiveConnection
      | some c => s.goto i (.openingToSend message c)
  | .consume method =>
    match s.connection with
    | none => s.throw i noActiveConnection
    | some c => s.goto i (.openingToConsume method c)
  | .unsubscribe handle => s.goto i (.waitingToUnsubscribe handle)

/-- The segment of `TeardownAsync` and `ConnectAsync` that follows a suspension. -/
def resumeTeardown (s : State ι) (i : ι) (awaited : Awaited) : Pc → Option (State ι)
  | .waitingToTearDown caller =>
    match awaited with
    | .completed =>
      if s.lockHolder = none then
        some (teardownLoop { s with lockHolder := some i } i caller
          (s.subscriptionChannels.map Prod.snd))
      else none
    | .declared _ => none
    | .failed failure => some (teardownThrow s i caller failure.raw)
  | .closingChannel caller ch rest =>
    match awaited with
    | .completed => some ((s.closeChannel ch).goto i (.disposingChannel caller ch rest))
    | .declared _ => none
    -- The `finally` block releases the semaphore; the dictionary keeps its entries.
    | .failed failure =>
      some (teardownThrow { s.interrupt ch failure with lockHolder := none } i caller failure.raw)
  | .disposingChannel caller ch rest =>
    match awaited with
    | .completed => some (teardownLoop (s.disposeChannel ch) i caller rest)
    | .declared _ => none
    | .failed failure =>
      some (teardownThrow { s.interrupt ch failure with lockHolder := none } i caller failure.raw)
  | .closingConnection caller c =>
    match awaited with
    | .completed => some (teardownDispose (s.closeConnection c) i caller)
    | .declared _ => none
    | .failed failure => some (teardownThrow (s.interruptConnection c failure) i caller failure.raw)
  | .disposingConnection caller c =>
    match awaited with
    | .completed =>
      -- The field is cleared whatever it holds by now.
      some (teardownReturn { s.disposeConnection c with connection := none } i caller)
    | .declared _ => none
    | .failed failure => some (teardownThrow (s.interruptConnection c failure) i caller failure.raw)
  | .creatingConnection config =>
    match awaited with
    | .completed => some ((s.connected (factoryOf config)).return' i .done)
    | .declared _ => none
    | .failed .unreachable => some (s.throw i (couldNotConnect config))
    | .failed failure => some (s.throw i failure.raw)
  | _ => none

/-- The segment of `SendAsync` that follows a suspension. -/
def resumeSend (s : State ι) (i : ι) (awaited : Awaited) : Pc → Option (State ι)
  | .openingToSend message c =>
    match awaited with
    | .completed =>
      -- The default exchange cannot be declared.
      some ((s.openChannel i c).goto i
        (if message.target.length ≠ 0 then .declaringExchange message s.nextChannel
          else .publishing message s.nextChannel))
    | .declared _ => none
    | .failed failure => some (endSend s i message (some failure))
  | .declaringExchange message ch =>
    match awaited with
    | .completed => some (s.goto i (.publishing message ch))
    | .declared _ => none
    | .failed failure =>
      some ((s.interrupt ch failure).goto i (.disposingAfterSend message ch (some failure)))
  | .publishing message ch =>
    match awaited with
    | .completed =>
      some (State.goto { s with published := s.published ++ [publicationOf message] } i
        (.disposingAfterSend message ch none))
    | .declared _ => none
    | .failed failure =>
      some ((s.interrupt ch failure).goto i (.disposingAfterSend message ch (some failure)))
  | .disposingAfterSend message ch failure =>
    match awaited with
    | .completed => some (endSend (s.disposeChannel ch) i message failure)
    | .declared _ => none
    | .failed failure => some (endSend (s.interrupt ch failure) i message (some failure))
  | _ => none

/-- The segment of the two consuming methods that follows a suspension. -/
def resumeConsume (s : State ι) (i : ι) (awaited : Awaited) (newGuid : Guid) :
    Pc → Option (State ι)
  | .openingToConsume method c =>
    match awaited with
    | .completed =>
      match method with
      | .subscribe queueName =>
        some (((s.openChannel i c).requestConsume s.nextChannel).goto i
          (.consuming method queueName s.nextChannel))
      | .declareTemporary => some ((s.openChannel i c).goto i (.declaringQueue s.nextChannel))
    | .declared _ => none
    | .failed failure => some (consumeThrow s i method failure)
  | .declaringQueue ch =>
    match awaited with
    | .declared queueName =>
      some ((s.requestConsume ch).goto i (.consuming .declareTemporary queueName ch))
    | .completed => none
    | .failed failure => some (consumeThrow (s.interrupt ch failure) i .declareTemporary failure)
  | .consuming method queueName ch =>
    match awaited with
    | .completed =>
      -- `BasicConsumeAsync` waits for the broker; the handle is made after it.
      if (s.channels ch).consumer = .active ∧ ⟨newGuid⟩ ∉ s.issued then
        some (State.goto { s with issued := ⟨newGuid⟩ :: s.issued } i
          (.waitingToRegister method queueName ch ⟨newGuid⟩))
      else none
    | .declared _ => none
    | .failed failure => some (consumeThrow (s.interrupt ch failure) i method failure)
  | .waitingToRegister method queueName ch handle =>
    match awaited with
    | .completed =>
      if s.lockHolder = none then
        some (State.return' { s with
            subscriptionChannels := s.subscriptionChannels ++ [(handle, ch)] } i
          (consumeResult handle queueName method))
      else none
    | .declared _ => none
    | .failed failure => some (s.throw i failure.raw)
  | _ => none

/-- The channel of a handle. -/
def lookup (handle : SubscriptionHandle) (entries : List (SubscriptionHandle × ChannelId)) :
    Option ChannelId :=
  (entries.find? fun entry ↦ entry.1 = handle).map Prod.snd

/-- The segment of `UnsubscribeAsync` that follows a suspension. -/
def resumeUnsubscribe (s : State ι) (i : ι) (awaited : Awaited) : Pc → Option (State ι)
  | .waitingToUnsubscribe handle =>
    match awaited with
    | .completed =>
      if s.lockHolder = none then
        let removed := { s with
          subscriptionChannels := s.subscriptionChannels.filter fun entry ↦ entry.1 ≠ handle }
        match lookup handle s.subscriptionChannels with
        -- An unknown handle is no error.
        | none => some (removed.return' i .done)
        | some ch => some (removed.goto i (.closingUnsubscribed ch))
      else none
    | .declared _ => none
    | .failed failure => some (s.throw i failure.raw)
  | .closingUnsubscribed ch =>
    match awaited with
    | .completed => some ((s.closeChannel ch).goto i (.disposingUnsubscribed ch))
    | .declared _ => none
    | .failed failure => some ((s.interrupt ch failure).throw i failure.raw)
  | .disposingUnsubscribed ch =>
    match awaited with
    | .completed => some ((s.disposeChannel ch).return' i .done)
    | .declared _ => none
    | .failed failure => some ((s.interrupt ch failure).throw i failure.raw)
  | _ => none

/-- The method to which a suspended call belongs decides the segment that runs. -/
def resume (s : State ι) (i : ι) (awaited : Awaited) (newGuid : Guid) : Option (State ι) :=
  match s.calls i with
  | .idle | .ended _ => none
  | pc@(.waitingToTearDown _) | pc@(.closingChannel _ _ _) | pc@(.disposingChannel _ _ _)
  | pc@(.closingConnection _ _) | pc@(.disposingConnection _ _) | pc@(.creatingConnection _) =>
    resumeTeardown s i awaited pc
  | pc@(.openingToSend _ _) | pc@(.declaringExchange _ _) | pc@(.publishing _ _)
  | pc@(.disposingAfterSend _ _ _) => resumeSend s i awaited pc
  | pc@(.openingToConsume _ _) | pc@(.declaringQueue _) | pc@(.consuming _ _ _)
  | pc@(.waitingToRegister _ _ _ _) => resumeConsume s i awaited newGuid pc
  | pc@(.waitingToUnsubscribe _) | pc@(.closingUnsubscribed _) | pc@(.disposingUnsubscribed _) =>
    resumeUnsubscribe s i awaited pc

/-- One step of the adapter. -/
def step (s : State ι) : Label ι → Option (State ι)
  | .start i call => if s.calls i = .idle then some (start s i call) else none
  | .resume i awaited newGuid => resume s i awaited newGuid
  | .brokerConsumes ch =>
    if (s.channels ch).consumer = .requested ∧ (s.channels ch).isOpen = true then
      some { s with
        channels := Function.update s.channels ch { s.channels ch with consumer := .active } }
    else none
  | .connectionLost c => some (s.closeConnection c)
  | .channelLost ch => some (s.closeChannel ch)

end RabbitMqAdapter

end BusTester
