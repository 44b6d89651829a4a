import BusTester.Application.Coordinator
import BusTester.Infrastructure.ChannelOwnership
import BusTester.Infrastructure.Delivery

/-!
# What the backend buffers

The use cases, the adapter and the coordinator together. An execution of a use case is an index `i`,
and so is the adapter call it awaits. `SubscribeUseCase` starts a consumer, assigns the handle in
the closure `OnMessage` and registers it with the coordinator; `SendMessageWithReplyUseCase` begins
with the same three statements. `UnsubscribeUseCase`, and the clean-up of a failed send with reply,
await `UnsubscribeAsync` and then unregister. Every other use of the adapter is a call without
further statements.

Deliveries are dispatched by the client library, on a thread of its own, to the consumer of an open
channel. Dispatching is one step: the handler looks at `handle` and then at the coordinator, and
whatever it finds at the later moment it would find if it ran there as a whole.

The handler drops a message when `handle` is still null, and the coordinator drops it when the
handle is not registered yet. `nothingLost_iff` says that these, and a delivery that is no
`BusMessage`, are exactly the ways in which a subscription loses a message.
-/

namespace BusTester

namespace Backend

open Transition
open RabbitMqAdapter (Call ChannelId HandlesIssued returnedHandle)

/-- How far a use case has come. -/
inductive Execution where
  | idle
  /-- Awaiting `SubscribeAsync` or `DeclareTemporaryReplyQueueAndSubscribeAsync`. -/
  | subscribing
  /-- `handle = registeredHandle` has run. -/
  | assigned (handle : SubscriptionHandle)
  /-- `_coordinator.Register(registeredHandle)` has run; `SubscribeUseCase` returns. -/
  | registered (handle : SubscriptionHandle)
  /-- Awaiting `UnsubscribeAsync`. -/
  | unsubscribing (handle : SubscriptionHandle)
  | unsubscribed
  /-- A call of the adapter that is followed by nothing of interest here. -/
  | calling
deriving DecidableEq

/-- The variable `handle` that `OnMessage` captures. -/
def Execution.closure : Execution → Option SubscriptionHandle
  | .assigned handle | .registered handle => some handle
  | _ => none

/-- `Register` has run. -/
def Execution.hasRegistered : Execution → Bool
  | .registered _ => true
  | _ => false

theorem Execution.hasRegistered_iff {e : Execution} :
    e.hasRegistered = true ↔ ∃ handle, e = .registered handle := by
  cases e <;> simp [hasRegistered]

/-- The use case that makes a call of the adapter. -/
def executionOf : Call → Execution
  | .consume _ => .subscribing
  | .unsubscribe handle => .unsubscribing handle
  | .teardown _ | .send _ => .calling

/-- The backend. `dispatched` records, for each execution, what was dispatched to its consumer. -/
structure State (ι : Type) where
  adapter : RabbitMqAdapter.State ι
  coordinator : SubscriptionCoordinator
  executions : ι → Execution
  dispatched : ι → List Delivery

inductive Label (ι : Type) where
  /-- A use case begins, and its call of the adapter with it. -/
  | start (i : ι) (call : Call)
  /-- A step of the adapter, other than the beginning of a call. -/
  | adapter (a : RabbitMqAdapter.Label ι)
  /-- `handle = registeredHandle`. -/
  | assign (i : ι)
  /-- `_coordinator.Register(registeredHandle)`. -/
  | register (i : ι)
  /-- `_coordinator.Unregister(handle)`. -/
  | unregister (i : ι)
  /-- The library dispatches a delivery to the consumer on the channel. -/
  | dispatch (channel : ChannelId) (delivery : Delivery)
deriving DecidableEq

variable {ι : Type} [DecidableEq ι]

def State.initial [Inhabited ι] : State ι where
  adapter := .initial
  coordinator := .initial
  executions := fun _ ↦ .idle
  dispatched := fun _ ↦ []

/-- `OnMessage`, as the execution `i` has captured it. -/
def onMessage (s : State ι) (i : ι) (message : BusMessage) : SubscriptionCoordinator :=
  match (s.executions i).closure with
  | none => s.coordinator
  | some handle => s.coordinator.onMessageReceived handle message

/-- The handler of the consumer; the exception of a delivery that is no message ends it. -/
def handle (s : State ι) (i : ι) (delivery : Delivery) : SubscriptionCoordinator :=
  match delivery.received with
  | .error _ => s.coordinator
  | .ok message => onMessage s i message

/-- One step of the backend. -/
def step (s : State ι) : Label ι → Option (State ι)
  | .start i call =>
    if s.executions i = .idle then
      (RabbitMqAdapter.step s.adapter (.start i call)).map fun adapter ↦
        { s with adapter, executions := Function.update s.executions i (executionOf call) }
    else none
  | .adapter (.start _ _) => none
  | .adapter a => (RabbitMqAdapter.step s.adapter a).map fun adapter ↦ { s with adapter }
  | .assign i =>
    match s.executions i, s.adapter.calls i with
    | .subscribing, .ended result =>
      (returnedHandle result).map fun handle ↦
        { s with executions := Function.update s.executions i (.assigned handle) }
    | _, _ => none
  | .register i =>
    match s.executions i with
    | .assigned handle => some { s with
        coordinator := s.coordinator.register handle
        executions := Function.update s.executions i (.registered handle) }
    | _ => none
  | .unregister i =>
    match s.executions i, s.adapter.calls i with
    | .unsubscribing handle, .ended (.ok _) => some { s with
        coordinator := s.coordinator.unregister handle
        executions := Function.update s.executions i .unsubscribed }
    | _, _ => none
  | .dispatch ch delivery =>
    -- The consumer has the callback of the call that opened its channel.
    let i := (s.adapter.channels ch).openedBy
    if (s.adapter.channels ch).consumer = .active ∧ (s.adapter.channels ch).isOpen = true then
      some { s with
        coordinator := handle s i delivery
        dispatched := Function.update s.dispatched i (s.dispatched i ++ [delivery]) }
    else none

variable {s t : State ι} {i j : ι} {h : SubscriptionHandle} {a : Label ι}

/-! ## What each step needs and does -/

theorem start_spec {call : Call} (hstep : step s (.start i call) = some t) :
    s.executions i = .idle ∧ ∃ adapter,
      RabbitMqAdapter.step s.adapter (.start i call) = some adapter ∧ t = { s with
        adapter
        executions := Function.update s.executions i (executionOf call) } := by
  simp only [step, Option.ite_none_right_eq_some, Option.map_eq_some_iff] at hstep
  obtain ⟨hidle, adapter, hadapter, rfl⟩ := hstep
  exact ⟨hidle, adapter, hadapter, rfl⟩

theorem adapter_spec {b : RabbitMqAdapter.Label ι} (hstep : step s (.adapter b) = some t) :
    (∀ i call, b ≠ .start i call) ∧
      ∃ adapter, RabbitMqAdapter.step s.adapter b = some adapter ∧ t = { s with adapter } := by
  have hmap : (RabbitMqAdapter.step s.adapter b).map (fun adapter ↦ { s with adapter }) = some t →
      ∃ adapter, RabbitMqAdapter.step s.adapter b = some adapter ∧ t = { s with adapter } := by
    intro hmap
    obtain ⟨adapter, hadapter, rfl⟩ := Option.map_eq_some_iff.mp hmap
    exact ⟨adapter, hadapter, rfl⟩
  cases b with
  | start k call => cases hstep
  | _ => exact ⟨nofun, hmap hstep⟩

theorem assign_spec (hstep : step s (.assign i) = some t) :
    ∃ result handle, s.executions i = .subscribing ∧ s.adapter.calls i = .ended result ∧
      returnedHandle result = some handle ∧
      t = { s with executions := Function.update s.executions i (.assigned handle) } := by
  simp only [step] at hstep
  split at hstep
  · rename_i result hexecution hcall
    obtain ⟨handle, hreturned, rfl⟩ := Option.map_eq_some_iff.mp hstep
    exact ⟨result, handle, hexecution, hcall, hreturned, rfl⟩
  · cases hstep

theorem register_spec (hstep : step s (.register i) = some t) :
    ∃ handle, s.executions i = .assigned handle ∧ t = { s with
      coordinator := s.coordinator.register handle
      executions := Function.update s.executions i (.registered handle) } := by
  simp only [step] at hstep
  split at hstep
  · rename_i handle hexecution
    cases hstep
    exact ⟨handle, hexecution, rfl⟩
  · cases hstep

theorem unregister_spec (hstep : step s (.unregister i) = some t) :
    ∃ handle result, s.executions i = .unsubscribing handle ∧
      s.adapter.calls i = .ended (.ok result) ∧ t = { s with
        coordinator := s.coordinator.unregister handle
        executions := Function.update s.executions i .unsubscribed } := by
  simp only [step] at hstep
  split at hstep
  · rename_i handle result hexecution hcall
    cases hstep
    exact ⟨handle, result, hexecution, hcall, rfl⟩
  · cases hstep

theorem dispatch_spec {ch : ChannelId} {delivery : Delivery}
    (hstep : step s (.dispatch ch delivery) = some t) : t = { s with
      coordinator := handle s (s.adapter.channels ch).openedBy delivery
      dispatched := Function.update s.dispatched (s.adapter.channels ch).openedBy
        (s.dispatched (s.adapter.channels ch).openedBy ++ [delivery]) } := by
  simp only [step, Option.ite_none_right_eq_some, Option.some.injEq] at hstep
  exact hstep.2.symm

/-! ## The property and the condition -/

/-- Everything dispatched to the consumer of `i` is in the buffer of `h`, once and in order. -/
def NothingLost (s : State ι) (i : ι) (h : SubscriptionHandle) : Prop :=
  (s.coordinator.getMessages h).map .ok = (s.dispatched i).map Delivery.received

/-- The deliveries considered have a payload. -/
def PayloadsNotBlank (_ : State ι) : Label ι → Prop
  | .dispatch _ delivery => Utf16.isNullOrWhiteSpace (some delivery.payload) = false
  | _ => True

/-- A delivery to the consumer of `i` comes after its handle was registered, and its exchange is not
named by white space only. -/
def DispatchedInTime (i : ι) (s : State ι) : Label ι → Prop
  | .dispatch ch delivery =>
    (s.adapter.channels ch).openedBy = i →
      (s.executions i).hasRegistered = true ∧ ¬WhiteSpaceOnly delivery.exchange
  | _ => True

instance (s : State ι) : DecidablePred (PayloadsNotBlank s)
  | .dispatch _ delivery =>
    inferInstanceAs (Decidable (Utf16.isNullOrWhiteSpace (some delivery.payload) = false))
  | .start _ _ | .adapter _ | .assign _ | .register _ | .unregister _ => isTrue trivial

instance (i : ι) (s : State ι) : DecidablePred (DispatchedInTime i s)
  | .dispatch ch delivery => inferInstanceAs (Decidable ((s.adapter.channels ch).openedBy = i →
      (s.executions i).hasRegistered = true ∧ ¬WhiteSpaceOnly delivery.exchange))
  | .start _ _ | .adapter _ | .assign _ | .register _ | .unregister _ => isTrue trivial

/-! ## Handles are not shared -/

/-- A captured handle is what the execution's call of the adapter has returned. -/
structure Handles (s : State ι) : Prop where
  adapter : HandlesIssued s.adapter
  returned : ∀ i h, (s.executions i).closure = some h →
    ∃ result, s.adapter.calls i = .ended result ∧ returnedHandle result = some h

omit [DecidableEq ι] in
theorem Handles.unique (hs : Handles s) (hi : (s.executions i).closure = some h)
    (hj : (s.executions j).closure = some h) : i = j := by
  obtain ⟨result, hcall, hresult⟩ := hs.returned i h hi
  obtain ⟨result', hcall', hresult'⟩ := hs.returned j h hj
  refine hs.adapter.unique i j h ?_ ?_
  · rw [hcall]
    exact hresult
  · rw [hcall']
    exact hresult'

omit [DecidableEq ι] in
theorem handles_initial [Inhabited ι] : Handles (State.initial : State ι) :=
  ⟨RabbitMqAdapter.handlesIssued_initial, nofun⟩

theorem Handles.of_adapter {b : RabbitMqAdapter.Label ι} (hs : Handles s)
    (hstep : RabbitMqAdapter.step s.adapter b = some t.adapter)
    (hclosure : ∀ i h, (t.executions i).closure = some h → (s.executions i).closure = some h) :
    Handles t := by
  refine ⟨RabbitMqAdapter.handlesIssued_step hs.adapter hstep, fun i h hi ↦ ?_⟩
  obtain ⟨result, hcall, hresult⟩ := hs.returned i h (hclosure i h hi)
  exact ⟨result, RabbitMqAdapter.calls_of_ended hstep hcall, hresult⟩

theorem Handles.update {e : Execution} (hs : Handles s) (hadapter : t.adapter = s.adapter)
    (hexecutions : t.executions = Function.update s.executions i e)
    (he : ∀ h, e.closure = some h →
      ∃ result, s.adapter.calls i = .ended result ∧ returnedHandle result = some h) :
    Handles t := by
  refine ⟨hadapter ▸ hs.adapter, fun j h hj ↦ ?_⟩
  rw [hadapter]
  by_cases hji : j = i
  · rw [hexecutions, hji, Function.update_self] at hj
    rw [hji]
    exact he h hj
  · rw [hexecutions, Function.update_of_ne hji] at hj
    exact hs.returned j h hj

/-- What a step means to the execution `i`. -/
inductive Effect (i : ι) (s : State ι) (a : Label ι) (t : State ι) : Prop where
  /-- Nothing, or the end of its buffer. -/
  | quiet (hintime : DispatchedInTime i s a) (hdispatched : t.dispatched i = s.dispatched i)
    (hregistered : ∀ h, t.executions i = .registered h ↔ s.executions i = .registered h)
    (hbuffer : ∀ h, s.executions i = .registered h →
      t.coordinator.messagesByHandle h = s.coordinator.messagesByHandle h ∨
        t.coordinator.messagesByHandle h = none)
  | registers (h : SubscriptionHandle) (hintime : DispatchedInTime i s a)
    (hdispatched : t.dispatched i = s.dispatched i)
    (hassigned : s.executions i = .assigned h) (hregistered : t.executions i = .registered h)
    (hbuffer : t.coordinator.messagesByHandle h = some [])
  | dispatches (ch : ChannelId) (delivery : Delivery) (ha : a = .dispatch ch delivery)
    (howner : (s.adapter.channels ch).openedBy = i)
    (hdispatched : t.dispatched i = s.dispatched i ++ [delivery])
    (hexecutions : t.executions = s.executions)
    (hcoordinator : t.coordinator = handle s i delivery)

/-- An execution moves before it has registered a handle, or without having one. -/
theorem Effect.of_update {k : ι} {e : Execution} (hintime : DispatchedInTime i s a)
    (hdispatched : t.dispatched = s.dispatched)
    (hexecutions : t.executions = Function.update s.executions k e)
    (hbefore : ∀ h, s.executions k ≠ .registered h) (hafter : ∀ h, e ≠ .registered h)
    (hbuffer : ∀ h, s.executions i = .registered h →
      t.coordinator.messagesByHandle h = s.coordinator.messagesByHandle h ∨
        t.coordinator.messagesByHandle h = none) : Effect i s a t := by
  refine .quiet hintime (congrFun hdispatched i) (fun h ↦ ?_) hbuffer
  rw [hexecutions]
  by_cases hik : i = k
  · rw [hik, Function.update_self]
    exact iff_of_false (hafter h) (hbefore h)
  · rw [Function.update_of_ne hik]

omit [DecidableEq ι] in
theorem messagesByHandle_handle_of_ne {k : ι} (hs : Handles s) (hik : i ≠ k)
    (hi : s.executions i = .registered h) (delivery : Delivery) :
    (handle s k delivery).messagesByHandle h = s.coordinator.messagesByHandle h := by
  unfold handle onMessage
  split
  · rfl
  · split
    · rfl
    · rename_i h' hk
      have hne : h ≠ h' := by
        rintro rfl
        exact hik (hs.unique (by rw [hi]; rfl) hk)
      rw [SubscriptionCoordinator.messagesByHandle_onMessageReceived, if_neg hne]

/-- **The step lemma**: captured handles stay apart, and what the step means to each execution. -/
theorem effect_of_step (hs : Handles s) (hstep : step s a = some t) :
    Handles t ∧ ∀ i, Effect i s a t := by
  cases a with
  | start k call =>
    obtain ⟨hidle, adapter, hadapter, rfl⟩ := start_spec hstep
    constructor
    · refine hs.of_adapter hadapter fun j h hclosure ↦ ?_
      have hj : (Function.update s.executions k (executionOf call) j).closure = some h := hclosure
      by_cases hjk : j = k
      · rw [hjk, Function.update_self] at hj
        cases call <;> cases hj
      · rwa [Function.update_of_ne hjk] at hj
    · refine fun i ↦ .of_update trivial rfl rfl ?_ ?_ fun _ _ ↦ Or.inl rfl
      · rw [hidle]
        exact nofun
      · cases call <;> exact nofun
  | adapter b =>
    obtain ⟨-, adapter, hadapter, rfl⟩ := adapter_spec hstep
    exact ⟨hs.of_adapter hadapter fun _ _ hj ↦ hj,
      fun i ↦ .quiet trivial rfl (fun _ ↦ Iff.rfl) fun _ _ ↦ Or.inl rfl⟩
  | assign k =>
    obtain ⟨result, h, hexecution, hcall, hreturned, rfl⟩ := assign_spec hstep
    constructor
    · refine hs.update rfl rfl fun h' hh' ↦ ⟨result, hcall, ?_⟩
      rw [hreturned]
      exact hh'
    · refine fun i ↦ .of_update trivial rfl rfl ?_ nofun fun _ _ ↦ Or.inl rfl
      rw [hexecution]
      exact nofun
  | register k =>
    obtain ⟨h, hexecution, rfl⟩ := register_spec hstep
    have hk : (s.executions k).closure = some h := by rw [hexecution]; rfl
    constructor
    · exact hs.update rfl rfl fun h' hh' ↦ hs.returned k h' (hk.trans hh')
    · intro i
      by_cases hik : i = k
      · subst hik
        refine .registers h trivial rfl hexecution (Function.update_self ..) ?_
        rw [SubscriptionCoordinator.messagesByHandle_register, if_pos rfl]
      · refine .quiet trivial rfl (fun h' ↦ ?_) fun h' hi ↦ Or.inl ?_
        · exact (Function.update_of_ne hik (Execution.registered h) s.executions) ▸ Iff.rfl
        · have hne : h' ≠ h := by
            rintro rfl
            exact hik (hs.unique (by rw [hi]; rfl) hk)
          rw [SubscriptionCoordinator.messagesByHandle_register, if_neg hne]
  | unregister k =>
    obtain ⟨h, result, hexecution, hcall, rfl⟩ := unregister_spec hstep
    constructor
    · exact hs.update rfl rfl nofun
    · refine fun i ↦ .of_update trivial rfl rfl ?_ nofun fun h' _ ↦ ?_
      · rw [hexecution]
        exact nofun
      · rw [SubscriptionCoordinator.messagesByHandle_unregister]
        split
        · exact Or.inr rfl
        · exact Or.inl rfl
  | dispatch ch delivery =>
    obtain rfl := dispatch_spec hstep
    refine ⟨⟨hs.adapter, hs.returned⟩, fun i ↦ ?_⟩
    by_cases howner : (s.adapter.channels ch).openedBy = i
    · subst howner
      exact .dispatches ch delivery rfl rfl (Function.update_self ..) rfl rfl
    -- The consumer of another execution: its handler cannot hold the same handle.
    · refine .quiet (fun h ↦ absurd h howner) ?_ (fun _ ↦ Iff.rfl) fun h hi ↦ Or.inl ?_
      · exact Function.update_of_ne (Ne.symm howner) ..
      · exact messagesByHandle_handle_of_ne hs (Ne.symm howner) hi delivery

/-! ## Runs -/

/-- As long as every delivery is dispatched in time. -/
structure Buffers (i : ι) (s : State ι) : Prop where
  handles : Handles s
  before : (∀ h, s.executions i ≠ .registered h) → s.dispatched i = []
  after : ∀ h, s.executions i = .registered h → s.coordinator.IsRegistered h → NothingLost s i h

/-- Once a delivery was not. -/
structure Loses (i : ι) (s : State ι) : Prop where
  handles : Handles s
  before : (∀ h, s.executions i ≠ .registered h) → s.dispatched i ≠ []
  after : ∀ h, s.executions i = .registered h → s.coordinator.IsRegistered h →
    (s.coordinator.getMessages h).length < (s.dispatched i).length

section

omit [DecidableEq ι]

theorem NothingLost.length_eq (hs : NothingLost s i h) :
    (s.coordinator.getMessages h).length = (s.dispatched i).length := by
  have hlength := congrArg List.length hs
  rwa [List.length_map, List.length_map] at hlength

theorem buffer_of_quiet
    (hbuffer : t.coordinator.messagesByHandle h = s.coordinator.messagesByHandle h ∨
      t.coordinator.messagesByHandle h = none)
    (hregistered : t.coordinator.IsRegistered h) :
    s.coordinator.IsRegistered h ∧ t.coordinator.getMessages h = s.coordinator.getMessages h := by
  unfold SubscriptionCoordinator.IsRegistered SubscriptionCoordinator.getMessages at *
  rcases hbuffer with hsame | hnone
  · rw [hsame] at hregistered ⊢
    exact ⟨hregistered, rfl⟩
  · rw [hnone] at hregistered
    cases hregistered

theorem handle_of_received {message : BusMessage} {delivery : Delivery}
    (hi : s.executions i = .registered h) (hreceived : delivery.received = .ok message) :
    handle s i delivery = s.coordinator.onMessageReceived h message := by
  rw [handle, hreceived]
  change onMessage s i message = _
  rw [onMessage, hi]
  rfl

theorem handle_of_not_received {delivery : Delivery}
    (hnot : ¬∃ message, delivery.received = .ok message) :
    handle s i delivery = s.coordinator := by
  unfold handle
  split
  · rfl
  · rename_i message hmessage
    exact absurd ⟨message, hmessage⟩ hnot

end

/-- Only what is dispatched to the consumer of `i` need have a payload. -/
theorem buffers_step (hpayload : ∀ ch delivery, a = .dispatch ch delivery →
      (s.adapter.channels ch).openedBy = i →
        Utf16.isNullOrWhiteSpace (some delivery.payload) = false)
    (hintime : DispatchedInTime i s a) (hs : Buffers i s) (hstep : step s a = some t) :
    Buffers i t := by
  obtain ⟨hhandles, heffect⟩ := effect_of_step hs.handles hstep
  cases heffect i with
  | quiet _ hdispatched hregistered hbuffer =>
    refine ⟨hhandles, fun hbefore ↦ ?_, fun h hi hh ↦ ?_⟩
    · rw [hdispatched]
      exact hs.before fun h hi ↦ hbefore h ((hregistered h).mpr hi)
    · have hi' := (hregistered h).mp hi
      obtain ⟨hh', hmessages⟩ := buffer_of_quiet (hbuffer h hi') hh
      rw [NothingLost, hmessages, hdispatched]
      exact hs.after h hi' hh'
  | registers h _ hdispatched hassigned hregistered hbuffer =>
    have hempty : s.dispatched i = [] := hs.before (by rw [hassigned]; exact nofun)
    refine ⟨hhandles, fun hbefore ↦ absurd hregistered (hbefore h), fun h' hi hh ↦ ?_⟩
    obtain rfl : h = h' := by
      rw [hregistered] at hi
      cases hi
      rfl
    rw [NothingLost, hdispatched, hempty, SubscriptionCoordinator.getMessages, hbuffer]
    rfl
  | dispatches ch delivery ha howner hdispatched hexecutions hcoordinator =>
    subst ha
    obtain ⟨hexecution, hexchange⟩ := hintime howner
    obtain ⟨h, hi⟩ := Execution.hasRegistered_iff.mp hexecution
    obtain ⟨message, hmessage⟩ :=
      (Delivery.exists_received_iff (hpayload ch delivery rfl howner)).mpr hexchange
    rw [handle_of_received hi hmessage] at hcoordinator
    refine ⟨hhandles, fun hbefore ↦ absurd (hexecutions ▸ hi) (hbefore h), fun h' hi' hh ↦ ?_⟩
    obtain rfl : h = h' := by
      rw [hexecutions, hi] at hi'
      cases hi'
      rfl
    rw [hcoordinator, SubscriptionCoordinator.isRegistered_onMessageReceived] at hh
    have hnothing : NothingLost s i h := hs.after h hi hh
    rw [NothingLost, hcoordinator, hdispatched,
      SubscriptionCoordinator.getMessages_onMessageReceived_self hh, List.map_append, hnothing,
      List.map_append, List.map_singleton, List.map_singleton, hmessage]

theorem loses_of_step (hpayload : PayloadsNotBlank s a) (hlate : ¬DispatchedInTime i s a)
    (hs : Buffers i s) (hstep : step s a = some t) : Loses i t := by
  obtain ⟨hhandles, heffect⟩ := effect_of_step hs.handles hstep
  cases heffect i with
  | quiet hintime => exact absurd hintime hlate
  | registers h hintime => exact absurd hintime hlate
  | dispatches ch delivery ha howner hdispatched hexecutions hcoordinator =>
    subst ha
    refine ⟨hhandles, fun _ ↦ by simp [hdispatched], fun h hi hh ↦ ?_⟩
    rw [hexecutions] at hi
    have hnot : ¬∃ message, delivery.received = .ok message := by
      rw [Delivery.exists_received_iff hpayload]
      exact fun hexchange ↦ hlate fun _ ↦ ⟨Execution.hasRegistered_iff.mpr ⟨h, hi⟩, hexchange⟩
    -- The buffer was as long as what had been dispatched, and only the latter grows.
    rw [handle_of_not_received hnot] at hcoordinator
    rw [hcoordinator] at hh
    rw [hcoordinator, hdispatched, (hs.after h hi hh).length_eq, List.length_append]
    exact Nat.lt_succ_self _

theorem loses_step (hs : Loses i s) (hstep : step s a = some t) : Loses i t := by
  obtain ⟨hhandles, heffect⟩ := effect_of_step hs.handles hstep
  cases heffect i with
  | quiet _ hdispatched hregistered hbuffer =>
    refine ⟨hhandles, fun hbefore ↦ ?_, fun h hi hh ↦ ?_⟩
    · rw [hdispatched]
      exact hs.before fun h hi ↦ hbefore h ((hregistered h).mpr hi)
    · have hi' := (hregistered h).mp hi
      obtain ⟨hh', hmessages⟩ := buffer_of_quiet (hbuffer h hi') hh
      rw [hmessages, hdispatched]
      exact hs.after h hi' hh'
  | registers h _ hdispatched hassigned hregistered hbuffer =>
    have hnonempty : s.dispatched i ≠ [] := hs.before (by rw [hassigned]; exact nofun)
    refine ⟨hhandles, fun hbefore ↦ absurd hregistered (hbefore h), fun h' hi hh ↦ ?_⟩
    obtain rfl : h = h' := by
      rw [hregistered] at hi
      cases hi
      rfl
    rw [hdispatched, SubscriptionCoordinator.getMessages, hbuffer]
    exact List.length_pos_of_ne_nil hnonempty
  | dispatches ch delivery ha howner hdispatched hexecutions hcoordinator =>
    refine ⟨hhandles, fun _ ↦ by simp [hdispatched], fun h hi hh ↦ ?_⟩
    rw [hexecutions] at hi
    rw [hdispatched, List.length_append, List.length_singleton]
    by_cases hreceived : ∃ message, delivery.received = .ok message
    · obtain ⟨message, hmessage⟩ := hreceived
      rw [handle_of_received hi hmessage] at hcoordinator
      rw [hcoordinator, SubscriptionCoordinator.isRegistered_onMessageReceived] at hh
      have hless := hs.after h hi hh
      rw [hcoordinator, SubscriptionCoordinator.getMessages_onMessageReceived_self hh,
        List.length_append, List.length_singleton]
      omega
    · rw [handle_of_not_received hreceived] at hcoordinator
      rw [hcoordinator] at hh ⊢
      have hless := hs.after h hi hh
      omega

/-- **A subscription loses nothing exactly if every delivery is dispatched in time.** -/
theorem nothingLost_iff [Inhabited ι] {as : List (Label ι)}
    (hpayloads : Guarded step PayloadsNotBlank State.initial as)
    (hrun : run step State.initial as = some t) (hreturned : t.executions i = .registered h)
    (hregistered : t.coordinator.IsRegistered h) :
    NothingLost t i h ↔ Guarded step (DispatchedInTime i) State.initial as := by
  have hdichotomy := guarded_dichotomy (P := Buffers i) (B := Loses i) (C := DispatchedInTime i)
    ⟨handles_initial, fun _ ↦ rfl, nofun⟩
    (fun _ _ _ hpayload hintime hs hstep ↦ buffers_step
      (fun _ _ ha _ ↦ by subst ha; exact hpayload) hintime hs hstep)
    (fun _ _ _ hpayload hlate hs hstep ↦ loses_of_step hpayload hlate hs hstep)
    (fun _ _ _ _ hs hstep ↦ loses_step hs hstep) hpayloads hrun
  rcases hdichotomy with ⟨hguard, hbuffers⟩ | ⟨hguard, hloses⟩
  · exact iff_of_true (hbuffers.after h hreturned hregistered) hguard
  · refine iff_of_false (fun hnothing ↦ ?_) hguard
    have hless := hloses.after h hreturned hregistered
    rw [hnothing.length_eq] at hless
    exact lt_irrefl _ hless

/-! ## A delivery before and after the registration -/

open RabbitMqAdapter.Label (succeed)

/-- A delivery with the payload `hi`. -/
private def hi : Delivery where
  exchange := []
  routingKey := Utf16.ofString "orders"
  body := [0x68, 0x69]
  replyTo := none
  correlationId := none

/-- One execution connects; the other subscribes, and its consumer has been started. -/
private def consumerStarted : List (Label Bool) :=
  [.start false (.teardown (.connect .localhost)), .adapter (succeed false),
    .adapter (succeed false), .start true (.consume (.subscribe (Utf16.ofString "orders"))),
    .adapter (succeed true), .adapter (.brokerConsumes 0)]

/-- `SubscribeAsync` returns, and `SubscribeUseCase` runs to its end. -/
private def subscribed : List (Label Bool) :=
  [.adapter (.resume true .completed ⟨7⟩), .adapter (succeed true), .assign true, .register true]

/-- A delivery that comes after the registration is buffered. -/
theorem nothingLost_of_late_delivery :
    ∃ t, run step State.initial (consumerStarted ++ subscribed ++ [.dispatch 0 hi]) = some t ∧
      t.dispatched true = [hi] ∧ NothingLost t true ⟨⟨7⟩⟩ := by
  have hpayloads : Guarded step PayloadsNotBlank State.initial
      (consumerStarted ++ subscribed ++ [.dispatch 0 hi]) := by decide
  refine ⟨_, rfl, rfl, (nothingLost_iff hpayloads rfl rfl (by decide)).mpr ?_⟩
  decide

/-- A delivery that comes before `SubscribeAsync` returns is not. -/
theorem not_nothingLost_of_early_delivery :
    ∃ t, Guarded step PayloadsNotBlank State.initial
        (consumerStarted ++ [.dispatch 0 hi] ++ subscribed) ∧
      run step State.initial (consumerStarted ++ [.dispatch 0 hi] ++ subscribed) = some t ∧
      t.executions true = .registered ⟨⟨7⟩⟩ ∧ t.coordinator.IsRegistered ⟨⟨7⟩⟩ ∧
      t.dispatched true = [hi] ∧ t.coordinator.getMessages ⟨⟨7⟩⟩ = [] ∧
      ¬NothingLost t true ⟨⟨7⟩⟩ := by
  refine ⟨_, by decide, rfl, rfl, by decide, rfl, rfl, fun hnothing ↦ ?_⟩
  cases hnothing.length_eq

end Backend

end BusTester
