import BusTester.Application.SendMessageWithReply
import BusTester.Backend.LiveConsumers
import Mathlib.Data.Fintype.Basic

/-!
# The use cases, statement by statement

`Backend` knows of one call of the adapter for each execution. A `SendMessageWithReplyUseCase` makes
up to three, one after the other, and what it does with the third depends on how the second has
ended. Here an execution is the whole of `HandleAsync`: its place in the code is a `Progress`, and
its calls of the adapter are the executions `(i, .first)`, `(i, .send)` and `(i, .cleanUp)` of the
backend below. `Label.proceed` runs the statements from one suspension to the next one by one, since
other threads may run between any two of them.

`step_cases` lists what a step can be. Every step is a step of the backend or leaves it alone, so
the invariants of the backend hold here as well.
-/

namespace BusTester

namespace RabbitMqAdapter

/-- `RabbitMqAdapter.Capabilities`. -/
def capabilities : BrokerCapabilities where
  brokerName := Utf16.ofString "RabbitMQ"
  supportsRequestReply := true

end RabbitMqAdapter

namespace UseCases

open Transition
open RabbitMqAdapter (Call Caller ChannelId)
open SendMessageWithReplyUseCase (correlationIdOf)

/-! ## States -/

/-- The calls of the adapter that one execution may make. -/
inductive Await where
  | first
  | send
  | cleanUp
deriving DecidableEq, Inhabited

/-- A use case with its command. The controllers call `ConnectAsync` and `DisconnectAsync`
directly. -/
inductive UseCase where
  | teardown (caller : Caller)
  | send (message : BusMessage)
  | subscribe (queueName : Utf16)
  | sendWithReply (command : SendMessageWithReplyCommand)
  | unsubscribe (handle : SubscriptionHandle)

/-- What `HandleAsync` returns. -/
inductive Outcome where
  | done
  | subscribed (handle : SubscriptionHandle)
  | sent (result : SendWithReplyResult)
deriving DecidableEq

/-- The place of an execution in its code. -/
inductive Progress where
  | idle
  /-- Awaiting `ConnectAsync`, `DisconnectAsync` or `SendAsync`. -/
  | calling
  -- `SubscribeUseCase`
  | subscribing
  | subscribeAssigned (handle : SubscriptionHandle)
  -- `SendMessageWithReplyUseCase`
  | declaring (command : SendMessageWithReplyCommand)
  | replyAssigned (command : SendMessageWithReplyCommand) (handle : SubscriptionHandle)
    (queueName : Utf16)
  | replyRegistered (command : SendMessageWithReplyCommand) (handle : SubscriptionHandle)
    (queueName : Utf16)
  | sending (handle : SubscriptionHandle) (correlationId : Utf16)
  /-- In the `catch` block, awaiting `UnsubscribeAsync`. -/
  | cleaningUp (handle : SubscriptionHandle) (ex : BusException)
  -- `UnsubscribeUseCase`
  | unsubscribing (handle : SubscriptionHandle)
  | returned (outcome : Outcome)
  | threw (ex : BusException)

/-- The executions over the backend. `broadcasts` lists what `BroadcastAsync` was called with. -/
structure State (κ : Type) where
  backend : Backend.State (κ × Await)
  progress : κ → Progress
  broadcasts : List (SubscriptionHandle × BusMessage)

variable {κ : Type} [DecidableEq κ]

def State.initial [Inhabited κ] : State κ where
  backend := .initial
  progress := fun _ ↦ .idle
  broadcasts := []

/-! ## Steps -/

inductive Label (κ : Type) where
  /-- `HandleAsync` is called, and runs up to its first suspension. -/
  | begin (i : κ) (useCase : UseCase)
  /-- The next statement of the execution; `newGuid` is what `Guid.NewGuid()` returns. -/
  | proceed (i : κ) (newGuid : Guid)
  /-- A step of the adapter, other than the beginning of a call. -/
  | adapter (a : RabbitMqAdapter.Label (κ × Await))
  /-- The library dispatches a delivery to the consumer on the channel. -/
  | dispatch (channel : ChannelId) (delivery : Delivery)

namespace State

def goto (s : State κ) (i : κ) (p : Progress) : State κ :=
  { s with progress := Function.update s.progress i p }

/-- The statement is a step of the backend. -/
def along (s : State κ) (b : Backend.Label (κ × Await)) (i : κ) (p : Progress) :
    Option (State κ) :=
  (Backend.step s.backend b).map fun backend ↦ { s with backend }.goto i p

/-- What the handler of the consumer on the channel makes the coordinator broadcast. -/
def broadcast (s : State κ) (ch : ChannelId) (delivery : Delivery) :
    List (SubscriptionHandle × BusMessage) :=
  match (s.backend.executions (s.backend.adapter.channels ch).openedBy).closure,
    delivery.received with
  | some handle, .ok message =>
    (s.backend.coordinator.accepted handle message).map fun message ↦ (handle, message)
  | _, _ => []

end State

def requestReplyNotSupported (capabilities : BrokerCapabilities) : BusException :=
  .requestReplyNotSupported (Utf16.ofString "The connected broker '" ++ capabilities.brokerName
    ++ Utf16.ofString "' does not support request-reply messaging.")

/-- `HandleAsync` up to its first suspension. -/
def begin (s : State κ) (i : κ) : UseCase → Option (State κ)
  | .teardown caller => s.along (.start (i, .first) (.teardown caller)) i .calling
  | .send message => s.along (.start (i, .first) (.send message)) i .calling
  | .subscribe queueName =>
    s.along (.start (i, .first) (.consume (.subscribe queueName))) i .subscribing
  | .sendWithReply command =>
    if !RabbitMqAdapter.capabilities.supportsRequestReply then
      some (s.goto i (.threw (requestReplyNotSupported RabbitMqAdapter.capabilities)))
    else s.along (.start (i, .first) (.consume .declareTemporary)) i (.declaring command)
  | .unsubscribe handle =>
    s.along (.start (i, .first) (.unsubscribe handle)) i (.unsubscribing handle)

/-- The next statement of an execution whose awaited call, if any, has ended. -/
def proceed (s : State κ) (i : κ) (newGuid : Guid) : Option (State κ) :=
  match s.progress i with
  | .calling =>
    match s.backend.adapter.calls (i, .first) with
    | .ended (.ok _) => some (s.goto i (.returned .done))
    | .ended (.error ex) => some (s.goto i (.threw ex))
    | _ => none
  | .subscribing =>
    match s.backend.adapter.calls (i, .first) with
    | .ended (.ok (.subscribed handle)) =>
      s.along (.assign (i, .first)) i (.subscribeAssigned handle)
    | .ended (.error ex) => some (s.goto i (.threw ex))
    | _ => none
  | .subscribeAssigned handle => s.along (.register (i, .first)) i (.returned (.subscribed handle))
  | .declaring command =>
    match s.backend.adapter.calls (i, .first) with
    | .ended (.ok (.declared handle queueName)) =>
      s.along (.assign (i, .first)) i (.replyAssigned command handle queueName)
    | .ended (.error ex) => some (s.goto i (.threw ex))
    | _ => none
  | .replyAssigned command handle queueName =>
    s.along (.register (i, .first)) i (.replyRegistered command handle queueName)
  | .replyRegistered command handle queueName =>
    let correlationId := correlationIdOf command.correlationId newGuid
    match BusMessage.create command.target command.routingKey command.payload queueName
      correlationId command.headers with
    | .error ex => some (s.goto i (.threw ex))
    | .ok message => s.along (.start (i, .send) (.send message)) i (.sending handle correlationId)
  | .sending handle correlationId =>
    match s.backend.adapter.calls (i, .send) with
    | .ended (.ok _) => some (s.goto i (.returned (.sent ⟨handle, correlationId⟩)))
    | .ended (.error ex) =>
      s.along (.start (i, .cleanUp) (.unsubscribe handle)) i (.cleaningUp handle ex)
    | _ => none
  | .cleaningUp _ ex =>
    match s.backend.adapter.calls (i, .cleanUp) with
    | .ended (.ok _) => s.along (.unregister (i, .cleanUp)) i (.threw ex)
    -- An exception of the clean-up takes the place of the one that led to it.
    | .ended (.error ex') => some (s.goto i (.threw ex'))
    | _ => none
  | .unsubscribing _ =>
    match s.backend.adapter.calls (i, .first) with
    | .ended (.ok _) => s.along (.unregister (i, .first)) i (.returned .done)
    | .ended (.error ex) => some (s.goto i (.threw ex))
    | _ => none
  | .idle | .returned _ | .threw _ => none

/-- One step. -/
def step (s : State κ) : Label κ → Option (State κ)
  | .begin i useCase =>
    match s.progress i with
    | .idle => begin s i useCase
    | _ => none
  | .proceed i newGuid => proceed s i newGuid
  | .adapter a => (Backend.step s.backend (.adapter a)).map fun backend ↦ { s with backend }
  | .dispatch ch delivery =>
    (Backend.step s.backend (.dispatch ch delivery)).map fun backend ↦
      { s with backend, broadcasts := s.broadcasts ++ s.broadcast ch delivery }

variable {s t : State κ} {i j : κ} {h : SubscriptionHandle} {a : Label κ}

/-! ## The steps, sorted -/

/-- The first call of the use case. -/
def UseCase.call : UseCase → Call
  | .teardown caller => .teardown caller
  | .send message => .send message
  | .subscribe queueName => .consume (.subscribe queueName)
  | .sendWithReply _ => .consume .declareTemporary
  | .unsubscribe handle => .unsubscribe handle

/-- Where the use case awaits its first call. -/
def UseCase.awaiting : UseCase → Progress
  | .teardown _ | .send _ => .calling
  | .subscribe _ => .subscribing
  | .sendWithReply command => .declaring command
  | .unsubscribe handle => .unsubscribing handle

theorem begin_eq (u : UseCase) :
    begin s i u = s.along (.start (i, .first) u.call) i u.awaiting := by
  cases u <;> rfl

/-- What an execution does next: a statement of the backend, if any, and where it goes. -/
inductive Moves (s : State κ) (i : κ) : Option (Backend.Label (κ × Await)) → Progress → Prop where
  | assigns (handle : SubscriptionHandle) (hfrom : s.progress i = .subscribing)
    (hcall : s.backend.adapter.calls (i, .first) = .ended (.ok (.subscribed handle))) :
    Moves s i (some (.assign (i, .first))) (.subscribeAssigned handle)
  | registers (handle : SubscriptionHandle) (hfrom : s.progress i = .subscribeAssigned handle) :
    Moves s i (some (.register (i, .first))) (.returned (.subscribed handle))
  | assignsReply (command : SendMessageWithReplyCommand) (handle : SubscriptionHandle)
    (queueName : Utf16) (hfrom : s.progress i = .declaring command)
    (hcall : s.backend.adapter.calls (i, .first) = .ended (.ok (.declared handle queueName))) :
    Moves s i (some (.assign (i, .first))) (.replyAssigned command handle queueName)
  | registersReply (command : SendMessageWithReplyCommand) (handle : SubscriptionHandle)
    (queueName : Utf16) (hfrom : s.progress i = .replyAssigned command handle queueName) :
    Moves s i (some (.register (i, .first))) (.replyRegistered command handle queueName)
  | sends (command : SendMessageWithReplyCommand) (handle : SubscriptionHandle)
    (queueName correlationId : Utf16) (message : BusMessage)
    (hfrom : s.progress i = .replyRegistered command handle queueName) :
    Moves s i (some (.start (i, .send) (.send message))) (.sending handle correlationId)
  | returns (handle : SubscriptionHandle) (correlationId : Utf16)
    (hfrom : s.progress i = .sending handle correlationId) :
    Moves s i none (.returned (.sent ⟨handle, correlationId⟩))
  | cleansUp (handle : SubscriptionHandle) (correlationId : Utf16) (ex : BusException)
    (hfrom : s.progress i = .sending handle correlationId) :
    Moves s i (some (.start (i, .cleanUp) (.unsubscribe handle))) (.cleaningUp handle ex)
  | drops (handle : SubscriptionHandle) (ex : BusException)
    (hfrom : s.progress i = .cleaningUp handle ex) :
    Moves s i (some (.unregister (i, .cleanUp))) (.threw ex)
  | unsubscribes (handle : SubscriptionHandle) (hfrom : s.progress i = .unsubscribing handle) :
    Moves s i (some (.unregister (i, .first))) (.returned .done)
  | ends (hfrom : s.progress i = .calling) : Moves s i none (.returned .done)
  | throws (ex : BusException) : Moves s i none (.threw ex)

/-- The backend takes the step, or rests. -/
def Backs (s t : State κ) : Option (Backend.Label (κ × Await)) → Prop
  | none => t.backend = s.backend
  | some b => Backend.step s.backend b = some t.backend

/-- What a step can be. -/
inductive StepCases (s : State κ) (a : Label κ) (t : State κ) : Prop where
  | begins (i : κ) (u : UseCase) (ha : a = .begin i u) (hidle : s.progress i = .idle)
    (hback : Backend.step s.backend (.start (i, .first) u.call) = some t.backend)
    (hprogress : t.progress = Function.update s.progress i u.awaiting)
    (hbroadcasts : t.broadcasts = s.broadcasts)
  | proceeds (i : κ) (newGuid : Guid) (b : Option (Backend.Label (κ × Await))) (p : Progress)
    (ha : a = .proceed i newGuid) (hmoves : Moves s i b p) (hback : Backs s t b)
    (hprogress : t.progress = Function.update s.progress i p)
    (hbroadcasts : t.broadcasts = s.broadcasts)
  | adapter (b : RabbitMqAdapter.Label (κ × Await)) (ha : a = .adapter b)
    (hback : Backend.step s.backend (.adapter b) = some t.backend)
    (hprogress : t.progress = s.progress) (hbroadcasts : t.broadcasts = s.broadcasts)
  | dispatches (ch : ChannelId) (delivery : Delivery) (ha : a = .dispatch ch delivery)
    (hback : Backend.step s.backend (.dispatch ch delivery) = some t.backend)
    (hprogress : t.progress = s.progress)
    (hbroadcasts : t.broadcasts = s.broadcasts ++ s.broadcast ch delivery)

theorem along_spec {b : Backend.Label (κ × Await)} {p : Progress} (h : s.along b i p = some t) :
    Backend.step s.backend b = some t.backend ∧ t.progress = Function.update s.progress i p ∧
      t.broadcasts = s.broadcasts := by
  obtain ⟨backend, hback, rfl⟩ := Option.map_eq_some_iff.mp h
  exact ⟨hback, rfl, rfl⟩

theorem moves_of_proceed {newGuid : Guid} (h : proceed s i newGuid = some t) :
    ∃ b p, Moves s i b p ∧ Backs s t b ∧ t.progress = Function.update s.progress i p ∧
      t.broadcasts = s.broadcasts := by
  have hgoto : ∀ {p}, Moves s i none p → some (s.goto i p) = some t → ∃ b p, Moves s i b p ∧
      Backs s t b ∧ t.progress = Function.update s.progress i p ∧
        t.broadcasts = s.broadcasts := by
    rintro p hmoves ⟨⟩
    exact ⟨none, p, hmoves, rfl, rfl, rfl⟩
  have halong : ∀ {b p}, Moves s i (some b) p → s.along b i p = some t → ∃ b p, Moves s i b p ∧
      Backs s t b ∧ t.progress = Function.update s.progress i p ∧
        t.broadcasts = s.broadcasts :=
    fun {b p} hmoves h ↦ ⟨some b, p, hmoves, along_spec h⟩
  unfold proceed at h
  split at h
  · rename_i hfrom
    split at h
    · exact hgoto (.ends hfrom) h
    · exact hgoto (.throws _) h
    · cases h
  · rename_i hfrom
    split at h
    · rename_i handle hcall
      exact halong (.assigns handle hfrom hcall) h
    · exact hgoto (.throws _) h
    · cases h
  · rename_i handle hfrom
    exact halong (.registers handle hfrom) h
  · rename_i command hfrom
    split at h
    · rename_i handle queueName hcall
      exact halong (.assignsReply command handle queueName hfrom hcall) h
    · exact hgoto (.throws _) h
    · cases h
  · rename_i command handle queueName hfrom
    exact halong (.registersReply command handle queueName hfrom) h
  · rename_i command handle queueName hfrom
    dsimp only at h
    split at h
    · exact hgoto (.throws _) h
    · exact halong (.sends command handle queueName _ _ hfrom) h
  · rename_i handle correlationId hfrom
    split at h
    · exact hgoto (.returns handle correlationId hfrom) h
    · exact halong (.cleansUp handle correlationId _ hfrom) h
    · cases h
  · rename_i handle ex hfrom
    split at h
    · exact halong (.drops handle ex hfrom) h
    · exact hgoto (.throws _) h
    · cases h
  · rename_i handle hfrom
    split at h
    · exact halong (.unsubscribes handle hfrom) h
    · exact hgoto (.throws _) h
    · cases h
  · cases h
  · cases h
  · cases h

/-- **What a step can be.** -/
theorem step_cases (hstep : step s a = some t) : StepCases s a t := by
  cases a with
  | begin i u =>
    simp only [step] at hstep
    split at hstep
    · rename_i hidle
      rw [begin_eq] at hstep
      obtain ⟨hback, hprogress, hbroadcasts⟩ := along_spec hstep
      exact .begins i u rfl hidle hback hprogress hbroadcasts
    · cases hstep
  | proceed i newGuid =>
    obtain ⟨b, p, hmoves, hback, hprogress, hbroadcasts⟩ := moves_of_proceed hstep
    exact .proceeds i newGuid b p rfl hmoves hback hprogress hbroadcasts
  | adapter b =>
    obtain ⟨backend, hback, rfl⟩ := Option.map_eq_some_iff.mp hstep
    exact .adapter b rfl hback rfl rfl
  | dispatch ch delivery =>
    obtain ⟨backend, hback, rfl⟩ := Option.map_eq_some_iff.mp hstep
    exact .dispatches ch delivery rfl hback rfl rfl

/-! ## The statements of an execution run in their order -/

/-- How far the execution of the backend behind a call has come by then. -/
def Progress.reached : Progress → Await → Option Backend.Execution
  | .subscribeAssigned handle, .first | .replyAssigned _ handle _, .first =>
    some (.assigned handle)
  | .replyRegistered _ handle _, .first | .sending handle _, .first | .cleaningUp handle _, .first
  | .returned (.subscribed handle), .first | .returned (.sent ⟨handle, _⟩), .first =>
    some (.registered handle)
  | .unsubscribing handle, .first | .cleaningUp handle _, .cleanUp => some (.unsubscribing handle)
  | _, _ => none

/-- The statements of an execution have run in their order. -/
structure Ordered (s : State κ) : Prop where
  handles : Backend.Handles s.backend
  reached : ∀ {i x e}, (s.progress i).reached x = some e → s.backend.executions (i, x) = e
  /-- `SendAsync` is called after `Register`. -/
  sends : ∀ {i}, s.backend.adapter.calls (i, .send) ≠ .idle →
    ∃ h, s.backend.executions (i, .first) = .registered h

omit [DecidableEq κ] in
theorem ordered_initial [Inhabited κ] : Ordered (State.initial : State κ) where
  handles := Backend.handles_initial
  reached := nofun
  sends hi := absurd rfl hi

section

variable {b : Backend.Label (κ × Await)} {p : Progress} {x : Await}

private theorem Ordered.of_back (hs : Ordered s)
    (hback : Backend.step s.backend b = some t.backend)
    (hsend : ∀ {i call}, b = .start (i, .send) call →
      ∃ h, s.backend.executions (i, .first) = .registered h)
    (hreached : ∀ {i x e}, (t.progress i).reached x = some e →
      t.backend.executions (i, x) = e) : Ordered t := by
  refine ⟨(Backend.effect_of_step hs.handles hback).1, hreached, fun {i} hi ↦ ?_⟩
  have hexists : ∃ h, s.backend.executions (i, .first) = .registered h := by
    by_cases hidle : s.backend.adapter.calls (i, .send) = .idle
    · rcases Backend.idle_of_step hback hidle with hidle' | ⟨call, hb⟩
      · exact absurd hidle' hi
      · exact hsend hb
    · exact hs.sends hidle
  obtain ⟨h, hh⟩ := hexists
  exact ⟨h, Backend.registered_of_step hs.handles hback hh⟩

private theorem Ordered.of_rest (hs : Ordered s)
    (hback : Backend.step s.backend b = some t.backend) (hmover : b.mover = none)
    (hprogress : t.progress = s.progress) : Ordered t := by
  refine hs.of_back hback ?_ ?_
  · rintro i call rfl
    cases hmover
  · intro i x e hi
    rw [Backend.executions_of_step hback (by simp [hmover])]
    exact hs.reached (hprogress ▸ hi)

private theorem Ordered.of_move (hs : Ordered s)
    (hback : Backend.step s.backend b = some t.backend) (hmover : b.mover = some (i, x))
    (hprogress : t.progress = Function.update s.progress i p)
    (hsend : ∀ {j call}, b = .start (j, .send) call →
      ∃ h, s.backend.executions (j, .first) = .registered h)
    (hreached : ∀ {y e}, p.reached y = some e → t.backend.executions (i, y) = e) :
    Ordered t := by
  refine hs.of_back hback hsend ?_
  intro j y e hj
  rw [hprogress] at hj
  by_cases hji : j = i
  · rw [hji, Function.update_self] at hj
    rw [hji]
    exact hreached hj
  · have hne : b.mover ≠ some (j, y) := by
      rw [hmover]
      rintro ⟨⟩
      exact hji rfl
    rw [Function.update_of_ne hji] at hj
    rw [Backend.executions_of_step hback hne]
    exact hs.reached hj

private theorem Ordered.of_goto (hs : Ordered s) (hback : t.backend = s.backend)
    (hprogress : t.progress = Function.update s.progress i p)
    (hreached : ∀ {y e}, p.reached y = some e → (s.progress i).reached y = some e) :
    Ordered t := by
  refine ⟨hback ▸ hs.handles, ?_, hback ▸ hs.sends⟩
  intro j y e hj
  rw [hprogress] at hj
  rw [hback]
  by_cases hji : j = i
  · rw [hji, Function.update_self] at hj
    rw [hji]
    exact hs.reached (hreached hj)
  · rw [Function.update_of_ne hji] at hj
    exact hs.reached hj

end

section

variable {p : Progress} {x : Await} {handle : SubscriptionHandle}

private theorem executions_of_start {call : Call}
    (hback : Backend.step s.backend (.start (i, x) call) = some t.backend) :
    t.backend.executions (i, x) = Backend.executionOf call := by
  obtain ⟨-, adapter, -, ht⟩ := Backend.start_spec hback
  rw [ht]
  exact Function.update_self ..

private theorem executions_of_assign {result : RabbitMqAdapter.Result}
    (hback : Backend.step s.backend (.assign (i, x)) = some t.backend)
    (hcall : s.backend.adapter.calls (i, x) = .ended (.ok result))
    (hreturned : RabbitMqAdapter.returnedHandle (.ok result) = some handle) :
    t.backend.executions (i, x) = .assigned handle := by
  obtain ⟨result', handle', -, hended, hreturned', ht⟩ := Backend.assign_spec hback
  cases hcall.symm.trans hended
  cases hreturned.symm.trans hreturned'
  rw [ht]
  exact Function.update_self ..

private theorem executions_of_register
    (hback : Backend.step s.backend (.register (i, x)) = some t.backend)
    (hassigned : s.backend.executions (i, x) = .assigned handle) :
    t.backend.executions (i, x) = .registered handle := by
  obtain ⟨handle', hassigned', ht⟩ := Backend.register_spec hback
  cases hassigned.symm.trans hassigned'
  rw [ht]
  exact Function.update_self ..

end

theorem ordered_of_moves {b : Option (Backend.Label (κ × Await))} {p : Progress} (hs : Ordered s)
    (hmoves : Moves s i b p) (hback : Backs s t b)
    (hprogress : t.progress = Function.update s.progress i p) : Ordered t := by
  cases hmoves with
  | assigns handle hfrom hcall =>
    refine hs.of_move hback rfl hprogress nofun ?_
    rintro ⟨⟩ e ⟨⟩
    exact executions_of_assign hback hcall rfl
  | assignsReply command handle queueName hfrom hcall =>
    refine hs.of_move hback rfl hprogress nofun ?_
    rintro ⟨⟩ e ⟨⟩
    exact executions_of_assign hback hcall rfl
  | registers handle hfrom =>
    refine hs.of_move hback rfl hprogress nofun ?_
    rintro ⟨⟩ e ⟨⟩
    exact executions_of_register hback (hs.reached (by rw [hfrom]; rfl))
  | registersReply command handle queueName hfrom =>
    refine hs.of_move hback rfl hprogress nofun ?_
    rintro ⟨⟩ e ⟨⟩
    exact executions_of_register hback (hs.reached (by rw [hfrom]; rfl))
  | sends command handle queueName correlationId message hfrom =>
    have hregistered : s.backend.executions (i, .first) = .registered handle :=
      hs.reached (by rw [hfrom]; rfl)
    refine hs.of_move hback rfl hprogress ?_ ?_
    · rintro j call ⟨⟩
      exact ⟨handle, hregistered⟩
    · rintro ⟨⟩ e ⟨⟩
      exact Backend.registered_of_step hs.handles hback hregistered
  | cleansUp handle correlationId ex hfrom =>
    have hregistered : s.backend.executions (i, .first) = .registered handle :=
      hs.reached (by rw [hfrom]; rfl)
    refine hs.of_move hback rfl hprogress nofun ?_
    rintro ⟨⟩ e ⟨⟩
    · exact Backend.registered_of_step hs.handles hback hregistered
    · exact executions_of_start hback
  | drops handle ex hfrom => exact hs.of_move hback rfl hprogress nofun nofun
  | unsubscribes handle hfrom => exact hs.of_move hback rfl hprogress nofun nofun
  | returns handle correlationId hfrom =>
    refine hs.of_goto hback hprogress ?_
    rintro ⟨⟩ e ⟨⟩
    rw [hfrom]
    rfl
  | ends hfrom => exact hs.of_goto hback hprogress nofun
  | throws ex => exact hs.of_goto hback hprogress nofun

theorem ordered_step (hs : Ordered s) (hstep : step s a = some t) : Ordered t := by
  cases step_cases hstep with
  | begins i u ha hidle hback hprogress hbroadcasts =>
    refine hs.of_move hback rfl hprogress nofun ?_
    rintro ⟨⟩ e hreached
    all_goals cases u <;> cases hreached
    exact executions_of_start hback
  | proceeds i newGuid b p ha hmoves hback hprogress =>
    exact ordered_of_moves hs hmoves hback hprogress
  | adapter b ha hback hprogress => exact hs.of_rest hback rfl hprogress
  | dispatches ch delivery ha hback hprogress => exact hs.of_rest hback rfl hprogress

/-! ## Every live consumer has a buffer -/

/-- The handle that the execution has returned to its caller. -/
def Progress.returnedHandle : Progress → Option SubscriptionHandle
  | .returned (.subscribed handle) | .returned (.sent ⟨handle, _⟩) => some handle
  | _ => none

/-- A caller uses a handle only after it was returned. -/
def UnsubscribesReturned (s : State κ) : Label κ → Prop
  | .begin _ (.unsubscribe handle) => ∃ i, (s.progress i).returnedHandle = some handle
  | _ => True

instance [Fintype κ] (s : State κ) : DecidablePred (UnsubscribesReturned s)
  | .begin _ (.unsubscribe handle) =>
    inferInstanceAs (Decidable (∃ i, (s.progress i).returnedHandle = some handle))
  | .begin _ (.teardown _) | .begin _ (.send _) | .begin _ (.subscribe _)
  | .begin _ (.sendWithReply _) | .proceed _ _ | .adapter _ | .dispatch _ _ => isTrue trivial

theorem Progress.reached_of_returnedHandle {p : Progress} (hp : p.returnedHandle = some h) :
    p.reached .first = some (.registered h) := by
  unfold returnedHandle at hp
  split at hp <;> cases hp <;> rfl

theorem liveConsumers_step (hused : UnsubscribesReturned s a) (hs : Ordered s)
    (hlive : Backend.LiveConsumers s.backend) (hstep : step s a = some t) :
    Backend.LiveConsumers t.backend := by
  cases step_cases hstep with
  | begins i u ha hidle hback =>
    subst ha
    refine Backend.liveConsumers_step ?_ hlive hback
    cases u with
    | unsubscribe handle =>
      obtain ⟨j, hj⟩ := hused
      exact ⟨(j, .first), hs.reached (Progress.reached_of_returnedHandle hj)⟩
    | _ => trivial
  | proceeds i newGuid b p ha hmoves hback =>
    cases hmoves with
    | returns | ends | throws => exact hback ▸ hlive
    | cleansUp handle correlationId ex hfrom =>
      refine Backend.liveConsumers_step ?_ hlive hback
      exact ⟨(i, .first), hs.reached (by rw [hfrom]; rfl)⟩
    | _ =>
      refine Backend.liveConsumers_step ?_ hlive hback
      trivial
  | adapter b ha hback =>
    refine Backend.liveConsumers_step ?_ hlive hback
    trivial
  | dispatches ch delivery ha hback =>
    refine Backend.liveConsumers_step ?_ hlive hback
    trivial

/-- **Every live consumer has a buffer**, or its use case has not come to `Register` yet. -/
theorem everyConsumerBuffered [Inhabited κ] {as : List (Label κ)}
    (hused : Guarded step UnsubscribesReturned State.initial as)
    (hrun : run step State.initial as = some t) : Backend.EveryConsumerBuffered t.backend := by
  have hinvariant : Ordered t ∧ Backend.LiveConsumers t.backend :=
    invariant_of_guarded (P := fun s ↦ Ordered s ∧ Backend.LiveConsumers s.backend)
      ⟨ordered_initial, Backend.liveConsumers_initial⟩
      (fun _ _ _ hs hused hstep ↦
        ⟨ordered_step hs.1 hstep, liveConsumers_step hused hs.1 hs.2 hstep⟩) hused hrun
  exact hinvariant.2.allBuffered

open RabbitMqAdapter.Label (succeed)

/-- The first execution connects, the second subscribes to `orders`, the third is cancelled while it
waits to unsubscribe, and the fourth is opening a channel to subscribe to `invoices`. -/
private def unsubscribeCancelled : List (Label (Fin 4)) :=
  [.begin 0 (.teardown (.connect .localhost)), .adapter (succeed (0, .first)),
    .adapter (succeed (0, .first)), .proceed 0 ⟨0⟩,
    .begin 1 (.subscribe (Utf16.ofString "orders")), .adapter (succeed (1, .first)),
    .adapter (.brokerConsumes 0), .adapter (.resume (1, .first) .completed ⟨7⟩),
    .adapter (succeed (1, .first)), .proceed 1 ⟨0⟩, .proceed 1 ⟨0⟩,
    .begin 2 (.unsubscribe ⟨⟨7⟩⟩),
    .adapter (.resume (2, .first) (.failed .canceled) ⟨0⟩), .proceed 2 ⟨0⟩,
    .begin 3 (.subscribe (Utf16.ofString "invoices"))]

theorem everyConsumerBuffered_of_unsubscribeCancelled : ∃ t,
    run step State.initial unsubscribeCancelled = some t ∧ t.backend.adapter.IsLive ⟨⟨7⟩⟩ ∧
      t.backend.coordinator.IsRegistered ⟨⟨7⟩⟩ ∧ Backend.EveryConsumerBuffered t.backend := by
  have hused : Guarded step UnsubscribesReturned State.initial unsubscribeCancelled := by decide
  refine ⟨_, rfl, ?_, rfl, everyConsumerBuffered hused rfl⟩
  exact ⟨_, List.mem_singleton_self _, rfl⟩

end UseCases

end BusTester
