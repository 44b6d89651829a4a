import BusTester.Backend.UseCases
import BusTester.Infrastructure.Publishing
import BusTester.Transition.Projection

/-!
# What the use cases publish

The steps of the executions that concern the adapter are a run of the adapter (`projects_adapter`),
so what was shown of calls holds of executions: each publishes at most once. What is left is to say
which message that is, and for this an execution is followed through its code (`Follows`). A send
with reply publishes the message that names the reply queue of the very subscription it returns.
-/

namespace BusTester

namespace UseCases

open Transition
open RabbitMqAdapter (Call Pc Publication publicationOf)
open SendMessageWithReplyUseCase (correlationIdOf)

variable {κ : Type} [DecidableEq κ] {s t : State κ} {i : κ} {a : Label κ} {as : List (Label κ)}
  {u : UseCase} {message : BusMessage} {x : Await} {call : Call}
  {command : SendMessageWithReplyCommand} {handle : SubscriptionHandle}
  {queueName correlationId : Utf16} {newGuid : Guid}

/-! ## The run of the adapter -/

/-- The message that `SendMessageWithReplyUseCase` builds. -/
def replyMessage (command : SendMessageWithReplyCommand) (queueName correlationId : Utf16) :
    Except BusException BusMessage :=
  BusMessage.create command.target command.routingKey command.payload queueName correlationId
    command.headers

/-- The step of the adapter that a step of the executions runs. -/
def adapterLabel (s : State κ) : Label κ → Option (RabbitMqAdapter.Label (κ × Await))
  | .begin i useCase => some (.start (i, .first) useCase.call)
  | .proceed i newGuid =>
    match s.progress i with
    | .replyRegistered command _ queueName =>
      match replyMessage command queueName (correlationIdOf command.correlationId newGuid) with
      | .ok message => some (.start (i, .send) (.send message))
      | .error _ => none
    | .sending handle _ =>
      match s.backend.adapter.calls (i, .send) with
      | .ended (.error _) => some (.start (i, .cleanUp) (.unsubscribe handle))
      | _ => none
    | _ => none
  | .adapter a => some a
  | .dispatch _ _ => none

/-- What the adapter is asked for in the run. -/
def adapterLabels [Inhabited κ] (as : List (Label κ)) : List (RabbitMqAdapter.Label (κ × Await)) :=
  observed step adapterLabel State.initial as

private theorem start_of_along {k : κ × Await} {p : Progress}
    (hstep : s.along (.start k call) i p = some t) :
    RabbitMqAdapter.step s.backend.adapter (.start k call) = some t.backend.adapter := by
  obtain ⟨-, adapter, hadapter, ht⟩ := Backend.start_spec (along_spec hstep).1
  rw [ht]
  exact hadapter

private theorem adapter_of_assign {k : κ × Await} {p : Progress}
    (hstep : s.along (.assign k) i p = some t) : t.backend.adapter = s.backend.adapter := by
  obtain ⟨result, handle, -, -, -, ht⟩ := Backend.assign_spec (along_spec hstep).1
  rw [ht]

private theorem adapter_of_register {k : κ × Await} {p : Progress}
    (hstep : s.along (.register k) i p = some t) : t.backend.adapter = s.backend.adapter := by
  obtain ⟨handle, -, ht⟩ := Backend.register_spec (along_spec hstep).1
  rw [ht]

private theorem adapter_of_unregister {k : κ × Await} {p : Progress}
    (hstep : s.along (.unregister k) i p = some t) :
    t.backend.adapter = s.backend.adapter := by
  obtain ⟨handle, result, -, -, ht⟩ := Backend.unregister_spec (along_spec hstep).1
  rw [ht]

/-- What the next statement of an execution is: what it asks of the adapter, and where it leads. A
refinement of `Moves` that keeps the message. -/
inductive Proceeds (s : State κ) (i : κ) (newGuid : Guid) :
    Option (RabbitMqAdapter.Label (κ × Await)) → Progress → Prop where
  | returns (result : RabbitMqAdapter.Result) (hfrom : s.progress i = .calling)
    (hcall : s.backend.adapter.calls (i, .first) = .ended (.ok result)) :
    Proceeds s i newGuid none (.returned .done)
  | assigns (handle : SubscriptionHandle) (hfrom : s.progress i = .subscribing) :
    Proceeds s i newGuid none (.subscribeAssigned handle)
  | registers (handle : SubscriptionHandle) (hfrom : s.progress i = .subscribeAssigned handle) :
    Proceeds s i newGuid none (.returned (.subscribed handle))
  | assignsReply (command : SendMessageWithReplyCommand) (handle : SubscriptionHandle)
    (queueName : Utf16) (hfrom : s.progress i = .declaring command)
    (hcall : s.backend.adapter.calls (i, .first) = .ended (.ok (.declared handle queueName))) :
    Proceeds s i newGuid none (.replyAssigned command handle queueName)
  | registersReply (command : SendMessageWithReplyCommand) (handle : SubscriptionHandle)
    (queueName : Utf16) (hfrom : s.progress i = .replyAssigned command handle queueName) :
    Proceeds s i newGuid none (.replyRegistered command handle queueName)
  | sends (command : SendMessageWithReplyCommand) (handle : SubscriptionHandle)
    (queueName : Utf16) (message : BusMessage)
    (hfrom : s.progress i = .replyRegistered command handle queueName)
    (hmessage : replyMessage command queueName (correlationIdOf command.correlationId newGuid)
      = .ok message) :
    Proceeds s i newGuid (some (.start (i, .send) (.send message)))
      (.sending handle (correlationIdOf command.correlationId newGuid))
  | replies (handle : SubscriptionHandle) (correlationId : Utf16) (result : RabbitMqAdapter.Result)
    (hfrom : s.progress i = .sending handle correlationId)
    (hcall : s.backend.adapter.calls (i, .send) = .ended (.ok result)) :
    Proceeds s i newGuid none (.returned (.sent ⟨handle, correlationId⟩))
  | cleansUp (handle : SubscriptionHandle) (correlationId : Utf16) (ex : BusException)
    (hfrom : s.progress i = .sending handle correlationId) :
    Proceeds s i newGuid (some (.start (i, .cleanUp) (.unsubscribe handle)))
      (.cleaningUp handle ex)
  | unsubscribes (handle : SubscriptionHandle) (hfrom : s.progress i = .unsubscribing handle) :
    Proceeds s i newGuid none (.returned .done)
  | throws (ex : BusException) : Proceeds s i newGuid none (.threw ex)

omit [DecidableEq κ] in
theorem Proceeds.ne_idle {b : Option (RabbitMqAdapter.Label (κ × Await))} {p : Progress}
    (h : Proceeds s i newGuid b p) : p ≠ .idle := by
  rintro rfl
  cases h

/-- The adapter takes the step, or rests. -/
def Runs (s t : State κ) : Option (RabbitMqAdapter.Label (κ × Await)) → Prop
  | none => t.backend.adapter = s.backend.adapter
  | some b => RabbitMqAdapter.step s.backend.adapter b = some t.backend.adapter

/-- The statement that an execution has run. -/
def Ran (s t : State κ) (i : κ) (newGuid : Guid) : Prop :=
  ∃ p, Proceeds s i newGuid (adapterLabel s (.proceed i newGuid)) p ∧
    Runs s t (adapterLabel s (.proceed i newGuid)) ∧ t.progress = Function.update s.progress i p

private theorem ran_of_goto {p : Progress}
    (hnone : adapterLabel s (.proceed i newGuid) = none) (hp : Proceeds s i newGuid none p)
    (hstep : some (s.goto i p) = some t) : Ran s t i newGuid := by
  cases hstep
  rw [Ran, hnone]
  exact ⟨p, hp, rfl, rfl⟩

private theorem ran_of_along {b : Backend.Label (κ × Await)} {p : Progress}
    (hnone : adapterLabel s (.proceed i newGuid) = none) (hp : Proceeds s i newGuid none p)
    (hstep : s.along b i p = some t) (hrests : t.backend.adapter = s.backend.adapter) :
    Ran s t i newGuid := by
  rw [Ran, hnone]
  exact ⟨p, hp, hrests, (along_spec hstep).2.1⟩

private theorem ran_of_start {x : Await} {call : RabbitMqAdapter.Call} {p : Progress}
    (hlabel : adapterLabel s (.proceed i newGuid) = some (.start (i, x) call))
    (hp : Proceeds s i newGuid (some (.start (i, x) call)) p)
    (hstep : s.along (.start (i, x) call) i p = some t) : Ran s t i newGuid := by
  rw [Ran, hlabel]
  exact ⟨p, hp, start_of_along hstep, (along_spec hstep).2.1⟩

private theorem ran_of_consuming (hstep : proceed s i newGuid = some t)
    (hfrom : s.progress i = .subscribing ∨ ∃ command, s.progress i = .declaring command) :
    Ran s t i newGuid := by
  rcases hfrom with hfrom | ⟨command, hfrom⟩
  all_goals
    have hnone : adapterLabel s (.proceed i newGuid) = none := by simp [adapterLabel, hfrom]
    simp only [proceed, hfrom] at hstep
    split at hstep
  · rename_i handle hcall
    exact ran_of_along hnone (.assigns handle hfrom) hstep (adapter_of_assign hstep)
  · exact ran_of_goto hnone (.throws _) hstep
  · cases hstep
  · rename_i handle queueName hcall
    exact ran_of_along hnone (.assignsReply command handle queueName hfrom hcall) hstep
      (adapter_of_assign hstep)
  · exact ran_of_goto hnone (.throws _) hstep
  · cases hstep

private theorem ran_of_replyRegistered {command : SendMessageWithReplyCommand}
    {handle : SubscriptionHandle} {queueName : Utf16} (hstep : proceed s i newGuid = some t)
    (hfrom : s.progress i = .replyRegistered command handle queueName) : Ran s t i newGuid := by
  simp only [proceed, hfrom] at hstep
  split at hstep
  · rename_i ex hmessage
    exact ran_of_goto (by simp [adapterLabel, hfrom, replyMessage, hmessage]) (.throws _) hstep
  · rename_i message hmessage
    exact ran_of_start (by simp [adapterLabel, hfrom, replyMessage, hmessage])
      (.sends command handle queueName message hfrom hmessage) hstep

private theorem ran_of_sending {handle : SubscriptionHandle} {correlationId : Utf16}
    (hstep : proceed s i newGuid = some t)
    (hfrom : s.progress i = .sending handle correlationId) : Ran s t i newGuid := by
  simp only [proceed, hfrom] at hstep
  split at hstep
  · rename_i result hcall
    exact ran_of_goto (by simp [adapterLabel, hfrom, hcall])
      (.replies handle correlationId result hfrom hcall) hstep
  · rename_i ex hcall
    exact ran_of_start (by simp [adapterLabel, hfrom, hcall])
      (.cleansUp handle correlationId ex hfrom) hstep
  · cases hstep

theorem proceeds_of_proceed (hstep : proceed s i newGuid = some t) : ∃ p,
    Proceeds s i newGuid (adapterLabel s (.proceed i newGuid)) p ∧
      Runs s t (adapterLabel s (.proceed i newGuid)) ∧
        t.progress = Function.update s.progress i p := by
  have hproceeds := hstep
  unfold proceed at hstep
  cases hfrom : s.progress i with
  | subscribing => exact ran_of_consuming hproceeds (Or.inl hfrom)
  | declaring command => exact ran_of_consuming hproceeds (Or.inr ⟨command, hfrom⟩)
  | replyRegistered => exact ran_of_replyRegistered hproceeds hfrom
  | sending => exact ran_of_sending hproceeds hfrom
  | idle | returned | threw =>
    simp only [hfrom] at hstep
    cases hstep
  | subscribeAssigned handle =>
    simp only [hfrom] at hstep
    exact ran_of_along (by simp [adapterLabel, hfrom]) (.registers handle hfrom) hstep
      (adapter_of_register hstep)
  | replyAssigned command handle queueName =>
    simp only [hfrom] at hstep
    exact ran_of_along (by simp [adapterLabel, hfrom])
      (.registersReply command handle queueName hfrom) hstep (adapter_of_register hstep)
  | calling =>
    simp only [hfrom] at hstep
    split at hstep
    · rename_i result hcall
      exact ran_of_goto (by simp [adapterLabel, hfrom]) (.returns result hfrom hcall) hstep
    · exact ran_of_goto (by simp [adapterLabel, hfrom]) (.throws _) hstep
    · cases hstep
  | cleaningUp handle ex =>
    simp only [hfrom] at hstep
    have hnone : adapterLabel s (.proceed i newGuid) = none := by simp [adapterLabel, hfrom]
    split at hstep
    · exact ran_of_along hnone (.throws ex) hstep (adapter_of_unregister hstep)
    · exact ran_of_goto hnone (.throws _) hstep
    · cases hstep
  | unsubscribing handle =>
    simp only [hfrom] at hstep
    have hnone : adapterLabel s (.proceed i newGuid) = none := by simp [adapterLabel, hfrom]
    split at hstep
    · exact ran_of_along hnone (.unsubscribes handle hfrom) hstep (adapter_of_unregister hstep)
    · exact ran_of_goto hnone (.throws _) hstep
    · cases hstep

/-- **A run of the executions is a run of the adapter.** -/
theorem projects_adapter : Projects (step (κ := κ)) RabbitMqAdapter.step
    (fun s ↦ s.backend.adapter) adapterLabel := by
  have hruns : ∀ {s t : State κ} {b}, Runs s t b →
      (b = none ∧ t.backend.adapter = s.backend.adapter) ∨
        ∃ l, b = some l ∧ RabbitMqAdapter.step s.backend.adapter l = some t.backend.adapter := by
    rintro s t (_ | b) hruns
    · exact Or.inl ⟨rfl, hruns⟩
    · exact Or.inr ⟨b, rfl, hruns⟩
  intro s a t hstep
  cases a with
  | begin i u =>
    simp only [step] at hstep
    split at hstep
    · rw [begin_eq] at hstep
      exact Or.inr ⟨_, rfl, start_of_along hstep⟩
    · cases hstep
  | proceed i newGuid =>
    obtain ⟨p, -, h, -⟩ := proceeds_of_proceed hstep
    exact hruns h
  | adapter b =>
    obtain ⟨backend, hback, rfl⟩ := Option.map_eq_some_iff.mp hstep
    obtain ⟨-, adapter, hadapter, rfl⟩ := Backend.adapter_spec hback
    exact Or.inr ⟨b, rfl, hadapter⟩
  | dispatch ch delivery =>
    obtain ⟨backend, hback, rfl⟩ := Option.map_eq_some_iff.mp hstep
    rw [Backend.dispatch_spec hback]
    exact Or.inl ⟨rfl, rfl⟩

/-! ## The way of a use case -/

/-- The queue was declared for the handle by the first call of the execution. -/
def State.Declared (s : State κ) (i : κ) (handle : SubscriptionHandle) (queueName : Utf16) : Prop :=
  s.backend.adapter.calls (i, .first) = .ended (.ok (.declared handle queueName))

/-- The places of an execution of the use case, each with what the adapter was asked for and has
answered by then. -/
inductive Follows (s : State κ) (labels : List (RabbitMqAdapter.Label (κ × Await))) (i : κ) :
    UseCase → Progress → Prop where
  | tearingDown (caller : RabbitMqAdapter.Caller) : Follows s labels i (.teardown caller) .calling
  | toreDown (caller : RabbitMqAdapter.Caller) :
    Follows s labels i (.teardown caller) (.returned .done)
  | calling (message : BusMessage) : Follows s labels i (.send message) .calling
  | sent (message : BusMessage) (result : RabbitMqAdapter.Result)
    (hcall : s.backend.adapter.calls (i, .first) = .ended (.ok result)) :
    Follows s labels i (.send message) (.returned .done)
  | subscribing (queueName : Utf16) : Follows s labels i (.subscribe queueName) .subscribing
  | subscribeAssigned (queueName : Utf16) (handle : SubscriptionHandle) :
    Follows s labels i (.subscribe queueName) (.subscribeAssigned handle)
  | subscribed (queueName : Utf16) (handle : SubscriptionHandle) :
    Follows s labels i (.subscribe queueName) (.returned (.subscribed handle))
  | declaring (command : SendMessageWithReplyCommand) :
    Follows s labels i (.sendWithReply command) (.declaring command)
  | replyAssigned (command : SendMessageWithReplyCommand) (handle : SubscriptionHandle)
    (queueName : Utf16) (hdeclared : s.Declared i handle queueName) :
    Follows s labels i (.sendWithReply command) (.replyAssigned command handle queueName)
  | replyRegistered (command : SendMessageWithReplyCommand) (handle : SubscriptionHandle)
    (queueName : Utf16) (hdeclared : s.Declared i handle queueName) :
    Follows s labels i (.sendWithReply command) (.replyRegistered command handle queueName)
  | sending (command : SendMessageWithReplyCommand) (handle : SubscriptionHandle)
    (queueName correlationId : Utf16) (message : BusMessage)
    (hdeclared : s.Declared i handle queueName)
    (hmessage : replyMessage command queueName correlationId = .ok message)
    (hstart : .start (i, .send) (.send message) ∈ labels) :
    Follows s labels i (.sendWithReply command) (.sending handle correlationId)
  | replied (command : SendMessageWithReplyCommand) (handle : SubscriptionHandle)
    (queueName correlationId : Utf16) (message : BusMessage) (result : RabbitMqAdapter.Result)
    (hdeclared : s.Declared i handle queueName)
    (hmessage : replyMessage command queueName correlationId = .ok message)
    (hstart : .start (i, .send) (.send message) ∈ labels)
    (hcall : s.backend.adapter.calls (i, .send) = .ended (.ok result)) :
    Follows s labels i (.sendWithReply command) (.returned (.sent ⟨handle, correlationId⟩))
  | cleaningUp (command : SendMessageWithReplyCommand) (handle : SubscriptionHandle)
    (ex : BusException) : Follows s labels i (.sendWithReply command) (.cleaningUp handle ex)
  | unsubscribing (handle : SubscriptionHandle) :
    Follows s labels i (.unsubscribe handle) (.unsubscribing handle)
  | unsubscribed (handle : SubscriptionHandle) :
    Follows s labels i (.unsubscribe handle) (.returned .done)
  | threw (useCase : UseCase) (ex : BusException) : Follows s labels i useCase (.threw ex)

/-- The calls of the adapter that an execution of the use case makes. -/
inductive Asks (s : State κ) (i : κ) : UseCase → Await → Call → Prop where
  | first (useCase : UseCase) : Asks s i useCase .first useCase.call
  | send (command : SendMessageWithReplyCommand) (handle : SubscriptionHandle)
    (queueName correlationId : Utf16) (message : BusMessage)
    (hdeclared : s.Declared i handle queueName)
    (hmessage : replyMessage command queueName correlationId = .ok message) :
    Asks s i (.sendWithReply command) .send (.send message)
  | cleanUp (command : SendMessageWithReplyCommand) (handle : SubscriptionHandle) :
    Asks s i (.sendWithReply command) .cleanUp (.unsubscribe handle)

section

variable {labels labels' : List (RabbitMqAdapter.Label (κ × Await))} {p : Progress}

/-- What has ended stays ended. -/
def Keeps (s t : State κ) : Prop :=
  ∀ k result, s.backend.adapter.calls k = .ended result → t.backend.adapter.calls k = .ended result

theorem keeps_of_step (hstep : step s a = some t) : Keeps s t := by
  intro k result hended
  rcases projects_adapter hstep with ⟨-, hrests⟩ | ⟨b, -, hb⟩
  · have hsame : t.backend.adapter = s.backend.adapter := hrests
    rw [hsame]
    exact hended
  · exact RabbitMqAdapter.calls_of_ended hb hended

omit [DecidableEq κ] in
theorem Follows.mono (h : Follows s labels i u p) (hkeeps : Keeps s t)
    (hsub : labels ⊆ labels') : Follows t labels' i u p := by
  cases h with
  | tearingDown caller => exact .tearingDown caller
  | toreDown caller => exact .toreDown caller
  | calling message => exact .calling message
  | sent message result hcall => exact .sent message result (hkeeps _ _ hcall)
  | subscribing queueName => exact .subscribing queueName
  | subscribeAssigned queueName handle => exact .subscribeAssigned queueName handle
  | subscribed queueName handle => exact .subscribed queueName handle
  | declaring command => exact .declaring command
  | replyAssigned command handle queueName hdeclared =>
    exact .replyAssigned command handle queueName (hkeeps _ _ hdeclared)
  | replyRegistered command handle queueName hdeclared =>
    exact .replyRegistered command handle queueName (hkeeps _ _ hdeclared)
  | sending command handle queueName correlationId message hdeclared hmessage hstart =>
    exact .sending command handle queueName correlationId message (hkeeps _ _ hdeclared) hmessage
      (hsub hstart)
  | replied command handle queueName correlationId message result hdeclared hmessage hstart hcall =>
    exact .replied command handle queueName correlationId message result (hkeeps _ _ hdeclared)
      hmessage (hsub hstart) (hkeeps _ _ hcall)
  | cleaningUp command handle ex => exact .cleaningUp command handle ex
  | unsubscribing handle => exact .unsubscribing handle
  | unsubscribed handle => exact .unsubscribed handle
  | threw _ ex => exact .threw u ex

omit [DecidableEq κ] in
theorem Asks.mono (h : Asks s i u x call) (hkeeps : Keeps s t) : Asks t i u x call := by
  cases h with
  | first => exact .first u
  | send command handle queueName correlationId message hdeclared hmessage =>
    exact .send command handle queueName correlationId message (hkeeps _ _ hdeclared) hmessage
  | cleanUp command handle => exact .cleanUp command handle

omit [DecidableEq κ] in
theorem follows_awaiting (u : UseCase) : Follows s labels i u u.awaiting := by
  cases u with
  | teardown caller => exact .tearingDown caller
  | send message => exact .calling message
  | subscribe queueName => exact .subscribing queueName
  | sendWithReply command => exact .declaring command
  | unsubscribe handle => exact .unsubscribing handle

omit [DecidableEq κ] in
/-- An execution goes on in its own code, and asks for no call of another. -/
theorem follows_of_proceeds {b : Option (RabbitMqAdapter.Label (κ × Await))}
    (h : Follows s labels i u (s.progress i)) (hp : Proceeds s i newGuid b p) :
    Follows s (labels ++ b.toList) i u p ∧
      ∀ l ∈ b, ∃ x call, l = .start (i, x) call ∧ Asks s i u x call := by
  generalize hfrom' : s.progress i = p' at h
  cases hp with
  | returns result hfrom hcall =>
    cases hfrom'.symm.trans hfrom
    cases h with
    | tearingDown caller => exact ⟨.toreDown caller, nofun⟩
    | calling message => exact ⟨.sent message result hcall, nofun⟩
  | assigns handle hfrom =>
    cases hfrom'.symm.trans hfrom
    cases h with
    | subscribing queueName => exact ⟨.subscribeAssigned queueName handle, nofun⟩
  | registers handle hfrom =>
    cases hfrom'.symm.trans hfrom
    cases h with
    | subscribeAssigned queueName => exact ⟨.subscribed queueName handle, nofun⟩
  | assignsReply command handle queueName hfrom hcall =>
    cases hfrom'.symm.trans hfrom
    cases h with
    | declaring => exact ⟨.replyAssigned command handle queueName hcall, nofun⟩
  | registersReply command handle queueName hfrom =>
    cases hfrom'.symm.trans hfrom
    cases h with
    | replyAssigned _ _ _ hdeclared =>
      exact ⟨.replyRegistered command handle queueName hdeclared, nofun⟩
  | sends command handle queueName message hfrom hmessage =>
    cases hfrom'.symm.trans hfrom
    cases h with
    | replyRegistered _ _ _ hdeclared =>
      have hstart : .start (i, .send) (.send message)
          ∈ labels ++ [RabbitMqAdapter.Label.start (i, Await.send) (.send message)] :=
        List.mem_append_right _ (List.mem_singleton_self _)
      refine ⟨.sending command handle queueName _ message hdeclared hmessage hstart, ?_⟩
      rintro l ⟨⟩
      exact ⟨_, _, rfl, .send command handle queueName _ message hdeclared hmessage⟩
  | replies handle correlationId result hfrom hcall =>
    cases hfrom'.symm.trans hfrom
    cases h with
    | sending command _ queueName _ message hdeclared hmessage hstart =>
      exact ⟨.replied command handle queueName correlationId message result hdeclared hmessage
        (List.mem_append_left _ hstart) hcall, nofun⟩
  | cleansUp handle correlationId ex hfrom =>
    cases hfrom'.symm.trans hfrom
    cases h with
    | sending command =>
      refine ⟨.cleaningUp command handle ex, ?_⟩
      rintro l ⟨⟩
      exact ⟨_, _, rfl, .cleanUp command handle⟩
  | unsubscribes handle hfrom =>
    cases hfrom'.symm.trans hfrom
    cases h with
    | unsubscribing => exact ⟨.unsubscribed handle, nofun⟩
  | throws ex => exact ⟨.threw u ex, nofun⟩

end

/-! ## Every run is followed -/

/-- What a run has asked of the adapter is what its executions ask for, and each is where its code
leads. -/
structure Followed [Inhabited κ] (as : List (Label κ)) (s : State κ) : Prop where
  idle : ∀ {i u}, s.progress i = .idle → .begin i u ∉ as
  begun : ∀ {i}, s.progress i ≠ .idle → ∃ u, .begin i u ∈ as
  unique : ∀ {i u u'}, .begin i u ∈ as → .begin i u' ∈ as → u = u'
  follows : ∀ {i u}, .begin i u ∈ as → Follows s (adapterLabels as) i u (s.progress i)
  first : ∀ {i u}, .begin i u ∈ as → .start (i, .first) u.call ∈ adapterLabels as
  asked : ∀ {i x call}, .start (i, x) call ∈ adapterLabels as →
    ∃ u, .begin i u ∈ as ∧ Asks s i u x call

theorem followed_initial [Inhabited κ] : Followed [] (State.initial : State κ) where
  idle _ := List.not_mem_nil
  begun h := absurd rfl h
  unique h := absurd h List.not_mem_nil
  follows h := absurd h List.not_mem_nil
  first h := absurd h List.not_mem_nil
  asked h := absurd h List.not_mem_nil

omit [DecidableEq κ] in
private theorem begin_mem_concat :
    .begin i u ∈ as ++ [a] ↔ .begin i u ∈ as ∨ a = .begin i u := by
  rw [List.mem_append, List.mem_singleton, eq_comm (a := Label.begin i u)]

theorem adapterLabels_concat [Inhabited κ] (hrun : run step State.initial as = some s) :
    adapterLabels (as ++ [a]) = adapterLabels as ++ (adapterLabel s a).toList :=
  observed_concat hrun

/-- No use case begins, so it is enough to look at the execution that moves and at what it asks
for. -/
private theorem Followed.of_step [Inhabited κ] (hs : Followed as s)
    (hrun : run step State.initial as = some s) (hstep : step s a = some t)
    (hbegin : ∀ i u, a ≠ .begin i u) (hidle : ∀ {i}, t.progress i = .idle ↔ s.progress i = .idle)
    (hfollows : ∀ {i u}, .begin i u ∈ as →
      Follows s (adapterLabels (as ++ [a])) i u (t.progress i))
    (hasked : ∀ {i x call}, .start (i, x) call ∈ adapterLabel s a →
      ∃ u, .begin i u ∈ as ∧ Asks s i u x call) : Followed (as ++ [a]) t := by
  have hkeeps : Keeps s t := keeps_of_step hstep
  have hbegins : ∀ {i u}, .begin i u ∈ as ++ [a] ↔ .begin i u ∈ as :=
    begin_mem_concat.trans (or_iff_left (hbegin _ _))
  refine ⟨fun hi hmem ↦ ?_, fun hi ↦ ?_, fun h h' ↦ ?_, fun hmem ↦ ?_, fun hmem ↦ ?_,
    fun {i x call} hmem ↦ ?_⟩
  · exact hs.idle (hidle.mp hi) (hbegins.mp hmem)
  · obtain ⟨u, hu⟩ := hs.begun (hidle.not.mp hi)
    exact ⟨u, hbegins.mpr hu⟩
  · exact hs.unique (hbegins.mp h) (hbegins.mp h')
  · exact (hfollows (hbegins.mp hmem)).mono hkeeps (List.Subset.refl _)
  · rw [adapterLabels_concat hrun]
    exact List.mem_append_left _ (hs.first (hbegins.mp hmem))
  · rw [adapterLabels_concat hrun, List.mem_append, Option.mem_toList] at hmem
    have hsome : ∃ u, .begin i u ∈ as ∧ Asks s i u x call := by
      rcases hmem with hmem | hmem
      · exact hs.asked hmem
      · exact hasked hmem
    obtain ⟨u, hu, hasks⟩ := hsome
    exact ⟨u, hbegins.mpr hu, hasks.mono hkeeps⟩

private theorem Followed.of_begin [Inhabited κ] (hs : Followed as s)
    (hrun : run step State.initial as = some s) (hstep : step s (.begin i u) = some t)
    (hidle : s.progress i = .idle)
    (hprogress : t.progress = Function.update s.progress i u.awaiting) :
    Followed (as ++ [.begin i u]) t := by
  have hkeeps : Keeps s t := keeps_of_step hstep
  have hlabels : adapterLabels (as ++ [.begin i u])
      = adapterLabels as ++ [.start (i, .first) u.call] := adapterLabels_concat hrun
  have hold : ∀ {j u'}, .begin j u' ∈ as → j ≠ i := by
    rintro j u' hmem rfl
    exact hs.idle hidle hmem
  have hbegins : ∀ {j u'}, .begin j u' ∈ as ++ [Label.begin i u] →
      .begin j u' ∈ as ∧ j ≠ i ∨ j = i ∧ u' = u := by
    intro j u' hmem
    rcases begin_mem_concat.mp hmem with hmem | heq
    · exact Or.inl ⟨hmem, hold hmem⟩
    · cases heq
      exact Or.inr ⟨rfl, rfl⟩
  have hlast : .begin i u ∈ as ++ [Label.begin i u] := begin_mem_concat.mpr (Or.inr rfl)
  refine ⟨fun {j u'} hj hmem ↦ ?_, fun {j} hj ↦ ?_, fun {j u₁ u₂} h h' ↦ ?_, fun {j u'} hmem ↦ ?_,
    fun {j u'} hmem ↦ ?_, fun {j x call} hmem ↦ ?_⟩
  · rw [hprogress] at hj
    rcases hbegins hmem with ⟨hmem, hne⟩ | ⟨rfl, -⟩
    · rw [Function.update_of_ne hne] at hj
      exact hs.idle hj hmem
    · rw [Function.update_self] at hj
      cases u <;> cases hj
  · by_cases hji : j = i
    · exact ⟨u, hji ▸ hlast⟩
    · rw [hprogress, Function.update_of_ne hji] at hj
      obtain ⟨u', hu'⟩ := hs.begun hj
      exact ⟨u', begin_mem_concat.mpr (Or.inl hu')⟩
  · rcases hbegins h with ⟨h, hne⟩ | ⟨rfl, rfl⟩ <;> rcases hbegins h' with ⟨h', hne'⟩ | ⟨heq, rfl⟩
    · exact hs.unique h h'
    · exact absurd heq hne
    · exact absurd rfl hne'
    · rfl
  · rw [hprogress]
    rcases hbegins hmem with ⟨hmem, hne⟩ | ⟨rfl, rfl⟩
    · rw [Function.update_of_ne hne, hlabels]
      exact (hs.follows hmem).mono hkeeps (List.subset_append_left ..)
    · rw [Function.update_self]
      exact follows_awaiting _
  · rw [hlabels]
    rcases hbegins hmem with ⟨hmem, -⟩ | ⟨rfl, rfl⟩
    · exact List.mem_append_left _ (hs.first hmem)
    · exact List.mem_append_right _ (List.mem_singleton_self _)
  · rw [hlabels, List.mem_append, List.mem_singleton] at hmem
    rcases hmem with hmem | heq
    · obtain ⟨u', hu', hasks⟩ := hs.asked hmem
      exact ⟨u', begin_mem_concat.mpr (Or.inl hu'), hasks.mono hkeeps⟩
    · cases heq
      exact ⟨u, hlast, .first u⟩

private theorem Followed.of_proceed [Inhabited κ] (hs : Followed as s)
    (hrun : run step State.initial as = some s) (hstep : proceed s i newGuid = some t) :
    Followed (as ++ [.proceed i newGuid]) t := by
  obtain ⟨p, hp, -, hprogress⟩ := proceeds_of_proceed hstep
  have hbusy : s.progress i ≠ .idle := by
    intro hidle
    simp [proceed, hidle] at hstep
  have hlabels := adapterLabels_concat (a := .proceed i newGuid) hrun
  refine hs.of_step hrun hstep nofun (fun {j} ↦ ?_) (fun {j u} hmem ↦ ?_) fun {j x call} hmem ↦ ?_
  · rw [hprogress]
    by_cases hji : j = i
    · rw [hji, Function.update_self]
      exact iff_of_false hp.ne_idle hbusy
    · rw [Function.update_of_ne hji]
  · rw [hprogress, hlabels]
    by_cases hji : j = i
    · subst hji
      rw [Function.update_self]
      exact (follows_of_proceeds (hs.follows hmem) hp).1
    · rw [Function.update_of_ne hji]
      exact (hs.follows hmem).mono (fun _ _ ↦ id) (List.subset_append_left ..)
  · obtain ⟨u, hu⟩ := hs.begun hbusy
    obtain ⟨y, call', heq, hasks⟩ := (follows_of_proceeds (hs.follows hu) hp).2 _ hmem
    cases heq
    exact ⟨u, hu, hasks⟩

theorem followed_of_run [Inhabited κ] (hrun : run step State.initial as = some t) :
    Followed as t := by
  refine run_induction (motive := fun as t ↦ Followed as t) followed_initial ?_ hrun
  intro as s a t hrun hs hstep
  -- The execution rests, and no use case asks the adapter for anything.
  have hrests : (∀ i u, a ≠ .begin i u) → t.progress = s.progress →
      (∀ {i x call}, .start (i, x) call ∉ adapterLabel s a) → Followed (as ++ [a]) t := by
    intro hbegin hprogress hsilent
    refine hs.of_step hrun hstep hbegin (by rw [hprogress]) (fun hmem ↦ ?_)
      fun hmem ↦ absurd hmem hsilent
    rw [hprogress, adapterLabels_concat hrun]
    exact (hs.follows hmem).mono (fun _ _ ↦ id) (List.subset_append_left ..)
  cases step_cases hstep with
  | begins i u ha hidle hback hprogress =>
    subst ha
    exact hs.of_begin hrun hstep hidle hprogress
  | proceeds i newGuid b p ha =>
    subst ha
    exact hs.of_proceed hrun hstep
  | adapter b ha hback hprogress =>
    subst ha
    refine hrests nofun hprogress ?_
    rintro i x call ⟨⟩
    exact (Backend.adapter_spec hback).1 _ _ rfl
  | dispatches ch delivery ha hback hprogress =>
    subst ha
    exact hrests nofun hprogress nofun

/-! ## What is published -/

/-- What has been published in the run, each with its execution. -/
def publications [Inhabited κ] (as : List (Label κ)) : List (κ × Publication) :=
  (RabbitMqAdapter.publications (adapterLabels as)).map fun entry ↦ (entry.1.1, entry.2)

/-- The message that an execution of the use case may publish. -/
inductive Makes (s : State κ) (i : κ) : UseCase → BusMessage → Prop where
  | send (message : BusMessage) : Makes s i (.send message) message
  /-- The reply address is the queue that was declared for the execution. -/
  | sendWithReply (command : SendMessageWithReplyCommand) (handle : SubscriptionHandle)
    (queueName correlationId : Utf16) (message : BusMessage)
    (hdeclared : s.Declared i handle queueName)
    (hmessage : replyMessage command queueName correlationId = .ok message) :
    Makes s i (.sendWithReply command) message

/-- Each execution publishes at most the one message it is for. -/
structure PublishesOnce [Inhabited κ] (as : List (Label κ)) (t : State κ) : Prop where
  published : t.backend.adapter.published = (publications as).map Prod.snd
  once : ((publications as).map Prod.fst).Nodup
  made : ∀ {i p}, (i, p) ∈ publications as →
    ∃ u message, .begin i u ∈ as ∧ Makes t i u message ∧ p = publicationOf message
  sent : ∀ {i message outcome}, .begin i (.send message) ∈ as →
    t.progress i = .returned outcome → (i, publicationOf message) ∈ publications as
  /-- What a send with reply returns belongs to the message that it has published. -/
  replied : ∀ {i command result}, .begin i (.sendWithReply command) ∈ as →
    t.progress i = .returned (.sent result) → ∃ queueName message,
      t.Declared i result.subscriptionId queueName ∧
        replyMessage command queueName result.correlationId = .ok message ∧
          (i, publicationOf message) ∈ publications as

omit [DecidableEq κ] in
theorem Asks.makes (h : Asks s i u x (.send message)) :
    Makes s i u message ∧ ∀ {y message'}, Asks s i u y (.send message') → x = y := by
  generalize hcall : Call.send message = call at h
  cases h with
  | first =>
    cases u <;> cases hcall
    refine ⟨.send message, fun {y message'} h ↦ ?_⟩
    generalize Call.send message' = call' at h
    cases h
    rfl
  | send command handle queueName correlationId _ hdeclared hmessage =>
    cases hcall
    refine ⟨.sendWithReply command handle queueName correlationId message hdeclared hmessage,
      fun {y message'} h ↦ ?_⟩
    generalize hcall' : Call.send message' = call' at h
    cases h with
    | first => cases hcall'
    | send => rfl
    | cleanUp => cases hcall'
  | cleanUp => cases hcall

/-- **Each execution publishes at most once**, over any interleaving: a plain send its message, and
a send with reply the one that names the queue it has declared. An execution that has returned has
published, and a send with reply returns the handle of that queue and the correlation id of the
message. -/
theorem executionsPublishOnce_of_run [Inhabited κ] (hrun : run step State.initial as = some t) :
    PublishesOnce as t := by
  have hfollowed : Followed as t := followed_of_run hrun
  have hbelow : RabbitMqAdapter.PublishesOnce (adapterLabels as) t.backend.adapter :=
    RabbitMqAdapter.publishesOnce_of_run (run_observed projects_adapter hrun)
  have hmade : ∀ {i x p}, ((i, x), p) ∈ RabbitMqAdapter.publications (adapterLabels as) →
      ∃ u message, .begin i u ∈ as ∧ Asks t i u x (.send message) ∧ p = publicationOf message := by
    intro i x p hmem
    obtain ⟨message, hstart, hp⟩ := hbelow.sent hmem
    obtain ⟨u, hu, hasks⟩ := hfollowed.asked hstart
    exact ⟨u, message, hu, hasks, hp⟩
  have hreturned : ∀ {i x message result}, .start (i, x) (.send message) ∈ adapterLabels as →
      t.backend.adapter.calls (i, x) = .ended (.ok result) →
        (i, publicationOf message) ∈ publications as :=
    fun hstart hended ↦ List.mem_map.mpr ⟨_, hbelow.returned hstart hended, rfl⟩
  refine ⟨?_, ?_, fun {i p} hmem ↦ ?_, fun {i message outcome} hbegin hend ↦ ?_,
    fun {i command result} hbegin hend ↦ ?_⟩
  · rw [hbelow.published, publications, List.map_map]
    rfl
  · rw [publications, List.map_map]
    have hfst : Prod.fst ∘ (fun entry : (κ × Await) × Publication ↦ (entry.1.1, entry.2))
        = Prod.fst ∘ Prod.fst := rfl
    rw [hfst, ← List.map_map]
    refine List.Nodup.map_on ?_ hbelow.once
    rintro ⟨i, x⟩ hx ⟨j, y⟩ hy (rfl : i = j)
    obtain ⟨⟨k, p⟩, hp, rfl⟩ := List.mem_map.mp hx
    obtain ⟨⟨k', p'⟩, hp', rfl⟩ := List.mem_map.mp hy
    obtain ⟨u, message, hu, hasks, -⟩ := hmade hp
    obtain ⟨u', message', hu', hasks', -⟩ := hmade hp'
    obtain rfl := hfollowed.unique hu hu'
    rw [hasks.makes.2 hasks']
  · obtain ⟨⟨⟨j, x⟩, p'⟩, hentry, heq⟩ := List.mem_map.mp hmem
    cases heq
    obtain ⟨u, message, hu, hasks, hp⟩ := hmade hentry
    exact ⟨u, message, hu, hasks.makes.1, hp⟩
  · have hfollows := hfollowed.follows hbegin
    rw [hend] at hfollows
    cases hfollows with
    | sent _ result hcall => exact hreturned (hfollowed.first hbegin) hcall
  · have hfollows := hfollowed.follows hbegin
    rw [hend] at hfollows
    cases hfollows with
    | replied _ handle queueName correlationId message result hdeclared hmessage hstart hcall =>
      exact ⟨queueName, message, hdeclared, hmessage, hreturned hstart hcall⟩

open RabbitMqAdapter.Label (succeed)

private def question : SendMessageWithReplyCommand where
  target := some []
  routingKey := some (Utf16.ofString "questions")
  payload := some (Utf16.ofString "why")
  correlationId := none
  headers := none

private def remark : BusMessage where
  target := Utf16.ofString "remarks"
  routingKey := some (Utf16.ofString "made")
  payload := Utf16.ofString "so be it"
  replyTo := none
  correlationId := none
  headers := .empty
  target_valid := by decide
  payload_valid := by decide

/-- One execution connects. The second sends with reply while the third sends. -/
private def sentSideBySide : List (Label ℕ) :=
  [.begin 0 (.teardown (.connect .localhost)), .adapter (succeed (0, .first)),
    .adapter (succeed (0, .first)), .proceed 0 ⟨0⟩,
    .begin 1 (.sendWithReply question), .adapter (succeed (1, .first)),
    .adapter (.resume (1, .first) (.declared (Utf16.ofString "amq.gen-1")) ⟨0⟩),
    .adapter (.brokerConsumes 0), .adapter (.resume (1, .first) .completed ⟨7⟩),
    .begin 2 (.send remark), .adapter (succeed (1, .first)), .proceed 1 ⟨0⟩, .proceed 1 ⟨0⟩,
    .proceed 1 ⟨8⟩, .adapter (succeed (2, .first)), .adapter (succeed (1, .send)),
    .adapter (succeed (2, .first)), .adapter (succeed (1, .send)), .adapter (succeed (2, .first)),
    .adapter (succeed (1, .send)), .proceed 1 ⟨0⟩, .adapter (succeed (2, .first)),
    .proceed 2 ⟨0⟩]

theorem executionsPublishOnce_of_sentSideBySide : ∃ t,
    run step State.initial sentSideBySide = some t ∧
      t.progress 1 = .returned (.sent ⟨⟨⟨7⟩⟩, Guid.toString ⟨8⟩⟩) ∧
        t.backend.adapter.published.length = 2 ∧ PublishesOnce sentSideBySide t :=
  ⟨_, rfl, rfl, rfl, executionsPublishOnce_of_run rfl⟩

end UseCases

end BusTester
