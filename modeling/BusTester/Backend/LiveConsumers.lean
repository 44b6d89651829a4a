import BusTester.Backend.Buffering
import BusTester.Infrastructure.Methods

/-!
# Every live consumer has a buffer

The adapter and the coordinator each keep a registry of handles. A subscription enters the
adapter's first and the coordinator's second, and leaves them in the same order; a teardown empties
the adapter's alone. So an entry of the adapter is registered with the coordinator, unless the use
case that created it is still on its way to `Register`.

The invariant `LiveConsumers` says what each execution may count on. Its key part is about an
execution that unsubscribes: once `UnsubscribeAsync` has got past the semaphore the entry is gone,
and it cannot come back, because the call that would add it has returned its handle before.
-/

namespace BusTester

namespace Backend

open Transition
open RabbitMqAdapter (Call ChannelId Pc returnedHandle)

variable {ι : Type} {s t : State ι} {i j : ι} {h : SubscriptionHandle} {a : Label ι}

/-- The execution is one that makes the call. -/
def Execution.OfCall : Execution → Call → Prop
  | .subscribing, .consume _ | .assigned _, .consume _ | .registered _, .consume _ => True
  | .unsubscribing handle, .unsubscribe handle' => handle = handle'
  | .unsubscribed, .unsubscribe _ => True
  | .calling, .teardown _ | .calling, .send _ => True
  | _, _ => False

theorem ofCall_executionOf (call : Call) : (executionOf call).OfCall call := by
  cases call <;> trivial

/-! ## What a step of the backend moves -/

/-- The execution that the step moves. -/
def Label.mover : Label ι → Option ι
  | .start i _ | .assign i | .register i | .unregister i => some i
  | .adapter _ | .dispatch _ _ => none

section

variable [DecidableEq ι]

theorem executions_of_step (hstep : step s a = some t) (hi : a.mover ≠ some i) :
    t.executions i = s.executions i := by
  have hother : ∀ {k e}, some k ≠ some i → Function.update s.executions k e i = s.executions i :=
    fun hk ↦ Function.update_of_ne (fun h ↦ hk (congrArg some h.symm)) ..
  cases a with
  | start k call =>
    obtain ⟨-, adapter, -, rfl⟩ := start_spec hstep
    exact hother hi
  | adapter b =>
    obtain ⟨-, adapter, -, rfl⟩ := adapter_spec hstep
    rfl
  | assign k =>
    obtain ⟨result, handle, -, -, -, rfl⟩ := assign_spec hstep
    exact hother hi
  | register k =>
    obtain ⟨handle, -, rfl⟩ := register_spec hstep
    exact hother hi
  | unregister k =>
    obtain ⟨handle, result, -, -, rfl⟩ := unregister_spec hstep
    exact hother hi
  | dispatch ch delivery => rw [dispatch_spec hstep]

theorem idle_of_step (hstep : step s a = some t) (hidle : s.adapter.calls i = .idle) :
    t.adapter.calls i = .idle ∨ ∃ call, a = .start i call := by
  have hcalls : ∀ {b adapter}, RabbitMqAdapter.step s.adapter b = some adapter →
      adapter.calls i = .idle ∨ ∃ call, b = .start i call := by
    intro b adapter hb
    rcases RabbitMqAdapter.calls_of_step (i := i) hb with
      hsame | ⟨-, call, hstart, -⟩ | ⟨awaited, newGuid, -, hresume⟩
    · exact Or.inl (hsame.trans hidle)
    · exact Or.inr ⟨call, hstart⟩
    · rw [RabbitMqAdapter.resume, hidle] at hresume
      cases hresume
  cases a with
  | start k call =>
    obtain ⟨-, adapter, hstart, rfl⟩ := start_spec hstep
    rcases hcalls hstart with hi | ⟨call', heq⟩
    · exact Or.inl hi
    · cases heq
      exact Or.inr ⟨call, rfl⟩
  | adapter b =>
    obtain ⟨hb, adapter, hadapter, rfl⟩ := adapter_spec hstep
    rcases hcalls hadapter with hi | ⟨call, heq⟩
    · exact Or.inl hi
    · exact absurd heq (hb i call)
  | assign k =>
    obtain ⟨result, handle, -, -, -, rfl⟩ := assign_spec hstep
    exact Or.inl hidle
  | register k =>
    obtain ⟨handle, -, rfl⟩ := register_spec hstep
    exact Or.inl hidle
  | unregister k =>
    obtain ⟨handle, result, -, -, rfl⟩ := unregister_spec hstep
    exact Or.inl hidle
  | dispatch ch delivery =>
    rw [dispatch_spec hstep]
    exact Or.inl hidle

theorem registered_of_step (hs : Handles s) (hstep : step s a = some t)
    (hi : s.executions i = .registered h) : t.executions i = .registered h := by
  cases (effect_of_step hs hstep).2 i with
  | quiet _ _ hregistered => exact (hregistered h).mpr hi
  | registers h' _ _ hassigned => cases hassigned.symm.trans hi
  | dispatches ch delivery _ _ _ hexecutions => rwa [hexecutions]

end

/-! ## The property and the condition -/

/-- A handle is passed to `UnsubscribeAsync` only after it was registered. -/
def UnsubscribesRegistered (s : State ι) : Label ι → Prop
  | .start _ (.unsubscribe handle) => ∃ i, s.executions i = .registered handle
  | _ => True

/-- The call that returned the handle belongs to an execution that has not run `Register` yet. -/
def AboutToRegister (s : State ι) (i : ι) (h : SubscriptionHandle) : Prop :=
  (∃ result, s.adapter.calls i = .ended result ∧ returnedHandle result = some h) ∧
    (s.executions i = .subscribing ∨ s.executions i = .assigned h)

/-- Every entry of the adapter is registered with the coordinator, or about to be. -/
def EveryConsumerBuffered (s : State ι) : Prop :=
  ∀ h, s.adapter.IsLive h → s.coordinator.IsRegistered h ∨ ∃ i, AboutToRegister s i h

/-- What the executions may count on. -/
structure LiveConsumers (s : State ι) : Prop where
  handles : Handles s
  /-- An execution and its call of the adapter belong together. -/
  within : ∀ i, (s.adapter.calls i = .idle ∧ s.executions i = .idle) ∨
    ∃ call, (s.adapter.calls i).Within call ∧ (s.executions i).OfCall call
  /-- An entry is there because a call has returned its handle. -/
  returned : ∀ h, s.adapter.IsLive h →
    ∃ i result, s.adapter.calls i = .ended result ∧ returnedHandle result = some h
  /-- Once `UnsubscribeAsync` has got past the semaphore the entry is gone. -/
  unsubscribing : ∀ i h, s.executions i = .unsubscribing h →
    (∃ j, s.executions j = .registered h) ∧
      (s.adapter.calls i = .waitingToUnsubscribe h ∨
        (∃ ex, s.adapter.calls i = .ended (.error ex)) ∨ ¬s.adapter.IsLive h)
  registered : ∀ i h, s.executions i = .registered h → s.adapter.IsLive h →
    s.coordinator.IsRegistered h

/-! ## The step -/

theorem liveConsumers_initial [Inhabited ι] : LiveConsumers (State.initial : State ι) where
  handles := handles_initial
  within _ := Or.inl ⟨rfl, rfl⟩
  returned := by
    rintro h ⟨entry, hentry, -⟩
    cases hentry
  unsubscribing := nofun
  registered := nofun

theorem LiveConsumers.ended (hs : LiveConsumers s) (hi : s.executions i = .registered h) :
    ∃ result, s.adapter.calls i = .ended result ∧ returnedHandle result = some h :=
  hs.handles.returned i h (by rw [hi]; rfl)

section

variable [DecidableEq ι]

theorem LiveConsumers.isLive_of_step {b : RabbitMqAdapter.Label ι} (hs : LiveConsumers s)
    (hstep : RabbitMqAdapter.step s.adapter b = some t.adapter)
    (hi : s.executions i = .registered h) (hlive : t.adapter.IsLive h) : s.adapter.IsLive h := by
  rcases RabbitMqAdapter.isLive_of_step hstep hlive with
    hold | ⟨j, -, ⟨method, queueName, ch, hj⟩, -⟩
  · exact hold
  · obtain ⟨result, hcall, hreturned⟩ := hs.ended hi
    have hij : i = j := hs.handles.adapter.unique i j h (by rw [hcall]; exact hreturned)
      (by rw [hj]; rfl)
    rw [hij, hj] at hcall
    cases hcall

theorem LiveConsumers.of_adapter {b : RabbitMqAdapter.Label ι} (hs : LiveConsumers s)
    (hhandles : Handles t) (hstep : RabbitMqAdapter.step s.adapter b = some t.adapter)
    (hb : ∀ i call, b ≠ .start i call) (hexecutions : t.executions = s.executions)
    (hcoordinator : t.coordinator = s.coordinator) : LiveConsumers t := by
  refine ⟨hhandles, fun i ↦ ?_, fun h hlive ↦ ?_, fun i h hi ↦ ?_, fun i h hi hlive ↦ ?_⟩
  · rw [hexecutions]
    rcases hs.within i with ⟨hidle, hi⟩ | ⟨call, hwithin, hi⟩
    · rcases RabbitMqAdapter.calls_of_step (i := i) hstep with
        hsame | ⟨-, call, hstart, -⟩ | ⟨awaited, newGuid, -, hresume⟩
      · exact Or.inl ⟨hsame.trans hidle, hi⟩
      · exact absurd hstart (hb i call)
      · rw [RabbitMqAdapter.resume, hidle] at hresume
        cases hresume
    · exact Or.inr ⟨call, RabbitMqAdapter.within_step hstep hwithin, hi⟩
  · rcases RabbitMqAdapter.isLive_of_step hstep hlive with hold | ⟨i, result, -, hended, hreturned⟩
    · obtain ⟨i, result, hended, hreturned⟩ := hs.returned h hold
      exact ⟨i, result, RabbitMqAdapter.calls_of_ended hstep hended, hreturned⟩
    · exact ⟨i, result, hended, hreturned⟩
  · rw [hexecutions] at hi ⊢
    obtain ⟨⟨j, hj⟩, hwaiting | ⟨ex, hended⟩ | hgone⟩ := hs.unsubscribing i h hi
    · exact ⟨⟨j, hj⟩, RabbitMqAdapter.not_isLive_of_step hstep hwaiting⟩
    · exact ⟨⟨j, hj⟩, Or.inr (Or.inl ⟨ex, RabbitMqAdapter.calls_of_ended hstep hended⟩)⟩
    · exact ⟨⟨j, hj⟩, Or.inr (Or.inr fun hlive ↦ hgone (hs.isLive_of_step hstep hj hlive))⟩
  · rw [hexecutions] at hi
    rw [hcoordinator]
    exact hs.registered i h hi (hs.isLive_of_step hstep hi hlive)

theorem LiveConsumers.of_start {call : Call} (hs : LiveConsumers s) (hhandles : Handles t)
    (hidle : s.executions i = .idle)
    (hstep : RabbitMqAdapter.step s.adapter (.start i call) = some t.adapter)
    (hexecutions : t.executions = Function.update s.executions i (executionOf call))
    (hcoordinator : t.coordinator = s.coordinator)
    (hused : UnsubscribesRegistered s (.start i call)) : LiveConsumers t := by
  have hregistered : ∀ j h, t.executions j = .registered h ↔ s.executions j = .registered h := by
    intro j h
    rw [hexecutions]
    by_cases hji : j = i
    · rw [hji, Function.update_self, hidle]
      cases call <;> simp [executionOf]
    · rw [Function.update_of_ne hji]
  simp only [RabbitMqAdapter.step, Option.ite_none_right_eq_some, Option.some.injEq] at hstep
  obtain ⟨hidle', hstart⟩ := hstep
  have hwithin : (t.adapter.calls i).Within call := hstart ▸ RabbitMqAdapter.within_start call
  obtain ⟨pc', hgoto, -⟩ := RabbitMqAdapter.exists_goto_start s.adapter i call
  rw [hgoto] at hstart
  have hothers : ∀ j ≠ i,
      t.adapter.calls j = s.adapter.calls j ∧ t.executions j = s.executions j := by
    intro j hji
    rw [← hstart, hexecutions]
    exact ⟨Function.update_of_ne hji .., Function.update_of_ne hji ..⟩
  have hlive : ∀ h, t.adapter.IsLive h ↔ s.adapter.IsLive h := fun h ↦ hstart ▸ Iff.rfl
  refine ⟨hhandles, fun j ↦ ?_, fun h hh ↦ ?_, fun j h hj ↦ ?_, fun j h hj hh ↦ ?_⟩
  · by_cases hji : j = i
    · subst hji
      rw [hexecutions, Function.update_self]
      exact Or.inr ⟨call, hwithin, ofCall_executionOf call⟩
    · rw [(hothers j hji).1, (hothers j hji).2]
      exact hs.within j
  · obtain ⟨j, result, hended, hreturned⟩ := hs.returned h ((hlive h).mp hh)
    have hji : j ≠ i := by
      rintro rfl
      cases hidle'.symm.trans hended
    exact ⟨j, result, (hothers j hji).1.trans hended, hreturned⟩
  · simp only [hregistered, hlive]
    by_cases hji : j = i
    · subst hji
      rw [hexecutions, Function.update_self] at hj
      cases call with
      | unsubscribe handle =>
        cases hj
        refine ⟨hused, Or.inl ?_⟩
        rw [← hstart, ← hgoto]
        exact RabbitMqAdapter.calls_goto
      | _ => cases hj
    · rw [(hothers j hji).2] at hj
      rw [(hothers j hji).1]
      exact hs.unsubscribing j h hj
  · rw [hcoordinator]
    exact hs.registered j h ((hregistered j h).mp hj) ((hlive h).mp hh)

theorem LiveConsumers.of_execution {e : Execution} (hs : LiveConsumers s) (hhandles : Handles t)
    (hadapter : t.adapter = s.adapter)
    (hexecutions : t.executions = Function.update s.executions i e)
    (hidle : s.executions i ≠ .idle) (hcall : ∀ call, (s.executions i).OfCall call → e.OfCall call)
    (hbefore : ∀ h, s.executions i ≠ .registered h) (hafter : ∀ h, e ≠ .unsubscribing h)
    (hregistered : ∀ j h, t.executions j = .registered h → s.adapter.IsLive h →
      t.coordinator.IsRegistered h) : LiveConsumers t := by
  refine ⟨hhandles, fun j ↦ ?_, fun h hh ↦ ?_, fun j h hj ↦ ?_, fun j h hj hh ↦ ?_⟩
  · rw [hadapter]
    by_cases hji : j = i
    · subst hji
      rw [hexecutions, Function.update_self]
      rcases hs.within j with ⟨-, hj⟩ | ⟨call, hwithin, hj⟩
      · exact absurd hj hidle
      · exact Or.inr ⟨call, hwithin, hcall call hj⟩
    · rw [hexecutions, Function.update_of_ne hji]
      exact hs.within j
  · rw [hadapter] at hh ⊢
    exact hs.returned h hh
  · rw [hadapter]
    by_cases hji : j = i
    · rw [hexecutions, hji, Function.update_self] at hj
      exact absurd hj (hafter h)
    · rw [hexecutions, Function.update_of_ne hji] at hj
      obtain ⟨⟨k, hk⟩, hdone⟩ := hs.unsubscribing j h hj
      have hki : k ≠ i := by
        rintro rfl
        exact hbefore h hk
      refine ⟨⟨k, ?_⟩, hdone⟩
      rw [hexecutions, Function.update_of_ne hki]
      exact hk
  · exact hregistered j h hj (hadapter ▸ hh)

omit [DecidableEq ι] in
theorem isRegistered_handle (delivery : Delivery) :
    (handle s i delivery).IsRegistered h ↔ s.coordinator.IsRegistered h := by
  unfold handle onMessage
  split
  · exact Iff.rfl
  · split
    · exact Iff.rfl
    · exact SubscriptionCoordinator.isRegistered_onMessageReceived

/-- **The step lemma.** -/
theorem liveConsumers_step (hused : UnsubscribesRegistered s a) (hs : LiveConsumers s)
    (hstep : step s a = some t) : LiveConsumers t := by
  have hhandles : Handles t := (effect_of_step hs.handles hstep).1
  cases a with
  | start k call =>
    obtain ⟨hidle, adapter, hadapter, rfl⟩ := start_spec hstep
    exact hs.of_start hhandles hidle hadapter rfl rfl hused
  | adapter b =>
    obtain ⟨hb, adapter, hadapter, rfl⟩ := adapter_spec hstep
    exact hs.of_adapter hhandles hadapter hb rfl rfl
  | assign k =>
    obtain ⟨result, handle, hexecution, -, -, rfl⟩ := assign_spec hstep
    refine hs.of_execution hhandles rfl rfl ?_ ?_ ?_ (fun _ h ↦ by cases h) fun j h hj ↦ ?_
    · simp [hexecution]
    · rw [hexecution]
      intro call hof
      cases call <;> trivial
    · simp [hexecution]
    · by_cases hjk : j = k
      · rw [hjk] at hj
        cases (Function.update_self ..).symm.trans hj
      · exact hs.registered j h ((Function.update_of_ne hjk ..).symm.trans hj)
  | register k =>
    obtain ⟨handle, hexecution, rfl⟩ := register_spec hstep
    refine hs.of_execution hhandles rfl rfl ?_ ?_ ?_ (fun _ h ↦ by cases h) fun j h hj hlive ↦ ?_
    · simp [hexecution]
    · rw [hexecution]
      intro call hof
      cases call <;> trivial
    · simp [hexecution]
    · by_cases hh : h = handle
      · rw [hh]
        exact SubscriptionCoordinator.isRegistered_register_self
      · have hjk : j ≠ k := by
          rintro rfl
          cases (Function.update_self ..).symm.trans hj
          exact hh rfl
        have hold := hs.registered j h ((Function.update_of_ne hjk ..).symm.trans hj) hlive
        exact SubscriptionCoordinator.isRegistered_register.mpr (Or.inr hold)
  | unregister k =>
    obtain ⟨handle, result, hexecution, hcall, rfl⟩ := unregister_spec hstep
    refine hs.of_execution hhandles rfl rfl ?_ ?_ ?_ (fun _ h ↦ by cases h) fun j h hj hlive ↦ ?_
    · simp [hexecution]
    · rw [hexecution]
      intro call hof
      cases call <;> trivial
    · simp [hexecution]
    · have hjk : j ≠ k := by
        rintro rfl
        cases (Function.update_self ..).symm.trans hj
      have hold := hs.registered j h ((Function.update_of_ne hjk ..).symm.trans hj) hlive
      -- `UnsubscribeAsync` has ended normally, so the entry of its handle is gone.
      have hne : h ≠ handle := by
        rintro rfl
        obtain ⟨-, hwaiting | ⟨ex, hended⟩ | hgone⟩ := hs.unsubscribing k h hexecution
        · cases hcall.symm.trans hwaiting
        · cases hcall.symm.trans hended
        · exact hgone hlive
      exact SubscriptionCoordinator.isRegistered_unregister.mpr ⟨hne, hold⟩
  | dispatch ch delivery =>
    obtain rfl := dispatch_spec hstep
    exact ⟨hhandles, hs.within, hs.returned, hs.unsubscribing,
      fun j h hj hlive ↦ (isRegistered_handle delivery).mpr (hs.registered j h hj hlive)⟩

end

/-- **Every live consumer has a buffer**, or its execution is about to register it. -/
theorem LiveConsumers.allBuffered (hs : LiveConsumers s) : EveryConsumerBuffered s := by
  intro h hlive
  obtain ⟨i, result, hended, hreturned⟩ := hs.returned h hlive
  rcases hs.within i with ⟨hidle, -⟩ | ⟨call, hwithin, hi⟩
  · cases hidle.symm.trans hended
  · have hhandle : (s.adapter.calls i).handle = some h := by
      rw [hended]
      exact hreturned
    obtain ⟨method, rfl⟩ := hwithin.exists_consume hhandle
    have hcaptured : ∀ {h'}, (s.executions i).closure = some h' → h' = h := by
      intro h' hclosure
      obtain ⟨result', hended', hreturned'⟩ := hs.handles.returned i h' hclosure
      cases hended.symm.trans hended'
      exact Option.some.inj (hreturned'.symm.trans hreturned)
    cases hexecution : s.executions i with
    | subscribing => exact Or.inr ⟨i, ⟨result, hended, hreturned⟩, Or.inl hexecution⟩
    | assigned h' =>
      obtain rfl : h' = h := hcaptured (by rw [hexecution]; rfl)
      exact Or.inr ⟨i, ⟨result, hended, hreturned⟩, Or.inr hexecution⟩
    | registered h' =>
      obtain rfl : h' = h := hcaptured (by rw [hexecution]; rfl)
      exact Or.inl (hs.registered i h' hexecution hlive)
    | idle | unsubscribing h' | unsubscribed | calling =>
      rw [hexecution] at hi
      cases hi

end Backend

end BusTester
