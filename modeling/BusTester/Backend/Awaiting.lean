import BusTester.Backend.UseCases

/-!
# What an execution awaits

A call of the adapter that is in flight is awaited by the execution that made it, so its place in
the code says which call it is (`Awaiting`), and an execution that has ended has no call in flight.
Read from the other side: whoever removes an entry of the dictionary, or is about to add one, is an
execution at a known place.
-/

namespace BusTester

namespace UseCases

open Transition
open RabbitMqAdapter (Call Consumption Pc)

variable {κ : Type} {s t : State κ} {i j : κ} {x : Await} {a : Label κ} {call : Call}

/-! ## Places in the code -/

/-- An execution at this place awaits the call. -/
inductive Progress.Awaits : Progress → Await → Call → Prop where
  | teardown (caller : RabbitMqAdapter.Caller) : Awaits .calling .first (.teardown caller)
  | send (message : BusMessage) : Awaits .calling .first (.send message)
  | subscribing (queueName : Utf16) : Awaits .subscribing .first (.consume (.subscribe queueName))
  | declaring (command : SendMessageWithReplyCommand) :
    Awaits (.declaring command) .first (.consume .declareTemporary)
  | sending (handle : SubscriptionHandle) (correlationId : Utf16) (message : BusMessage) :
    Awaits (.sending handle correlationId) .send (.send message)
  | cleaningUp (handle : SubscriptionHandle) (ex : BusException) :
    Awaits (.cleaningUp handle ex) .cleanUp (.unsubscribe handle)
  | unsubscribing (handle : SubscriptionHandle) :
    Awaits (.unsubscribing handle) .first (.unsubscribe handle)

/-- The execution is one of `SubscribeUseCase` or `SendMessageWithReplyUseCase`, and under way. -/
def Progress.consumes : Progress → Bool
  | .subscribing | .subscribeAssigned _ | .declaring _ | .replyAssigned .. | .replyRegistered ..
  | .sending .. | .cleaningUp .. => true
  | .idle | .calling | .unsubscribing _ | .returned _ | .threw _ => false

/-- The execution has not begun, or has ended. -/
def Progress.isOver : Progress → Bool
  | .idle | .returned _ | .threw _ => true
  | _ => false

theorem awaits_awaiting (u : UseCase) : u.awaiting.Awaits .first u.call := by
  cases u with
  | teardown caller => exact .teardown caller
  | send message => exact .send message
  | subscribe queueName => exact .subscribing queueName
  | sendWithReply command => exact .declaring command
  | unsubscribe handle => exact .unsubscribing handle

/-- Every call that is in flight is awaited. -/
def Awaiting (s : State κ) : Prop :=
  ∀ i x, (s.backend.adapter.calls (i, x)).atRest = false →
    ∃ call, (s.progress i).Awaits x call ∧ (s.backend.adapter.calls (i, x)).Within call

theorem awaiting_initial [Inhabited κ] : Awaiting (State.initial : State κ) := nofun

variable [DecidableEq κ]

/-! ## The step -/

theorem atRest_of_proceed {newGuid : Guid} (hstep : proceed s i newGuid = some t)
    (hawaits : (s.progress i).Awaits x call) :
    (s.backend.adapter.calls (i, x)).atRest = true := by
  unfold proceed at hstep
  generalize s.progress i = p at hstep hawaits
  cases hawaits <;> dsimp only at hstep <;> split at hstep <;>
    first | rename_i hcall; rw [hcall]; rfl | cases hstep

/-- A call that is in flight after a step of the adapter was in flight before, in the same
method, unless it has just been started. -/
theorem within_or_starts {b : RabbitMqAdapter.Label (κ × Await)}
    {adapter : RabbitMqAdapter.State (κ × Await)} (hs : Awaiting s)
    (hstep : RabbitMqAdapter.step s.backend.adapter b = some adapter)
    (hflight : (adapter.calls (i, x)).atRest = false) :
    ((s.backend.adapter.calls (i, x)).atRest = false ∧
      ∃ call, (s.progress i).Awaits x call ∧ (adapter.calls (i, x)).Within call) ∨
      ∃ call, b = .start (i, x) call ∧ (adapter.calls (i, x)).Within call := by
  rcases RabbitMqAdapter.calls_of_step (i := (i, x)) hstep with
    hsame | ⟨-, call, rfl, rfl⟩ | ⟨awaited, newGuid, -, hresume⟩
  · rw [hsame] at hflight ⊢
    exact Or.inl ⟨hflight, hs i x hflight⟩
  · exact Or.inr ⟨call, rfl, RabbitMqAdapter.within_start call⟩
  · have hbefore : (s.backend.adapter.calls (i, x)).atRest = false := by
      cases hcall : s.backend.adapter.calls (i, x) with
      | idle | ended =>
        rw [RabbitMqAdapter.resume, hcall] at hresume
        cases hresume
      | _ => rfl
    obtain ⟨call, hawaits, hwithin⟩ := hs i x hbefore
    exact Or.inl ⟨hbefore, call, hawaits, RabbitMqAdapter.within_step hstep hwithin⟩

theorem adapter_of_back {b : Backend.Label (κ × Await)}
    (hback : Backend.step s.backend b = some t.backend) :
    ((∀ k call, b ≠ .start k call) ∧ t.backend.adapter = s.backend.adapter) ∨
      ∃ l, RabbitMqAdapter.step s.backend.adapter l = some t.backend.adapter ∧
        (b = .adapter l ∨ ∃ k call, l = .start k call ∧ b = .start k call) := by
  cases b with
  | start k call =>
    obtain ⟨-, adapter, hadapter, ht⟩ := Backend.start_spec hback
    rw [ht]
    exact Or.inr ⟨_, hadapter, Or.inr ⟨k, call, rfl, rfl⟩⟩
  | adapter l =>
    obtain ⟨-, adapter, hadapter, ht⟩ := Backend.adapter_spec hback
    rw [ht]
    exact Or.inr ⟨l, hadapter, Or.inl rfl⟩
  | assign k =>
    obtain ⟨result, handle, -, -, -, ht⟩ := Backend.assign_spec hback
    exact Or.inl ⟨nofun, by rw [ht]⟩
  | register k =>
    obtain ⟨handle, -, ht⟩ := Backend.register_spec hback
    exact Or.inl ⟨nofun, by rw [ht]⟩
  | unregister k =>
    obtain ⟨handle, result, -, -, ht⟩ := Backend.unregister_spec hback
    exact Or.inl ⟨nofun, by rw [ht]⟩
  | dispatch ch delivery =>
    exact Or.inl ⟨nofun, by rw [Backend.dispatch_spec hback]⟩

theorem Awaiting.of_back {b : Backend.Label (κ × Await)} (hs : Awaiting s)
    (hback : Backend.step s.backend b = some t.backend)
    (hstarts : ∀ i x call, b = .start (i, x) call → (t.progress i).Awaits x call)
    (hstays : ∀ i x call, (s.backend.adapter.calls (i, x)).atRest = false →
      (s.progress i).Awaits x call → (t.progress i).Awaits x call) : Awaiting t := by
  intro i x hflight
  rcases adapter_of_back hback with ⟨-, hsame⟩ | ⟨l, hstep, hl⟩
  · rw [hsame] at hflight ⊢
    obtain ⟨call, hawaits, hwithin⟩ := hs i x hflight
    exact ⟨call, hstays i x call hflight hawaits, hwithin⟩
  · rcases within_or_starts hs hstep hflight with ⟨hbefore, call, hawaits, hwithin⟩ |
      ⟨call, rfl, hwithin⟩
    · exact ⟨call, hstays i x call hbefore hawaits, hwithin⟩
    · rcases hl with rfl | ⟨k, call', heq, rfl⟩
      · exact absurd rfl ((Backend.adapter_spec hback).1 (i, x) call)
      · cases heq
        exact ⟨call, hstarts i x call rfl, hwithin⟩

theorem awaiting_step (hs : Awaiting s) (hstep : step s a = some t) : Awaiting t := by
  cases step_cases hstep with
  | begins k u ha hidle hback hprogress =>
    refine hs.of_back hback ?_ fun i x call _ hawaits ↦ ?_
    · rintro i x call ⟨⟩
      rw [hprogress, Function.update_self]
      exact awaits_awaiting u
    · have hne : i ≠ k := by
        rintro rfl
        rw [hidle] at hawaits
        cases hawaits
      rwa [hprogress, Function.update_of_ne hne]
  | adapter b ha hback hprogress =>
    exact hs.of_back hback nofun fun i x call _ hawaits ↦ hprogress ▸ hawaits
  | dispatches ch delivery ha hback hprogress =>
    exact hs.of_back hback nofun fun i x call _ hawaits ↦ hprogress ▸ hawaits
  | proceeds k newGuid b p ha hmoves hback hprogress =>
    subst ha
    -- what the execution has awaited is over
    have hstays : ∀ i x call, (s.backend.adapter.calls (i, x)).atRest = false →
        (s.progress i).Awaits x call → (t.progress i).Awaits x call := by
      intro i x call hflight hawaits
      have hne : i ≠ k := by
        rintro rfl
        cases hflight.symm.trans (atRest_of_proceed hstep hawaits)
      rwa [hprogress, Function.update_of_ne hne]
    cases b with
    | none =>
      intro i x hflight
      have hsame : t.backend = s.backend := hback
      rw [hsame] at hflight ⊢
      obtain ⟨call, hawaits, hwithin⟩ := hs i x hflight
      exact ⟨call, hstays i x call hflight hawaits, hwithin⟩
    | some b =>
      refine hs.of_back hback ?_ hstays
      rintro i x call rfl
      cases hmoves with
      | sends command handle queueName correlationId message =>
        rw [hprogress, Function.update_self]
        exact .sending handle correlationId message
      | cleansUp handle correlationId ex =>
        rw [hprogress, Function.update_self]
        exact .cleaningUp handle ex

/-! ## Where an execution goes -/

theorem consumes_of_step (hstep : step s a = some t) (hi : (t.progress i).consumes = true) :
    (s.progress i).consumes = true ∨ ∃ u, a = .begin i u ∧ u.awaiting.consumes = true := by
  cases step_cases hstep with
  | begins k u ha hidle hback hprogress =>
    rw [hprogress] at hi
    by_cases hik : i = k
    · subst hik
      rw [Function.update_self] at hi
      exact Or.inr ⟨u, ha, hi⟩
    · rw [Function.update_of_ne hik] at hi
      exact Or.inl hi
  | adapter b ha hback hprogress => exact Or.inl (hprogress ▸ hi)
  | dispatches ch delivery ha hback hprogress => exact Or.inl (hprogress ▸ hi)
  | proceeds k newGuid b p ha hmoves hback hprogress =>
    rw [hprogress] at hi
    by_cases hik : i = k
    · subst hik
      rw [Function.update_self] at hi
      refine Or.inl ?_
      cases hmoves with
      | assigns handle hfrom | registers handle hfrom | assignsReply command handle queueName hfrom
      | registersReply command handle queueName hfrom
      | sends command handle queueName correlationId message hfrom
      | cleansUp handle correlationId ex hfrom =>
        rw [hfrom]
        rfl
      | returns | drops | unsubscribes | ends | throws => cases hi
    · rw [Function.update_of_ne hik] at hi
      exact Or.inl hi

theorem unsubscribing_of_step {h : SubscriptionHandle} (hstep : step s a = some t)
    (hi : t.progress i = .unsubscribing h) :
    s.progress i = .unsubscribing h ∨ a = .begin i (.unsubscribe h) := by
  cases step_cases hstep with
  | begins k u ha hidle hback hprogress =>
    rw [hprogress] at hi
    by_cases hik : i = k
    · subst hik
      rw [Function.update_self] at hi
      cases u with
      | unsubscribe handle =>
        cases hi
        exact Or.inr ha
      | teardown | send | subscribe | sendWithReply => cases hi
    · rw [Function.update_of_ne hik] at hi
      exact Or.inl hi
  | adapter b ha hback hprogress => exact Or.inl (hprogress ▸ hi)
  | dispatches ch delivery ha hback hprogress => exact Or.inl (hprogress ▸ hi)
  | proceeds k newGuid b p ha hmoves hback hprogress =>
    rw [hprogress] at hi
    by_cases hik : i = k
    · subst hik
      rw [Function.update_self] at hi
      subst hi
      cases hmoves
    · rw [Function.update_of_ne hik] at hi
      exact Or.inl hi

theorem returned_of_step {outcome : Outcome} (hstep : step s a = some t)
    (hi : s.progress i = .returned outcome) : t.progress i = .returned outcome := by
  cases step_cases hstep with
  | begins k u ha hidle hback hprogress =>
    have hne : i ≠ k := by
      rintro rfl
      cases hidle.symm.trans hi
    rw [hprogress, Function.update_of_ne hne, hi]
  | adapter b ha hback hprogress => rw [hprogress, hi]
  | dispatches ch delivery ha hback hprogress => rw [hprogress, hi]
  | proceeds k newGuid b p ha hmoves hback hprogress =>
    subst ha
    have hne : i ≠ k := by
      rintro rfl
      simp only [step, proceed, hi] at hstep
      cases hstep
    rw [hprogress, Function.update_of_ne hne, hi]

/-! ## The handle of an execution -/

/-- The handle that the first call of the execution has returned. -/
def State.held (s : State κ) (i : κ) : Option SubscriptionHandle :=
  match s.backend.adapter.calls (i, .first) with
  | .ended result => RabbitMqAdapter.returnedHandle result
  | _ => none

omit [DecidableEq κ] in
theorem held_eq_some {h : SubscriptionHandle} : s.held i = some h ↔ ∃ result,
    s.backend.adapter.calls (i, .first) = .ended result ∧
      RabbitMqAdapter.returnedHandle result = some h := by
  unfold State.held
  constructor
  · intro hheld
    split at hheld
    · rename_i result hcall
      exact ⟨result, hcall, hheld⟩
    · cases hheld
  · rintro ⟨result, hcall, hreturned⟩
    rw [hcall]
    exact hreturned

theorem held_of_step {h : SubscriptionHandle} (hstep : step s a = some t)
    (hheld : s.held i = some h) : t.held i = some h := by
  obtain ⟨result, hcall, hreturned⟩ := held_eq_some.mp hheld
  have hkeeps : ∀ {b : Backend.Label (κ × Await)},
      Backend.step s.backend b = some t.backend → t.held i = some h := by
    intro b hback
    rcases adapter_of_back hback with ⟨-, hsame⟩ | ⟨l, hl, -⟩
    · exact held_eq_some.mpr ⟨result, by rw [hsame, hcall], hreturned⟩
    · exact held_eq_some.mpr ⟨result, RabbitMqAdapter.calls_of_ended hl hcall, hreturned⟩
  cases step_cases hstep with
  | begins k u ha hidle hback => exact hkeeps hback
  | adapter b ha hback => exact hkeeps hback
  | dispatches ch delivery ha hback => exact hkeeps hback
  | proceeds k newGuid b p ha hmoves hback =>
    cases b with
    | none =>
      have hsame : t.backend = s.backend := hback
      exact held_eq_some.mpr ⟨result, by rw [hsame, hcall], hreturned⟩
    | some b => exact hkeeps hback

omit [DecidableEq κ] in
theorem Ordered.held_unique {h : SubscriptionHandle} (hs : Ordered s) (hi : s.held i = some h)
    (hj : s.held j = some h) : i = j := by
  obtain ⟨result, hcall, hreturned⟩ := held_eq_some.mp hi
  obtain ⟨result', hcall', hreturned'⟩ := held_eq_some.mp hj
  have heq : (i, Await.first) = (j, Await.first) := by
    refine hs.handles.adapter.unique _ _ h ?_ ?_
    · rw [hcall]
      exact hreturned
    · rw [hcall']
      exact hreturned'
  exact congrArg Prod.fst heq

omit [DecidableEq κ] in
theorem Ordered.held_of_reached {h : SubscriptionHandle} (hs : Ordered s)
    (hi : (s.progress i).reached .first = some (.registered h)) : s.held i = some h := by
  have hexecution := hs.reached hi
  exact held_eq_some.mpr (hs.handles.returned (i, .first) h (by rw [hexecution]; rfl))

/-! ## The dictionary -/

/-- **An entry is added for an execution that is under way.** -/
theorem added_of_step {h : SubscriptionHandle} (hs : Awaiting s) (hstep : step s a = some t)
    (hlive : t.backend.adapter.IsLive h) : s.backend.adapter.IsLive h ∨
      ∃ i, (s.progress i).consumes = true ∧ t.held i = some h := by
  have hadds : ∀ {b : Backend.Label (κ × Await)},
      Backend.step s.backend b = some t.backend → s.backend.adapter.IsLive h ∨
        ∃ i, (s.progress i).consumes = true ∧ t.held i = some h := by
    intro b hback
    rcases adapter_of_back hback with ⟨-, hsame⟩ | ⟨l, hl, -⟩
    · exact Or.inl (hsame ▸ hlive)
    · refine (RabbitMqAdapter.isLive_of_step hl hlive).imp_right ?_
      rintro ⟨⟨i, x⟩, result, ⟨method, queueName, ch, hcall⟩, hended, hreturned⟩
      obtain ⟨call, hawaits, hwithin⟩ := hs i x (by rw [hcall]; rfl)
      rw [hcall] at hwithin
      cases hwithin
      generalize hp : s.progress i = p at hawaits
      cases hawaits with
      | subscribing => exact ⟨i, by rw [hp]; rfl, held_eq_some.mpr ⟨result, hended, hreturned⟩⟩
      | declaring => exact ⟨i, by rw [hp]; rfl, held_eq_some.mpr ⟨result, hended, hreturned⟩⟩
  cases step_cases hstep with
  | begins k u ha hidle hback => exact hadds hback
  | adapter b ha hback => exact hadds hback
  | dispatches ch delivery ha hback => exact hadds hback
  | proceeds k newGuid b p ha hmoves hback =>
    cases b with
    | none =>
      have hsame : t.backend = s.backend := hback
      exact Or.inl (hsame ▸ hlive)
    | some b => exact hadds hback

/-- The step clears the dictionary at the end of a teardown. -/
def State.clears (s : State κ) : Label κ → Bool
  | .adapter (.resume c .completed _) =>
    match s.backend.adapter.calls c with
    | .disposingChannel _ _ [] => true
    | _ => false
  | _ => false

/-- **An entry is removed by an execution that unsubscribes its handle, or by a teardown.** -/
theorem removed_of_step {h : SubscriptionHandle} (hs : Awaiting s) (hstep : step s a = some t)
    (hlive : s.backend.adapter.IsLive h) (hgone : ¬t.backend.adapter.IsLive h) :
    (∃ i, s.progress i = .unsubscribing h) ∨ (∃ i ex, s.progress i = .cleaningUp h ex) ∨
      s.clears a = true := by
  have hremoves : ∀ {b : Backend.Label (κ × Await)},
      Backend.step s.backend b = some t.backend → ∃ l,
        RabbitMqAdapter.step s.backend.adapter l = some t.backend.adapter ∧
          (b = .adapter l ∨ ∃ k call, l = .start k call ∧ b = .start k call) := by
    intro b hback
    refine (adapter_of_back hback).resolve_left ?_
    rintro ⟨-, hsame⟩
    exact hgone (hsame ▸ hlive)
  have hplace : ∀ {l}, RabbitMqAdapter.step s.backend.adapter l = some t.backend.adapter →
      (∃ i, s.progress i = .unsubscribing h) ∨ (∃ i ex, s.progress i = .cleaningUp h ex) ∨
        ∃ c newGuid caller ch, l = .resume c .completed newGuid ∧
          s.backend.adapter.calls c = .disposingChannel caller ch [] := by
    intro l hl
    obtain ⟨⟨i, x⟩, newGuid, rfl, hremoves⟩ := RabbitMqAdapter.removes_of_step hl hlive hgone
    generalize hcall : s.backend.adapter.calls (i, x) = pc at hremoves
    cases hremoves with
    | unsubscribe =>
      obtain ⟨call, hawaits, hwithin⟩ := hs i x (by rw [hcall]; rfl)
      rw [hcall] at hwithin
      cases hwithin
      generalize hp : s.progress i = p at hawaits
      cases hawaits with
      | cleaningUp handle ex => exact Or.inr (Or.inl ⟨i, ex, hp⟩)
      | unsubscribing => exact Or.inl ⟨i, hp⟩
    | teardown caller ch => exact Or.inr (Or.inr ⟨(i, x), newGuid, caller, ch, rfl, hcall⟩)
  have hresumes : ∀ {b : Backend.Label (κ × Await)},
      Backend.step s.backend b = some t.backend → (∀ l, b ≠ .adapter l) →
        (∃ i, s.progress i = .unsubscribing h) ∨ (∃ i ex, s.progress i = .cleaningUp h ex) := by
    intro b hback hb
    obtain ⟨l, hl, hbl⟩ := hremoves hback
    obtain ⟨k, call, rfl, -⟩ := hbl.resolve_left (hb l)
    rcases hplace hl with hplace | hplace | ⟨c, newGuid, caller, ch, heq, -⟩
    · exact Or.inl hplace
    · exact Or.inr hplace
    · cases heq
  cases step_cases hstep with
  | begins k u ha hidle hback => exact (hresumes hback nofun).imp_right Or.inl
  | dispatches ch delivery ha hback => exact (hresumes hback nofun).imp_right Or.inl
  | adapter b ha hback =>
    obtain ⟨l, hl, hbl⟩ := hremoves hback
    rcases hbl with heq | ⟨k, call, -, heq⟩
    · cases heq
      rcases hplace hl with hplace | hplace | ⟨c, newGuid, caller, ch, rfl, hcall⟩
      · exact Or.inl hplace
      · exact Or.inr (Or.inl hplace)
      · exact Or.inr (Or.inr (by rw [ha, State.clears, hcall]))
    · cases heq
  | proceeds k newGuid b p ha hmoves hback =>
    cases b with
    | none =>
      have hsame : t.backend = s.backend := hback
      exact absurd (hsame ▸ hlive) hgone
    | some b =>
      refine (hresumes hback fun l hl ↦ ?_).imp_right Or.inl
      subst hl
      cases hmoves

end UseCases

end BusTester
