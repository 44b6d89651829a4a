import BusTester.Live.Session

/-!
# Requests and the executions behind them

A request is served by one execution, which begins at most once, and after the request was made. As
long as the page waits for it the execution is at a place that fits the request (`Serves`), so what
the execution returns is an answer to it.

The coordinator is changed by few statements. `Registers` lists them, each with where it leaves its
execution.
-/

namespace BusTester

namespace UseCases

variable {κ : Type} [DecidableEq κ] {s t : State κ} {i : κ} {a : Label κ}

/-! ## The statements that concern the coordinator -/

/-- What a step does to the coordinator, and which executions return by it. -/
inductive Registers (s : State κ) (a : Label κ) (t : State κ) : Prop where
  /-- The coordinator rests, and nothing is returned that is a subscription. -/
  | rests (hcoordinator : t.backend.coordinator = s.backend.coordinator)
    (hreturned : ∀ {i outcome}, t.progress i = .returned outcome →
      s.progress i = .returned outcome ∨ s.progress i = .calling)
  | subscribes (i : κ) (handle : SubscriptionHandle)
    (hfrom : s.progress i = .subscribeAssigned handle)
    (hprogress : t.progress = Function.update s.progress i (.returned (.subscribed handle)))
    (hcoordinator : t.backend.coordinator = s.backend.coordinator.register handle)
  | registers (i : κ) (command : SendMessageWithReplyCommand) (handle : SubscriptionHandle)
    (queueName : Utf16) (hfrom : s.progress i = .replyAssigned command handle queueName)
    (hprogress : t.progress
      = Function.update s.progress i (.replyRegistered command handle queueName))
    (hcoordinator : t.backend.coordinator = s.backend.coordinator.register handle)
  | replies (i : κ) (handle : SubscriptionHandle) (correlationId : Utf16)
    (hfrom : s.progress i = .sending handle correlationId)
    (hprogress : t.progress
      = Function.update s.progress i (.returned (.sent ⟨handle, correlationId⟩)))
    (hcoordinator : t.backend.coordinator = s.backend.coordinator)
  | drops (i : κ) (handle : SubscriptionHandle) (ex : BusException)
    (hfrom : s.progress i = .cleaningUp handle ex)
    (hprogress : t.progress = Function.update s.progress i (.threw ex))
    (hcoordinator : t.backend.coordinator = s.backend.coordinator.unregister handle)
  | unsubscribes (i : κ) (handle : SubscriptionHandle)
    (hfrom : s.progress i = .unsubscribing handle)
    (hprogress : t.progress = Function.update s.progress i (.returned .done))
    (hcoordinator : t.backend.coordinator = s.backend.coordinator.unregister handle)
  | dispatches (channel : RabbitMqAdapter.ChannelId) (delivery : Delivery)
    (ha : a = .dispatch channel delivery) (hprogress : t.progress = s.progress)
    (hcoordinator : t.backend.coordinator
      = Backend.handle s.backend (s.backend.adapter.channels channel).openedBy delivery)

private theorem coordinator_of_start {k : κ × Await} {call : RabbitMqAdapter.Call}
    (hback : Backend.step s.backend (.start k call) = some t.backend) :
    t.backend.coordinator = s.backend.coordinator := by
  obtain ⟨-, adapter, -, ht⟩ := Backend.start_spec hback
  rw [ht]

private theorem coordinator_of_assign {k : κ × Await}
    (hback : Backend.step s.backend (.assign k) = some t.backend) :
    t.backend.coordinator = s.backend.coordinator := by
  obtain ⟨result, handle, -, -, -, ht⟩ := Backend.assign_spec hback
  rw [ht]

private theorem coordinator_of_register {k : κ × Await} {handle : SubscriptionHandle}
    (hback : Backend.step s.backend (.register k) = some t.backend)
    (hassigned : s.backend.executions k = .assigned handle) :
    t.backend.coordinator = s.backend.coordinator.register handle := by
  obtain ⟨handle', hassigned', ht⟩ := Backend.register_spec hback
  cases hassigned.symm.trans hassigned'
  rw [ht]

private theorem coordinator_of_unregister {k : κ × Await} {handle : SubscriptionHandle}
    (hback : Backend.step s.backend (.unregister k) = some t.backend)
    (hunsubscribing : s.backend.executions k = .unsubscribing handle) :
    t.backend.coordinator = s.backend.coordinator.unregister handle := by
  obtain ⟨handle', result, hunsubscribing', -, ht⟩ := Backend.unregister_spec hback
  cases hunsubscribing.symm.trans hunsubscribing'
  rw [ht]

private theorem returned_of_update {p : Progress}
    (hprogress : t.progress = Function.update s.progress i p)
    (hp : ∀ outcome, p = .returned outcome → s.progress i = .calling) {j : κ} {outcome : Outcome}
    (hj : t.progress j = .returned outcome) :
    s.progress j = .returned outcome ∨ s.progress j = .calling := by
  rw [hprogress] at hj
  by_cases hji : j = i
  · subst hji
    rw [Function.update_self] at hj
    exact Or.inr (hp outcome hj)
  · rw [Function.update_of_ne hji] at hj
    exact Or.inl hj

theorem registers_of_step (hs : Ordered s) (hstep : step s a = some t) : Registers s a t := by
  cases step_cases hstep with
  | begins i u ha hidle hback hprogress =>
    refine .rests (coordinator_of_start hback) (returned_of_update hprogress ?_)
    intro outcome hu
    cases u <;> cases hu
  | adapter b ha hback hprogress =>
    obtain ⟨-, adapter, -, ht⟩ := Backend.adapter_spec hback
    exact .rests (by rw [ht]) fun hi ↦ Or.inl (hprogress ▸ hi)
  | dispatches ch delivery ha hback hprogress =>
    exact .dispatches ch delivery ha hprogress (by rw [Backend.dispatch_spec hback])
  | proceeds i newGuid b p ha hmoves hback hprogress =>
    cases hmoves with
    | assigns handle hfrom hcall =>
      exact .rests (coordinator_of_assign hback) (returned_of_update hprogress nofun)
    | assignsReply command handle queueName hfrom hcall =>
      exact .rests (coordinator_of_assign hback) (returned_of_update hprogress nofun)
    | registers handle hfrom =>
      exact .subscribes i handle hfrom hprogress
        (coordinator_of_register hback (hs.reached (by rw [hfrom]; rfl)))
    | registersReply command handle queueName hfrom =>
      exact .registers i command handle queueName hfrom hprogress
        (coordinator_of_register hback (hs.reached (by rw [hfrom]; rfl)))
    | sends | cleansUp =>
      exact .rests (coordinator_of_start hback) (returned_of_update hprogress nofun)
    | returns handle correlationId hfrom =>
      have hsame : t.backend = s.backend := hback
      exact .replies i handle correlationId hfrom hprogress (by rw [hsame])
    | drops handle ex hfrom =>
      exact .drops i handle ex hfrom hprogress
        (coordinator_of_unregister hback (hs.reached (by rw [hfrom]; rfl)))
    | unsubscribes handle hfrom =>
      exact .unsubscribes i handle hfrom hprogress
        (coordinator_of_unregister hback (hs.reached (by rw [hfrom]; rfl)))
    | ends hfrom =>
      have hsame : t.backend = s.backend := hback
      exact .rests (by rw [hsame]) (returned_of_update hprogress fun _ _ ↦ hfrom)
    | throws ex =>
      have hsame : t.backend = s.backend := hback
      exact .rests (by rw [hsame]) (returned_of_update hprogress nofun)

theorem idle_of_rest (hstep : step s a = some t) (hidle : s.progress i = .idle)
    (ha : ∀ useCase, a ≠ .begin i useCase) : t.progress i = .idle := by
  cases step_cases hstep with
  | begins j u hbegin hidle' hback hprogress =>
    have hne : i ≠ j := by
      rintro rfl
      exact ha u hbegin
    rw [hprogress, Function.update_of_ne hne, hidle]
  | adapter b hadapter hback hprogress => rw [hprogress, hidle]
  | dispatches ch delivery hdispatch hback hprogress => rw [hprogress, hidle]
  | proceeds j newGuid b p hproceed hmoves hback hprogress =>
    subst hproceed
    have hne : i ≠ j := by
      rintro rfl
      simp only [step, proceed, hidle] at hstep
      cases hstep
    rw [hprogress, Function.update_of_ne hne, hidle]

omit [DecidableEq κ] in
theorem Ordered.held_of_assigned {handle : SubscriptionHandle} (hs : Ordered s)
    (hi : (s.progress i).reached .first = some (.assigned handle)) : s.held i = some handle := by
  have hexecution := hs.reached hi
  exact held_eq_some.mpr (hs.handles.returned (i, .first) handle (by rw [hexecution]; rfl))

end UseCases

namespace Session

open Page (Flow Request Response)
open Transition
open UseCases (Outcome Progress)

variable {s t : State} {a : Label} {as : List Label} {n : ℕ} {request : Request}

theorem response_eq_some {response : Response} : s.response n = some response ↔ ∃ outcome,
    s.useCases.progress (.request n) = .returned outcome ∧ responseOf outcome = response := by
  unfold State.response
  split
  · rename_i outcome hprogress
    simp [hprogress]
  · rename_i hnot
    refine iff_of_false nofun ?_
    rintro ⟨outcome, hprogress, -⟩
    exact hnot outcome hprogress

theorem page_of_step {b : Page.Label} (hstep : step s (.page b) = some t) :
    ∃ page, Page.step s.page b = some page ∧ t = s.moved page := by
  cases step_cases hstep with
  | page c ha hb hlisted hpage ht =>
    cases ha
    exact ⟨t.page, hpage, ht⟩
  | arrives n request ha => cases ha
  | others n useCase ha => cases ha
  | serves c ha => cases ha
  | responds n response ha => cases ha

theorem useCases_of_step (hstep : step s a = some t) :
    t.useCases = s.useCases ∨ ∃ b, UseCases.step s.useCases b = some t.useCases := by
  cases step_cases hstep with
  | page b ha hb hlisted hpage ht => exact Or.inl (by rw [ht]; rfl)
  | arrives n request ha hunderway huseCases => exact Or.inr ⟨_, huseCases⟩
  | others n useCase ha hcalling huseCases => exact Or.inr ⟨_, huseCases⟩
  | serves b ha hb huseCases => exact Or.inr ⟨b, huseCases⟩
  | responds n response ha hresponse hpage ht => exact Or.inl (by rw [ht])

/-! ## The execution behind a request -/

/-- The places of the execution behind a request. -/
inductive Serves : Request → Progress → Prop where
  | idle (request : Request) : Serves request .idle
  | subscribing (queueName : Utf16) : Serves (.subscribe queueName) .subscribing
  | subscribeAssigned (queueName : Utf16) (handle : SubscriptionHandle) :
    Serves (.subscribe queueName) (.subscribeAssigned handle)
  | subscribed (queueName : Utf16) (handle : SubscriptionHandle) :
    Serves (.subscribe queueName) (.returned (.subscribed handle))
  | declaring (body : SendRequest) (command : SendMessageWithReplyCommand) :
    Serves (.sendWithReply body) (.declaring command)
  | replyAssigned (body : SendRequest) (command : SendMessageWithReplyCommand)
    (handle : SubscriptionHandle) (queueName : Utf16) :
    Serves (.sendWithReply body) (.replyAssigned command handle queueName)
  | replyRegistered (body : SendRequest) (command : SendMessageWithReplyCommand)
    (handle : SubscriptionHandle) (queueName : Utf16) :
    Serves (.sendWithReply body) (.replyRegistered command handle queueName)
  | sending (body : SendRequest) (handle : SubscriptionHandle) (correlationId : Utf16) :
    Serves (.sendWithReply body) (.sending handle correlationId)
  | sent (body : SendRequest) (handle : SubscriptionHandle) (correlationId : Utf16) :
    Serves (.sendWithReply body) (.returned (.sent ⟨handle, correlationId⟩))
  | cleaningUp (body : SendRequest) (handle : SubscriptionHandle) (ex : BusException) :
    Serves (.sendWithReply body) (.cleaningUp handle ex)
  | unsubscribing (flow : Flow) (id : Guid) : Serves (.unsubscribe flow id) (.unsubscribing ⟨id⟩)
  | unsubscribed (flow : Flow) (id : Guid) : Serves (.unsubscribe flow id) (.returned .done)
  | threw (request : Request) (ex : BusException) : Serves request (.threw ex)

theorem serves_awaiting (request : Request) : Serves request (useCaseOf request).awaiting := by
  cases request with
  | subscribe queueName => exact .subscribing queueName
  | sendWithReply body => exact .declaring body _
  | unsubscribe flow id => exact .unsubscribing flow id

theorem Serves.of_moves {i : Source} {b : Option (Backend.Label (Source × UseCases.Await))}
    {p : Progress} (hs : Serves request (s.useCases.progress i))
    (hmoves : UseCases.Moves s.useCases i b p) : Serves request p := by
  cases hmoves with
  | assigns handle hfrom hcall =>
    rw [hfrom] at hs
    cases hs with
    | subscribing queueName => exact .subscribeAssigned queueName handle
  | registers handle hfrom =>
    rw [hfrom] at hs
    cases hs with
    | subscribeAssigned queueName => exact .subscribed queueName handle
  | assignsReply command handle queueName hfrom hcall =>
    rw [hfrom] at hs
    cases hs with
    | declaring body => exact .replyAssigned body command handle queueName
  | registersReply command handle queueName hfrom =>
    rw [hfrom] at hs
    cases hs with
    | replyAssigned body => exact .replyRegistered body command handle queueName
  | sends command handle queueName correlationId message hfrom =>
    rw [hfrom] at hs
    cases hs with
    | replyRegistered body => exact .sending body handle correlationId
  | returns handle correlationId hfrom =>
    rw [hfrom] at hs
    cases hs with
    | sending body => exact .sent body handle correlationId
  | cleansUp handle correlationId ex hfrom =>
    rw [hfrom] at hs
    cases hs with
    | sending body => exact .cleaningUp body handle ex
  | drops handle ex hfrom => exact .threw request ex
  | unsubscribes handle hfrom =>
    rw [hfrom] at hs
    cases hs with
    | unsubscribing flow id => exact .unsubscribed flow id
  | ends hfrom =>
    rw [hfrom] at hs
    cases hs
  | throws ex => exact .threw request ex

/-- Requests are numbered, each is served by one execution, and the execution behind a pending
request fits it. -/
structure Serving (s : State) : Prop where
  ordered : UseCases.Ordered s.useCases
  numbered : Page.Numbered s.page
  /-- The next request has not been made. -/
  fresh : ∀ {n}, s.page.nextRequest ≤ n →
    s.underway n = none ∧ s.useCases.progress (.request n) = .idle
  same : ∀ {n request request'}, s.underway n = some request →
    s.page.requests n = some request' → request' = request
  serves : ∀ {n request}, s.page.requests n = some request →
    Serves request (s.useCases.progress (.request n))

theorem serving_initial : Serving State.initial where
  ordered := UseCases.ordered_initial
  numbered := Page.numbered_initial
  fresh _ := ⟨rfl, rfl⟩
  same := nofun
  serves := nofun

theorem Serving.of_page {b : Page.Label} {page : Page.State} (hs : Serving s)
    (hstep : Page.step s.page b = some page) :
    Serving (s.moved page) := by
  have e := Page.effect_of_step hstep
  have hrequests : ∀ {n request}, page.requests n = some request →
      s.page.requests n = some request ∨ n = s.page.nextRequest :=
    fun hn ↦ (e.requests hn).imp And.left And.left
  refine ⟨hs.ordered, hs.numbered.of_effect e, fun {n} hn ↦ ?_,
    fun {n request request'} hn hn' ↦ ?_, fun {n request} hn ↦ ?_⟩
  · obtain ⟨hunderway, hidle⟩ := hs.fresh (e.nextRequest.1.trans hn)
    refine ⟨?_, hidle⟩
    change Function.update s.underway _ _ n = none
    by_cases hnext : n = s.page.nextRequest
    · rw [hnext, Function.update_self]
      by_contra hsome
      obtain ⟨request, hrequest⟩ := Option.ne_none_iff_exists'.mp hsome
      exact absurd (hs.numbered.of_effect e _ _ hrequest) (not_lt.mpr (hnext ▸ hn))
    · rw [Function.update_of_ne hnext, hunderway]
  · change Function.update s.underway _ _ n = some request at hn
    by_cases hnext : n = s.page.nextRequest
    · rw [hnext, Function.update_self] at hn
      rw [hnext] at hn'
      exact Option.some.inj (hn'.symm.trans hn)
    · rw [Function.update_of_ne hnext] at hn
      exact hs.same hn ((hrequests hn').resolve_right hnext)
  · rcases hrequests hn with hn | rfl
    · exact hs.serves hn
    · have hidle := (hs.fresh le_rfl).2
      change Serves request (s.useCases.progress _)
      rw [hidle]
      exact .idle request

theorem Serving.of_answer {response : Response} {page : Page.State} (hs : Serving s)
    (hstep : Page.step s.page (.respond n response) = some page) : Serving { s with page } := by
  have e := Page.effect_of_step hstep
  have hrequests : ∀ {m other}, page.requests m = some other → s.page.requests m = some other :=
    fun hm ↦ ((requests_of_answer hs.numbered hstep).mp hm).1
  exact ⟨hs.ordered, hs.numbered.of_effect e, fun hm ↦ hs.fresh (e.nextRequest.1.trans hm),
    fun hm hm' ↦ hs.same hm (hrequests hm'), fun hm ↦ hs.serves (hrequests hm)⟩

theorem moves_of_rest {b : UseCases.Label Source} (hb : ∀ i useCase, b ≠ .begin i useCase)
    (hstep : UseCases.step s.useCases b = some t.useCases) (i : Source) :
    t.useCases.progress i = s.useCases.progress i ∨
      ∃ c, UseCases.Moves s.useCases i c (t.useCases.progress i) := by
  cases UseCases.step_cases hstep with
  | begins j u ha => exact absurd ha (hb j u)
  | adapter c ha hback hprogress => exact Or.inl (by rw [hprogress])
  | dispatches ch delivery ha hback hprogress => exact Or.inl (by rw [hprogress])
  | proceeds j newGuid c p ha hmoves hback hprogress =>
    rw [hprogress]
    by_cases hij : i = j
    · subst hij
      rw [Function.update_self]
      exact Or.inr ⟨c, hmoves⟩
    · exact Or.inl (Function.update_of_ne hij ..)

theorem Serving.of_server {b : UseCases.Label Source} (hs : Serving s)
    (hb : ∀ i useCase, b ≠ .begin i useCase)
    (hstep : UseCases.step s.useCases b = some t.useCases) (hpage : t.page = s.page)
    (hunderway : t.underway = s.underway) : Serving t := by
  refine ⟨UseCases.ordered_step hs.ordered hstep, hpage ▸ hs.numbered, fun {n} hn ↦ ?_,
    fun hn hn' ↦ hs.same (hunderway ▸ hn) (hpage ▸ hn'), fun {n request} hn ↦ ?_⟩
  · obtain ⟨hnone, hidle⟩ := hs.fresh (hpage ▸ hn)
    exact ⟨hunderway ▸ hnone, UseCases.idle_of_rest hstep hidle (hb _)⟩
  · have hserves := hs.serves (hpage ▸ hn)
    rcases moves_of_rest hb hstep (.request n) with hsame | ⟨c, hmoves⟩
    · rw [hsame]
      exact hserves
    · exact hserves.of_moves hmoves

theorem Serving.of_begin {i : Source} {useCase : UseCases.UseCase} (hs : Serving s)
    (hstep : UseCases.step s.useCases (.begin i useCase) = some t.useCases)
    (hpage : t.page = s.page)
    (hunderway : ∀ {n request}, t.underway n = some request → s.underway n = some request)
    (hi : ∀ {n}, i = .request n → ∃ request, s.underway n = some request ∧
      useCase = useCaseOf request) : Serving t := by
  refine ⟨UseCases.ordered_step hs.ordered hstep, hpage ▸ hs.numbered, fun {n} hn ↦ ?_,
    fun hn hn' ↦ hs.same (hunderway hn) (hpage ▸ hn'), fun {n request} hn ↦ ?_⟩
  · obtain ⟨hnone, hidle⟩ := hs.fresh (hpage ▸ hn)
    refine ⟨Option.eq_none_iff_forall_ne_some.mpr fun request hrequest ↦ ?_,
      UseCases.idle_of_rest hstep hidle ?_⟩
    · cases hnone.symm.trans (hunderway hrequest)
    · rintro u ⟨⟩
      obtain ⟨request, hrequest, -⟩ := hi rfl
      cases hnone.symm.trans hrequest
  · rw [hpage] at hn
    cases UseCases.step_cases hstep with
    | begins j u ha hidle hback hprogress =>
      cases ha
      rw [hprogress]
      by_cases hni : Source.request n = i
      · obtain ⟨other, hother, rfl⟩ := hi hni.symm
        obtain rfl := hs.same hother hn
        rw [hni, Function.update_self]
        exact serves_awaiting request
      · rw [Function.update_of_ne hni]
        exact hs.serves hn
    | proceeds j newGuid c p ha => cases ha
    | adapter c ha => cases ha
    | dispatches ch delivery ha => cases ha

theorem serving_step (hs : Serving s) (hstep : step s a = some t) : Serving t := by
  cases step_cases hstep with
  | page b ha hb hlisted hpage ht =>
    rw [ht]
    exact hs.of_page hpage
  | arrives n request ha hunderway huseCases hpage hothers =>
    refine hs.of_begin huseCases hpage (fun hm ↦ ?_) ?_
    · rw [hothers] at hm
      exact (Page.of_cleared hm).2
    · rintro m ⟨⟩
      exact ⟨request, hunderway, rfl⟩
  | others n useCase ha hcalling huseCases hpage hunderway =>
    exact hs.of_begin huseCases hpage (fun hm ↦ hunderway ▸ hm) nofun
  | serves b ha hb huseCases hpage hunderway => exact hs.of_server hb huseCases hpage hunderway
  | responds n response ha hresponse hpage ht =>
    rw [ht]
    exact hs.of_answer hpage

end Session

end BusTester
