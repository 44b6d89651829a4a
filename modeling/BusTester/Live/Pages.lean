import BusTester.Live.InOrder

/-!
# Many pages, one server

The server is shared: one adapter, one coordinator, one hub. Every load of the client is a page of
its own, with its requests, its connection to the hub and the groups of this connection, and other
clients may call the use cases as they like. A page learns of a subscription only from the answer to
a request of its own, and joins the groups of these subscriptions only. So the pages do not meet
(`isolated_of_run`): what one of them shows, hears of, stores or ends was made by one of its own
requests, and is no other page's.
-/

namespace BusTester

namespace Pages

open Page (Flow Request Response)
open Session (useCaseOf responseOf)
open Transition
open UseCases (Behind Outcome UseCase)

/-! ## States and steps -/

/-- Who begins an execution: the request of a page, or another client. -/
inductive Source (π : Type) where
  | request (p : π) (n : ℕ)
  | other (n : ℕ)
deriving DecidableEq

variable {π : Type}

instance : Inhabited (Source π) := ⟨.other 0⟩

/-- A page with its connection to the hub and the requests that have not reached a controller. -/
structure Tab extends HubConnection where
  page : Page.State
  underway : ℕ → Option Request

namespace Tab

def initial : Tab := ⟨.fresh, .initial, fun _ ↦ none⟩

/-- The page has moved; a request that it has made is under way. -/
def moved (tab : Tab) (page : Page.State) : Tab :=
  { tab with
    page
    underway :=
      Function.update tab.underway tab.page.nextRequest (page.requests tab.page.nextRequest) }

/-- The connection is lost, and with it the groups and all that was on its way. -/
def lose (tab : Tab) : Tab := { tab with toHubConnection := .fresh }

end Tab

structure State (π : Type) where
  tabs : π → Tab
  useCases : UseCases.State (Source π)

def State.initial : State π := ⟨fun _ ↦ .initial, .initial⟩

inductive Label (π : Type) where
  /-- The user of the page, the promise of `connection.start()`, or the connection. -/
  | page (p : π) (a : Page.Label)
  /-- The request `n` of the page reaches its controller. -/
  | arrive (p : π) (n : ℕ)
  | respond (p : π) (n : ℕ) (response : Response)
  | hub (p : π) (a : HubConnection.Label)
  /-- Another client calls a use case. -/
  | other (n : ℕ) (useCase : UseCase)
  /-- A step of the backend, other than the beginning of a use case. -/
  | server (a : UseCases.Label (Source π))

namespace State

/-- The response to the request `n` of the page, once its use case has returned. -/
def response (s : State π) (p : π) (n : ℕ) : Option Response :=
  match s.useCases.progress (.request p n) with
  | .returned outcome => some (responseOf outcome)
  | _ => none

/-- The same with another state of the page. -/
def onTab [DecidableEq π] (s : State π) (p : π) (tab : Tab) : State π :=
  { s with tabs := Function.update s.tabs p tab }

end State

variable [DecidableEq π]

/-- One step. -/
def step (s : State π) : Label π → Option (State π)
  | .page p a =>
    match a with
    | .respond .. | .settled _ | .messageReceived _ => none
    | .onreconnecting | .onclose => (Page.step (s.tabs p).page a).map fun page ↦
        s.onTab p ((s.tabs p).moved page).lose
    | .unsubscribe flow id =>
      if id ∈ (s.tabs p).page.listed flow then
        (Page.step (s.tabs p).page a).map fun page ↦ s.onTab p ((s.tabs p).moved page)
      else none
    | _ => (Page.step (s.tabs p).page a).map fun page ↦ s.onTab p ((s.tabs p).moved page)
  | .arrive p n =>
    match (s.tabs p).underway n with
    | none => none
    | some request =>
      (UseCases.step s.useCases (.begin (.request p n) (useCaseOf request))).map fun useCases ↦
        { s.onTab p { s.tabs p with underway := Function.update (s.tabs p).underway n none } with
          useCases }
  | .respond p n response =>
    -- A request may fail on its way back, whatever the use case has done.
    if s.response p n = some response ∨ response.isFailure = true then
      (Page.step (s.tabs p).page (.respond n response)).map fun page ↦
        s.onTab p { s.tabs p with page }
    else none
  | .hub p a =>
    ((s.tabs p).move (s.tabs p).page.invocations (Page.step (s.tabs p).page) (s.tabs p).page a).map
      fun (connection, page) ↦ s.onTab p { s.tabs p with toHubConnection := connection, page }
  | .other n useCase =>
    (UseCases.step s.useCases (.begin (.other n) useCase)).map fun useCases ↦ { s with useCases }
  | .server a =>
    match a with
    | .begin .. => none
    | .proceed .. | .adapter _ =>
      (UseCases.step s.useCases a).map fun useCases ↦ { s with useCases }
    | .dispatch ch delivery => (UseCases.step s.useCases a).map fun useCases ↦
        { tabs := fun p ↦ { s.tabs p with
            toHubConnection := (s.tabs p).broadcast (s.useCases.broadcast ch delivery) }
          useCases }

variable {s t : State π} {a : Label π} {as : List (Label π)} {p q : π} {h : Guid} {n : ℕ}

/-! ## The property -/

/-- The request `n` of the page has made the subscription. -/
def State.Made (s : State π) (p : π) (n : ℕ) (h : Guid) : Prop :=
  (s.useCases.progress (.request p n)).returnedHandle = some ⟨h⟩

def State.Owns (s : State π) (p : π) (h : Guid) : Prop := ∃ n, s.Made p n h

/-- The page shows the subscription, hears of it, or stores messages of it. -/
def Tab.Sees (tab : Tab) (h : Guid) : Prop :=
  h ∈ tab.page.shown ∨ h ∈ tab.groups ∨ (∃ m ∈ tab.wire, m.subscriptionId = h) ∨
    tab.page.hub.received h ≠ []

/-- What was dispatched to the consumer of the execution, as it is pushed for the subscription. -/
def State.dispatched (s : State π) (i : Source π) (h : Guid) : List MessageReceivedDto :=
  (Delivery.messages (s.useCases.backend.dispatched (i, .first))).map (.fromDomain h)

/-- The pages do not meet. -/
structure Isolated (s : State π) : Prop where
  own : ∀ {p h}, (s.tabs p).Sees h → s.Owns p h
  apart : ∀ {p q h}, (s.tabs p).Sees h → (s.tabs q).Sees h → p = q
  /-- A page ends its own subscriptions only. -/
  ends : ∀ {p n handle}, s.useCases.progress (.request p n) = .unsubscribing handle →
    s.Owns p handle.value
  /-- What is stored was dispatched to a consumer that the page has asked for, in this order. -/
  stored : ∀ p h, (s.tabs p).page.hub.received h = [] ∨ ∃ n, s.Made p n h ∧
    ((s.tabs p).page.hub.received h).Sublist (s.dispatched (.request p n) h)

/-! ## The steps, sorted -/

inductive StepCases (s : State π) (a : Label π) (t : State π) : Prop where
  | moves (p : π) (b : Page.Label) (page : Page.State) (ha : a = .page p b)
    (hrespond : ∀ n response, b ≠ .respond n response)
    (hreceived : ∀ message, b ≠ .messageReceived message)
    (hlisted : ∀ flow id, b = .unsubscribe flow id → id ∈ (s.tabs p).page.listed flow)
    (hstep : Page.step (s.tabs p).page b = some page)
    (ht : t = s.onTab p ((s.tabs p).moved page) ∨ t = s.onTab p ((s.tabs p).moved page).lose)
  | begins (p : π) (n : ℕ) (request : Request) (ha : a = .arrive p n)
    (hunderway : (s.tabs p).underway n = some request)
    (hstep : UseCases.step s.useCases (.begin (.request p n) (useCaseOf request))
      = some t.useCases)
    (ht : t.tabs = Function.update s.tabs p
      { s.tabs p with underway := Function.update (s.tabs p).underway n none })
  | responds (p : π) (n : ℕ) (response : Response) (page : Page.State)
    (ha : a = .respond p n response)
    (hresponse : s.response p n = some response ∨ response.isFailure = true)
    (hstep : Page.step (s.tabs p).page (.respond n response) = some page)
    (ht : t = s.onTab p { s.tabs p with page })
  | hub (p : π) (b : HubConnection.Label) (connection : HubConnection) (page : Page.State)
    (ha : a = .hub p b)
    (hmove : (s.tabs p).move (s.tabs p).page.invocations (Page.step (s.tabs p).page)
      (s.tabs p).page b = some (connection, page))
    (ht : t = s.onTab p { s.tabs p with toHubConnection := connection, page })
  | serves (b : UseCases.Label (Source π)) (hb : ∀ p n useCase, b ≠ .begin (.request p n) useCase)
    (hdispatch : ∀ ch delivery, b ≠ .dispatch ch delivery)
    (hstep : UseCases.step s.useCases b = some t.useCases) (ht : t.tabs = s.tabs)
  | dispatches (ch : RabbitMqAdapter.ChannelId) (delivery : Delivery)
    (hstep : UseCases.step s.useCases (.dispatch ch delivery) = some t.useCases)
    (ht : t.tabs = fun p ↦ { s.tabs p with
      toHubConnection := (s.tabs p).broadcast (s.useCases.broadcast ch delivery) })

theorem step_cases (hstep : step s a = some t) : StepCases s a t := by
  cases a with
  | page p b =>
    have hmoves : (Page.step (s.tabs p).page b).map (fun page ↦ s.onTab p ((s.tabs p).moved page))
        = some t → (∀ n response, b ≠ .respond n response) →
        (∀ message, b ≠ .messageReceived message) →
        (∀ flow id, b = .unsubscribe flow id → id ∈ (s.tabs p).page.listed flow) →
        StepCases s (.page p b) t := by
      intro hmap hrespond hreceived hlisted
      obtain ⟨page, hpage, ht⟩ := Option.map_eq_some_iff.mp hmap
      exact .moves p b page rfl hrespond hreceived hlisted hpage (Or.inl ht.symm)
    cases b with
    | respond | settled | messageReceived => cases hstep
    | onreconnecting | onclose =>
      obtain ⟨page, hpage, ht⟩ := Option.map_eq_some_iff.mp hstep
      exact .moves p _ page rfl nofun nofun nofun hpage (Or.inr ht.symm)
    | unsubscribe flow id =>
      obtain ⟨hlisted, hmap⟩ := Option.ite_none_right_eq_some.mp hstep
      refine hmoves hmap nofun nofun ?_
      rintro flow' id' ⟨⟩
      exact hlisted
    | _ => exact hmoves hstep nofun nofun nofun
  | arrive p n =>
    simp only [step] at hstep
    split at hstep
    · cases hstep
    · rename_i request hunderway
      obtain ⟨useCases, huseCases, rfl⟩ := Option.map_eq_some_iff.mp hstep
      exact .begins p n request rfl hunderway huseCases rfl
  | respond p n response =>
    obtain ⟨hresponse, hmap⟩ := Option.ite_none_right_eq_some.mp hstep
    obtain ⟨page, hpage, ht⟩ := Option.map_eq_some_iff.mp hmap
    exact .responds p n response page rfl hresponse hpage ht.symm
  | hub p b =>
    obtain ⟨⟨connection, page⟩, hmove, ht⟩ := Option.map_eq_some_iff.mp hstep
    exact .hub p b connection page rfl hmove ht.symm
  | other n useCase =>
    obtain ⟨useCases, huseCases, rfl⟩ := Option.map_eq_some_iff.mp hstep
    exact .serves _ (by rintro p n useCase ⟨⟩) (by rintro ch delivery ⟨⟩) huseCases rfl
  | server b =>
    cases b with
    | begin => cases hstep
    | dispatch ch delivery =>
      obtain ⟨useCases, huseCases, rfl⟩ := Option.map_eq_some_iff.mp hstep
      exact .dispatches ch delivery huseCases rfl
    | proceed | adapter =>
      obtain ⟨useCases, huseCases, rfl⟩ := Option.map_eq_some_iff.mp hstep
      exact .serves _ (by rintro p n useCase ⟨⟩) (by rintro ch delivery ⟨⟩) huseCases rfl

/-! ## What a page knows of -/

/-- The subscriptions that the page has to do with all have the property. -/
structure Tab.Within (tab : Tab) (P : Guid → Prop) : Prop where
  shown : ∀ {h}, h ∈ tab.page.shown → P h
  joins : ∀ {h}, tab.page.Joins h → P h
  groups : ∀ {h}, h ∈ tab.groups → P h
  wire : ∀ {m}, m ∈ tab.wire → P m.subscriptionId
  stored : ∀ {h}, tab.page.hub.received h ≠ [] → P h
  requests : ∀ {n flow h}, tab.page.requests n = some (.unsubscribe flow h) → P h
  underway : ∀ {n flow h}, tab.underway n = some (.unsubscribe flow h) → P h

section Within

variable {tab tab' : Tab} {page : Page.State} {b : Page.Label} {P Q : Guid → Prop}

theorem Tab.Within.mono (hs : tab.Within P) (hPQ : ∀ {h}, P h → Q h) : tab.Within Q where
  shown hh := hPQ (hs.shown hh)
  joins hh := hPQ (hs.joins hh)
  groups hh := hPQ (hs.groups hh)
  wire hm := hPQ (hs.wire hm)
  stored hh := hPQ (hs.stored hh)
  requests hn := hPQ (hs.requests hn)
  underway hn := hPQ (hs.underway hn)

theorem Tab.within_initial : Tab.initial.Within P where
  shown hh := absurd hh List.not_mem_nil
  joins := by rintro h (⟨join, hjoin, -⟩ | ⟨join, hjoin, -⟩) <;> cases hjoin
  groups hh := absurd hh (Finset.notMem_empty _)
  wire hm := absurd hm List.not_mem_nil
  stored hh := absurd rfl hh
  requests := nofun
  underway := nofun

theorem Tab.Within.of_page (hs : tab.Within P) (hstep : Page.step tab.page b = some page)
    (hlists : ∀ {flow h}, b.Lists flow h → P h)
    (hlisted : ∀ flow id, b = .unsubscribe flow id → id ∈ tab.page.listed flow)
    (hstored : ∀ {h}, page.hub.received h ≠ [] → P h) : ({ tab with page } : Tab).Within P := by
  have e := Page.effect_of_step hstep
  refine ⟨fun {h} hh ↦ ?_, fun {h} hh ↦ ?_, hs.groups, hs.wire, hstored, fun {n flow h} hn ↦ ?_,
    hs.underway⟩
  · obtain ⟨flow, hh⟩ := Page.mem_shown.mp hh
    exact (e.listed hh).elim (fun hh ↦ hs.shown (Page.mem_shown.mpr ⟨flow, hh⟩)) hlists
  · exact (e.joins hh).elim hs.joins fun ⟨flow, hh⟩ ↦ hlists hh
  · rcases e.requests hn with ⟨hn, -⟩ | ⟨-, hposts⟩
    · exact hs.requests hn
    · cases hposts
      exact hs.shown (Page.mem_shown.mpr ⟨flow, hlisted flow h rfl⟩)

theorem Tab.Within.of_quiet (hs : tab.Within P) (hstep : Page.step tab.page b = some page)
    (hreceived : ∀ message, b ≠ .messageReceived message)
    (hlists : ∀ {flow h}, b.Lists flow h → P h)
    (hlisted : ∀ flow id, b = .unsubscribe flow id → id ∈ tab.page.listed flow) :
    ({ tab with page } : Tab).Within P := by
  refine hs.of_page hstep hlists hlisted fun {h} hh ↦ hs.stored fun hnone ↦ hh ?_
  have hsub := HubConnection.received_sublist_of_page (h := h) hstep hreceived
  rw [hnone] at hsub
  exact List.sublist_nil.mp hsub

theorem Tab.Within.moved (hs : ({ tab with page } : Tab).Within P) : (tab.moved page).Within P := by
  refine ⟨hs.shown, hs.joins, hs.groups, hs.wire, hs.stored, hs.requests, fun {n flow h} hn ↦ ?_⟩
  change Function.update tab.underway tab.page.nextRequest _ n = _ at hn
  rw [Function.update_apply] at hn
  split at hn
  · exact hs.requests hn
  · exact hs.underway hn

theorem Tab.Within.lose (hs : tab.Within P) : tab.lose.Within P where
  shown := hs.shown
  joins := hs.joins
  groups hh := absurd hh (Finset.notMem_empty _)
  wire hm := absurd hm List.not_mem_nil
  stored := hs.stored
  requests := hs.requests
  underway := hs.underway

/-- The connection moves. A group is entered by a join that was invoked, and a push is stored. -/
theorem Tab.Within.of_hub {c : HubConnection.Label} {connection : HubConnection}
    (hs : tab.Within P) (hmove : tab.move tab.page.invocations (Page.step tab.page) tab.page c
      = some (connection, page)) :
    ({ tab with toHubConnection := connection, page } : Tab).Within P := by
  cases HubConnection.move_cases hmove with
  | executes ok invocation ha hnext hd hpage =>
    subst hd hpage
    refine ⟨hs.shown, hs.joins, fun {h} hh ↦ ?_, hs.wire, hs.stored, hs.requests, hs.underway⟩
    change h ∈ (if ok then invocation.apply tab.groups else tab.groups) at hh
    split at hh
    · cases invocation with
      | joinSubscription join =>
        rcases Finset.mem_insert.mp hh with rfl | hh
        · exact hs.joins (Or.inr ⟨join, List.mem_of_getElem? hnext, rfl⟩)
        · exact hs.groups hh
      | leaveSubscription id => exact hs.groups (Finset.mem_of_mem_erase hh)
    · exact hs.groups hh
  | completes ok rest ha hcompletions hd hpage =>
    subst hd
    have hnext := hs.of_quiet hpage (by rintro message ⟨⟩)
      (by rintro flow h ⟨n, response, ⟨⟩, -⟩) (by rintro flow id ⟨⟩)
    exact ⟨hnext.shown, hnext.joins, hnext.groups, hnext.wire, hnext.stored, hnext.requests,
      hnext.underway⟩
  | arrives message rest ha hwire hd hpage =>
    subst hd
    have hnext : ({ tab with page } : Tab).Within P := by
      refine hs.of_page hpage (by rintro flow h ⟨n, response, ⟨⟩, -⟩) (by rintro flow id ⟨⟩) ?_
      intro h hh
      cases hpage
      change (tab.page.hub.onMessageReceived message).received h ≠ [] at hh
      rw [BusHubService.received_onMessageReceived] at hh
      by_cases hid : message.subscriptionId = h
      · exact hid ▸ hs.wire (hwire ▸ List.mem_cons_self)
      · rw [if_neg hid, List.append_nil] at hh
        exact hs.stored hh
    exact ⟨hnext.shown, hnext.joins, hnext.groups,
      fun hm ↦ hs.wire (hwire ▸ List.mem_cons_of_mem message hm), hnext.stored, hnext.requests,
      hnext.underway⟩

theorem Tab.Within.of_broadcast {broadcasts : List (SubscriptionHandle × BusMessage)}
    (hs : tab.Within P) :
    ({ tab with toHubConnection := tab.broadcast broadcasts } : Tab).Within P := by
  refine ⟨hs.shown, hs.joins, hs.groups, fun hm ↦ ?_, hs.stored, hs.requests, hs.underway⟩
  rcases List.mem_append.mp hm with hm | hm
  · exact hs.wire hm
  · exact hs.groups (HubConnection.mem_groups_of_pushes hm)

end Within

/-! ## Every step keeps the pages apart -/

structure Apart (s : State π) : Prop where
  ordered : UseCases.Ordered s.useCases
  passed : UseCases.Passed s.useCases
  within : ∀ p, (s.tabs p).Within (s.Owns p)
  ends : ∀ {p n handle}, s.useCases.progress (.request p n) = .unsubscribing handle →
    s.Owns p handle.value
  behind : ∀ p, Behind s.useCases (s.tabs p).toHubConnection (s.tabs p).page

omit [DecidableEq π] in
theorem apart_initial : Apart (State.initial : State π) where
  ordered := UseCases.ordered_initial
  passed := UseCases.passed_initial
  within _ := Tab.within_initial
  ends := nofun
  behind _ _ := List.Sublist.refl _

theorem Apart.of_tab {tab : Tab} (hs : Apart s) (hwithin : tab.Within (s.Owns p))
    (harrived : ∀ h, (tab.arrived tab.page h).Sublist ((s.tabs p).arrived (s.tabs p).page h)) :
    Apart (s.onTab p tab) := by
  refine ⟨hs.ordered, hs.passed, fun q ↦ ?_, hs.ends, fun q ↦ ?_⟩
  · change (Function.update s.tabs p tab q).Within (s.Owns q)
    rw [Function.update_apply]
    split
    · rename_i hq
      exact hq ▸ hwithin
    · exact hs.within q
  · change Behind s.useCases (Function.update s.tabs p tab q).toHubConnection
      (Function.update s.tabs p tab q).page
    rw [Function.update_apply]
    split
    · exact (hs.behind p).mono harrived
    · exact hs.behind q

omit [DecidableEq π] in
theorem made_of_response {response : Response} {flow : Flow}
    (hresponse : s.response p n = some response) (hhandle : response.handle = some (flow, h)) :
    s.Made p n h := by
  unfold State.response at hresponse
  split at hresponse
  · rename_i outcome hprogress
    cases hresponse
    rw [State.Made, hprogress]
    cases outcome with
    | done => cases hhandle
    | subscribed | sent =>
      cases hhandle
      rfl
  · cases hresponse

theorem made_of_step {b : UseCases.Label (Source π)} (hmade : s.Made p n h)
    (hstep : UseCases.step s.useCases b = some t.useCases) : t.Made p n h := by
  unfold State.Made UseCases.Progress.returnedHandle at hmade
  split at hmade
  · rename_i hprogress
    rw [State.Made, UseCases.returned_of_step hstep hprogress]
    exact hmade
  · rename_i hprogress
    rw [State.Made, UseCases.returned_of_step hstep hprogress]
    exact hmade
  · cases hmade

omit [DecidableEq π] in
theorem held_of_made (hs : UseCases.Ordered s.useCases) (hmade : s.Made p n h) :
    s.useCases.held (.request p n) = some ⟨h⟩ :=
  hs.held_of_reached (UseCases.Progress.reached_of_returnedHandle hmade)

theorem Apart.of_server {b : UseCases.Label (Source π)} (hs : Apart s)
    (hstep : UseCases.step s.useCases b = some t.useCases)
    (hb : ∀ p n handle, b = .begin (.request p n) (.unsubscribe handle) → s.Owns p handle.value)
    (hwithin : ∀ p, (t.tabs p).Within (s.Owns p))
    (hbehind : ∀ p, Behind t.useCases (t.tabs p).toHubConnection (t.tabs p).page) : Apart t := by
  have howns : ∀ {p h}, s.Owns p h → t.Owns p h :=
    fun ⟨n, hmade⟩ ↦ ⟨n, made_of_step hmade hstep⟩
  refine ⟨UseCases.ordered_step hs.ordered hstep, UseCases.passed_step hs.ordered hs.passed hstep,
    fun p ↦ (hwithin p).mono howns, fun {p n handle} hends ↦ ?_, hbehind⟩
  rcases UseCases.unsubscribing_of_step hstep hends with hends | heq
  · exact howns (hs.ends hends)
  · exact howns (hb p n handle heq)

theorem Apart.of_moves {b : Page.Label} {page : Page.State} (hs : Apart s)
    (hrespond : ∀ n response, b ≠ .respond n response)
    (hreceived : ∀ message, b ≠ .messageReceived message)
    (hlisted : ∀ flow id, b = .unsubscribe flow id → id ∈ (s.tabs p).page.listed flow)
    (hpage : Page.step (s.tabs p).page b = some page) :
    Apart (s.onTab p ((s.tabs p).moved page)) ∧ Apart (s.onTab p ((s.tabs p).moved page).lose) := by
  have hlists : ∀ {flow h}, b.Lists flow h → s.Owns p h := by
    rintro flow h ⟨n, response, heq, -⟩
    exact absurd heq (hrespond n response)
  have hwithin := ((hs.within p).of_quiet hpage hreceived hlists hlisted).moved
  have harrived : ∀ h, ((s.tabs p).arrived page h).Sublist
      ((s.tabs p).arrived (s.tabs p).page h) :=
    fun h ↦ HubConnection.arrived_of_page hpage hreceived
  exact ⟨hs.of_tab hwithin harrived,
    hs.of_tab hwithin.lose fun h ↦ HubConnection.arrived_fresh.trans (harrived h)⟩

theorem Apart.of_begins {request : Request} (hs : Apart s)
    (hunderway : (s.tabs p).underway n = some request)
    (hstep : UseCases.step s.useCases (.begin (.request p n) (useCaseOf request))
      = some t.useCases)
    (ht : t.tabs = Function.update s.tabs p
      { s.tabs p with underway := Function.update (s.tabs p).underway n none }) : Apart t := by
  refine hs.of_server hstep ?_ (fun q ↦ ?_) fun q ↦ ?_
  · intro p' n' handle heq
    cases request with
    | unsubscribe flow id =>
      cases heq
      exact (hs.within p).underway hunderway
    | subscribe | sendWithReply => cases heq
  · rw [ht, Function.update_apply]
    split
    · rename_i hq
      subst hq
      have hp := hs.within q
      exact ⟨hp.shown, hp.joins, hp.groups, hp.wire, hp.stored, hp.requests,
        fun hn ↦ hp.underway (Page.of_cleared hn).2⟩
    · exact hs.within q
  · have hquiet := (hs.behind q).of_quiet hstep (by rintro ch delivery ⟨⟩)
    rw [ht, Function.update_apply]
    split
    · rename_i hq
      exact hq ▸ hquiet
    · exact hquiet

theorem Apart.of_responds {response : Response} {page : Page.State} (hs : Apart s)
    (hresponse : s.response p n = some response ∨ response.isFailure = true)
    (hpage : Page.step (s.tabs p).page (.respond n response) = some page) :
    Apart (s.onTab p { s.tabs p with page }) := by
  refine hs.of_tab ((hs.within p).of_quiet hpage (by rintro message ⟨⟩) ?_ (by rintro flow id ⟨⟩))
    fun h ↦ HubConnection.arrived_of_page hpage (by rintro message ⟨⟩)
  rintro flow h ⟨n', response', heq, hhandle⟩
  cases heq
  rcases hresponse with hresponse | hfailure
  · exact ⟨n, made_of_response hresponse hhandle⟩
  · cases response with
    | failed => cases hhandle
    | subscribed | sent | unsubscribed => cases hfailure

theorem apart_step (hs : Apart s) (hstep : step s a = some t) : Apart t := by
  cases step_cases hstep with
  | moves p b page ha hrespond hreceived hlisted hpage ht =>
    obtain ⟨hmoved, hlost⟩ := hs.of_moves hrespond hreceived hlisted hpage
    rcases ht with rfl | rfl
    · exact hmoved
    · exact hlost
  | begins p n request ha hunderway huseCases ht => exact hs.of_begins hunderway huseCases ht
  | responds p n response page ha hresponse hpage ht =>
    subst ht
    exact hs.of_responds hresponse hpage
  | hub p b connection page ha hmove ht =>
    subst ht
    exact hs.of_tab ((hs.within p).of_hub hmove) fun h ↦
      HubConnection.arrived_of_move (HubConnection.move_cases hmove)
  | serves b hb hdispatch huseCases ht =>
    refine hs.of_server huseCases (fun p n handle heq ↦ absurd heq (hb p n _)) (fun p ↦ ?_)
      fun p ↦ ?_
    · rw [ht]
      exact hs.within p
    · rw [ht]
      exact (hs.behind p).of_quiet huseCases hdispatch
  | dispatches ch delivery huseCases ht =>
    refine hs.of_server huseCases (by rintro p n handle ⟨⟩) (fun p ↦ ?_) fun p ↦ ?_
    · rw [ht]
      exact (hs.within p).of_broadcast
    · rw [ht]
      exact (hs.behind p).of_dispatch huseCases

/-! ## The result -/

/-- **The pages do not meet**, in any run of any number of them over one server. -/
theorem isolated_of_run (hrun : run step State.initial as = some t) : Isolated t := by
  have ht : Apart t :=
    invariant_of_step (P := Apart) apart_initial (fun _ _ _ hs hstep ↦ apart_step hs hstep) hrun
  have hown : ∀ {p h}, (t.tabs p).Sees h → t.Owns p h := by
    rintro p h (hh | hh | ⟨m, hm, rfl⟩ | hh)
    · exact (ht.within p).shown hh
    · exact (ht.within p).groups hh
    · exact (ht.within p).wire hm
    · exact (ht.within p).stored hh
  refine ⟨hown, fun {p q h} hp hq ↦ ?_, ht.ends, fun p h ↦ ?_⟩
  · obtain ⟨n, hn⟩ := hown hp
    obtain ⟨m, hm⟩ := hown hq
    cases ht.ordered.held_unique (held_of_made ht.ordered hn) (held_of_made ht.ordered hm)
    rfl
  · by_cases hnone : (t.tabs p).page.hub.received h = []
    · exact Or.inl hnone
    · obtain ⟨n, hn⟩ := (ht.within p).stored hnone
      obtain ⟨i, hi, hsub⟩ := ((ht.behind p).stored ht.passed).resolve_left hnone
      obtain rfl := ht.ordered.held_unique hi (held_of_made ht.ordered hn)
      exact Or.inr ⟨n, hn, hsub⟩

open RabbitMqAdapter.Label (succeed)

/-- A page subscribes to the queue of the counter and joins the group. -/
private def subscribes (p : Bool) (ch : RabbitMqAdapter.ChannelId) (id : Guid) :
    List (Label Bool) :=
  [.page p (.editQueueName (Utf16.ofString "counter")), .page p .subscribeToQueue, .arrive p 0,
    .server (.adapter (succeed (.request p 0, .first))), .server (.adapter (.brokerConsumes ch)),
    .server (.adapter (.resume (.request p 0, .first) .completed id)),
    .server (.adapter (succeed (.request p 0, .first))),
    .server (.proceed (.request p 0) ⟨0⟩), .server (.proceed (.request p 0) ⟨0⟩),
    .respond p 0 (.subscribed id), .page p (.started true), .page p .startSettled,
    .hub p (.execute true), .hub p .complete]

/-- A delivery with a payload of one digit. -/
private def digit (code : UInt8) : Delivery where
  exchange := []
  routingKey := Utf16.ofString "counter"
  body := [code]
  replyTo := none
  correlationId := none

/-- Two pages subscribe to one queue, and the broker shares out what comes. -/
private def sharedQueue : List (Label Bool) :=
  [.other 0 (.teardown (.connect .localhost)), .server (.adapter (succeed (.other 0, .first))),
    .server (.adapter (succeed (.other 0, .first))), .server (.proceed (.other 0) ⟨0⟩)]
    ++ subscribes false 0 ⟨5⟩ ++ subscribes true 1 ⟨6⟩
    ++ [.server (.dispatch 0 (digit 0x31)), .server (.dispatch 1 (digit 0x32)),
      .hub true .push, .hub false .push]

theorem isolated_of_sharedQueue : ∃ t, run step .initial sharedQueue = some t ∧
    ((t.tabs false).page.hub.received ⟨5⟩).map MessageReceivedDto.payload
      = [Utf16.ofString "1"] ∧
    ((t.tabs true).page.hub.received ⟨6⟩).map MessageReceivedDto.payload
      = [Utf16.ofString "2"] ∧ Isolated t := by
  refine ⟨_, rfl, by decide, by decide, ?_⟩
  exact isolated_of_run (show run step .initial sharedQueue = some _ from rfl)

end Pages

end BusTester
