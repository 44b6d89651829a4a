import BusTester.Live.System

/-!
# The page shows what the broker delivered

Between the consumer and the page a message passes the handler, the coordinator, the group of its
handle, the connection, and the store, and at each of these it may be lost: the handle is not
assigned or not registered, the page is not in the group, the connection drops, the subscription is
finished. None of these invents a message, doubles one, or lets one overtake another. So in every
run what is stored for a subscription is a sublist of what was dispatched to its consumer
(`inOrder_of_run`).
-/

namespace BusTester

/-- The messages that the handler of a consumer has made of these deliveries. -/
def Delivery.messages (deliveries : List Delivery) : List BusMessage :=
  deliveries.filterMap fun delivery ↦ delivery.received.toOption

namespace UseCases

variable {κ : Type} [DecidableEq κ] {s t : State κ} {h : SubscriptionHandle} {a : Label κ}

/-! ## From the consumer to the broadcaster -/

/-- What was broadcast for a handle was dispatched to the consumer of the execution that holds it.
Only the first call of an execution has a consumer. -/
structure Passed (s : State κ) : Prop where
  first : ∀ {i x handle}, (s.backend.executions (i, x)).closure = some handle → x = .first
  broadcasts : ∀ h, s.broadcastsFor h = [] ∨ ∃ i, s.held i = some h ∧
    (s.broadcastsFor h).Sublist (Delivery.messages (s.backend.dispatched (i, .first)))

omit [DecidableEq κ] in
theorem passed_initial [Inhabited κ] : Passed (State.initial : State κ) where
  first := nofun
  broadcasts _ := Or.inl rfl

theorem dispatched_of_back {b : Backend.Label (κ × Await)}
    (hback : Backend.step s.backend b = some t.backend)
    (hb : ∀ ch delivery, b ≠ .dispatch ch delivery) :
    t.backend.dispatched = s.backend.dispatched := by
  cases b with
  | start =>
    obtain ⟨-, adapter, -, ht⟩ := Backend.start_spec hback
    rw [ht]
  | adapter =>
    obtain ⟨-, adapter, -, ht⟩ := Backend.adapter_spec hback
    rw [ht]
  | assign =>
    obtain ⟨result, handle, -, -, -, ht⟩ := Backend.assign_spec hback
    rw [ht]
  | register =>
    obtain ⟨handle, -, ht⟩ := Backend.register_spec hback
    rw [ht]
  | unregister =>
    obtain ⟨handle, result, -, -, ht⟩ := Backend.unregister_spec hback
    rw [ht]
  | dispatch ch delivery => exact absurd rfl (hb ch delivery)

theorem closure_of_back {b : Backend.Label (κ × Await)} {i : κ} {x : Await}
    {handle : SubscriptionHandle} (hback : Backend.step s.backend b = some t.backend)
    (hfirst : ∀ {j y}, b = .assign (j, y) ∨ b = .register (j, y) → y = .first)
    (hclosure : (t.backend.executions (i, x)).closure = some handle) :
    (s.backend.executions (i, x)).closure = some handle ∨ x = .first := by
  by_cases hmover : b.mover = some (i, x)
  · cases b with
    | assign k =>
      cases hmover
      exact Or.inr (hfirst (Or.inl rfl))
    | register k =>
      cases hmover
      exact Or.inr (hfirst (Or.inr rfl))
    | start k call =>
      cases hmover
      obtain ⟨-, adapter, -, ht⟩ := Backend.start_spec hback
      rw [ht] at hclosure
      change (Function.update s.backend.executions (i, x) _ (i, x)).closure = _ at hclosure
      rw [Function.update_self] at hclosure
      cases call <;> cases hclosure
    | unregister k =>
      cases hmover
      obtain ⟨handle', result, -, -, ht⟩ := Backend.unregister_spec hback
      rw [ht] at hclosure
      change (Function.update s.backend.executions (i, x) _ (i, x)).closure = _ at hclosure
      rw [Function.update_self] at hclosure
      cases hclosure
    | adapter | dispatch => cases hmover
  · rw [Backend.executions_of_step hback hmover] at hclosure
    exact Or.inl hclosure

theorem Passed.of_back {b : Backend.Label (κ × Await)} (hs : Passed s)
    (hback : Backend.step s.backend b = some t.backend)
    (hb : ∀ ch delivery, b ≠ .dispatch ch delivery)
    (hfirst : ∀ {j y}, b = .assign (j, y) ∨ b = .register (j, y) → y = .first)
    (hheld : ∀ {i h}, s.held i = some h → t.held i = some h)
    (hbroadcasts : t.broadcasts = s.broadcasts) : Passed t := by
  refine ⟨fun hclosure ↦ ?_, fun h ↦ ?_⟩
  · exact (closure_of_back hback hfirst hclosure).elim hs.first id
  · rw [State.broadcastsFor, hbroadcasts, dispatched_of_back hback hb]
    refine (hs.broadcasts h).imp_right ?_
    rintro ⟨i, hi, hsub⟩
    exact ⟨i, hheld hi, hsub⟩

omit [DecidableEq κ] in
/-- What is broadcast is the delivery, for the handle that the consumer's execution has captured. -/
theorem broadcast_spec (s : State κ) (ch : RabbitMqAdapter.ChannelId) (delivery : Delivery) :
    s.broadcast ch delivery = [] ∨ ∃ handle message,
      (s.backend.executions (s.backend.adapter.channels ch).openedBy).closure = some handle ∧
        delivery.received = .ok message ∧ s.broadcast ch delivery = [(handle, message)] := by
  unfold State.broadcast
  split
  · rename_i handle message hclosure hreceived
    by_cases hregistered : s.backend.coordinator.IsRegistered handle
    · exact Or.inr ⟨handle, message, hclosure, hreceived,
        by rw [SubscriptionCoordinator.accepted, if_pos hregistered]; rfl⟩
    · exact Or.inl (by rw [SubscriptionCoordinator.accepted, if_neg hregistered]; rfl)
  · exact Or.inl rfl

theorem Passed.of_dispatch {ch : RabbitMqAdapter.ChannelId} {delivery : Delivery}
    (hs : Passed s) (hordered : Ordered s)
    (hback : Backend.step s.backend (.dispatch ch delivery) = some t.backend)
    (hbroadcasts : t.broadcasts = s.broadcasts ++ s.broadcast ch delivery) : Passed t := by
  have ht := Backend.dispatch_spec hback
  have hheld : ∀ {i}, t.held i = s.held i := by
    intro i
    unfold State.held
    rw [ht]
  have hgrows : ∀ k, (Delivery.messages (s.backend.dispatched k)).Sublist
      (Delivery.messages (t.backend.dispatched k)) := by
    intro k
    refine List.Sublist.filterMap _ ?_
    rw [ht]
    change (s.backend.dispatched k).Sublist (Function.update s.backend.dispatched _ _ k)
    rw [Function.update_apply]
    split
    · rename_i hk
      exact hk ▸ List.sublist_append_left _ _
    · exact List.Sublist.refl _
  -- what was broadcast before
  have hkeeps : ∀ {h}, t.broadcastsFor h = s.broadcastsFor h → t.broadcastsFor h = [] ∨
      ∃ i, t.held i = some h ∧
        (t.broadcastsFor h).Sublist (Delivery.messages (t.backend.dispatched (i, .first))) := by
    intro h hsame
    rw [hsame]
    refine (hs.broadcasts h).imp_right ?_
    rintro ⟨i, hi, hsub⟩
    exact ⟨i, hheld.trans hi, hsub.trans (hgrows _)⟩
  refine ⟨fun {i x handle} hclosure ↦ hs.first (by rw [ht] at hclosure; exact hclosure),
    fun h ↦ ?_⟩
  rcases broadcast_spec s ch delivery with hnothing | ⟨handle, message, hclosure, hreceived, hone⟩
  · exact hkeeps (by rw [State.broadcastsFor, hbroadcasts, hnothing, List.append_nil]; rfl)
  · by_cases hh : h = handle
    · subst hh
      obtain ⟨⟨i, x⟩, howner⟩ : ∃ k, (s.backend.adapter.channels ch).openedBy = k := ⟨_, rfl⟩
      rw [howner] at hclosure
      obtain rfl := hs.first hclosure
      have hi : s.held i = some h :=
        held_eq_some.mpr (hordered.handles.returned (i, .first) h hclosure)
      have hfor : t.broadcastsFor h = s.broadcastsFor h ++ [message] := by
        simp [State.broadcastsFor, hbroadcasts, hone]
      have hdispatched : t.backend.dispatched (i, .first)
          = s.backend.dispatched (i, .first) ++ [delivery] := by
        rw [ht, howner]
        exact Function.update_self ..
      refine Or.inr ⟨i, hheld.trans hi, ?_⟩
      rw [hfor, hdispatched, Delivery.messages, List.filterMap_append]
      refine List.Sublist.append ?_ ?_
      · rcases hs.broadcasts h with hnone | ⟨j, hj, hsub⟩
        · rw [hnone]
          exact List.nil_sublist _
        · obtain rfl := hordered.held_unique hi hj
          exact hsub
      · simp [hreceived, Except.toOption]
    · exact hkeeps (by simp [State.broadcastsFor, hbroadcasts, hone, Ne.symm hh])

theorem broadcasts_of_step (hstep : step s a = some t)
    (ha : ∀ ch delivery, a ≠ .dispatch ch delivery) : t.broadcasts = s.broadcasts := by
  cases step_cases hstep with
  | begins i u ha' hidle hback hprogress hbroadcasts => exact hbroadcasts
  | proceeds i newGuid b p ha' hmoves hback hprogress hbroadcasts => exact hbroadcasts
  | adapter b ha' hback hprogress hbroadcasts => exact hbroadcasts
  | dispatches ch delivery ha' => exact absurd ha' (ha ch delivery)

theorem passed_step (hordered : Ordered s) (hs : Passed s) (hstep : step s a = some t) :
    Passed t := by
  have hheld : ∀ {i h}, s.held i = some h → t.held i = some h := fun hi ↦ held_of_step hstep hi
  cases step_cases hstep with
  | begins i u ha hidle hback hprogress hbroadcasts =>
    exact hs.of_back hback nofun (by rintro j y (h | h) <;> cases h) hheld hbroadcasts
  | adapter b ha hback hprogress hbroadcasts =>
    exact hs.of_back hback nofun (by rintro j y (h | h) <;> cases h) hheld hbroadcasts
  | dispatches ch delivery ha hback hprogress hbroadcasts =>
    exact hs.of_dispatch hordered hback hbroadcasts
  | proceeds i newGuid b p ha hmoves hback hprogress hbroadcasts =>
    cases b with
    | none =>
      have hsame : t.backend = s.backend := hback
      refine ⟨fun hclosure ↦ hs.first (hsame ▸ hclosure), fun h ↦ ?_⟩
      rw [State.broadcastsFor, hbroadcasts, hsame]
      refine (hs.broadcasts h).imp_right ?_
      rintro ⟨i, hi, hsub⟩
      exact ⟨i, hheld hi, hsub⟩
    | some b =>
      refine hs.of_back hback ?_ ?_ hheld hbroadcasts
      · rintro ch delivery rfl
        cases hmoves
      · rintro j y (rfl | rfl) <;> cases hmoves <;> rfl

/-! ## From the broadcaster to the store -/

/-- What was broadcast for the subscription, as it is pushed. -/
def State.pushed (s : State κ) (h : Guid) : List MessageReceivedDto :=
  (s.broadcastsFor ⟨h⟩).map (.fromDomain h)

/-- The wire is behind the broadcaster, and the store behind the wire. -/
def Behind (s : State κ) (c : HubConnection) (page : Page.State) : Prop :=
  ∀ h, (c.arrived page h).Sublist (s.pushed h)

section Behind

variable {c d : HubConnection} {page next : Page.State} {received : List MessageReceivedDto}

omit [DecidableEq κ] in
theorem Behind.mono (hs : Behind s c page)
    (harrived : ∀ h, (d.arrived next h).Sublist (c.arrived page h)) : Behind s d next :=
  fun h ↦ (harrived h).trans (hs h)

theorem Behind.of_quiet (hs : Behind s c page) (hstep : step s a = some t)
    (ha : ∀ ch delivery, a ≠ .dispatch ch delivery) : Behind t c page := by
  intro h
  rw [State.pushed, State.broadcastsFor, broadcasts_of_step hstep ha]
  exact hs h

theorem Behind.of_dispatch {ch : RabbitMqAdapter.ChannelId} {delivery : Delivery}
    (hs : Behind s c page) (hstep : step s (.dispatch ch delivery) = some t) :
    Behind t (c.broadcast (s.broadcast ch delivery)) page := by
  intro h
  obtain ⟨backend, -, rfl⟩ := Option.map_eq_some_iff.mp hstep
  have hnew : State.pushed { s with
      backend, broadcasts := s.broadcasts ++ s.broadcast ch delivery } h
        = s.pushed h ++ (((s.broadcast ch delivery).filter fun broadcast ↦
          broadcast.1 = ⟨h⟩).map Prod.snd).map (.fromDomain h) := by
    simp [State.pushed, State.broadcastsFor]
  rw [hnew]
  exact HubConnection.arrived_broadcast.trans ((hs h).append (List.Sublist.refl _))

omit [DecidableEq κ] in
/-- What is stored was dispatched to the consumer of the execution that holds the handle. -/
theorem Behind.stored {h : Guid} (hs : Behind s c page) (hpassed : Passed s) :
    page.hub.received h = [] ∨ ∃ i, s.held i = some ⟨h⟩ ∧ (page.hub.received h).Sublist
      ((Delivery.messages (s.backend.dispatched (i, .first))).map (.fromDomain h)) := by
  have hreceived : (page.hub.received h).Sublist (s.pushed h) :=
    (List.sublist_append_left _ _).trans (hs h)
  rcases hpassed.broadcasts ⟨h⟩ with hnone | ⟨i, hi, hsub⟩
  · rw [State.pushed, hnone] at hreceived
    exact Or.inl (List.sublist_nil.mp hreceived)
  · exact Or.inr ⟨i, hi, hreceived.trans (hsub.map _)⟩

end Behind

end UseCases

namespace System

open Transition
open UseCases (Behind)

variable {s t : State} {a : Label} {as : List Label} {h : Guid} {c : HubConnection}

/-! ## Every run -/

/-- What was dispatched to the consumer of the execution, as it is pushed for the subscription. -/
def State.dispatched (s : State) (i : Session.Source) (h : Guid) : List MessageReceivedDto :=
  (Delivery.messages (s.session.useCases.backend.dispatched (i, .first))).map (.fromDomain h)

/-- What is stored was dispatched to the consumer of the subscription, in this order. -/
def InOrder (s : State) (h : Guid) : Prop :=
  s.session.page.hub.received h = [] ∨ ∃ i, s.session.useCases.held i = some ⟨h⟩ ∧
    (s.session.page.hub.received h).Sublist (s.dispatched i h)

theorem behind_of_session {b : Session.Label} {u v : Session.State}
    (hu : Behind u.useCases c u.page) (hstep : Session.step u b = some v)
    (hpush : ∀ message, b ≠ .page (.messageReceived message))
    (hdispatch : ∀ ch delivery, b ≠ .server (.dispatch ch delivery)) :
    Behind v.useCases c v.page := by
  cases Session.step_cases hstep with
  | page e ha hrespond hlisted hpage hv =>
    subst ha
    rw [hv]
    exact hu.mono fun h ↦ HubConnection.arrived_of_page hpage fun message heq ↦
      hpush message (heq ▸ rfl)
  | arrives n request ha hunderway huseCases hpage hothers =>
    rw [hpage]
    exact hu.of_quiet huseCases (by rintro ch delivery ⟨⟩)
  | others n useCase ha hcalling huseCases hpage hunderway =>
    rw [hpage]
    exact hu.of_quiet huseCases (by rintro ch delivery ⟨⟩)
  | serves e ha hb huseCases hpage hunderway =>
    subst ha
    rw [hpage]
    refine hu.of_quiet huseCases ?_
    rintro ch delivery rfl
    exact hdispatch ch delivery rfl
  | responds n response ha hresponse hpage hv =>
    rw [hv]
    exact hu.mono fun h ↦ HubConnection.arrived_of_page hpage (by rintro message ⟨⟩)

theorem behind_step (hs : Behind s.session.useCases s.toHubConnection s.session.page)
    (hstep : step s a = some t) :
    Behind t.session.useCases t.toHubConnection t.session.page := by
  cases step_cases hstep with
  | session b session ha hb hsession ht =>
    subst ht
    exact behind_of_session hs hsession hb.2.1 hb.2.2.2.2
  | loses b session ha hb hsession ht =>
    subst ht
    have hquiet := behind_of_session hs hsession
      (by rcases hb with rfl | rfl <;> rintro message ⟨⟩) (by rintro ch delivery ⟨⟩)
    exact hquiet.mono fun h ↦ HubConnection.arrived_fresh
  | dispatches ch delivery session ha hsession ht =>
    subst ht
    obtain ⟨useCases, huseCases, rfl⟩ := Option.map_eq_some_iff.mp hsession
    exact hs.of_dispatch huseCases
  | hub b connection session ha hmove ht =>
    subst ht
    have huseCases : session.useCases = s.session.useCases := by
      obtain ⟨-, rfl⟩ | ⟨e, -, hsession⟩ := HubConnection.told_of_move hmove
      · rfl
      · obtain ⟨page, -, rfl⟩ := Session.page_of_step hsession
        rfl
    have hpage : HubConnection.MoveCases s.toHubConnection _ (Page.step s.session.page) _ _ _ _ :=
      (HubConnection.move_cases hmove).part Session.State.page fun e session hsession ↦ by
        obtain ⟨page, hpage, rfl⟩ := Session.page_of_step hsession
        exact hpage
    rw [huseCases]
    exact hs.mono fun h ↦ HubConnection.arrived_of_move hpage

/-- **What is stored for a subscription was dispatched to its consumer**, in the same order and each
delivery at most once, in every run. -/
theorem inOrder_of_run (hrun : run step .initial as = some t) : InOrder t h := by
  have hbehind : Behind t.session.useCases t.toHubConnection t.session.page :=
    invariant_of_step
      (P := fun s : State ↦ Behind s.session.useCases s.toHubConnection s.session.page)
      (fun h ↦ List.Sublist.refl _) (fun s a t hs hstep ↦ behind_step hs hstep) hrun
  have hpassed : UseCases.Ordered t.session.useCases ∧ UseCases.Passed t.session.useCases := by
    refine invariant_of_step (P := fun s : State ↦
      UseCases.Ordered s.session.useCases ∧ UseCases.Passed s.session.useCases)
      ⟨UseCases.ordered_initial, UseCases.passed_initial⟩ (fun s a t hs hstep ↦ ?_) hrun
    rcases projects_session hstep with ⟨-, hsame⟩ | ⟨b, -, hb⟩
    · rw [hsame]
      exact hs
    · rcases Session.useCases_of_step hb with hsame | ⟨c, hc⟩
      · rw [hsame]
        exact hs
      · exact ⟨UseCases.ordered_step hs.1 hc, UseCases.passed_step hs.1 hs.2 hc⟩
  exact hbehind.stored hpassed.2

open RabbitMqAdapter.Label (succeed)

/-- A delivery with a payload of one letter. -/
private def letter (code : UInt8) : Delivery where
  exchange := []
  routingKey := Utf16.ofString "letters"
  body := [code]
  replyTo := none
  correlationId := none

/-- A queue is subscribed to and the group is joined. Of three deliveries the first comes too early,
the second is pushed, and the third is on the wire when the connection is lost. -/
private def onlySecondArrives : List Label :=
  [.session (.other 0 (.teardown (.connect .localhost))),
    .session (.server (.adapter (succeed (.other 0, .first)))),
    .session (.server (.adapter (succeed (.other 0, .first)))),
    .session (.server (.proceed (.other 0) ⟨0⟩)),
    .session (.page (.editQueueName (Utf16.ofString "letters"))),
    .session (.page .subscribeToQueue), .session (.arrive 0),
    .session (.server (.adapter (succeed (.request 0, .first)))),
    .session (.server (.adapter (.brokerConsumes 0))),
    .session (.server (.adapter (.resume (.request 0, .first) .completed ⟨7⟩))),
    .session (.server (.adapter (succeed (.request 0, .first)))),
    .session (.server (.proceed (.request 0) ⟨0⟩)), .session (.server (.proceed (.request 0) ⟨0⟩)),
    .session (.server (.dispatch 0 (letter 0x78))), .session (.respond 0 (.subscribed ⟨7⟩)),
    .session (.page (.started true)), .session (.page .startSettled), .hub (.execute true),
    .hub .complete,
    .session (.server (.dispatch 0 (letter 0x79))), .hub .push,
    .session (.server (.dispatch 0 (letter 0x7A))), .session (.page .onreconnecting)]

theorem inOrder_of_onlySecondArrives : ∃ t, run step .initial onlySecondArrives = some t ∧
    (t.session.page.hub.received ⟨7⟩).map MessageReceivedDto.payload = [Utf16.ofString "y"] ∧
      (t.dispatched (.request 0) ⟨7⟩).map MessageReceivedDto.payload
        = [Utf16.ofString "x", Utf16.ofString "y", Utf16.ofString "z"] ∧ InOrder t ⟨7⟩ := by
  refine ⟨_, rfl, by decide, by decide, ?_⟩
  exact inOrder_of_run (show run step .initial onlySecondArrives = some _ from rfl)

end System

end BusTester
