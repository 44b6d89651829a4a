import BusTester.Live.Handles

/-!
# What is accepted arrives

The consumer of a subscription is registered before the response that carries its handle is sent,
while the page joins the group only after it has the response and the start promise has resolved. A
message that is accepted in between is kept by the coordinator and broadcast to nobody.

This is the only loss there is on a connection that stays up. `delivered_iff` says that, once
nothing is in flight, the page holds each accepted message of a subscription exactly once if and
only if every one of them was accepted while the connection was in the group. What the page holds
and what is on the wire is compared with the buffer of the coordinator. As long as no message has
missed the group they are equal, in order; after the first miss they are shorter, and they stay so.
-/

namespace BusTester

namespace Live

open Page (Flow Invocation Request Response)
open Transition

variable {s t : State} {a : Label} {as : List Label} {h : Guid}

/-! ## The property and the condition -/

/-- The messages accepted for the subscription, as they are pushed. -/
def State.expected (s : State) (h : Guid) : List MessageReceivedDto :=
  (s.coordinator.getMessages ⟨h⟩).map (.fromDomain h)

/-- Each accepted message is in the messages of the hub service exactly once. -/
def Delivered (s : State) (h : Guid) : Prop := (s.page.hub.received h).Perm (s.expected h)

/-- No message, request or invocation is in flight. -/
def Quiescent (s : State) : Prop :=
  s.wire = [] ∧ (∀ n < s.page.nextRequest, s.page.requests n = none) ∧ s.page.invocations = []

/-- The connection of the hub does not drop. -/
def NeverDrops (_ : State) : Label → Prop
  | .page .onreconnecting | .page .onclose => False
  | _ => True

/-- A message that will be accepted for `h` finds the connection in the group. -/
def InGroup (h : Guid) (s : State) : Label → Prop
  | .deliver id _ => id = h → s.coordinator.IsRegistered ⟨h⟩ → h ∈ s.groups
  | _ => True

instance (s : State) (h : Guid) : Decidable (Delivered s h) :=
  inferInstanceAs (Decidable (List.Perm _ _))

instance (s : State) : Decidable (Quiescent s) := inferInstanceAs (Decidable (_ ∧ _ ∧ _))

instance (s : State) : DecidablePred (NeverDrops s)
  | .page b =>
    match b with
    | .onreconnecting | .onclose => isFalse id
    | .editQueueName _ | .subscribeToQueue | .sendWithReply _ | .unsubscribe .. | .respond ..
    | .started _ | .startSettled | .settled _ | .messageReceived _ | .onreconnected =>
      isTrue trivial
  | .serve .. | .respond .. | .execute _ | .complete | .deliver .. | .push => isTrue trivial

instance (h : Guid) (s : State) : DecidablePred (InGroup h s)
  | .deliver id _ =>
    inferInstanceAs (Decidable (id = h → s.coordinator.IsRegistered ⟨h⟩ → h ∈ s.groups))
  | .page _ | .serve .. | .respond .. | .execute _ | .complete | .push => isTrue trivial

/-! ## Open subscriptions -/

/-- The page shows the subscription, or the response that lists it is on its way. -/
def Open (s : State) (h : Guid) : Prop :=
  h ∈ s.page.shown ∨ ∃ n response flow, s.answers n = some response ∧
    response.handle = some (flow, h)

/-- A DELETE of the subscription is in flight. -/
def Leaving (s : State) (h : Guid) : Prop :=
  ∃ n request flow, s.page.requests n = some request ∧ request.leaves = some (flow, h)

/-- A DELETE of the subscription is answered. -/
def Finished (s : State) (a : Label) (h : Guid) : Prop :=
  ∃ n response flow, a = .respond n response ∧ s.page.Finishes (.respond n response) flow h

theorem issued_of_open (hs : Known s) (hh : Open s h) : s.issued h ≠ none := by
  have hflow : ∃ flow, s.issued h = some flow := by
    rcases hh with hh | ⟨n, response, flow, hn, hhandle⟩
    · obtain ⟨flow, hflow⟩ := Page.mem_shown.mp hh
      exact ⟨flow, hs.listed hflow⟩
    · exact ⟨flow, (hs.answered hn hhandle).1⟩
  obtain ⟨flow, hflow⟩ := hflow
  rw [hflow]
  exact Option.some_ne_none flow

/-- An entry that is open was open before, or its handle is new. -/
theorem open_of_step (hstep : step s a = some t) (hh : Open t h) :
    Open s h ∨ s.issued h = none := by
  rcases hh with hh | ⟨n, response, flow, hn, hhandle⟩
  · obtain ⟨flow, hflow⟩ := Page.mem_shown.mp hh
    refine Or.inl ?_
    rcases page_of_step hstep with hpage | ⟨b, hpage, hb⟩
    · exact Or.inl (Page.mem_shown.mpr ⟨flow, hpage ▸ hflow⟩)
    · rcases (Page.effect_of_step hpage).listed hflow with hold | ⟨n, response, heq, hhandle⟩
      · exact Or.inl (Page.mem_shown.mpr ⟨flow, hold⟩)
      · obtain rfl := hb n response heq
        obtain ⟨page, -, hanswer, -⟩ := respond_spec hstep
        rcases hanswer with hanswer | hnone
        · exact Or.inr ⟨n, response, flow, hanswer, hhandle⟩
        · cases hnone.symm.trans hhandle
  · rcases (answers_of_step hstep).1 hn with hold | hfresh
    · exact Or.inl (Or.inr ⟨n, response, flow, hold, hhandle⟩)
    · exact Or.inr (hfresh flow h hhandle)

theorem not_open_of_finished (hs : Known s) (hstep : step s a = some t) (hf : Finished s a h) :
    ¬Open t h := by
  obtain ⟨n, response, flow, rfl, hfinishes⟩ := hf
  obtain ⟨m, response', request, -, hm, hleaves⟩ := id hfinishes
  have hflow : s.issued h = some flow := hs.leaving hm hleaves
  have ht : Known t := known_step hs hstep
  obtain ⟨page, hpage, -, rfl⟩ := respond_spec hstep
  rintro (hh | ⟨k, response'', flow', hk, hhandle⟩)
  · obtain ⟨flow', hflow'⟩ := Page.mem_shown.mp hh
    -- It can only be listed in the flow it was created for, and there it has been removed.
    obtain rfl : flow = flow' := Option.some.inj (hflow.symm.trans (ht.listed hflow'))
    exact (Page.effect_of_step hpage).finished hfinishes hflow'
  · have hk' : s.answers k = some response'' := (Page.of_cleared hk).2
    exact (hs.answered hk' hhandle).2.2.1 m request flow hm hleaves

/-! ## What a step does to the messages of one subscription -/

/-- A message for the subscription: the buffer grows if there is one, and so does the wire if the
connection is in the group. -/
theorem deliver_spec {message : BusMessage} (hstep : step s (.deliver h message) = some t) :
    t.page = s.page ∧ t.issued = s.issued ∧ t.answers = s.answers ∧
      t.coordinator = s.coordinator.onMessageReceived ⟨h⟩ message ∧
      t.arrived t.page h = s.arrived s.page h ++ s.broadcast h message := by
  cases hstep
  refine ⟨rfl, rfl, rfl, rfl, ?_⟩
  have hsubscription : ∀ m ∈ s.broadcast h message, m.subscriptionId = h := by
    intro m hm
    unfold State.broadcast at hm
    split at hm
    · obtain ⟨message', -, rfl⟩ := List.mem_map.mp hm
      rfl
    · cases hm
  have hall : (s.broadcast h message).filter (fun m ↦ m.subscriptionId = h)
      = s.broadcast h message :=
    List.filter_eq_self.mpr fun m hm ↦ decide_eq_true (hsubscription m hm)
  rw [HubConnection.arrived, List.filter_append, hall, ← List.append_assoc]
  rfl

theorem arrived_of_step (hdrops : NeverDrops s a) (hother : ∀ message, a ≠ .deliver h message)
    (hstep : step s a = some t) : t.arrived t.page h = s.arrived s.page h ∨ Finished s a h := by
  cases a with
  | page b =>
    obtain ⟨page, hpage, ⟨rfl, -⟩ | ⟨-, hb⟩, hrespond, -, hreceived, -⟩ := stepPage_spec hstep
    · rcases (Page.effect_of_step hpage).received (h := h) hreceived with hsame | ⟨flow, hf⟩
      · exact Or.inl (congrArg (· ++ _) hsame)
      · obtain ⟨n, response, request, heq, -⟩ := hf
        exact absurd heq (hrespond n response)
    · rcases hb with rfl | rfl <;> exact absurd hdrops id
  | serve n response =>
    obtain ⟨flow, id, -, -, rfl⟩ | ⟨request, flow, id, -, -, -, rfl⟩ := serve_spec hstep
    · exact Or.inl rfl
    · exact Or.inl rfl
  | respond n response =>
    obtain ⟨page, hpage, -, rfl⟩ := respond_spec hstep
    rcases (Page.effect_of_step hpage).received (h := h) (by simp) with hsame | ⟨flow, hf⟩
    · exact Or.inl (congrArg (· ++ _) hsame)
    · exact Or.inr ⟨n, response, flow, rfl, hf⟩
  | execute ok =>
    obtain ⟨invocation, -, rfl⟩ := execute_spec hstep
    exact Or.inl rfl
  | complete =>
    obtain ⟨ok, rest, invocation, invocations, page, -, -, hpage, rfl⟩ := complete_spec hstep
    rcases (Page.effect_of_step hpage).received (h := h) (by simp) with hsame | ⟨flow, hf⟩
    · exact Or.inl (congrArg (· ++ _) hsame)
    · obtain ⟨n, response, request, heq, -⟩ := hf
      cases heq
  | deliver id message =>
    have hid : id ≠ h := by
      rintro rfl
      exact hother message rfl
    cases hstep
    have hnone : (s.broadcast id message).filter (fun m ↦ m.subscriptionId = h) = [] := by
      refine List.filter_eq_nil_iff.mpr fun m hm hh ↦ hid ?_
      unfold State.broadcast at hm
      split at hm
      · obtain ⟨message', -, rfl⟩ := List.mem_map.mp hm
        exact of_decide_eq_true hh
      · cases hm
    refine Or.inl ?_
    rw [HubConnection.arrived, List.filter_append, hnone, List.append_nil]
    rfl
  | push =>
    obtain ⟨message, rest, hwire, rfl⟩ := push_spec hstep
    refine Or.inl ?_
    simp only [HubConnection.arrived, BusHubService.received_onMessageReceived, hwire,
      List.filter_cons, List.append_assoc, decide_eq_true_eq]
    split <;> simp

/-- What other steps do to the buffer of a subscription. -/
inductive BufferStep (s t : State) (h : Guid) : Prop where
  | keeps (hissued : t.issued h = s.issued h)
      (hbuffer : t.coordinator.messagesByHandle ⟨h⟩ = s.coordinator.messagesByHandle ⟨h⟩)
  | creates (hfresh : s.issued h = none) (hissued : t.issued h ≠ none)
      (hbuffer : t.coordinator.messagesByHandle ⟨h⟩ = some [])
  /-- The DELETE is served, and has yet to be answered. -/
  | drops (hissued : t.issued h = s.issued h)
      (hbuffer : t.coordinator.messagesByHandle ⟨h⟩ = none) (hleaving : Leaving t h)

theorem bufferStep_of_step (hother : ∀ message, a ≠ .deliver h message)
    (hstep : step s a = some t) : BufferStep s t h := by
  cases a with
  | page b =>
    obtain ⟨page, -, ⟨rfl, -⟩ | ⟨rfl, -⟩, -⟩ := stepPage_spec hstep <;> exact .keeps rfl rfl
  | serve n response =>
    obtain ⟨flow, id, -, hfresh, rfl⟩ | ⟨request, flow, id, -, hrequest, hleaves, rfl⟩ :=
      serve_spec hstep
    · by_cases hid : h = id
      · subst hid
        exact .creates hfresh (by simp) (by simp)
      · exact .keeps (by simp [hid]) (by simp [hid])
    · by_cases hid : h = id
      · subst hid
        exact .drops rfl (by simp) ⟨n, request, flow, hrequest, hleaves⟩
      · exact .keeps rfl (by simp [hid])
  | respond n response =>
    obtain ⟨page, -, -, rfl⟩ := respond_spec hstep
    exact .keeps rfl rfl
  | execute ok =>
    obtain ⟨invocation, -, rfl⟩ := execute_spec hstep
    exact .keeps rfl rfl
  | complete =>
    obtain ⟨ok, rest, invocation, invocations, page, -, -, -, rfl⟩ := complete_spec hstep
    exact .keeps rfl rfl
  | deliver id message =>
    have hid : h ≠ id := by
      rintro rfl
      exact hother message rfl
    cases hstep
    exact .keeps rfl (by simp [hid])
  | push =>
    obtain ⟨message, rest, -, rfl⟩ := push_spec hstep
    exact .keeps rfl rfl

/-! ## The buffer and what has arrived of it -/

/-- What holds of a subscription in every state of a run without a drop. -/
structure Sound (s : State) (h : Guid) : Prop where
  known : Known s
  unissued : s.issued h = none →
    s.coordinator.messagesByHandle ⟨h⟩ = none ∧ s.arrived s.page h = []
  /-- An open entry has a buffer until it is about to go. -/
  held : Open s h → s.coordinator.IsRegistered ⟨h⟩ ∨ Leaving s h

theorem sound_initial : Sound State.initial h := by
  refine ⟨known_initial, fun _ ↦ ⟨rfl, rfl⟩, ?_⟩
  rintro (hh | ⟨n, response, flow, hn, -⟩)
  · cases hh
  · cases hn

theorem leaving_of_step (hs : Known s) (hstep : step s a = some t) (hh : Leaving s h) :
    Leaving t h ∨ Finished s a h := by
  obtain ⟨n, request, flow, hn, hleaves⟩ := hh
  rcases page_of_step hstep with hpage | ⟨b, hpage, hb⟩
  · exact Or.inl ⟨n, request, flow, hpage ▸ hn, hleaves⟩
  · have hlt : n < s.page.nextRequest := hs.numbered n request hn
    rcases (Page.effect_of_step hpage).requests_kept hlt hn with hn' | ⟨response, rfl⟩
    · exact Or.inl ⟨n, request, flow, hn', hleaves⟩
    · exact Or.inr ⟨n, response, flow, hb n response rfl, n, response, request, rfl, hn, hleaves⟩

theorem Sound.of_deliver {message : BusMessage} (hs : Sound s h)
    (hstep : step s (.deliver h message) = some t) : Sound t h := by
  obtain ⟨hpage, hissued, hanswers, hcoordinator, harrived⟩ := deliver_spec hstep
  refine ⟨known_step hs.known hstep, fun hfresh ↦ ?_, fun hopen ↦ ?_⟩
  · rw [hissued] at hfresh
    obtain ⟨hnone, hempty⟩ := hs.unissued hfresh
    have hnot : ¬s.coordinator.IsRegistered ⟨h⟩ := by
      rw [SubscriptionCoordinator.IsRegistered, hnone]
      exact Bool.false_ne_true
    rw [harrived, hempty, State.broadcast, SubscriptionCoordinator.accepted, if_neg hnot,
      hcoordinator, SubscriptionCoordinator.messagesByHandle_onMessageReceived, if_pos rfl, hnone]
    exact ⟨rfl, ite_self _⟩
  · rw [Open, hpage, hanswers] at hopen
    rw [hcoordinator, SubscriptionCoordinator.isRegistered_onMessageReceived, Leaving, hpage]
    exact hs.held hopen

theorem Sound.of_other (hs : Sound s h) (hdrops : NeverDrops s a)
    (hother : ∀ message, a ≠ .deliver h message) (hstep : step s a = some t) : Sound t h := by
  have ht : Known t := known_step hs.known hstep
  have hbuffers : BufferStep s t h := bufferStep_of_step hother hstep
  refine ⟨ht, fun hissued ↦ ?_, fun hopen ↦ ?_⟩
  · have hfresh : s.issued h = none := by
      by_contra hflow
      obtain ⟨flow, hflow⟩ := Option.ne_none_iff_exists'.mp hflow
      cases hissued.symm.trans ((answers_of_step hstep).2 hflow)
    obtain ⟨hnone, hempty⟩ := hs.unissued hfresh
    constructor
    · cases hbuffers with
      | keeps _ hbuffer => exact hbuffer.trans hnone
      | creates _ hissued' => exact absurd hissued hissued'
      | drops _ hbuffer => exact hbuffer
    · rcases arrived_of_step hdrops hother hstep with hsame | hf
      · exact hsame.trans hempty
      · obtain ⟨n, response, flow, -, m, response', request, -, hm, hleaves⟩ := hf
        cases hfresh.symm.trans (hs.known.leaving hm hleaves)
  · have hheld : t.issued h = s.issued h → s.coordinator.IsRegistered ⟨h⟩ ∨ Leaving s h := by
      intro hsame
      rcases open_of_step hstep hopen with hopen' | hfresh
      · exact hs.held hopen'
      · exact absurd (hsame.trans hfresh) (issued_of_open ht hopen)
    cases hbuffers with
    | keeps hsame hbuffer =>
      rcases hheld hsame with hregistered | hleaving
      · refine Or.inl ?_
        rw [SubscriptionCoordinator.IsRegistered, hbuffer]
        exact hregistered
      · refine Or.inr ((leaving_of_step hs.known hstep hleaving).resolve_right fun hf ↦ ?_)
        exact not_open_of_finished hs.known hstep hf hopen
    | creates _ _ hbuffer =>
      refine Or.inl ?_
      rw [SubscriptionCoordinator.IsRegistered, hbuffer]
      rfl
    | drops _ _ hleaving => exact Or.inr hleaving

theorem sound_step (hs : Sound s h) (hdrops : NeverDrops s a) (hstep : step s a = some t) :
    Sound t h := by
  by_cases hdeliver : ∃ message, a = .deliver h message
  · obtain ⟨message, rfl⟩ := hdeliver
    exact hs.of_deliver hstep
  · exact hs.of_other hdrops (not_exists.mp hdeliver) hstep

theorem messages_of_deliver {message : BusMessage} (hstep : step s (.deliver h message) = some t)
    (hregistered : t.coordinator.IsRegistered ⟨h⟩) (hopen : Open t h) :
    s.coordinator.IsRegistered ⟨h⟩ ∧ Open s h ∧
      t.expected h = s.expected h ++ [.fromDomain h message] ∧
      t.arrived t.page h
        = s.arrived s.page h ++ if h ∈ s.groups then [.fromDomain h message] else [] := by
  obtain ⟨hpage, -, hanswers, hcoordinator, harrived⟩ := deliver_spec hstep
  have hregistered' : s.coordinator.IsRegistered ⟨h⟩ := by
    rwa [hcoordinator, SubscriptionCoordinator.isRegistered_onMessageReceived] at hregistered
  refine ⟨hregistered', ?_, ?_, ?_⟩
  · rwa [Open, hpage, hanswers] at hopen
  · rw [State.expected, hcoordinator,
      SubscriptionCoordinator.getMessages_onMessageReceived_self hregistered', List.map_append]
    rfl
  · rw [harrived, State.broadcast, SubscriptionCoordinator.accepted, if_pos hregistered']
    rfl

theorem messages_of_other (hs : Sound s h) (hdrops : NeverDrops s a)
    (hother : ∀ message, a ≠ .deliver h message) (hstep : step s a = some t)
    (hregistered : t.coordinator.IsRegistered ⟨h⟩) (hopen : Open t h) :
    (s.issued h = none ∧ t.arrived t.page h = [] ∧ t.expected h = []) ∨
      (s.coordinator.IsRegistered ⟨h⟩ ∧ Open s h ∧ t.expected h = s.expected h ∧
        t.arrived t.page h = s.arrived s.page h) := by
  have hissued : t.issued h ≠ none := issued_of_open (known_step hs.known hstep) hopen
  have harrived : t.arrived t.page h = s.arrived s.page h :=
    (arrived_of_step hdrops hother hstep).resolve_right fun hf ↦
      not_open_of_finished hs.known hstep hf hopen
  cases bufferStep_of_step hother hstep with
  | creates hfresh _ hbuffer =>
    refine Or.inl ⟨hfresh, harrived.trans (hs.unissued hfresh).2, ?_⟩
    rw [State.expected, SubscriptionCoordinator.getMessages, hbuffer]
    rfl
  | drops _ hbuffer =>
    rw [SubscriptionCoordinator.IsRegistered, hbuffer] at hregistered
    cases hregistered
  | keeps hsame hbuffer =>
    have hopen' : Open s h := (open_of_step hstep hopen).resolve_right fun hfresh ↦
      hissued (hsame.trans hfresh)
    have hregistered' : s.coordinator.IsRegistered ⟨h⟩ := by
      rwa [SubscriptionCoordinator.IsRegistered, hbuffer] at hregistered
    refine Or.inr ⟨hregistered', hopen', ?_, harrived⟩
    rw [State.expected, SubscriptionCoordinator.getMessages, hbuffer]
    rfl

/-! ## Complete, or short for good -/

/-- Every accepted message of an open subscription has arrived or is on the wire, in order. -/
def Complete (s : State) (h : Guid) : Prop :=
  Sound s h ∧ (s.coordinator.IsRegistered ⟨h⟩ → Open s h → s.arrived s.page h = s.expected h)

/-- Messages of the subscription are missing. -/
def Short (s : State) (h : Guid) : Prop :=
  Sound s h ∧ s.issued h ≠ none ∧
    (s.coordinator.IsRegistered ⟨h⟩ → Open s h →
      (s.arrived s.page h).length < (s.expected h).length)

theorem complete_step (hs : Complete s h) (hdrops : NeverDrops s a) (hgroup : InGroup h s a)
    (hstep : step s a = some t) : Complete t h := by
  refine ⟨sound_step hs.1 hdrops hstep, fun hregistered hopen ↦ ?_⟩
  by_cases hdeliver : ∃ message, a = .deliver h message
  · obtain ⟨message, rfl⟩ := hdeliver
    obtain ⟨hregistered', hopen', hexpected, harrived⟩ :=
      messages_of_deliver hstep hregistered hopen
    rw [harrived, hexpected, if_pos (hgroup rfl hregistered'), hs.2 hregistered' hopen']
  · rcases messages_of_other hs.1 hdrops (not_exists.mp hdeliver) hstep hregistered hopen with
      ⟨-, harrived, hexpected⟩ | ⟨hregistered', hopen', hexpected, harrived⟩
    · rw [harrived, hexpected]
    · rw [harrived, hexpected, hs.2 hregistered' hopen']

theorem short_step (hs : Short s h) (hdrops : NeverDrops s a) (hstep : step s a = some t) :
    Short t h := by
  obtain ⟨hsound, hissued, hlt⟩ := hs
  refine ⟨sound_step hsound hdrops hstep, ?_, fun hregistered hopen ↦ ?_⟩
  · obtain ⟨flow, hflow⟩ := Option.ne_none_iff_exists'.mp hissued
    rw [(answers_of_step hstep).2 hflow]
    exact Option.some_ne_none flow
  by_cases hdeliver : ∃ message, a = .deliver h message
  · obtain ⟨message, rfl⟩ := hdeliver
    obtain ⟨hregistered', hopen', hexpected, harrived⟩ :=
      messages_of_deliver hstep hregistered hopen
    have hlt' := hlt hregistered' hopen'
    -- The buffer gains one message, and what arrives of it is one at most.
    have hone : (if h ∈ s.groups then [MessageReceivedDto.fromDomain h message]
        else []).length ≤ 1 := by
      split <;> simp
    rw [harrived, hexpected, List.length_append, List.length_append, List.length_singleton]
    omega
  · rcases messages_of_other hsound hdrops (not_exists.mp hdeliver) hstep hregistered hopen with
      ⟨hfresh, -⟩ | ⟨hregistered', hopen', hexpected, harrived⟩
    · exact absurd hfresh hissued
    · rw [harrived, hexpected]
      exact hlt hregistered' hopen'

/-- A message misses the group. -/
theorem short_of_miss (hs : Complete s h) (hgroup : ¬InGroup h s a) (hstep : step s a = some t) :
    Short t h := by
  obtain ⟨message, rfl, hregistered, hnot⟩ : ∃ message, a = .deliver h message ∧
      s.coordinator.IsRegistered ⟨h⟩ ∧ h ∉ s.groups := by
    cases a with
    | deliver id message =>
      simp only [InGroup, Classical.not_imp] at hgroup
      obtain ⟨rfl, hregistered, hnot⟩ := hgroup
      exact ⟨message, rfl, hregistered, hnot⟩
    | _ => exact absurd trivial hgroup
  have hissued : s.issued h ≠ none := by
    intro hfresh
    rw [SubscriptionCoordinator.IsRegistered, (hs.1.unissued hfresh).1] at hregistered
    cases hregistered
  refine ⟨hs.1.of_deliver hstep, (deliver_spec hstep).2.1 ▸ hissued, fun hregistered' hopen ↦ ?_⟩
  obtain ⟨-, hopen', hexpected, harrived⟩ := messages_of_deliver hstep hregistered' hopen
  rw [harrived, hexpected, if_neg hnot, List.append_nil, hs.2 hregistered hopen',
    List.length_append]
  exact Nat.lt_add_one _

/-! ## The result -/

/-- When nothing is in flight, a subscription that is shown has a buffer, and what has arrived is
what the page holds. -/
theorem Sound.of_quiescent (hs : Sound s h) (hquiet : Quiescent s) (hh : h ∈ s.page.shown) :
    s.coordinator.IsRegistered ⟨h⟩ ∧ Open s h ∧ s.arrived s.page h = s.page.hub.received h := by
  obtain ⟨hwire, hrequests, -⟩ := hquiet
  refine ⟨(hs.held (Or.inl hh)).resolve_right ?_, Or.inl hh, ?_⟩
  · rintro ⟨n, request, flow, hn, -⟩
    cases (hrequests n (hs.known.numbered n request hn)).symm.trans hn
  · rw [HubConnection.arrived, hwire, List.filter_nil, List.append_nil]

/-- The page has every accepted message of a subscription exactly once, when nothing is in flight,
exactly if each of them was accepted while the connection was in the group. -/
theorem delivered_iff (hdrops : Guarded step NeverDrops State.initial as)
    (hrun : run step State.initial as = some t) (hquiet : Quiescent t) (hh : h ∈ t.page.shown) :
    Delivered t h ↔ Guarded step (InGroup h) State.initial as := by
  have hinit : Complete State.initial h := ⟨sound_initial, fun _ _ ↦ rfl⟩
  have hends := guarded_dichotomy (C := InGroup h) (B := fun s ↦ Short s h) hinit
    (fun u b v hdrops hgroup hu hstep ↦ complete_step hu hdrops hgroup hstep)
    (fun u b v _ hgroup hu hstep ↦ short_of_miss hu hgroup hstep)
    (fun u b v hdrops hu hstep ↦ short_step hu hdrops hstep) hdrops hrun
  rcases hends with ⟨hgroup, hcomplete⟩ | ⟨hgroup, hshort⟩
  · obtain ⟨hregistered, hopen, hreceived⟩ := hcomplete.1.of_quiescent hquiet hh
    refine iff_of_true ?_ hgroup
    rw [Delivered, ← hreceived, hcomplete.2 hregistered hopen]
  · obtain ⟨hregistered, hopen, hreceived⟩ := hshort.1.of_quiescent hquiet hh
    refine iff_of_false (fun hdelivered ↦ ?_) hgroup
    have hlt := hshort.2.2 hregistered hopen
    rw [hreceived, hdelivered.length_eq] at hlt
    exact lt_irrefl _ hlt

/-! ## A message before and after the join -/

/-- A message with the payload `hello`. -/
private def greeting : BusMessage where
  target := Utf16.ofString "greetings"
  routingKey := some (Utf16.ofString "orders")
  payload := Utf16.ofString "hello"
  replyTo := none
  correlationId := none
  headers := .empty
  target_valid := by decide
  payload_valid := by decide

/-- The hub is started, and the POST of a subscription has been served. -/
private def served : List Label :=
  [.page (.editQueueName (Utf16.ofString "orders")), .page .subscribeToQueue, .page (.started true),
    .serve 0 (.subscribed ⟨7⟩)]

/-- The response arrives, and the group is joined. -/
private def joins : List Label :=
  [.respond 0 (.subscribed ⟨7⟩), .page .startSettled, .execute true, .complete]

/-- A message that comes after the join arrives. -/
theorem delivered_of_late_message :
    ∃ t, run step State.initial (served ++ joins ++ [.deliver ⟨7⟩ greeting, .push]) = some t ∧
      t.coordinator.getMessages ⟨⟨7⟩⟩ = [greeting] ∧ Delivered t ⟨7⟩ := by
  have hdrops : Guarded step NeverDrops State.initial
      (served ++ joins ++ [.deliver ⟨7⟩ greeting, .push]) := by decide
  refine ⟨_, rfl, rfl, (delivered_iff hdrops rfl (by decide) (by decide)).mpr ?_⟩
  decide

/-- A message that comes before the response does not. -/
theorem not_delivered_of_early_message :
    ∃ t, Guarded step NeverDrops State.initial (served ++ [.deliver ⟨7⟩ greeting] ++ joins) ∧
      run step State.initial (served ++ [.deliver ⟨7⟩ greeting] ++ joins) = some t ∧
      Quiescent t ∧ (⟨7⟩ : Guid) ∈ t.page.shown ∧ (⟨7⟩ : Guid) ∈ t.groups ∧
      t.coordinator.getMessages ⟨⟨7⟩⟩ = [greeting] ∧ t.page.hub.received ⟨7⟩ = [] ∧
      ¬Delivered t ⟨7⟩ := by
  refine ⟨_, by decide, rfl, by decide, by decide, by decide, rfl, rfl, fun hdelivered ↦ ?_⟩
  cases hdelivered.length_eq

end Live

end BusTester
