import BusTester.Client.Page

/-!
# What a step of the page can do

Two summaries of a step, from which the invariants of the page are derived. `effect_of_step` is
about the entries, the requests and the messages: an entry is listed by a response and removed when
a DELETE is answered, and only that clears messages. `connection_of_step` is about the connection,
the start promise and the pending invocations.
-/

namespace BusTester

namespace Page

/-! ## What a step does to the subscriptions -/

/-- The step lists the subscription. -/
def Label.Lists (a : Label) (flow : Flow) (h : Guid) : Prop :=
  ∃ n response, a = .respond n response ∧ response.handle = some (flow, h)

/-- The step runs `finishUnsubscribe` or `finishUnsubscribeReply` for the subscription. -/
def State.Finishes (s : State) (a : Label) (flow : Flow) (h : Guid) : Prop :=
  ∃ n response request, a = .respond n response ∧ s.requests n = some request ∧
    request.leaves = some (flow, h)

/-- The step makes the request. -/
inductive State.Posts (s : State) : Label → Request → Prop where
  | subscribe (hnot : s.component.isDuplicateQueue = false) :
    Posts s .subscribeToQueue (.subscribe s.component.queueName)
  | sendWithReply (body : SendRequest) : Posts s (.sendWithReply body) (.sendWithReply body)
  | unsubscribe (flow : Flow) (id : Guid) :
    Posts s (.unsubscribe flow id) (.unsubscribe flow id)

/-- Chips, pending replies, requests, leaves and messages before and after a step. -/
structure Effect (s : State) (a : Label) (t : State) : Prop where
  chips : t.component.subscriptions.Sublist s.component.subscriptions ∨
    ∃ n id queueName, a = .respond n (.subscribed id) ∧
      s.requests n = some (.subscribe queueName) ∧
      t.component.subscriptions = s.component.subscriptions ++ [⟨id, queueName⟩]
  pending : t.pending.Sublist s.pending ∨
    ∃ n id correlationId, a = .respond n (.sent id correlationId) ∧
      t.pending = s.pending ++ [⟨id, correlationId⟩]
  requests : ∀ {n request}, t.requests n = some request →
    (s.requests n = some request ∧ ∀ response, a ≠ .respond n response) ∨
      (n = s.nextRequest ∧ s.Posts a request)
  requests_kept : ∀ {n request}, n < s.nextRequest → s.requests n = some request →
    t.requests n = some request ∨ ∃ response, a = .respond n response
  nextRequest : s.nextRequest ≤ t.nextRequest ∧
    ∀ request, s.Posts a request → t.nextRequest = s.nextRequest + 1
  finished : ∀ {flow h}, s.Finishes a flow h → h ∉ t.listed flow
  left : ∀ {h}, .leaveSubscription h ∈ t.invocations →
    .leaveSubscription h ∈ s.invocations ∨ ∃ flow, s.Finishes a flow h
  joins : ∀ {h}, t.Joins h → s.Joins h ∨ ∃ flow, a.Lists flow h
  received : ∀ {h}, (∀ message, a ≠ .messageReceived message) →
    t.hub.received h = s.hub.received h ∨ ∃ flow, s.Finishes a flow h

variable {s t : State} {a : Label} {flow : Flow} {h : Guid}

theorem Effect.listed (e : Effect s a t) (ht : h ∈ t.listed flow) :
    h ∈ s.listed flow ∨ a.Lists flow h := by
  cases flow with
  | subscribe =>
    rcases e.chips with hsub | ⟨n, id, queueName, ha, -, hchips⟩
    · exact Or.inl ((hsub.map _).subset ht)
    · rw [State.listed, hchips, List.map_append, List.mem_append, List.map_singleton,
        List.mem_singleton] at ht
      rcases ht with ht | rfl
      · exact Or.inl ht
      · exact Or.inr ⟨n, _, ha, rfl⟩
  | withReply =>
    rcases e.pending with hsub | ⟨n, id, correlationId, ha, hpending⟩
    · exact Or.inl ((hsub.map _).subset ht)
    · rw [State.listed, hpending, List.map_append, List.mem_append, List.map_singleton,
        List.mem_singleton] at ht
      rcases ht with ht | rfl
      · exact Or.inl ht
      · exact Or.inr ⟨n, _, ha, rfl⟩

theorem mem_shown : h ∈ s.shown ↔ ∃ flow, h ∈ s.listed flow := by
  rw [State.shown, List.mem_append]
  constructor
  · rintro (hh | hh)
    · exact ⟨_, hh⟩
    · exact ⟨_, hh⟩
  · rintro ⟨flow, hh⟩
    cases flow with
    | subscribe => exact Or.inl hh
    | withReply => exact Or.inr hh

/-- Every pending invocation was pending before, and so was every join that is to come. -/
theorem State.Joins.mono (hawaiting : t.awaitingStart ⊆ s.awaitingStart)
    (hinvocations : ∀ join, .joinSubscription join ∈ t.invocations →
      .joinSubscription join ∈ s.invocations ∨ join ∈ s.awaitingStart) (ht : t.Joins h) :
    s.Joins h := by
  rcases ht with ⟨join, hjoin, hid⟩ | ⟨join, hjoin, hid⟩
  · exact Or.inl ⟨join, hawaiting hjoin, hid⟩
  · rcases hinvocations join hjoin with hjoin | hjoin
    · exact Or.inr ⟨join, hjoin, hid⟩
    · exact Or.inl ⟨join, hjoin, hid⟩

/-! ### Rejections and invocations -/

/-- The lists, the requests and the hub service are the same. -/
structure SameLists (s t : State) : Prop where
  subscriptions : t.component.subscriptions = s.component.subscriptions
  pending : t.pending = s.pending
  requests : t.requests = s.requests
  nextRequest : t.nextRequest = s.nextRequest
  awaitingStart : t.awaitingStart = s.awaitingStart
  hub : t.hub = s.hub

theorem SameLists.trans {u : State} (hs : SameLists s t) (ht : SameLists t u) : SameLists s u :=
  ⟨ht.subscriptions.trans hs.subscriptions, ht.pending.trans hs.pending,
    ht.requests.trans hs.requests, ht.nextRequest.trans hs.nextRequest,
    ht.awaitingStart.trans hs.awaitingStart, ht.hub.trans hs.hub⟩

/-- A rejection changes the error message at most. -/
theorem sameLists_reject (s : State) (invocation : Invocation) :
    SameLists s (s.reject invocation) ∧ (s.reject invocation).invocations = s.invocations := by
  unfold State.reject
  split <;> exact ⟨⟨rfl, rfl, rfl, rfl, rfl, rfl⟩, rfl⟩

theorem sameLists_rejectAll (s : State) :
    SameLists s s.rejectAll ∧ s.rejectAll.invocations = [] := by
  have hfold : ∀ (invocations : List Invocation) (s : State),
      SameLists s (invocations.foldl State.reject s) ∧
        (invocations.foldl State.reject s).invocations = s.invocations := by
    intro invocations
    induction invocations with
    | nil => exact fun s ↦ ⟨⟨rfl, rfl, rfl, rfl, rfl, rfl⟩, rfl⟩
    | cons invocation rest ih =>
      intro s
      obtain ⟨hsame, hinvocations⟩ := sameLists_reject s invocation
      obtain ⟨hrest, hrest'⟩ := ih (s.reject invocation)
      exact ⟨hsame.trans hrest, hrest'.trans hinvocations⟩
  obtain ⟨hsame, hinvocations⟩ := hfold s.invocations { s with invocations := [] }
  exact ⟨⟨hsame.subscriptions, hsame.pending, hsame.requests, hsame.nextRequest,
    hsame.awaitingStart, hsame.hub⟩, hinvocations⟩

/-- An invocation becomes pending if the connection is up, and is rejected at once if not. -/
theorem sameLists_invoke (s : State) (invocation : Invocation) :
    SameLists s (s.invoke invocation) ∧
      ((s.IsConnected ∧ (s.invoke invocation).invocations = s.invocations ++ [invocation]) ∨
        (¬s.IsConnected ∧ (s.invoke invocation).invocations = s.invocations)) := by
  unfold State.invoke
  split
  · rename_i hconnected
    exact ⟨⟨rfl, rfl, rfl, rfl, rfl, rfl⟩, Or.inl ⟨hconnected, rfl⟩⟩
  · rename_i hconnected
    obtain ⟨hsame, hinvocations⟩ := sameLists_reject s invocation
    exact ⟨hsame, Or.inr ⟨hconnected, hinvocations⟩⟩

theorem mem_invocations_invoke {s : State} {invocation other : Invocation}
    (h : other ∈ (s.invoke invocation).invocations) :
    other ∈ s.invocations ∨ other = invocation := by
  rcases (sameLists_invoke s invocation).2 with ⟨-, hinvocations⟩ | ⟨-, hinvocations⟩
  · rwa [hinvocations, List.mem_append, List.mem_singleton] at h
  · rw [hinvocations] at h
    exact Or.inl h

/-! ### The cases of the step -/

private theorem Effect.rests (ha : ∀ n response, a ≠ .respond n response)
    (hposts : ∀ request, ¬s.Posts a request)
    (hsubscriptions : t.component.subscriptions = s.component.subscriptions)
    (hpending : t.pending = s.pending) (hrequests : t.requests = s.requests)
    (hnext : t.nextRequest = s.nextRequest)
    (hleft : ∀ h, .leaveSubscription h ∈ t.invocations → .leaveSubscription h ∈ s.invocations)
    (hjoins : ∀ h, t.Joins h → s.Joins h)
    (hmessages : (∀ message, a ≠ .messageReceived message) → t.hub.messages = s.hub.messages) :
    Effect s a t where
  chips := Or.inl (hsubscriptions ▸ List.Sublist.refl _)
  pending := Or.inl (hpending ▸ List.Sublist.refl _)
  requests hn := Or.inl ⟨hrequests ▸ hn, fun response ↦ ha _ response⟩
  requests_kept _ hn := Or.inl (hrequests ▸ hn)
  nextRequest := ⟨hnext.ge, fun request hrequest ↦ absurd hrequest (hposts request)⟩
  finished := by
    rintro flow h ⟨n, response, -, hrespond, -⟩
    exact absurd hrespond (ha n response)
  left hh := Or.inl (hleft _ hh)
  joins hh := Or.inl (hjoins _ hh)
  received hnot := Or.inl (by rw [BusHubService.received, hmessages hnot]; rfl)

private theorem Effect.posts {request : Request} (hposts : s.Posts a request)
    (hsubscriptions : t.component.subscriptions = s.component.subscriptions)
    (hpending : t.pending = s.pending)
    (hrequests : t.requests = Function.update s.requests s.nextRequest (some request))
    (hnext : t.nextRequest = s.nextRequest + 1) (hawaiting : t.awaitingStart = s.awaitingStart)
    (hinvocations : t.invocations = s.invocations)
    (hmessages : t.hub.messages = s.hub.messages) : Effect s a t := by
  have ha : ∀ n response, a ≠ .respond n response := by
    cases hposts <;> exact nofun
  refine ⟨Or.inl (hsubscriptions ▸ List.Sublist.refl _), Or.inl (hpending ▸ List.Sublist.refl _),
    ?_, ?_, ⟨by omega, fun _ _ ↦ hnext⟩, ?_, fun hh ↦ Or.inl (hinvocations ▸ hh), ?_,
    fun _ ↦ Or.inl (by rw [BusHubService.received, hmessages]; rfl)⟩
  · intro n request' hn
    rw [hrequests] at hn
    rcases written_cases hn with ⟨rfl, rfl⟩ | ⟨-, hn⟩
    · exact Or.inr ⟨rfl, hposts⟩
    · exact Or.inl ⟨hn, fun response ↦ ha n response⟩
  · intro n request' hlt hn
    rw [hrequests, Function.update_of_ne (by omega)]
    exact Or.inl hn
  · rintro flow h ⟨n, response, -, hrespond, -⟩
    exact absurd hrespond (ha n response)
  · refine fun hh ↦ Or.inl (hh.mono (by rw [hawaiting]; exact List.Subset.refl _) ?_)
    rw [hinvocations]
    exact fun _ ↦ Or.inl

section Answers

variable {n : ℕ} {request : Request} {response : Response}

private theorem requests_of_answered {m : ℕ} {other : Request}
    (hm : Function.update s.requests n none m = some other) :
    s.requests m = some other ∧ ∀ response', Label.respond n response ≠ .respond m response' := by
  obtain ⟨hne, hm⟩ := of_cleared hm
  refine ⟨hm, fun response' heq ↦ hne ?_⟩
  cases heq
  rfl

private theorem requests_kept_of_answered {m : ℕ} {other : Request}
    (hm : s.requests m = some other) : Function.update s.requests n none m = some other ∨
      ∃ response', Label.respond n response = .respond m response' := by
  by_cases hmn : m = n
  · exact Or.inr ⟨response, by rw [hmn]⟩
  · rw [Function.update_of_ne hmn]
    exact Or.inl hm

/-- What an answer finishes is what the request is about. -/
private theorem leaves_of_finishes (hrequest : s.requests n = some request)
    (hfinishes : s.Finishes (.respond n response) flow h) : request.leaves = some (flow, h) := by
  obtain ⟨m, response', request', heq, hm, hleaves⟩ := hfinishes
  cases heq
  rw [hrequest] at hm
  cases hm
  exact hleaves

private theorem Effect.answers (hrequest : s.requests n = some request)
    (hleaves : request.leaves = none)
    (hchips : t.component.subscriptions = s.component.subscriptions ∨
      ∃ id queueName, response = .subscribed id ∧ request = .subscribe queueName ∧
        t.component.subscriptions = s.component.subscriptions ++ [⟨id, queueName⟩])
    (hpending : t.pending = s.pending ∨
      ∃ id correlationId, response = .sent id correlationId ∧
        t.pending = s.pending ++ [⟨id, correlationId⟩])
    (hrequests : t.requests = Function.update s.requests n none)
    (hnext : t.nextRequest = s.nextRequest)
    (hawaiting : t.awaitingStart = s.awaitingStart ∨ ∃ flow id,
      response.handle = some (flow, id) ∧ t.awaitingStart = s.awaitingStart ++ [⟨flow, id⟩])
    (hinvocations : t.invocations = s.invocations) (hhub : t.hub = s.hub) :
    Effect s (.respond n response) t := by
  refine ⟨?_, ?_, fun hm ↦ Or.inl ?_, fun _ hm ↦ ?_, ⟨hnext.ge, nofun⟩, fun hf ↦ ?_,
    fun hh ↦ Or.inl (hinvocations ▸ hh), fun hh ↦ ?_, fun _ ↦ Or.inl (by rw [hhub])⟩
  · rcases hchips with hsame | ⟨id, queueName, rfl, rfl, hsubscriptions⟩
    · exact Or.inl (hsame ▸ List.Sublist.refl _)
    · exact Or.inr ⟨n, id, queueName, rfl, hrequest, hsubscriptions⟩
  · rcases hpending with hsame | ⟨id, correlationId, rfl, hlist⟩
    · exact Or.inl (hsame ▸ List.Sublist.refl _)
    · exact Or.inr ⟨n, id, correlationId, rfl, hlist⟩
  · rw [hrequests] at hm
    exact requests_of_answered hm
  · rw [hrequests]
    exact requests_kept_of_answered hm
  · cases hleaves.symm.trans (leaves_of_finishes hrequest hf)
  · rcases hh with ⟨join, hjoin, rfl⟩ | hh
    · rcases hawaiting with hsame | ⟨flow, id, hhandle, hmore⟩
      · exact Or.inl (Or.inl ⟨join, hsame ▸ hjoin, rfl⟩)
      · rw [hmore, List.mem_append, List.mem_singleton] at hjoin
        rcases hjoin with hjoin | rfl
        · exact Or.inl (Or.inl ⟨join, hjoin, rfl⟩)
        · exact Or.inr ⟨flow, n, response, rfl, hhandle⟩
    · rw [hinvocations] at hh
      exact Or.inl (Or.inr hh)

private theorem drop_spec (s : State) (flow : Flow) (id : Guid) :
    (s.drop flow id).component.subscriptions.Sublist s.component.subscriptions ∧
      (s.drop flow id).pending.Sublist s.pending ∧ id ∉ (s.drop flow id).listed flow ∧
      (s.drop flow id).requests = s.requests ∧ (s.drop flow id).nextRequest = s.nextRequest ∧
      (s.drop flow id).awaitingStart = s.awaitingStart ∧
      (s.drop flow id).invocations = s.invocations ∧ (s.drop flow id).hub = s.hub := by
  cases flow with
  | subscribe =>
    refine ⟨List.filter_sublist, List.Sublist.refl _, ?_, rfl, rfl, rfl, rfl, rfl⟩
    simp [State.listed, State.drop, MessagesComponent.removeChip]
  | withReply =>
    refine ⟨List.Sublist.refl _, List.filter_sublist, ?_, rfl, rfl, rfl, rfl, rfl⟩
    simp [State.listed, State.drop]

private theorem Effect.finishes {id : Guid}
    (hrequest : s.requests n = some (.unsubscribe flow id)) :
    Effect s (.respond n response) ((s.answered n).finish flow id) := by
  have hfinishes : s.Finishes (.respond n response) flow id :=
    ⟨n, response, _, rfl, hrequest, rfl⟩
  let left : State := (s.answered n).invoke (.leaveSubscription id)
  have hsame : SameLists (s.answered n) left := (sameLists_invoke _ _).1
  have hsubscriptions : left.component.subscriptions = s.component.subscriptions :=
    hsame.subscriptions
  have hreplies : left.pending = s.pending := hsame.pending
  have hleft : left.hub = s.hub := hsame.hub
  obtain ⟨hchips, hpending, hgone, hrequests, hnext, hawaiting, hinvocations, hhub⟩ :=
    drop_spec { left with hub := left.hub.clearSubscription id } flow id
  refine ⟨Or.inl ?_, Or.inl ?_, fun hm ↦ Or.inl ?_, fun _ hm ↦ ?_, ⟨?_, nofun⟩, fun hf ↦ ?_,
    fun {h} hh ↦ ?_, fun hh ↦ Or.inl (hh.mono ?_ fun join hjoin ↦ Or.inl ?_), fun {h} _ ↦ ?_⟩
  · exact hchips.trans (by rw [hsubscriptions])
  · exact hpending.trans (by rw [hreplies])
  · exact requests_of_answered ((congrFun (hrequests.trans hsame.requests) _).symm.trans hm)
  · rw [State.finish, hrequests, hsame.requests]
    exact requests_kept_of_answered hm
  · exact (hnext.trans hsame.nextRequest).ge
  · cases leaves_of_finishes hrequest hf
    exact hgone
  · rw [State.finish, hinvocations] at hh
    rcases mem_invocations_invoke hh with hh | hh
    · exact Or.inl hh
    · cases hh
      exact Or.inr ⟨flow, hfinishes⟩
  · rw [State.finish, hawaiting, hsame.awaitingStart]
    exact List.Subset.refl _
  · rw [State.finish, hinvocations] at hjoin
    exact (mem_invocations_invoke hjoin).resolve_right nofun
  · by_cases hh : h = id
    · exact Or.inr ⟨flow, hh ▸ hfinishes⟩
    · rw [State.finish, hhub]
      exact Or.inl ((BusHubService.received_clearSubscription hh).trans (by rw [hleft]))

end Answers

private theorem Effect.loses {u : State} (ha : ∀ n response, a ≠ .respond n response)
    (hposts : ∀ request, ¬s.Posts a request)
    (hsubscriptions : u.component.subscriptions = s.component.subscriptions)
    (hpending : u.pending = s.pending) (hrequests : u.requests = s.requests)
    (hnext : u.nextRequest = s.nextRequest) (hawaiting : u.awaitingStart = s.awaitingStart)
    (hmessages : u.hub.messages = s.hub.messages) : Effect s a u.rejectAll := by
  obtain ⟨hsame, hinvocations⟩ := sameLists_rejectAll u
  refine .rests ha hposts (hsame.subscriptions.trans hsubscriptions) (hsame.pending.trans hpending)
    (hsame.requests.trans hrequests) (hsame.nextRequest.trans hnext) (fun _ hh ↦ ?_)
    (fun _ hh ↦ hh.mono ?_ fun _ hjoin ↦ ?_) fun _ ↦ by rw [hsame.hub, hmessages]
  · rw [hinvocations] at hh
    cases hh
  · rw [hsame.awaitingStart, hawaiting]
    exact List.Subset.refl _
  · rw [hinvocations] at hjoin
    cases hjoin

theorem settles_of_step {ok : Bool} (hstep : step s (.settled ok) = some t) :
    ∃ invocation, s.invocations = invocation :: t.invocations ∧ SameLists s t := by
  cases moves_of_step hstep with
  | succeeds invocation rest hinvocations =>
    exact ⟨invocation, hinvocations, rfl, rfl, rfl, rfl, rfl, rfl⟩
  | fails invocation rest hinvocations =>
    obtain ⟨hsame, hrest⟩ := sameLists_reject { s with invocations := rest } invocation
    exact ⟨invocation, by rw [hrest, hinvocations], hsame.subscriptions, hsame.pending,
      hsame.requests, hsame.nextRequest, hsame.awaitingStart, hsame.hub⟩

/-- The oldest continuation of the start promise runs: its join is made, or it fails at once. -/
theorem startSettled_of_step (hstep : step s .startSettled = some t) :
    ∃ join rest, s.awaitingStart = join :: rest ∧ SameLists { s with awaitingStart := rest } t ∧
      (t.invocations = s.invocations ∨
        (s.IsConnected ∧ t.invocations = s.invocations ++ [.joinSubscription join])) := by
  cases moves_of_step hstep with
  | joins join rest hpromise hawaiting =>
    obtain ⟨hsame, hinvoke⟩ := sameLists_invoke { s with awaitingStart := rest }
      (.joinSubscription join)
    exact ⟨join, rest, hawaiting, hsame, hinvoke.symm.imp And.right id⟩
  | skips join rest hpromise hawaiting =>
    obtain ⟨hsame, hinvocations⟩ :=
      sameLists_reject { s with awaitingStart := rest } (.joinSubscription join)
    exact ⟨join, rest, hawaiting, hsame, Or.inl hinvocations⟩

private theorem Effect.of_startSettled (hstep : step s .startSettled = some t) :
    Effect s .startSettled t := by
  obtain ⟨join, rest, hawaiting, hsame, hinvocations⟩ := startSettled_of_step hstep
  have hjoin : ∀ {invocation}, invocation ∈ t.invocations →
      invocation ∈ s.invocations ∨ invocation = .joinSubscription join := by
    intro invocation hmem
    rcases hinvocations with hkept | ⟨-, hmore⟩
    · exact Or.inl (hkept ▸ hmem)
    · rwa [hmore, List.mem_append, List.mem_singleton] at hmem
  refine .rests nofun nofun hsame.subscriptions hsame.pending hsame.requests hsame.nextRequest
    (fun h hh ↦ (hjoin hh).resolve_right nofun)
    (fun h hh ↦ hh.mono ?_ fun join' hmem ↦ (hjoin hmem).imp_right fun heq ↦ ?_)
    fun _ ↦ by rw [hsame.hub]
  · rw [hsame.awaitingStart, hawaiting]
    exact List.subset_cons_self _ _
  · cases heq
    rw [hawaiting]
    exact List.mem_cons_self

private theorem Effect.of_settled {ok : Bool} (hstep : step s (.settled ok) = some t) :
    Effect s (.settled ok) t := by
  obtain ⟨invocation, hinvocations, hsame⟩ := settles_of_step hstep
  have hmem : ∀ {other}, other ∈ t.invocations → other ∈ s.invocations := by
    intro other hother
    rw [hinvocations]
    exact List.mem_cons_of_mem _ hother
  refine .rests nofun nofun hsame.subscriptions hsame.pending hsame.requests hsame.nextRequest
    (fun _ hh ↦ hmem hh) (fun _ hh ↦ hh.mono ?_ fun _ hjoin ↦ Or.inl (hmem hjoin))
    fun _ ↦ by rw [hsame.hub]
  rw [hsame.awaitingStart]
  exact List.Subset.refl _

/-- **The step lemma.** -/
theorem effect_of_step (hstep : step s a = some t) : Effect s a t := by
  have hmoves := moves_of_step hstep
  cases hmoves with
  | edits | started | restores =>
    refine .rests nofun nofun rfl rfl rfl rfl (fun _ hh ↦ hh) (fun _ hh ↦ hh) fun _ ↦ ?_
    first | rfl | exact BusHubService.messages_onStarted
  | refuses hduplicate =>
    refine .rests nofun ?_ rfl rfl rfl rfl (fun _ hh ↦ hh) (fun _ hh ↦ hh) fun _ ↦ rfl
    rintro request ⟨hnot⟩
    rw [hduplicate] at hnot
    cases hnot
  | subscribes hnot =>
    exact .posts (.subscribe hnot) rfl rfl rfl rfl rfl rfl BusHubService.messages_start
  | sends body hbody =>
    exact .posts (.sendWithReply body) rfl rfl rfl rfl rfl rfl BusHubService.messages_start
  | unsubscribes flow id => exact .posts (.unsubscribe flow id) rfl rfl rfl rfl rfl rfl rfl
  | subscribed n queueName id hrequest =>
    exact .answers hrequest rfl (Or.inr ⟨id, queueName, rfl, rfl, rfl⟩) (Or.inl rfl) rfl rfl
      (Or.inr ⟨_, _, rfl, rfl⟩) rfl rfl
  | notSubscribed n queueName detail hrequest =>
    exact .answers hrequest rfl (Or.inl rfl) (Or.inl rfl) rfl rfl (Or.inl rfl) rfl rfl
  | sent n body id correlationId hrequest =>
    exact .answers hrequest rfl (Or.inl rfl) (Or.inr ⟨id, correlationId, rfl, rfl⟩) rfl rfl
      (Or.inr ⟨_, _, rfl, rfl⟩) rfl rfl
  | notSent n body detail hrequest =>
    exact .answers hrequest rfl (Or.inl rfl) (Or.inl rfl) rfl rfl (Or.inl rfl) rfl rfl
  | finishes n flow id response hrequest => exact .finishes hrequest
  | joins | skips => exact .of_startSettled hstep
  | succeeds | fails => exact .of_settled hstep
  | receives message =>
    exact .rests nofun nofun rfl rfl rfl rfl (fun _ hh ↦ hh) (fun _ hh ↦ hh) fun hnot ↦
      absurd rfl (hnot message)
  | loses | closes => exact .loses nofun nofun rfl rfl rfl rfl rfl rfl

/-! ### The entries after a step -/

theorem shown_eq (hsubscriptions : t.component.subscriptions = s.component.subscriptions)
    (hpending : t.pending = s.pending) : t.shown = s.shown := by
  unfold State.shown State.listed
  rw [hsubscriptions, hpending]

theorem SameLists.shown_eq (hs : SameLists s t) : t.shown = s.shown :=
  Page.shown_eq hs.subscriptions hs.pending

theorem mem_shown_drop {id : Guid} (hh : h ∈ s.shown) (hne : h ≠ id) :
    h ∈ (s.drop flow id).shown := by
  rw [State.shown, List.mem_append] at hh ⊢
  cases flow with
  | subscribe =>
    refine hh.imp_left fun hlisted ↦ ?_
    obtain ⟨chip, hchip, rfl⟩ := List.mem_map.mp hlisted
    exact List.mem_map_of_mem (List.mem_filter.mpr ⟨hchip, decide_eq_true hne⟩)
  | withReply =>
    refine hh.imp_right fun hlisted ↦ ?_
    obtain ⟨reply, hreply, rfl⟩ := List.mem_map.mp hlisted
    exact List.mem_map_of_mem (List.mem_filter.mpr ⟨hreply, decide_eq_true hne⟩)

theorem handle_of_unsubscribe {n : ℕ} {response : Response}
    (hrequest : s.requests n = some (.unsubscribe flow h))
    (hstep : step s (.respond n response) = some t) : response.handle = none := by
  simp only [step, hrequest] at hstep
  cases response with
  | subscribed | sent => cases flow <;> cases hstep
  | unsubscribed | failed => rfl

theorem listed_of_lists (hstep : step s a = some t) (hlists : a.Lists flow h) :
    h ∈ t.listed flow := by
  obtain ⟨n, response, rfl, hhandle⟩ := hlists
  cases moves_of_step hstep with
  | subscribed n queueName id hrequest =>
    cases hhandle
    simp [State.listed, MessagesComponent.onSubscribed]
  | sent n body id correlationId hrequest =>
    cases hhandle
    simp [State.listed]
  | notSubscribed | notSent => cases hhandle
  | finishes n flow id response hrequest =>
    cases (handle_of_unsubscribe hrequest hstep).symm.trans hhandle

/-! ## What a step does to the connection -/

/-- The connection, the start promise and the pending invocations before and after a step. -/
inductive Connection (s : State) (a : Label) (t : State) : Prop where
  | stays (hstate : t.hub.connectionState = s.hub.connectionState)
      (hpromise : t.hub.startPromise = s.hub.startPromise)
      (hinvocations : t.invocations = s.invocations ∨
        s.IsConnected ∧ ∃ invocation, t.invocations = s.invocations ++ [invocation])
  /-- `start` is called for the first time. -/
  | starts (hpromise : s.hub.startPromise = none) (hhub : t.hub = s.hub.start)
      (hinvocations : t.invocations = s.invocations)
  | started (ok : Bool) (ha : a = .started ok) (hpromise : s.hub.startPromise = some .pending)
      (hhub : t.hub = s.hub.onStarted ok) (hinvocations : t.invocations = s.invocations)
  | settles (ok : Bool) (invocation : Invocation) (ha : a = .settled ok)
      (hinvocations : s.invocations = invocation :: t.invocations) (hhub : t.hub = s.hub)
  | loses (ha : a = .onreconnecting ∨ a = .onclose)
      (hup : s.IsConnected ∨ s.hub.connectionState = .reconnecting) (hdown : ¬t.IsConnected)
      (hpromise : t.hub.startPromise = s.hub.startPromise) (hinvocations : t.invocations = [])
  | restores (ha : a = .onreconnected) (hstate : s.hub.connectionState = .reconnecting)
      (hhub : t.hub = s.hub.onreconnected) (hinvocations : t.invocations = s.invocations)

private theorem hub_invoke {u : State} (invocation : Invocation) (hhub : u.hub = s.hub)
    (hinvocations : u.invocations = s.invocations) :
    (u.invoke invocation).hub = s.hub ∧ ((u.invoke invocation).invocations = s.invocations ∨
      s.IsConnected ∧ ∃ invocation', (u.invoke invocation).invocations
        = s.invocations ++ [invocation']) := by
  obtain ⟨hsame, hinvoke⟩ := sameLists_invoke u invocation
  refine ⟨hsame.hub.trans hhub, ?_⟩
  rw [State.IsConnected, hhub, hinvocations] at hinvoke
  rcases hinvoke with ⟨hconnected, hmore⟩ | ⟨-, hsame'⟩
  · exact Or.inr ⟨hconnected, invocation, hmore⟩
  · exact Or.inl hsame'

private theorem Connection.calls_start (hhub : t.hub = s.hub.start)
    (hinvocations : t.invocations = s.invocations) : Connection s a t := by
  cases hpromise : s.hub.startPromise with
  | none => exact .starts hpromise hhub hinvocations
  | some promise =>
    have hsame : t.hub = s.hub := by
      rw [hhub, BusHubService.start, hpromise]
    exact .stays (by rw [hsame]) (by rw [hsame]) (Or.inl hinvocations)

theorem not_isConnected_of {state : HubConnectionState} (hstate : s.hub.connectionState = state)
    (hne : state ≠ .connected) : ¬s.IsConnected := fun hconnected ↦
  hne (hstate.symm.trans hconnected)

/-- What `rejectAll` leaves of a lost connection. -/
private theorem down_of_rejectAll {u : State} (hstate : u.hub.connectionState ≠ .connected)
    (hpromise : u.hub.startPromise = s.hub.startPromise) : ¬u.rejectAll.IsConnected ∧
      u.rejectAll.hub.startPromise = s.hub.startPromise ∧ u.rejectAll.invocations = [] := by
  obtain ⟨hsame, hinvocations⟩ := sameLists_rejectAll u
  refine ⟨?_, ?_, hinvocations⟩
  · rw [State.IsConnected, hsame.hub]
    exact hstate
  · rw [hsame.hub]
    exact hpromise

theorem loses_of_step (ha : a = .onreconnecting ∨ a = .onclose) (hstep : step s a = some t) :
    (s.IsConnected ∨ s.hub.connectionState = .reconnecting) ∧ ¬t.IsConnected ∧
      t.hub.startPromise = s.hub.startPromise ∧ t.invocations = [] := by
  cases moves_of_step hstep with
  | loses hup => exact ⟨Or.inl hup, down_of_rejectAll (fun h ↦ by cases h) rfl⟩
  | closes hup => exact ⟨hup, down_of_rejectAll (fun h ↦ by cases h) rfl⟩
  | _ => simp at ha

theorem connection_of_step (hstep : step s a = some t) : Connection s a t := by
  have hmoves := moves_of_step hstep
  cases hmoves with
  | edits | refuses | unsubscribes | subscribed | notSubscribed | sent | notSent | receives =>
    exact .stays rfl rfl (Or.inl rfl)
  | subscribes | sends => exact .calls_start rfl rfl
  | finishes n flow id response hrequest =>
    obtain ⟨hhub, hinvocations⟩ :=
      hub_invoke (s := s) (u := s.answered n) (.leaveSubscription id) rfl rfl
    have hstate := congrArg BusHubService.connectionState hhub
    have hpromise := congrArg BusHubService.startPromise hhub
    cases flow <;> exact .stays hstate hpromise hinvocations
  | started ok hpromise => exact .started ok rfl hpromise rfl rfl
  | joins | skips =>
    obtain ⟨join, rest, -, hsame, hinvocations⟩ := startSettled_of_step hstep
    exact .stays (by rw [hsame.hub]) (by rw [hsame.hub])
      (hinvocations.imp_right fun ⟨hup, hmore⟩ ↦ ⟨hup, _, hmore⟩)
  | succeeds | fails =>
    obtain ⟨invocation, hinvocations, hsame⟩ := settles_of_step hstep
    exact .settles _ invocation rfl hinvocations hsame.hub
  | loses =>
    obtain ⟨hup, hdown, hpromise, hinvocations⟩ := loses_of_step (Or.inl rfl) hstep
    exact .loses (Or.inl rfl) hup hdown hpromise hinvocations
  | closes =>
    obtain ⟨hup, hdown, hpromise, hinvocations⟩ := loses_of_step (Or.inr rfl) hstep
    exact .loses (Or.inr rfl) hup hdown hpromise hinvocations
  | restores hstate => exact .restores rfl hstate rfl rfl

/-! ## Requests are numbered -/

/-- A request in flight has a number that was given out. -/
def Numbered (s : State) : Prop := ∀ n request, s.requests n = some request → n < s.nextRequest

theorem numbered_initial : Numbered State.initial := nofun

theorem Numbered.of_effect (hs : Numbered s) (e : Effect s a t) : Numbered t := by
  intro n request hn
  rcases e.requests hn with ⟨hn, -⟩ | ⟨rfl, hposts⟩
  · exact (hs n request hn).trans_le e.nextRequest.1
  · rw [e.nextRequest.2 request hposts]
    exact Nat.lt_succ_self _

end Page

end BusTester
