import BusTester.Api.MessagesController
import BusTester.Backend.Awaiting
import BusTester.Client.Invocations
import BusTester.Client.MessageStore

/-!
# What the page shows and what the backend has

One page against one backend, with the requests between them. A request reaches its controller at
some time after it was made, or never; the use case runs statement by statement; and the request is
answered by what the use case has returned, or fails, at whatever point of its way. A request that
model validation refuses does not reach the use case. What the hub does is left open, since it
changes no list.

Two registries are compared: the entries that the page shows, and the dictionary of the adapter.
Neither side learns of the other except through the answers. A teardown clears the dictionary
without telling the page, the page ends an entry when its DELETE has failed, and it knows nothing of
a subscription whose POST has failed. `showsLive_of_inStep` says that the two registries agree at
rest in all runs in which none of this strikes a subscription that exists on the other side.
-/

namespace BusTester

/-- The body of a send with reply, as model binding reads it. -/
def SendRequest.boundWithReply (request : SendRequest) : SendMessageWithReplyRequest where
  exchange := request.exchange
  routingKey := request.routingKey
  payload := request.payload
  correlationId := request.correlationId
  headers := request.headers

namespace Session

open Page (Flow Request Response)
open Transition
open UseCases (Outcome UseCase)

/-! ## States and steps -/

/-- Who begins an execution: a request of the page, or another client of the use cases, such as the
connect panel. -/
inductive Source where
  | request (n : ℕ)
  | other (n : ℕ)
deriving DecidableEq

instance : Inhabited Source := ⟨.other 0⟩

structure State where
  page : Page.State
  useCases : UseCases.State Source
  /-- The requests that have not reached a controller. -/
  underway : ℕ → Option Request

def State.initial : State := ⟨.initial, .initial, fun _ ↦ none⟩

/-- The use case that the controller of a request calls. -/
def useCaseOf : Request → UseCase
  | .subscribe queueName => .subscribe queueName
  | .sendWithReply body => .sendWithReply (MessagesController.sendWithReply body.boundWithReply)
  | .unsubscribe _ id => .unsubscribe ⟨id⟩

/-- The response that the controller makes of what the use case returns. -/
def responseOf : Outcome → Response
  | .done => .unsubscribed
  | .subscribed handle => .subscribed handle.value
  | .sent result => .sent result.subscriptionId.value result.correlationId

inductive Label where
  /-- The user, the promise of `connection.start()`, or the hub. -/
  | page (a : Page.Label)
  /-- The request `n` reaches its controller. -/
  | arrive (n : ℕ)
  /-- A connect, a disconnect or a plain send. -/
  | other (n : ℕ) (useCase : UseCase)
  /-- A step of the backend, other than the beginning of a use case. -/
  | server (a : UseCases.Label Source)
  /-- The request `n` is answered. -/
  | respond (n : ℕ) (response : Response)

namespace State

/-- The page has moved; a request that it has made is under way. -/
def moved (s : State) (page : Page.State) : State :=
  { s with
    page
    underway := Function.update s.underway s.page.nextRequest (page.requests s.page.nextRequest) }

/-- The response to the request `n`, once its use case has returned. -/
def response (s : State) (n : ℕ) : Option Response :=
  match s.useCases.progress (.request n) with
  | .returned outcome => some (responseOf outcome)
  | _ => none

/-- The subscription that the use case of the request `n` has returned. -/
def returned (s : State) (n : ℕ) : Option (Flow × Guid) := (s.response n).bind Response.handle

/-- The adapter has an entry for the subscription. -/
def IsLive (s : State) (id : Guid) : Prop := s.useCases.backend.adapter.IsLive ⟨id⟩

/-- The page waits for a DELETE of the subscription. -/
def Ending (s : State) (id : Guid) : Prop :=
  ∃ n < s.page.nextRequest, ((s.page.requests n).bind Request.leaves).map Prod.snd = some id

end State

/-- One step. An entry can be removed while it is shown. -/
def step (s : State) : Label → Option State
  | .page a =>
    match a with
    | .respond .. => none
    | .unsubscribe flow id =>
      if id ∈ s.page.listed flow then (Page.step s.page a).map s.moved else none
    | _ => (Page.step s.page a).map s.moved
  | .arrive n =>
    match s.underway n with
    | none => none
    | some request =>
      (UseCases.step s.useCases (.begin (.request n) (useCaseOf request))).map fun useCases ↦
        { s with useCases, underway := Function.update s.underway n none }
  | .other n useCase =>
    match useCase with
    | .teardown _ | .send _ =>
      (UseCases.step s.useCases (.begin (.other n) useCase)).map fun useCases ↦ { s with useCases }
    | .subscribe _ | .sendWithReply _ | .unsubscribe _ => none
  | .server a =>
    match a with
    | .begin .. => none
    | .proceed .. | .adapter _ | .dispatch .. =>
      (UseCases.step s.useCases a).map fun useCases ↦ { s with useCases }
  | .respond n response =>
    -- A request may fail on its way back, whatever the use case has done.
    if s.response n = some response ∨ response.isFailure = true then
      (Page.step s.page (.respond n response)).map fun page ↦ { s with page }
    else none

variable {s t : State} {a : Label} {as : List Label} {flow flow' : Flow} {id : Guid} {n : ℕ}

/-! ## The property and the condition -/

/-- No request is in flight, and no use case is under way. -/
def Quiet (s : State) : Prop :=
  (∀ n, s.page.requests n = none) ∧ ∀ i, (s.useCases.progress i).isOver = true

/-- The entries that are shown are those that the adapter has. -/
def ShowsLive (s : State) : Prop := ∀ id, id ∈ s.page.shown ↔ s.IsLive id

/-- When the request `n` is answered: the entry of a DELETE is gone from the dictionary, and a POST
has left there what the answer says, a subscription or nothing. -/
def AnswerFits (s : State) (n : ℕ) : Option Request → Option (Flow × Guid) → Prop
  | some (.unsubscribe _ id), _ => ¬s.IsLive id
  | _, some (_, id) => s.IsLive id
  | _, none => (s.useCases.progress (.request n)).consumes = false ∧
    ∀ handle ∈ s.useCases.held (.request n), ¬s.IsLive handle.value

/-- The two sides do not lose each other: a POST that was answered does not arrive any more, a
teardown clears no entry that is shown and not about to be ended, and answers fit the dictionary. -/
def InStep (s : State) : Label → Prop
  | .arrive n => ∀ request ∈ s.underway n, request.leaves = none → s.page.requests n ≠ none
  | .server a => s.useCases.clears a = true → ∀ id ∈ s.page.shown, s.IsLive id → s.Ending id
  | .respond n response => AnswerFits s n (s.page.requests n) response.handle
  | .page _ | .other .. => True

instance (s : State) (id : Guid) : Decidable (s.IsLive id) :=
  inferInstanceAs (Decidable (∃ entry ∈ s.useCases.backend.adapter.subscriptionChannels, _))

instance (s : State) (id : Guid) : Decidable (s.Ending id) :=
  inferInstanceAs (Decidable (∃ n < s.page.nextRequest, _))

instance (s : State) (n : ℕ) : ∀ request handle, Decidable (AnswerFits s n request handle)
  | some (.unsubscribe _ id), _ => inferInstanceAs (Decidable (¬s.IsLive id))
  | none, some (_, id)
  | some (.subscribe _), some (_, id)
  | some (.sendWithReply _), some (_, id) =>
    inferInstanceAs (Decidable (s.IsLive id))
  | none, none | some (.subscribe _), none | some (.sendWithReply _), none =>
    inferInstanceAs (Decidable (_ ∧ ∀ handle ∈ s.useCases.held (.request n), _))

instance (s : State) : DecidablePred (InStep s)
  | .arrive n => inferInstanceAs (Decidable (∀ request ∈ s.underway n, _))
  | .server _ => inferInstanceAs (Decidable (_ → ∀ id ∈ s.page.shown, _))
  | .respond n response =>
    inferInstanceAs (Decidable (AnswerFits s n (s.page.requests n) response.handle))
  | .page _ | .other .. => isTrue trivial

theorem State.Ending.pending (h : s.Ending id) :
    ∃ n flow, s.page.requests n = some (.unsubscribe flow id) := by
  obtain ⟨n, -, h⟩ := h
  obtain ⟨⟨flow, id⟩, hleaves, rfl⟩ := Option.map_eq_some_iff.mp h
  obtain ⟨request, hrequest, hleaves⟩ := Option.bind_eq_some_iff.mp hleaves
  cases request with
  | unsubscribe =>
    cases hleaves
    exact ⟨n, flow, hrequest⟩
  | subscribe | sendWithReply => cases hleaves

/-! ## The steps, sorted -/

inductive StepCases (s : State) (a : Label) (t : State) : Prop where
  | page (b : Page.Label) (ha : a = .page b) (hb : ∀ n response, b ≠ .respond n response)
    (hlisted : ∀ flow id, b = .unsubscribe flow id → id ∈ s.page.listed flow)
    (hstep : Page.step s.page b = some t.page) (ht : t = s.moved t.page)
  | arrives (n : ℕ) (request : Request) (ha : a = .arrive n)
    (hunderway : s.underway n = some request)
    (hstep : UseCases.step s.useCases (.begin (.request n) (useCaseOf request)) = some t.useCases)
    (hpage : t.page = s.page) (hothers : t.underway = Function.update s.underway n none)
  | others (n : ℕ) (useCase : UseCase) (ha : a = .other n useCase)
    (hcalling : useCase.awaiting = .calling)
    (hstep : UseCases.step s.useCases (.begin (.other n) useCase) = some t.useCases)
    (hpage : t.page = s.page) (hunderway : t.underway = s.underway)
  | serves (b : UseCases.Label Source) (ha : a = .server b)
    (hb : ∀ i useCase, b ≠ .begin i useCase)
    (hstep : UseCases.step s.useCases b = some t.useCases) (hpage : t.page = s.page)
    (hunderway : t.underway = s.underway)
  | responds (n : ℕ) (response : Response) (ha : a = .respond n response)
    (hresponse : s.response n = some response ∨ response.isFailure = true)
    (hstep : Page.step s.page (.respond n response) = some t.page)
    (ht : t = { s with page := t.page })

theorem step_cases (hstep : step s a = some t) : StepCases s a t := by
  cases a with
  | page b =>
    have hmoves : (Page.step s.page b).map s.moved = some t →
        Page.step s.page b = some t.page ∧ t = s.moved t.page := by
      intro hmap
      obtain ⟨page, hpage, rfl⟩ := Option.map_eq_some_iff.mp hmap
      exact ⟨hpage, rfl⟩
    cases b with
    | respond => cases hstep
    | unsubscribe flow id =>
      obtain ⟨hlisted, hmap⟩ := Option.ite_none_right_eq_some.mp hstep
      obtain ⟨hpage, ht⟩ := hmoves hmap
      refine .page _ rfl nofun ?_ hpage ht
      rintro flow' id' ⟨⟩
      exact hlisted
    | _ =>
      obtain ⟨hpage, ht⟩ := hmoves hstep
      exact .page _ rfl nofun nofun hpage ht
  | arrive n =>
    simp only [step] at hstep
    split at hstep
    · cases hstep
    · rename_i request hunderway
      obtain ⟨useCases, huseCases, rfl⟩ := Option.map_eq_some_iff.mp hstep
      exact .arrives n request rfl hunderway huseCases rfl rfl
  | other n useCase =>
    cases useCase with
    | teardown | send =>
      obtain ⟨useCases, huseCases, rfl⟩ := Option.map_eq_some_iff.mp hstep
      exact .others n _ rfl rfl huseCases rfl rfl
    | subscribe | sendWithReply | unsubscribe => cases hstep
  | server b =>
    cases b with
    | begin => cases hstep
    | _ =>
      obtain ⟨useCases, huseCases, rfl⟩ := Option.map_eq_some_iff.mp hstep
      exact .serves _ rfl nofun huseCases rfl rfl
  | respond n response =>
    obtain ⟨hresponse, hmap⟩ := Option.ite_none_right_eq_some.mp hstep
    obtain ⟨page, hpage, rfl⟩ := Option.map_eq_some_iff.mp hmap
    exact .responds n response rfl hresponse hpage rfl

/-! ## Who has returned a subscription -/

/-- The use case of some request has returned the subscription. -/
def Returned (s : State) (flow : Flow) (id : Guid) : Prop := ∃ n, s.returned n = some (flow, id)

theorem returned_eq_some : s.returned n = some (flow, id) ↔ ∃ outcome,
    s.useCases.progress (.request n) = .returned outcome ∧
      (responseOf outcome).handle = some (flow, id) := by
  unfold State.returned State.response
  constructor
  · intro hreturned
    obtain ⟨response, hresponse, hhandle⟩ := Option.bind_eq_some_iff.mp hreturned
    split at hresponse
    · rename_i outcome hprogress
      cases hresponse
      exact ⟨outcome, hprogress, hhandle⟩
    · cases hresponse
  · rintro ⟨outcome, hprogress, hhandle⟩
    rw [hprogress]
    exact hhandle

theorem held_of_returned (hs : UseCases.Ordered s.useCases)
    (hreturned : s.returned n = some (flow, id)) :
    s.useCases.held (.request n) = some ⟨id⟩ := by
  obtain ⟨outcome, hprogress, hhandle⟩ := returned_eq_some.mp hreturned
  refine hs.held_of_reached ?_
  rw [hprogress]
  cases outcome with
  | done => cases hhandle
  | subscribed | sent =>
    cases hhandle
    rfl

theorem Returned.of_step {b : UseCases.Label Source} (h : Returned s flow id)
    (hstep : UseCases.step s.useCases b = some t.useCases) : Returned t flow id := by
  obtain ⟨n, hn⟩ := h
  obtain ⟨outcome, hprogress, hhandle⟩ := returned_eq_some.mp hn
  exact ⟨n, returned_eq_some.mpr ⟨outcome, UseCases.returned_of_step hstep hprogress, hhandle⟩⟩

/-- A subscription is returned once, for one flow. -/
theorem Returned.flow_eq (hs : UseCases.Ordered s.useCases) (h : Returned s flow id)
    (h' : Returned s flow' id) : flow = flow' := by
  obtain ⟨n, hn⟩ := h
  obtain ⟨n', hn'⟩ := h'
  have hsource : Source.request n = .request n' :=
    hs.held_unique (held_of_returned hs hn) (held_of_returned hs hn')
  cases hsource
  cases hn.symm.trans hn'
  rfl

theorem Returned.consumes_eq_false {i : Source} (hs : UseCases.Ordered s.useCases)
    (h : Returned s flow id) (hi : s.useCases.held i = some ⟨id⟩) :
    (s.useCases.progress i).consumes = false := by
  obtain ⟨n, hn⟩ := h
  obtain rfl := hs.held_unique hi (held_of_returned hs hn)
  obtain ⟨outcome, hprogress, -⟩ := returned_eq_some.mp hn
  rw [hprogress]
  rfl

/-- A subscription that was returned does not come back to the dictionary. -/
theorem Returned.not_isLive {b : UseCases.Label Source} (hawaiting : UseCases.Awaiting s.useCases)
    (hordered : UseCases.Ordered s.useCases) (h : Returned s flow id)
    (hstep : UseCases.step s.useCases b = some t.useCases) (hgone : ¬s.IsLive id) :
    ¬t.IsLive id := by
  intro hlive
  obtain ⟨i, hconsumes, hheld⟩ := (UseCases.added_of_step hawaiting hstep hlive).resolve_left hgone
  obtain ⟨n, hn⟩ := h
  have hsame : Source.request n = i := (UseCases.ordered_step hordered hstep).held_unique
    (UseCases.held_of_step hstep (held_of_returned hordered hn)) hheld
  obtain ⟨outcome, hprogress, -⟩ := returned_eq_some.mp hn
  rw [← hsame, hprogress] at hconsumes
  cases hconsumes

/-! ## What keeps the two sides together -/

/-- The DELETE is pending, or has nothing left to remove. -/
def Ends (s : State) (n : ℕ) (flow : Flow) (id : Guid) : Prop :=
  s.page.requests n = some (.unsubscribe flow id) ∨ ¬s.IsLive id

/-- An entry that is shown is in the dictionary or about to be ended, an entry of the dictionary is
shown or about to be, and the requests between the two sides say which. -/
structure Matched (s : State) : Prop where
  awaiting : UseCases.Awaiting s.useCases
  ordered : UseCases.Ordered s.useCases
  numbered : Page.Numbered s.page
  /-- A request that is under way is the one that is pending. -/
  same : ∀ {n request request'}, s.underway n = some request →
    s.page.requests n = some request' → request' = request
  /-- A use case that makes a subscription runs while its POST is pending. -/
  consuming : ∀ {i}, (s.useCases.progress i).consumes = true →
    ∃ n request, i = .request n ∧ s.page.requests n = some request ∧ request.leaves = none
  listed : ∀ {flow id}, id ∈ s.page.listed flow → Returned s flow id
  -- a DELETE, wherever it is
  pending : ∀ {n flow id}, s.page.requests n = some (.unsubscribe flow id) → Returned s flow id
  underway : ∀ {n flow id}, s.underway n = some (.unsubscribe flow id) →
    Returned s flow id ∧ Ends s n flow id
  unsubscribing : ∀ {i handle}, s.useCases.progress i = .unsubscribing handle →
    ∃ n flow, i = .request n ∧ Returned s flow handle.value ∧ Ends s n flow handle.value
  -- the two registries
  shown : ∀ {id}, id ∈ s.page.shown →
    s.IsLive id ∨ ∃ n flow, s.page.requests n = some (.unsubscribe flow id)
  live : ∀ {id}, s.IsLive id → id ∈ s.page.shown ∨ ∃ n request,
    s.page.requests n = some request ∧ request.leaves = none ∧
      s.useCases.held (.request n) = some ⟨id⟩

theorem matched_initial : Matched State.initial where
  awaiting := UseCases.awaiting_initial
  ordered := UseCases.ordered_initial
  numbered := Page.numbered_initial
  same := nofun
  consuming := nofun
  listed {flow id} h := by cases flow <;> exact absurd h List.not_mem_nil
  pending := nofun
  underway := nofun
  unsubscribing := nofun
  shown h := absurd h List.not_mem_nil
  live := by
    rintro id ⟨entry, hentry, -⟩
    exact absurd hentry List.not_mem_nil

/-- **At rest they agree.** -/
theorem Matched.showsLive (hs : Matched s) (hquiet : Quiet s) : ShowsLive s := by
  intro id
  constructor
  · intro hshown
    refine (hs.shown hshown).resolve_right ?_
    rintro ⟨n, flow, hn⟩
    cases (hquiet.1 n).symm.trans hn
  · intro hlive
    refine (hs.live hlive).resolve_right ?_
    rintro ⟨n, request, hn, -⟩
    cases (hquiet.1 n).symm.trans hn

/-! ### The page moves -/

theorem Matched.of_page {b : Page.Label} {page : Page.State} (hs : Matched s)
    (hb : ∀ n response, b ≠ .respond n response)
    (hshown : ∀ flow id, b = .unsubscribe flow id → id ∈ s.page.listed flow)
    (hstep : Page.step s.page b = some page) : Matched (s.moved page) := by
  have e := Page.effect_of_step hstep
  obtain ⟨hchips, hpanel⟩ := Page.lists_of_step hb hstep
  have hlisted : ∀ flow, page.listed flow = s.page.listed flow := by
    intro flow
    cases flow with
    | subscribe => exact congrArg (List.map Subscription.id) hchips
    | withReply => exact congrArg (List.map ReplySubscription.subscriptionId) hpanel
  have hsame : page.shown = s.page.shown := Page.shown_eq hchips hpanel
  have hkept : ∀ {n request}, s.page.requests n = some request →
      page.requests n = some request := by
    intro n request hn
    refine (e.requests_kept (hs.numbered n request hn) hn).resolve_right ?_
    rintro ⟨response, hrespond⟩
    exact hb n response hrespond
  have hpending : ∀ {n flow id}, page.requests n = some (.unsubscribe flow id) →
      Returned s flow id := by
    intro n flow id hn
    rcases e.requests hn with ⟨hn, -⟩ | ⟨-, hposts⟩
    · exact hs.pending hn
    · cases hposts
      exact hs.listed (hshown flow id rfl)
  have hunderway : ∀ {n request}, (s.moved page).underway n = some request →
      page.requests n = some request ∨ (n ≠ s.page.nextRequest ∧ s.underway n = some request) := by
    intro n request hn
    change Function.update s.underway _ _ n = some request at hn
    by_cases hnext : n = s.page.nextRequest
    · rw [hnext, Function.update_self] at hn
      exact Or.inl (hnext ▸ hn)
    · rw [Function.update_of_ne hnext] at hn
      exact Or.inr ⟨hnext, hn⟩
  refine ⟨hs.awaiting, hs.ordered, hs.numbered.of_effect e, fun hn hn' ↦ ?_, fun hi ↦ ?_,
    fun h ↦ hs.listed (hlisted _ ▸ h), hpending, fun hn ↦ ?_, fun hi ↦ ?_, fun h ↦ ?_, fun h ↦ ?_⟩
  · rcases hunderway hn with hn | ⟨hne, hn⟩
    · exact Option.some.inj (hn'.symm.trans hn)
    · rcases e.requests hn' with ⟨hn', -⟩ | ⟨hnext, -⟩
      · exact hs.same hn hn'
      · exact absurd hnext hne
  · obtain ⟨n, request, hi, hn, hleaves⟩ := hs.consuming hi
    exact ⟨n, request, hi, hkept hn, hleaves⟩
  · rcases hunderway hn with hn | ⟨-, hn⟩
    · exact ⟨hpending hn, Or.inl hn⟩
    · obtain ⟨hreturned, hends⟩ := hs.underway hn
      exact ⟨hreturned, hends.imp_left hkept⟩
  · obtain ⟨n, flow, hi, hreturned, hends⟩ := hs.unsubscribing hi
    exact ⟨n, flow, hi, hreturned, hends.imp_left hkept⟩
  · refine (hs.shown (hsame ▸ h)).imp_right ?_
    rintro ⟨n, flow, hn⟩
    exact ⟨n, flow, hkept hn⟩
  · rcases hs.live h with h | ⟨n, request, hn, hleaves, hheld⟩
    · exact Or.inl (hsame ▸ h)
    · exact Or.inr ⟨n, request, hkept hn, hleaves, hheld⟩

/-! ### A request is answered -/

theorem requests_of_answer {response : Response} {page : Page.State} {m : ℕ} {other : Request}
    (hnumbered : Page.Numbered s.page)
    (hstep : Page.step s.page (.respond n response) = some page) :
    page.requests m = some other ↔ s.page.requests m = some other ∧ m ≠ n := by
  have e := Page.effect_of_step hstep
  constructor
  · intro hm
    rcases e.requests hm with ⟨hm, hother⟩ | ⟨-, hposts⟩
    · exact ⟨hm, fun heq ↦ hother response (heq ▸ rfl)⟩
    · cases hposts
  · rintro ⟨hm, hne⟩
    refine (e.requests_kept (hnumbered m other hm) hm).resolve_right ?_
    rintro ⟨response', heq⟩
    cases heq
    exact hne rfl

theorem Matched.of_answer {request : Request} {response : Response} {page : Page.State}
    (hs : Matched s) (hrequest : s.page.requests n = some request)
    (hstep : Page.step s.page (.respond n response) = some page)
    (hpost : request.leaves = none → (s.useCases.progress (.request n)).consumes = false)
    (hdelete : ∀ flow id, request = .unsubscribe flow id → ¬s.IsLive id)
    (hlisted : ∀ flow id, id ∈ page.listed flow → Returned s flow id)
    (hshown : ∀ id ∈ page.shown,
      s.IsLive id ∨ ∃ m flow, s.page.requests m = some (.unsubscribe flow id) ∧ m ≠ n)
    (hlive : ∀ id, s.IsLive id → id ∈ page.shown ∨ ∃ m other,
      (s.page.requests m = some other ∧ m ≠ n) ∧ other.leaves = none ∧
        s.useCases.held (.request m) = some ⟨id⟩) : Matched { s with page } := by
  have hrequests : ∀ {m other}, page.requests m = some other ↔
      s.page.requests m = some other ∧ m ≠ n := requests_of_answer hs.numbered hstep
  -- a DELETE that was pending is, or its entry is gone
  have hends : ∀ {m flow id}, Ends s m flow id → Ends { s with page } m flow id := by
    rintro m flow id (hm | hgone)
    · by_cases hmn : m = n
      · rw [hmn, hrequest] at hm
        exact Or.inr (hdelete flow id (Option.some.inj hm))
      · exact Or.inl (hrequests.mpr ⟨hm, hmn⟩)
    · exact Or.inr hgone
  refine ⟨hs.awaiting, hs.ordered, hs.numbered.of_effect (Page.effect_of_step hstep),
    fun hm hm' ↦ hs.same hm (hrequests.mp hm').1, fun hi ↦ ?_, fun h ↦ hlisted _ _ h,
    fun hm ↦ hs.pending (hrequests.mp hm).1, fun hm ↦ (hs.underway hm).imp_right hends,
    fun hi ↦ ?_, fun {id} h ↦ ?_, fun {id} h ↦ ?_⟩
  · obtain ⟨m, other, rfl, hm, hleaves⟩ := hs.consuming hi
    have hmn : m ≠ n := by
      rintro rfl
      cases hrequest.symm.trans hm
      cases (hpost hleaves).symm.trans hi
    exact ⟨m, other, rfl, hrequests.mpr ⟨hm, hmn⟩, hleaves⟩
  · obtain ⟨m, flow, hi, hreturned, hends'⟩ := hs.unsubscribing hi
    exact ⟨m, flow, hi, hreturned, hends hends'⟩
  · refine (hshown id h).imp_right ?_
    rintro ⟨m, flow, hm⟩
    exact ⟨m, flow, hrequests.mpr hm⟩
  · refine (hlive id h).imp_right ?_
    rintro ⟨m, other, hm, hleaves, hheld⟩
    exact ⟨m, other, hrequests.mpr hm, hleaves, hheld⟩

theorem AnswerFits.of_post {request : Request} {handle : Option (Flow × Guid)}
    (hfits : AnswerFits s n (some request) handle) (hleaves : request.leaves = none) :
    (∃ flow id, handle = some (flow, id) ∧ s.IsLive id) ∨
      handle = none ∧ (s.useCases.progress (.request n)).consumes = false ∧
        ∀ held ∈ s.useCases.held (.request n), ¬s.IsLive held.value := by
  cases request with
  | unsubscribe => cases hleaves
  | subscribe | sendWithReply =>
    cases handle with
    | none => exact Or.inr ⟨rfl, hfits⟩
    | some handle => exact Or.inl ⟨handle.1, handle.2, rfl, hfits⟩

/-- The answer to a POST lists what the POST has left in the dictionary. -/
theorem Matched.of_post {request : Request} {response : Response} {page : Page.State}
    (hs : Matched s) (hrequest : s.page.requests n = some request) (hleaves : request.leaves = none)
    (hresponse : s.response n = some response ∨ response.isFailure = true)
    (hstep : Page.step s.page (.respond n response) = some page)
    (hfits : AnswerFits s n (some request) response.handle) : Matched { s with page } := by
  have hreturned : ∀ {flow id}, response.handle = some (flow, id) →
      s.returned n = some (flow, id) := by
    intro flow id hhandle
    rcases hresponse with hresponse | hfailure
    · rw [State.returned, hresponse]
      exact hhandle
    · cases response with
      | failed => cases hhandle
      | subscribed | sent | unsubscribed => cases hfailure
  have hpages : ∀ {id}, id ∈ s.page.shown → id ∈ page.shown := by
    intro id hshown
    refine (Page.shown_or_finishes hstep hshown).resolve_right ?_
    rintro ⟨flow, m, response', request', heq, hrequest', hleaves'⟩
    cases heq
    cases hrequest.symm.trans hrequest'
    cases hleaves.symm.trans hleaves'
  have hposts : ∀ {m flow id}, s.page.requests m = some (.unsubscribe flow id) → m ≠ n := by
    rintro m flow id hm rfl
    cases hrequest.symm.trans hm
    cases hleaves
  have hlisted : ∀ {flow id}, id ∈ page.listed flow →
      id ∈ s.page.listed flow ∨ response.handle = some (flow, id) := by
    intro flow id h
    refine ((Page.effect_of_step hstep).listed h).imp_right ?_
    rintro ⟨m, response', heq, hhandle⟩
    cases heq
    exact hhandle
  have hfits' := hfits.of_post hleaves
  refine hs.of_answer hrequest hstep (fun _ ↦ ?_) ?_ (fun flow id h ↦ ?_) (fun id h ↦ ?_)
    fun id h ↦ ?_
  · rcases hfits' with ⟨flow, id, hhandle, -⟩ | ⟨-, hover, -⟩
    · exact Returned.consumes_eq_false hs.ordered ⟨n, hreturned hhandle⟩
        (held_of_returned hs.ordered (hreturned hhandle))
    · exact hover
  · rintro flow id rfl
    cases hleaves
  · rcases hlisted h with hold | hhandle
    · exact hs.listed hold
    · exact ⟨n, hreturned hhandle⟩
  · obtain ⟨flow, h⟩ := Page.mem_shown.mp h
    rcases hlisted h with hold | hhandle
    · refine (hs.shown (Page.mem_shown.mpr ⟨flow, hold⟩)).imp_right ?_
      rintro ⟨m, flow', hm⟩
      exact ⟨m, flow', hm, hposts hm⟩
    · rcases hfits' with ⟨flow', id', hhandle', hlive⟩ | ⟨hnone, -⟩
      · cases hhandle.symm.trans hhandle'
        exact Or.inl hlive
      · cases hhandle.symm.trans hnone
  · rcases hs.live h with hshown | ⟨m, other, hm, hleaves', hheld⟩
    · exact Or.inl (hpages hshown)
    · by_cases hmn : m = n
      -- what this POST has made is listed now
      · subst hmn
        rcases hfits' with ⟨flow, id', hhandle, -⟩ | ⟨-, -, hnone⟩
        · cases hheld.symm.trans (held_of_returned hs.ordered (hreturned hhandle))
          exact Or.inl (Page.mem_shown.mpr
            ⟨flow, Page.listed_of_lists hstep ⟨m, response, rfl, hhandle⟩⟩)
        · exact absurd h (hnone ⟨id⟩ hheld)
      · exact Or.inr ⟨m, other, ⟨hm, hmn⟩, hleaves', hheld⟩

/-- The answer to a DELETE removes an entry that is gone from the dictionary. -/
theorem Matched.of_delete {response : Response} {page : Page.State} (hs : Matched s)
    (hrequest : s.page.requests n = some (.unsubscribe flow id)) (hgone : ¬s.IsLive id)
    (hstep : Page.step s.page (.respond n response) = some page) : Matched { s with page } := by
  have e := Page.effect_of_step hstep
  have hlisted : ∀ {flow' id'}, id' ∈ page.listed flow' → id' ∈ s.page.listed flow' := by
    intro flow' id' h
    refine (e.listed h).resolve_right ?_
    rintro ⟨m, response', heq, hhandle⟩
    cases heq
    cases (Page.handle_of_unsubscribe hrequest hstep).symm.trans hhandle
  refine hs.of_answer hrequest hstep nofun ?_ (fun flow' id' h ↦ hs.listed (hlisted h))
    (fun id' h ↦ ?_) fun id' h ↦ ?_
  · rintro flow' id' ⟨⟩
    exact hgone
  · obtain ⟨flow', h⟩ := Page.mem_shown.mp h
    refine (hs.shown (Page.mem_shown.mpr ⟨flow', hlisted h⟩)).imp_right ?_
    rintro ⟨m, flow'', hm⟩
    refine ⟨m, flow'', hm, ?_⟩
    rintro rfl
    cases hrequest.symm.trans hm
    -- the entry is in one list only, and the answer takes it from there
    obtain rfl := (hs.listed (hlisted h)).flow_eq hs.ordered (hs.pending hrequest)
    exact e.finished ⟨m, response, _, rfl, hrequest, rfl⟩ h
  · rcases hs.live h with hshown | ⟨m, other, hm, hleaves, hheld⟩
    · refine Or.inl ((Page.shown_or_finishes hstep hshown).resolve_right ?_)
      rintro ⟨flow', m, response', request', heq, hrequest', hleaves'⟩
      cases heq
      cases hrequest.symm.trans hrequest'
      cases hleaves'
      exact hgone h
    · refine Or.inr ⟨m, other, ⟨hm, ?_⟩, hleaves, hheld⟩
      rintro rfl
      cases hrequest.symm.trans hm
      cases hleaves

/-! ### The backend moves -/

theorem Matched.of_useCases {b : UseCases.Label Source} (hs : Matched s)
    (hstep : UseCases.step s.useCases b = some t.useCases) (hpage : t.page = s.page)
    (hunderway : ∀ {n request}, t.underway n = some request → s.underway n = some request)
    (hconsumes : ∀ i u, b = .begin i u → u.awaiting.consumes = true →
      ∃ n request, i = .request n ∧ s.page.requests n = some request ∧ request.leaves = none)
    (hunsubscribes : ∀ i handle, b = .begin i (.unsubscribe handle) →
      ∃ n flow, i = .request n ∧ Returned s flow handle.value ∧ Ends s n flow handle.value)
    (hclears : s.useCases.clears b = true → ∀ id ∈ s.page.shown, s.IsLive id → s.Ending id) :
    Matched t := by
  have hends : ∀ {n flow id}, Returned s flow id → Ends s n flow id → Ends t n flow id := by
    rintro n flow id hreturned (hn | hgone)
    · exact Or.inl (hpage ▸ hn)
    · exact Or.inr (hreturned.not_isLive hs.awaiting hs.ordered hstep hgone)
  refine ⟨UseCases.awaiting_step hs.awaiting hstep, UseCases.ordered_step hs.ordered hstep,
    hpage ▸ hs.numbered, fun hn hn' ↦ hs.same (hunderway hn) (hpage ▸ hn'), fun {i} hi ↦ ?_,
    fun h ↦ (hs.listed (hpage ▸ h)).of_step hstep, fun hn ↦ (hs.pending (hpage ▸ hn)).of_step hstep,
    fun hn ↦ ?_, fun {i handle} hi ↦ ?_, fun {id} h ↦ ?_, fun {id} h ↦ ?_⟩
  · rw [hpage]
    rcases UseCases.consumes_of_step hstep hi with hi | ⟨u, hb, hu⟩
    · exact hs.consuming hi
    · exact hconsumes i u hb hu
  · obtain ⟨hreturned, hends'⟩ := hs.underway (hunderway hn)
    exact ⟨hreturned.of_step hstep, hends hreturned hends'⟩
  · have hbefore : ∃ n flow, i = .request n ∧ Returned s flow handle.value ∧
        Ends s n flow handle.value := by
      rcases UseCases.unsubscribing_of_step hstep hi with hi | hb
      · exact hs.unsubscribing hi
      · exact hunsubscribes i handle hb
    obtain ⟨n, flow, hi, hreturned, hends'⟩ := hbefore
    exact ⟨n, flow, hi, hreturned.of_step hstep, hends hreturned hends'⟩
  · rw [hpage] at h ⊢
    rcases hs.shown h with hlive | hpending
    · by_cases hlive' : t.IsLive id
      · exact Or.inl hlive'
      -- who has removed the entry
      · obtain ⟨i, hi⟩ | ⟨i, ex, hi⟩ | hclear :=
          UseCases.removed_of_step hs.awaiting hstep hlive hlive'
        · obtain ⟨n, flow, -, -, hn | hgone⟩ := hs.unsubscribing hi
          · exact Or.inr ⟨n, flow, hn⟩
          · exact absurd hlive hgone
        · obtain ⟨flow, hlisted⟩ := Page.mem_shown.mp h
          have hheld : s.useCases.held i = some ⟨id⟩ := hs.ordered.held_of_reached (by rw [hi]; rfl)
          have hover := (hs.listed hlisted).consumes_eq_false hs.ordered hheld
          rw [hi] at hover
          cases hover
        · exact Or.inr (hclears hclear id h hlive).pending
    · exact Or.inr hpending
  · rw [hpage]
    rcases UseCases.added_of_step hs.awaiting hstep h with hlive | ⟨i, hi, hheld⟩
    · rcases hs.live hlive with hshown | ⟨n, request, hn, hleaves, hheld⟩
      · exact Or.inl hshown
      · exact Or.inr ⟨n, request, hn, hleaves, UseCases.held_of_step hstep hheld⟩
    · obtain ⟨n, request, rfl, hn, hleaves⟩ := hs.consuming hi
      exact Or.inr ⟨n, request, hn, hleaves, hheld⟩

/-! ### Every step -/

/-- A request is at its controller while the page waits for it, unless it is a DELETE. -/
theorem Matched.of_arrive {request : Request} (hs : Matched s) (hinstep : InStep s (.arrive n))
    (hunderway : s.underway n = some request)
    (hstep : UseCases.step s.useCases (.begin (.request n) (useCaseOf request)) = some t.useCases)
    (hpage : t.page = s.page) (hothers : t.underway = Function.update s.underway n none) :
    Matched t := by
  refine hs.of_useCases hstep hpage (fun hm ↦ ?_) ?_ ?_ nofun
  · rw [hothers] at hm
    exact (Page.of_cleared hm).2
  · rintro i u ⟨⟩ hconsumes
    have hleaves : request.leaves = none := by
      cases request with
      | unsubscribe => cases hconsumes
      | subscribe | sendWithReply => rfl
    obtain ⟨other, hother⟩ := Option.ne_none_iff_exists'.mp (hinstep request hunderway hleaves)
    obtain rfl := hs.same hunderway hother
    exact ⟨n, other, rfl, hother, hleaves⟩
  · intro i handle hbegin
    cases request with
    | unsubscribe flow id =>
      cases hbegin
      obtain ⟨hreturned, hends⟩ := hs.underway hunderway
      exact ⟨n, flow, rfl, hreturned, hends⟩
    | subscribe | sendWithReply => cases hbegin

theorem matched_step (hs : Matched s) (hinstep : InStep s a) (hstep : step s a = some t) :
    Matched t := by
  cases step_cases hstep with
  | page b ha hb hlisted hpage ht =>
    rw [ht]
    exact hs.of_page hb hlisted hpage
  | arrives n request ha hunderway huseCases hpage hothers =>
    subst ha
    exact hs.of_arrive hinstep hunderway huseCases hpage hothers
  | others n useCase ha hcalling huseCases hpage hunderway =>
    refine hs.of_useCases huseCases hpage (fun hm ↦ hunderway ▸ hm) ?_ ?_ nofun
    · rintro i u ⟨⟩ hconsumes
      rw [hcalling] at hconsumes
      cases hconsumes
    · rintro i handle ⟨⟩
      cases hcalling
  | serves b ha hb huseCases hpage hunderway =>
    subst ha
    exact hs.of_useCases huseCases hpage (fun hm ↦ hunderway ▸ hm)
      (fun i u hbegin ↦ absurd hbegin (hb i u)) (fun i handle hbegin ↦ absurd hbegin (hb i _))
      hinstep
  | responds n response ha hresponse hpage ht =>
    subst ha
    rw [ht]
    change AnswerFits s n (s.page.requests n) response.handle at hinstep
    cases hrequest : s.page.requests n with
    | none => simp [Page.step, hrequest] at hpage
    | some request =>
      rw [hrequest] at hinstep
      cases request with
      | unsubscribe flow id => exact hs.of_delete hrequest hinstep hpage
      | subscribe | sendWithReply => exact hs.of_post hrequest rfl hresponse hpage hinstep

/-- **The entries that are shown are the ones that exist**, whenever nothing is in flight, in all
runs in which neither side loses an entry of the other. -/
theorem showsLive_of_inStep (hguard : Guarded step InStep .initial as) :
    Along step (fun s ↦ Quiet s → ShowsLive s) .initial as :=
  along_of_guarded matched_initial (fun _ _ _ hs hinstep hstep ↦ matched_step hs hinstep hstep)
    (fun _ hs hquiet ↦ hs.showsLive hquiet) hguard

/-! ## A disconnect while a chip is shown -/

open RabbitMqAdapter.Label (succeed)

/-- A connection is opened, and a queue is subscribed to. -/
private def subscribed : List Label :=
  [.other 0 (.teardown (.connect .localhost)), .server (.adapter (succeed (.other 0, .first))),
    .server (.adapter (succeed (.other 0, .first))), .server (.proceed (.other 0) ⟨0⟩),
    .page (.editQueueName (Utf16.ofString "orders")), .page .subscribeToQueue, .arrive 0,
    .server (.adapter (succeed (.request 0, .first))), .server (.adapter (.brokerConsumes 0)),
    .server (.adapter (.resume (.request 0, .first) .completed ⟨7⟩)),
    .server (.adapter (succeed (.request 0, .first))), .server (.proceed (.request 0) ⟨0⟩),
    .server (.proceed (.request 0) ⟨0⟩), .respond 0 (.subscribed ⟨7⟩), .page (.started true),
    .page .startSettled, .page (.settled true)]

/-- The connection is closed again: the adapter closes and disposes the channel and the connection,
and clears its dictionary. -/
private def disconnects : List Label :=
  [.other 1 (.teardown .disconnect), .server (.adapter (succeed (.other 1, .first))),
    .server (.adapter (succeed (.other 1, .first))),
    .server (.adapter (succeed (.other 1, .first))),
    .server (.adapter (succeed (.other 1, .first))),
    .server (.adapter (succeed (.other 1, .first))), .server (.proceed (.other 1) ⟨0⟩)]

theorem showsLive_of_subscribed :
    ∃ t, run step .initial subscribed = some t ∧ t.page.shown = [⟨7⟩] ∧ ShowsLive t := by
  have hguard : Guarded step InStep .initial subscribed := by decide
  refine ⟨_, rfl, rfl, showsLive_of_inStep hguard _ _ (List.prefix_refl _) rfl ⟨?_, ?_⟩⟩
  · rintro (_ | n) <;> rfl
  · rintro ((_ | n) | (_ | n)) <;> rfl

/-- The chip stays, and keeps its queue from being subscribed to. -/
theorem not_showsLive_of_disconnected :
    ∃ t, run step .initial (subscribed ++ disconnects) = some t ∧ Quiet t ∧
      t.page.shown = [⟨7⟩] ∧ t.useCases.backend.adapter.subscriptionChannels = [] ∧
        t.page.component.isDuplicateQueue = true ∧ ¬ShowsLive t := by
  refine ⟨_, rfl, ⟨?_, ?_⟩, rfl, rfl, rfl, fun h ↦ ?_⟩
  · rintro (_ | n) <;> rfl
  · rintro ((_ | n) | (_ | _ | n)) <;> rfl
  · obtain ⟨entry, hentry, -⟩ := (h ⟨7⟩).mp List.mem_cons_self
    cases hentry

end Session

end BusTester
