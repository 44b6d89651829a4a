import BusTester.Live.HubConnection

/-!
# The page, the hub and the coordinator

One page with the server side that its subscriptions depend on: its connection to the hub, and the
coordinator, which accepts messages and broadcasts them.

A handle is fresh when it is created. The coordinator registers it before the response to the POST
is sent, so deliveries may come at any time after that. Accepting a message and broadcasting it is
one step: nothing but the buffer itself can tell how long before the broadcast the message was put
into it. Use cases that fail are left out, since their handles are never returned.
-/

namespace BusTester

namespace Page

/-- The subscriptions with a join that succeeded, after this invocation has. -/
def Invocation.record (joined : Finset Guid) : Invocation → Finset Guid
  | .joinSubscription join => insert join.subscriptionId joined
  | .leaveSubscription _ => joined

end Page

namespace Live

open Page (Flow Request Response)
open Transition

/-! ## States and steps -/

structure State extends HubConnection where
  page : Page.State
  coordinator : SubscriptionCoordinator
  /-- The handles created so far, with what they were created for. -/
  issued : Guid → Option Flow
  /-- The responses on their way. -/
  answers : ℕ → Option Response
  /-- A record: the subscriptions whose join has succeeded and that have not been left since. -/
  joined : Finset Guid

def State.initial : State where
  toHubConnection := .fresh
  page := .initial
  coordinator := .initial
  issued := fun _ ↦ none
  answers := fun _ ↦ none
  joined := ∅

inductive Label where
  /-- The user, the promise of `connection.start()`, or a callback of the connection. -/
  | page (a : Page.Label)
  /-- The use case behind the request `n` succeeds. -/
  | serve (n : ℕ) (response : Response)
  /-- The response to the request `n` arrives, or its failure. -/
  | respond (n : ℕ) (response : Response)
  /-- BusHub executes the next invocation. -/
  | execute (ok : Bool)
  /-- The result of the oldest invocation arrives. -/
  | complete
  /-- `OnMessageReceivedAsync`, up to the broadcast. -/
  | deliver (h : Guid) (message : BusMessage)
  /-- The next push arrives. -/
  | push
deriving DecidableEq

namespace State

/-- A subscription is created under a fresh handle and registered. -/
def create (s : State) (n : ℕ) (response : Response) (flow : Flow) (id : Guid) : Option State :=
  if s.issued id = none then
    some { s with
      coordinator := s.coordinator.register ⟨id⟩
      issued := Function.update s.issued id (some flow)
      answers := Function.update s.answers n (some response) }
  else none

/-- What the use cases do when they succeed. -/
def serve (s : State) (n : ℕ) (response : Response) : Request → Option State
  | .subscribe _ =>
    match response with
    | .subscribed id => s.create n response .subscribe id
    | _ => none
  | .sendWithReply _ =>
    match response with
    | .sent id _ => s.create n response .withReply id
    | _ => none
  | .unsubscribe _ id =>
    match response with
    | .unsubscribed => some { s with
        coordinator := s.coordinator.unregister ⟨id⟩
        answers := Function.update s.answers n (some response) }
    | _ => none

/-- What the broadcaster sends to the connection of the page. -/
def broadcast (s : State) (h : Guid) (message : BusMessage) : List MessageReceivedDto :=
  if h ∈ s.groups then (s.coordinator.accepted ⟨h⟩ message).map (.fromDomain h) else []

/-- The record, after the request `n` was answered: a DELETE ends with the group being left. -/
def joinedAfter (s : State) (n : ℕ) : Finset Guid :=
  match (s.page.requests n).bind Request.leaves with
  | some (_, id) => s.joined.erase id
  | none => s.joined

/-- The connection is lost, and with it the groups and all that was on its way. -/
def lose (s : State) (page : Page.State) : State :=
  { s with page, toHubConnection := .fresh }

end State

/-- A step of the page that needs nothing of the server. An entry can be removed while it is
shown. -/
def stepPage (s : State) (a : Page.Label) : Option State :=
  match a with
  | .respond .. | .settled _ | .messageReceived _ => none
  | .onreconnecting | .onclose => (Page.step s.page a).map s.lose
  | .unsubscribe flow id =>
    if id ∈ s.page.listed flow then (Page.step s.page a).map fun page ↦ { s with page } else none
  | _ => (Page.step s.page a).map fun page ↦ { s with page }

/-- One step of the page and its server. -/
def step (s : State) : Label → Option State
  | .page a => stepPage s a
  | .serve n response =>
    match s.page.requests n, s.answers n with
    | some request, none => s.serve n response request
    | _, _ => none
  | .respond n response =>
    -- A request may fail on its way back, whatever the use case has done.
    if s.answers n = some response ∨ response.isFailure = true then
      (Page.step s.page (.respond n response)).map fun page ↦ { s with
        page
        answers := Function.update s.answers n none
        joined := s.joinedAfter n }
    else none
  | .execute ok =>
    -- The oldest invocation that has no result yet.
    match s.page.invocations[s.completions.length]? with
    | none => none
    | some invocation => some { s with toHubConnection := s.execute ok invocation }
  | .complete =>
    match s.completions, s.page.invocations with
    | ok :: rest, invocation :: _ =>
      (Page.step s.page (.settled ok)).map fun page ↦ { s with
        page
        completions := rest
        joined := if ok then invocation.record s.joined else s.joined }
    | _, _ => none
  | .deliver h message => some { s with
      coordinator := s.coordinator.onMessageReceived ⟨h⟩ message
      wire := s.wire ++ s.broadcast h message }
  | .push =>
    match s.wire with
    | [] => none
    | message :: rest =>
      (Page.step s.page (.messageReceived message)).map fun page ↦ { s with page, wire := rest }

variable {s t : State} {a : Label}

/-! ## The steps, sorted -/

theorem stepPage_spec {b : Page.Label} (hstep : stepPage s b = some t) :
    ∃ page, Page.step s.page b = some page ∧
      ((t = { s with page } ∧ b ≠ .onreconnecting ∧ b ≠ .onclose) ∨
        (t = s.lose page ∧ (b = .onreconnecting ∨ b = .onclose))) ∧
      (∀ n response, b ≠ .respond n response) ∧ (∀ ok, b ≠ .settled ok) ∧
      (∀ message, b ≠ .messageReceived message) ∧
      ∀ flow id, b = .unsubscribe flow id → id ∈ s.page.listed flow := by
  cases b with
  | respond n response => cases hstep
  | settled ok => cases hstep
  | messageReceived message => cases hstep
  | onreconnecting | onclose =>
    obtain ⟨page, hpage, rfl⟩ := Option.map_eq_some_iff.mp hstep
    exact ⟨page, hpage, Or.inr ⟨rfl, by simp⟩, nofun, nofun, nofun, nofun⟩
  | unsubscribe flow id =>
    simp only [stepPage, Option.ite_none_right_eq_some] at hstep
    obtain ⟨hlisted, hstep⟩ := hstep
    obtain ⟨page, hpage, rfl⟩ := Option.map_eq_some_iff.mp hstep
    refine ⟨page, hpage, Or.inl ⟨rfl, nofun, nofun⟩, nofun, nofun, nofun, ?_⟩
    rintro flow' id' ⟨⟩
    exact hlisted
  | _ =>
    simp only [stepPage, Option.map_eq_some_iff] at hstep
    obtain ⟨page, hpage, rfl⟩ := hstep
    exact ⟨page, hpage, Or.inl ⟨rfl, nofun, nofun⟩, nofun, nofun, nofun, nofun⟩

theorem serve_spec {n : ℕ} {response : Response} (hstep : step s (.serve n response) = some t) :
    (∃ flow id, response.handle = some (flow, id) ∧ s.issued id = none ∧ t = { s with
      coordinator := s.coordinator.register ⟨id⟩
      issued := Function.update s.issued id (some flow)
      answers := Function.update s.answers n (some response) }) ∨
    ∃ request flow id, response.handle = none ∧ s.page.requests n = some request ∧
      request.leaves = some (flow, id) ∧ t = { s with
        coordinator := s.coordinator.unregister ⟨id⟩
        answers := Function.update s.answers n (some response) } := by
  have hcreate : ∀ {flow id}, response.handle = some (flow, id) →
      s.create n response flow id = some t → ∃ flow id, response.handle = some (flow, id) ∧
        s.issued id = none ∧ t = { s with
          coordinator := s.coordinator.register ⟨id⟩
          issued := Function.update s.issued id (some flow)
          answers := Function.update s.answers n (some response) } := by
    intro flow id hhandle hcreate
    simp only [State.create, Option.ite_none_right_eq_some, Option.some.injEq] at hcreate
    exact ⟨flow, id, hhandle, hcreate.1, hcreate.2.symm⟩
  simp only [step] at hstep
  split at hstep
  · rename_i request hrequest _
    cases request with
    | subscribe queueName =>
      cases response with
      | subscribed id => exact Or.inl (hcreate rfl hstep)
      | _ => cases hstep
    | sendWithReply body =>
      cases response with
      | sent id correlationId => exact Or.inl (hcreate rfl hstep)
      | _ => cases hstep
    | unsubscribe flow id =>
      cases response with
      | unsubscribed =>
        cases hstep
        exact Or.inr ⟨_, flow, id, rfl, hrequest, rfl, rfl⟩
      | _ => cases hstep
  · cases hstep

theorem execute_spec {ok : Bool} (hstep : step s (.execute ok) = some t) :
    ∃ invocation, s.page.invocations[s.completions.length]? = some invocation ∧ t = { s with
      groups := if ok then invocation.apply s.groups else s.groups
      completions := s.completions ++ [ok] } := by
  simp only [step] at hstep
  split at hstep
  · cases hstep
  · rename_i invocation hnext
    cases hstep
    exact ⟨invocation, hnext, rfl⟩

theorem respond_spec {n : ℕ} {response : Response} (hstep : step s (.respond n response) = some t) :
    ∃ page, Page.step s.page (.respond n response) = some page ∧
      (s.answers n = some response ∨ response.handle = none) ∧ t = { s with
        page
        answers := Function.update s.answers n none
        joined := s.joinedAfter n } := by
  simp only [step, Option.ite_none_right_eq_some] at hstep
  obtain ⟨hanswer, hstep⟩ := hstep
  obtain ⟨page, hpage, rfl⟩ := Option.map_eq_some_iff.mp hstep
  refine ⟨page, hpage, hanswer.imp_right fun hfailure ↦ ?_, rfl⟩
  cases response <;> first | rfl | cases hfailure

theorem complete_spec (hstep : step s .complete = some t) :
    ∃ ok rest invocation invocations page, s.completions = ok :: rest ∧
      s.page.invocations = invocation :: invocations ∧
      Page.step s.page (.settled ok) = some page ∧ t = { s with
        page
        completions := rest
        joined := if ok then invocation.record s.joined else s.joined } := by
  simp only [step] at hstep
  split at hstep
  · rename_i ok rest invocation invocations hcompletions hinvocations
    obtain ⟨page, hpage, rfl⟩ := Option.map_eq_some_iff.mp hstep
    exact ⟨ok, rest, invocation, invocations, page, hcompletions, hinvocations, hpage, rfl⟩
  · cases hstep

theorem push_spec (hstep : step s .push = some t) :
    ∃ message rest, s.wire = message :: rest ∧ t = { s with
      page := { s.page with hub := s.page.hub.onMessageReceived message }
      wire := rest } := by
  simp only [step] at hstep
  split at hstep
  · cases hstep
  · rename_i message rest hwire
    cases hstep
    exact ⟨message, rest, hwire, rfl⟩

theorem page_of_step (hstep : step s a = some t) :
    t.page = s.page ∨ ∃ b, Page.step s.page b = some t.page ∧
      ∀ n response, b = .respond n response → a = .respond n response := by
  cases a with
  | page b =>
    obtain ⟨page, hpage, ⟨rfl, -⟩ | ⟨rfl, -⟩, hb, -⟩ := stepPage_spec hstep
    · exact Or.inr ⟨b, hpage, fun n response heq ↦ absurd heq (hb n response)⟩
    · exact Or.inr ⟨b, hpage, fun n response heq ↦ absurd heq (hb n response)⟩
  | serve n response =>
    obtain ⟨flow, id, -, -, rfl⟩ | ⟨request, flow, id, -, -, -, rfl⟩ := serve_spec hstep
    · exact Or.inl rfl
    · exact Or.inl rfl
  | respond n response =>
    obtain ⟨page, hpage, -, rfl⟩ := respond_spec hstep
    refine Or.inr ⟨_, hpage, ?_⟩
    rintro n' response' ⟨⟩
    rfl
  | execute ok =>
    obtain ⟨invocation, -, rfl⟩ := execute_spec hstep
    exact Or.inl rfl
  | complete =>
    obtain ⟨ok, rest, invocation, invocations, page, -, -, hpage, rfl⟩ := complete_spec hstep
    exact Or.inr ⟨_, hpage, nofun⟩
  | deliver h message =>
    cases hstep
    exact Or.inl rfl
  | push =>
    obtain ⟨message, rest, -, rfl⟩ := push_spec hstep
    exact Or.inr ⟨.messageReceived message, rfl, nofun⟩

/-- An answer was on its way before, or it returns a handle that has just been created, if any; and
what a handle was created for does not change. -/
theorem answers_of_step (hstep : step s a = some t) :
    (∀ {n response}, t.answers n = some response → s.answers n = some response ∨
      ∀ flow h, response.handle = some (flow, h) → s.issued h = none) ∧
      ∀ {h flow}, s.issued h = some flow → t.issued h = some flow := by
  cases a with
  | page b =>
    obtain ⟨page, -, ⟨rfl, -⟩ | ⟨rfl, -⟩, -⟩ := stepPage_spec hstep <;> exact ⟨Or.inl, id⟩
  | serve n response =>
    obtain ⟨flow, id, hhandle, hfresh, rfl⟩ | ⟨request, flow, id, hhandle, -, -, rfl⟩ :=
      serve_spec hstep
    · refine ⟨fun hm ↦ ?_, fun {h flow'} hh ↦ ?_⟩
      · rcases Page.written_cases hm with ⟨rfl, rfl⟩ | ⟨-, hm⟩
        · rw [hhandle]
          refine Or.inr ?_
          rintro flow' h ⟨⟩
          exact hfresh
        · exact Or.inl hm
      · have hne : h ≠ id := by
          rintro rfl
          rw [hfresh] at hh
          cases hh
        change Function.update s.issued id (some flow) h = some flow'
        rw [Function.update_of_ne hne]
        exact hh
    · refine ⟨fun hm ↦ ?_, fun hh ↦ hh⟩
      rcases Page.written_cases hm with ⟨rfl, rfl⟩ | ⟨-, hm⟩
      · rw [hhandle]
        exact Or.inr nofun
      · exact Or.inl hm
  | respond n response =>
    obtain ⟨page, -, -, rfl⟩ := respond_spec hstep
    exact ⟨fun hm ↦ Or.inl (Page.of_cleared hm).2, id⟩
  | execute ok =>
    obtain ⟨invocation, -, rfl⟩ := execute_spec hstep
    exact ⟨Or.inl, id⟩
  | complete =>
    obtain ⟨ok, rest, invocation, invocations, page, -, -, -, rfl⟩ := complete_spec hstep
    exact ⟨Or.inl, id⟩
  | deliver h message =>
    cases hstep
    exact ⟨Or.inl, id⟩
  | push =>
    obtain ⟨message, rest, -, rfl⟩ := push_spec hstep
    exact ⟨Or.inl, id⟩

end Live

end BusTester
