import BusTester.Backend.ReplyRace
import BusTester.Live.LatePushes
import BusTester.Live.Serving
import BusTester.Transition.Projection

/-!
# The whole system, and what the page sees of it

The page, its requests, the use cases over the adapter, and the hub: a session with the groups of
the connection and with what travels on it. `SignalRMessageBroadcaster` sends what the handler of a
consumer makes the coordinator broadcast to the group of the handle.

`Live` is this system with everything left out that the page cannot tell. There a subscription is
created in one step, together with the answer that returns it, and use cases that fail are missing.
Here it is registered some statements before, messages are buffered for it in between, and it may
yet be dropped. `refines_of_run` says that the page cannot tell: whatever it sees in a run of the
system it sees in a run of `Live`, on the same state of the connection, and the buffers of what was
returned are the same.

The simulation serves a request at the statement by which its execution returns. What was buffered
by then is delivered at once, which is not seen either, since nobody can be in the group.
-/

namespace BusTester

namespace System

open Page (Flow Request Response)
open Session (Source)
open Transition

/-! ## States and steps -/

/-- A session with its connection to the hub. -/
structure State extends HubConnection where
  session : Session.State

def State.initial : State := ⟨.fresh, .initial⟩

inductive Label where
  | session (a : Session.Label)
  | hub (a : HubConnection.Label)

/-- One step. A connection that is lost takes with it the groups and all that was on its way. -/
def step (s : State) : Label → Option State
  | .session a =>
    match a with
    | .page (.settled _) | .page (.messageReceived _) => none
    | .page .onreconnecting | .page .onclose => (Session.step s.session a).map fun session ↦
        ⟨.fresh, session⟩
    | .server (.dispatch ch delivery) => (Session.step s.session a).map fun session ↦
        ⟨s.broadcast (s.session.useCases.broadcast ch delivery), session⟩
    | _ => (Session.step s.session a).map fun session ↦ { s with session }
  | .hub a =>
    (s.move s.session.page.invocations (fun b ↦ Session.step s.session (.page b)) s.session a).map
      fun (connection, session) ↦ ⟨connection, session⟩

variable {s t : State} {a : Label} {as : List Label} {h : Guid} {n : ℕ}

/-! ## The steps, sorted -/

/-- The step is one of the session that the connection does not notice. -/
def Rests (b : Session.Label) : Prop :=
  (∀ ok, b ≠ .page (.settled ok)) ∧ (∀ message, b ≠ .page (.messageReceived message)) ∧
    b ≠ .page .onreconnecting ∧ b ≠ .page .onclose ∧
      ∀ ch delivery, b ≠ .server (.dispatch ch delivery)

inductive StepCases (s : State) (a : Label) (t : State) : Prop where
  | session (b : Session.Label) (session : Session.State) (ha : a = .session b) (hb : Rests b)
    (hstep : Session.step s.session b = some session) (ht : t = { s with session })
  | loses (b : Page.Label) (session : Session.State) (ha : a = .session (.page b))
    (hb : b = .onreconnecting ∨ b = .onclose)
    (hstep : Session.step s.session (.page b) = some session) (ht : t = ⟨.fresh, session⟩)
  | dispatches (ch : RabbitMqAdapter.ChannelId) (delivery : Delivery) (session : Session.State)
    (ha : a = .session (.server (.dispatch ch delivery)))
    (hstep : Session.step s.session (.server (.dispatch ch delivery)) = some session)
    (ht : t = ⟨s.broadcast (s.session.useCases.broadcast ch delivery), session⟩)
  | hub (b : HubConnection.Label) (connection : HubConnection) (session : Session.State)
    (ha : a = .hub b)
    (hmove : s.move s.session.page.invocations (fun c ↦ Session.step s.session (.page c)) s.session
      b = some (connection, session))
    (ht : t = ⟨connection, session⟩)

theorem step_cases (hstep : step s a = some t) : StepCases s a t := by
  cases a with
  | session b =>
    simp only [step] at hstep
    split at hstep
    · cases hstep
    · cases hstep
    · obtain ⟨session, hsession, rfl⟩ := Option.map_eq_some_iff.mp hstep
      exact .loses _ session rfl (Or.inl rfl) hsession rfl
    · obtain ⟨session, hsession, rfl⟩ := Option.map_eq_some_iff.mp hstep
      exact .loses _ session rfl (Or.inr rfl) hsession rfl
    · rename_i ch delivery
      obtain ⟨session, hsession, rfl⟩ := Option.map_eq_some_iff.mp hstep
      exact .dispatches ch delivery session rfl hsession rfl
    · rename_i hsettled hreceived hreconnecting hclose hdispatch
      obtain ⟨session, hsession, rfl⟩ := Option.map_eq_some_iff.mp hstep
      exact .session b session rfl ⟨hsettled, hreceived, hreconnecting, hclose, hdispatch⟩ hsession
        rfl
  | hub b =>
    obtain ⟨⟨connection, session⟩, hmove, rfl⟩ := Option.map_eq_some_iff.mp hstep
    exact .hub b connection session rfl hmove rfl

/-- The step of the session in a step of the system. -/
def sessionLabel (s : State) : Label → Option Session.Label
  | .session b => some b
  | .hub b => (s.told b).map .page

/-- **A run of the system is a session.** -/
theorem projects_session : Projects step Session.step State.session sessionLabel := by
  intro s a t hstep
  cases step_cases hstep with
  | session b session ha hb hsession ht =>
    subst ha ht
    exact Or.inr ⟨b, rfl, hsession⟩
  | loses b session ha hb hsession ht =>
    subst ha ht
    exact Or.inr ⟨_, rfl, hsession⟩
  | dispatches ch delivery session ha hsession ht =>
    subst ha ht
    exact Or.inr ⟨_, rfl, hsession⟩
  | hub b connection session ha hmove ht =>
    subst ha ht
    obtain ⟨hquiet, rfl⟩ | ⟨c, htold, hsession⟩ := HubConnection.told_of_move hmove
    · exact Or.inl ⟨by rw [sessionLabel, hquiet]; rfl, rfl⟩
    · exact Or.inr ⟨_, by rw [sessionLabel, htold]; rfl, hsession⟩

/-! ## What the page sees -/

/-- The step of the page in a step of the system. -/
def pageLabel (s : State) : Label → Option Page.Label
  | .session (.page b) => some b
  | .session (.respond n response) => some (.respond n response)
  | .session _ => none
  | .hub b => s.told b

/-- The same of `Live`. -/
def livePageLabel (w : Live.State) : Live.Label → Option Page.Label
  | .page b => some b
  | .respond n response => some (.respond n response)
  | .execute ok => w.told (.execute ok)
  | .complete => w.told .complete
  | .push => w.told .push
  | .serve .. | .deliver .. => none

/-- The state of `Live` is that of the system, as far as it goes: a handle is issued once its
execution has returned it, and an answer is there as long as somebody waits for it. -/
structure Refines (s : State) (w : Live.State) : Prop where
  page : w.page = s.session.page
  groups : w.groups = s.groups
  completions : w.completions = s.completions
  wire : w.wire = s.wire
  issued : ∀ {h flow}, w.issued h = some flow → Session.Returned s.session flow h
  answers : ∀ {n response}, w.answers n = some response ↔
    s.session.page.requests n ≠ none ∧ s.session.response n = some response
  /-- What was returned and is registered has the same buffer. -/
  buffered : ∀ {h}, w.issued h ≠ none → s.session.useCases.backend.coordinator.IsRegistered ⟨h⟩ →
    w.coordinator.messagesByHandle ⟨h⟩
      = s.session.useCases.backend.coordinator.messagesByHandle ⟨h⟩

theorem refines_initial : Refines .initial .initial where
  page := rfl
  groups := rfl
  completions := rfl
  wire := rfl
  issued := nofun
  answers := iff_of_false nofun fun h ↦ h.1 rfl
  buffered h := absurd rfl h

variable {w : Live.State} {session : Session.State}

/-- Whoever is in a group has a handle that was returned. -/
theorem issued_of_mem_groups (hw : ∃ bs, run Live.step .initial bs = some w) (hh : h ∈ w.groups) :
    w.issued h ≠ none := by
  obtain ⟨bs, hrun⟩ := hw
  have hheard := Live.heard_of_run hrun
  rcases hheard.groups h hh with hshown | hfinished
  · obtain ⟨flow, hlisted⟩ := Page.mem_shown.mp hshown
    rw [hheard.known.listed hlisted]
    exact Option.some_ne_none flow
  · exact (hheard.finished h hfinished).1.1

/-! ### The backend rests, or moves out of sight -/

theorem Refines.of_quiet (hr : Refines s w)
    (hpage : session.page = s.session.page)
    (hreturned : ∀ {flow h}, Session.Returned s.session flow h → Session.Returned session flow h)
    (hresponse : ∀ {n}, s.session.page.requests n ≠ none →
      session.response n = s.session.response n)
    (hbuffered : ∀ {h}, w.issued h ≠ none →
      session.useCases.backend.coordinator.IsRegistered ⟨h⟩ →
        session.useCases.backend.coordinator.messagesByHandle ⟨h⟩
          = s.session.useCases.backend.coordinator.messagesByHandle ⟨h⟩) :
    Refines { s with session } w := by
  refine ⟨hr.page.trans hpage.symm, hr.groups, hr.completions, hr.wire,
    fun h ↦ hreturned (hr.issued h), fun {n response} ↦ ?_, fun {h} hissued hregistered ↦ ?_⟩
  · refine hr.answers.trans ?_
    rw [hpage]
    exact and_congr_right fun hpending ↦ by rw [hresponse hpending]
  · have hsame := hbuffered hissued hregistered
    refine (hr.buffered hissued ?_).trans hsame.symm
    unfold SubscriptionCoordinator.IsRegistered
    rw [← hsame]
    exact hregistered

/-! ### The page moves -/

theorem liveStep_page {b : Page.Label} {page : Page.State}
    (hb : Rests (.page b)) (hrespond : ∀ n response, b ≠ .respond n response)
    (hlisted : ∀ flow id, b = .unsubscribe flow id → id ∈ w.page.listed flow)
    (hstep : Page.step w.page b = some page) : Live.step w (.page b) = some { w with page } := by
  cases b with
  | respond n response => exact absurd rfl (hrespond n response)
  | settled ok => exact absurd rfl (hb.1 ok)
  | messageReceived message => exact absurd rfl (hb.2.1 message)
  | onreconnecting => exact absurd rfl hb.2.2.1
  | onclose => exact absurd rfl hb.2.2.2.1
  | unsubscribe flow id =>
    rw [Live.step, Live.stepPage, if_pos (hlisted flow id rfl), hstep]
    rfl
  | _ => exact congrArg (Option.map fun page ↦ { w with page }) hstep

theorem Refines.of_page {b : Page.Label} {page : Page.State} (hr : Refines s w)
    (hs : Session.Serving s.session) (hrespond : ∀ n response, b ≠ .respond n response)
    (hstep : Page.step s.session.page b = some page) :
    Refines { s with session := s.session.moved page } { w with page } := by
  have e := Page.effect_of_step hstep
  refine ⟨rfl, hr.groups, hr.completions, hr.wire, hr.issued, fun {n response} ↦ ?_, hr.buffered⟩
  refine hr.answers.trans (and_congr_left fun hresponse ↦ ⟨fun hpending ↦ ?_, fun hpending ↦ ?_⟩)
  · obtain ⟨request, hrequest⟩ := Option.ne_none_iff_exists'.mp hpending
    have hkept := (e.requests_kept (hs.numbered n request hrequest) hrequest).resolve_right (by
      rintro ⟨response', heq⟩
      exact hrespond n response' heq)
    change page.requests n ≠ none
    rw [hkept]
    exact Option.some_ne_none request
  · obtain ⟨request, hrequest⟩ := Option.ne_none_iff_exists'.mp hpending
    rcases e.requests hrequest with ⟨hold, -⟩ | ⟨rfl, -⟩
    · rw [hold]
      exact Option.some_ne_none request
    · obtain ⟨outcome, hprogress, -⟩ := Session.response_eq_some.mp hresponse
      cases (hs.fresh le_rfl).2.symm.trans hprogress

theorem Refines.of_answer {response : Response} {page : Page.State} {joined : Finset Guid}
    (hr : Refines s w) (hs : Session.Serving s.session)
    (hstep : Page.step s.session.page (.respond n response) = some page) :
    Refines { s with session := { s.session with page } }
      { w with page, answers := Function.update w.answers n none, joined } := by
  have hrequests : ∀ {m}, page.requests m ≠ none ↔ s.session.page.requests m ≠ none ∧ m ≠ n := by
    intro m
    simp only [Option.ne_none_iff_exists', Session.requests_of_answer hs.numbered hstep]
    exact ⟨fun ⟨request, hm, hne⟩ ↦ ⟨⟨request, hm⟩, hne⟩,
      fun ⟨⟨request, hm⟩, hne⟩ ↦ ⟨request, hm, hne⟩⟩
  refine ⟨rfl, hr.groups, hr.completions, hr.wire, hr.issued, fun {m response'} ↦ ?_, hr.buffered⟩
  change Function.update w.answers n none m = _ ↔ page.requests m ≠ none ∧ _
  rw [hrequests]
  by_cases hmn : m = n
  · rw [hmn, Function.update_self]
    exact iff_of_false nofun fun hh ↦ hh.1.2 rfl
  · rw [Function.update_of_ne hmn]
    exact hr.answers.trans (and_congr_left fun _ ↦ (and_iff_left hmn).symm)

/-! ### The backend moves -/

theorem response_congr {u v : Session.State}
    (hprogress : v.useCases.progress (.request n) = u.useCases.progress (.request n)) :
    v.response n = u.response n := by
  unfold Session.State.response
  rw [hprogress]

theorem response_of_update {u v : Session.State} {i : Source} {p : UseCases.Progress}
    (hprogress : v.useCases.progress = Function.update u.useCases.progress i p)
    (hbefore : ∀ outcome, u.useCases.progress i ≠ .returned outcome)
    (hafter : ∀ outcome, p ≠ .returned outcome) : v.response n = u.response n := by
  by_cases hni : Source.request n = i
  · refine Option.ext fun response ↦ ?_
    rw [Session.response_eq_some, Session.response_eq_some, hprogress, hni, Function.update_self]
    refine iff_of_false ?_ ?_
    · rintro ⟨outcome, h, -⟩
      exact hafter outcome h
    · rintro ⟨outcome, h, -⟩
      exact hbefore outcome h
  · exact response_congr (by rw [hprogress, Function.update_of_ne hni])

theorem ne_of_issued {i : Source} {handle : SubscriptionHandle} (hr : Refines s w)
    (hs : Session.Serving s.session) (hheld : s.session.useCases.held i = some handle)
    (hunder : ∀ outcome, s.session.useCases.progress i ≠ .returned outcome)
    (hissued : w.issued h ≠ none) : (⟨h⟩ : SubscriptionHandle) ≠ handle := by
  rintro rfl
  obtain ⟨flow, hflow⟩ := Option.ne_none_iff_exists'.mp hissued
  obtain ⟨n, hn⟩ := hr.issued hflow
  obtain rfl := hs.ordered.held_unique hheld (Session.held_of_returned hs.ordered hn)
  obtain ⟨outcome, hprogress, -⟩ := Session.returned_eq_some.mp hn
  exact hunder outcome hprogress

/-- The handle of an execution that is under way is fresh. -/
theorem issued_eq_none {i : Source} {handle : SubscriptionHandle} (hr : Refines s w)
    (hs : Session.Serving s.session) (hheld : s.session.useCases.held i = some handle)
    (hunder : ∀ outcome, s.session.useCases.progress i ≠ .returned outcome) :
    w.issued handle.value = none := by
  by_contra hissued
  exact ne_of_issued hr hs hheld hunder hissued rfl

theorem Refines.of_create {outcome : UseCases.Outcome} {flow : Flow} {c : SubscriptionCoordinator}
    (hr : Refines s w) (hpage : session.page = s.session.page)
    (hreturned : ∀ {flow h}, Session.Returned s.session flow h → Session.Returned session flow h)
    (hpending : s.session.page.requests n ≠ none)
    (hprogress : session.useCases.progress
      = Function.update s.session.useCases.progress (.request n) (.returned outcome))
    (hhandle : (Session.responseOf outcome).handle = some (flow, h))
    (hbuffered : ∀ {id}, id = h ∨ w.issued id ≠ none →
      session.useCases.backend.coordinator.IsRegistered ⟨id⟩ →
        c.messagesByHandle ⟨id⟩ = session.useCases.backend.coordinator.messagesByHandle ⟨id⟩) :
    Refines { s with session } { w with
      coordinator := c
      issued := Function.update w.issued h (some flow)
      answers := Function.update w.answers n (some (Session.responseOf outcome)) } := by
  have hself : session.useCases.progress (.request n) = .returned outcome := by
    rw [hprogress, Function.update_self]
  refine ⟨hr.page.trans hpage.symm, hr.groups, hr.completions, hr.wire, fun {id flow'} hid ↦ ?_,
    fun {m response} ↦ ?_, fun {id} hid hregistered ↦ hbuffered ?_ hregistered⟩
  · by_cases hidh : id = h
    · subst hidh
      change Function.update w.issued id (some flow) id = some flow' at hid
      rw [Function.update_self] at hid
      cases hid
      exact ⟨n, Session.returned_eq_some.mpr ⟨outcome, hself, hhandle⟩⟩
    · change Function.update w.issued h (some flow) id = some flow' at hid
      rw [Function.update_of_ne hidh] at hid
      exact hreturned (hr.issued hid)
  · change Function.update w.answers n _ m = some response ↔ session.page.requests m ≠ none ∧
      session.response m = some response
    rw [hpage]
    by_cases hmn : m = n
    · subst hmn
      rw [Function.update_self, Session.response_eq_some, hself]
      constructor
      · intro hresponse
        exact ⟨hpending, outcome, rfl, Option.some.inj hresponse⟩
      · rintro ⟨-, outcome', houtcome, hresponse⟩
        cases houtcome
        rw [hresponse]
    · rw [Function.update_of_ne hmn, response_congr (u := s.session)]
      · exact hr.answers
      · rw [hprogress, Function.update_of_ne]
        rintro ⟨⟩
        exact hmn rfl
  · by_cases hidh : id = h
    · exact Or.inl hidh
    · refine Or.inr ?_
      change Function.update w.issued h (some flow) id ≠ none at hid
      rwa [Function.update_of_ne hidh] at hid

/-- What was buffered before can be delivered when nobody is in the group. -/
theorem leads_deliver {buffer : List BusMessage} (messages : List BusMessage)
    (hgroup : h ∉ w.groups) (hbuffer : w.coordinator.messagesByHandle ⟨h⟩ = some buffer) :
    Leads Live.step livePageLabel w none fun w' ↦ ∃ c, w' = { w with coordinator := c } ∧
      c.messagesByHandle ⟨h⟩ = some (buffer ++ messages) ∧
        ∀ id ≠ h, c.messagesByHandle ⟨id⟩ = w.coordinator.messagesByHandle ⟨id⟩ := by
  induction messages generalizing w buffer with
  | nil => exact .rest ⟨w.coordinator, rfl, by rw [hbuffer, List.append_nil], fun _ _ ↦ rfl⟩
  | cons message messages ih =>
    have hstep : Live.step w (.deliver h message)
        = some { w with coordinator := w.coordinator.onMessageReceived ⟨h⟩ message } := by
      rw [Live.step, Live.State.broadcast, if_neg hgroup, List.append_nil]
    have hnext : (w.coordinator.onMessageReceived ⟨h⟩ message).messagesByHandle ⟨h⟩
        = some (buffer ++ [message]) := by
      rw [SubscriptionCoordinator.messagesByHandle_onMessageReceived, if_pos rfl, hbuffer]
      rfl
    refine Leads.trans (Leads.one hstep rfl rfl) ?_
    rintro w' rfl
    obtain ⟨bs, w', hbs, hsees, c, rfl, hself, hothers⟩ := ih
      (w := { w with coordinator := w.coordinator.onMessageReceived ⟨h⟩ message }) hgroup hnext
    refine ⟨bs, _, hbs, hsees, c, rfl, ?_, fun id hid ↦ (hothers id hid).trans ?_⟩
    · rw [hself, List.append_assoc]
      rfl
    · rw [SubscriptionCoordinator.messagesByHandle_onMessageReceived, if_neg]
      rintro ⟨⟩
      exact hid rfl

/-- A request is served by the statement by which its execution returns. -/
theorem liveStep_create {request : Request} {outcome : UseCases.Outcome} {flow : Flow}
    (hrequest : w.page.requests n = some request) (hnone : w.answers n = none)
    (hserves : Session.Serves request (.returned outcome))
    (hhandle : (Session.responseOf outcome).handle = some (flow, h)) (hfresh : w.issued h = none) :
    Live.step w (.serve n (Session.responseOf outcome)) = some { w with
      coordinator := w.coordinator.register ⟨h⟩
      issued := Function.update w.issued h (some flow)
      answers := Function.update w.answers n (some (Session.responseOf outcome)) } := by
  cases hserves with
  | subscribed | sent =>
    cases hhandle
    simp [Live.step, hrequest, hnone, Live.State.serve, Live.State.create, Session.responseOf,
      hfresh]
  | unsubscribed => cases hhandle

theorem liveStep_unsubscribed {flow : Flow}
    (hrequest : w.page.requests n = some (.unsubscribe flow h)) (hnone : w.answers n = none) :
    Live.step w (.serve n .unsubscribed) = some { w with
      coordinator := w.coordinator.unregister ⟨h⟩
      answers := Function.update w.answers n (some .unsubscribed) } := by
  simp [Live.step, hrequest, hnone, Live.State.serve]

theorem Refines.answers_eq_none (hr : Refines s w)
    (hunder : ∀ outcome, s.session.useCases.progress (.request n) ≠ .returned outcome) :
    w.answers n = none := by
  refine Option.eq_none_iff_forall_ne_some.mpr fun response hresponse ↦ ?_
  obtain ⟨outcome, hprogress, -⟩ := Session.response_eq_some.mp (hr.answers.mp hresponse).2
  exact hunder outcome hprogress

theorem response_of_unawaited {i : Source} {p : UseCases.Progress}
    (hprogress : session.useCases.progress
      = Function.update s.session.useCases.progress i p)
    (hnobody : ∀ n, i = .request n → s.session.page.requests n = none)
    (hn : s.session.page.requests n ≠ none) : session.response n = s.session.response n := by
  refine response_congr ?_
  rw [hprogress, Function.update_of_ne]
  rintro rfl
  exact hn (hnobody n rfl)

section Returns

variable {handle : SubscriptionHandle} {request : Request}

theorem Refines.leads_subscribed (hr : Refines s w) (hs : Session.Serving s.session)
    (hpage : session.page = s.session.page)
    (hreturned : ∀ {flow h}, Session.Returned s.session flow h → Session.Returned session flow h)
    (hrequest : s.session.page.requests n = some request)
    (hfrom : s.session.useCases.progress (.request n) = .subscribeAssigned handle)
    (hprogress : session.useCases.progress = Function.update s.session.useCases.progress
      (.request n) (.returned (.subscribed handle)))
    (hcoordinator : session.useCases.backend.coordinator
      = s.session.useCases.backend.coordinator.register handle) :
    Leads Live.step livePageLabel w none (Refines { s with session }) := by
  have hunder : ∀ outcome, s.session.useCases.progress (.request n) ≠ .returned outcome := by
    rw [hfrom]
    exact nofun
  have hheld : s.session.useCases.held (.request n) = some handle :=
    hs.ordered.held_of_assigned (by rw [hfrom]; rfl)
  have hserves : Session.Serves request (.returned (.subscribed handle)) := by
    have hbefore := hs.serves hrequest
    rw [hfrom] at hbefore
    cases hbefore with
    | subscribeAssigned queueName => exact .subscribed queueName handle
  refine .one (liveStep_create (hr.page ▸ hrequest) (hr.answers_eq_none hunder) hserves rfl
    (issued_eq_none hr hs hheld hunder)) rfl
      (hr.of_create hpage hreturned (hrequest ▸ Option.some_ne_none _) hprogress rfl ?_)
  intro id hid hregistered
  rw [hcoordinator] at hregistered ⊢
  rw [SubscriptionCoordinator.messagesByHandle_register,
    SubscriptionCoordinator.messagesByHandle_register]
  by_cases hidh : id = handle.value
  · subst hidh
    rw [if_pos rfl, if_pos rfl]
  · have hne := ne_of_issued hr hs hheld hunder (hid.resolve_left hidh)
    rw [if_neg hne, if_neg hne]
    exact hr.buffered (hid.resolve_left hidh)
      ((SubscriptionCoordinator.isRegistered_register.mp hregistered).resolve_left hne)

/-- `SendMessageWithReplyUseCase` returns. What was buffered for the subscription since it was
registered is delivered to `Live` at once. -/
theorem Refines.leads_sent {correlationId : Utf16} (hr : Refines s w)
    (hs : Session.Serving s.session) (hgroups : ∀ {h}, h ∈ w.groups → w.issued h ≠ none)
    (hpage : session.page = s.session.page)
    (hreturned : ∀ {flow h}, Session.Returned s.session flow h → Session.Returned session flow h)
    (hrequest : s.session.page.requests n = some request)
    (hfrom : s.session.useCases.progress (.request n) = .sending handle correlationId)
    (hprogress : session.useCases.progress = Function.update s.session.useCases.progress
      (.request n) (.returned (.sent ⟨handle, correlationId⟩)))
    (hcoordinator : session.useCases.backend.coordinator
      = s.session.useCases.backend.coordinator) :
    Leads Live.step livePageLabel w none (Refines { s with session }) := by
  have hunder : ∀ outcome, s.session.useCases.progress (.request n) ≠ .returned outcome := by
    rw [hfrom]
    exact nofun
  have hheld : s.session.useCases.held (.request n) = some handle :=
    hs.ordered.held_of_reached (by rw [hfrom]; rfl)
  have hserves : Session.Serves request (.returned (.sent ⟨handle, correlationId⟩)) := by
    have hbefore := hs.serves hrequest
    rw [hfrom] at hbefore
    cases hbefore with
    | sending body => exact .sent body handle correlationId
  have hfresh : w.issued handle.value = none := issued_eq_none hr hs hheld hunder
  refine Leads.trans (.one (liveStep_create (hr.page ▸ hrequest) (hr.answers_eq_none hunder)
    hserves rfl hfresh) rfl rfl) ?_
  rintro w' rfl
  have hempty : (w.coordinator.register ⟨handle.value⟩).messagesByHandle ⟨handle.value⟩
      = some [] := SubscriptionCoordinator.messagesByHandle_register.trans (if_pos rfl)
  refine Leads.trans (leads_deliver (s.session.useCases.backend.coordinator.getMessages handle)
    (fun hh ↦ hgroups hh hfresh) hempty) ?_
  rintro w' ⟨c, rfl, hself, hothers⟩
  refine .rest (hr.of_create hpage hreturned (hrequest ▸ Option.some_ne_none _) hprogress rfl ?_)
  intro id hid hregistered
  rw [hcoordinator] at hregistered ⊢
  by_cases hidh : id = handle.value
  · subst hidh
    obtain ⟨queue, hqueue⟩ := Option.isSome_iff_exists.mp hregistered
    rw [hself, SubscriptionCoordinator.getMessages, hqueue]
    rfl
  · have hissued := hid.resolve_left hidh
    rw [hothers id hidh, SubscriptionCoordinator.messagesByHandle_register,
      if_neg (ne_of_issued hr hs hheld hunder hissued)]
    exact hr.buffered hissued hregistered

theorem Refines.leads_unsubscribed (hr : Refines s w) (hs : Session.Serving s.session)
    (hpage : session.page = s.session.page)
    (hreturned : ∀ {flow h}, Session.Returned s.session flow h → Session.Returned session flow h)
    (hrequest : s.session.page.requests n = some request)
    (hfrom : s.session.useCases.progress (.request n) = .unsubscribing handle)
    (hprogress : session.useCases.progress = Function.update s.session.useCases.progress
      (.request n) (.returned .done))
    (hcoordinator : session.useCases.backend.coordinator
      = s.session.useCases.backend.coordinator.unregister handle) :
    Leads Live.step livePageLabel w none (Refines { s with session }) := by
  have hunder : ∀ outcome, s.session.useCases.progress (.request n) ≠ .returned outcome := by
    rw [hfrom]
    exact nofun
  have hself : session.useCases.progress (.request n) = .returned .done := by
    rw [hprogress, Function.update_self]
  have hserves := hs.serves hrequest
  rw [hfrom] at hserves
  cases hserves with
  | unsubscribing flow id =>
    refine .one (liveStep_unsubscribed (hr.page ▸ hrequest) (hr.answers_eq_none hunder)) rfl
      ⟨hr.page.trans hpage.symm, hr.groups, hr.completions, hr.wire,
        fun h ↦ hreturned (hr.issued h), fun {m response} ↦ ?_, fun {h} hissued hregistered ↦ ?_⟩
    · change Function.update w.answers n _ m = some response ↔ session.page.requests m ≠ none ∧
        session.response m = some response
      rw [hpage]
      by_cases hmn : m = n
      · subst hmn
        rw [Function.update_self, Session.response_eq_some, hself, hrequest]
        constructor
        · intro hresponse
          exact ⟨Option.some_ne_none _, .done, rfl, Option.some.inj hresponse⟩
        · rintro ⟨-, outcome, houtcome, hresponse⟩
          cases houtcome
          rw [← hresponse]
          rfl
      · rw [Function.update_of_ne hmn, response_congr (u := s.session)]
        · exact hr.answers
        · rw [hprogress, Function.update_of_ne]
          rintro ⟨⟩
          exact hmn rfl
    · rw [hcoordinator] at hregistered ⊢
      obtain ⟨hne, hregistered⟩ := SubscriptionCoordinator.isRegistered_unregister.mp hregistered
      have hkept : ∀ c : SubscriptionCoordinator,
          (c.unregister ⟨id⟩).messagesByHandle ⟨h⟩ = c.messagesByHandle ⟨h⟩ := fun c ↦
        SubscriptionCoordinator.messagesByHandle_unregister.trans (if_neg hne)
      exact (hkept _).trans ((hr.buffered hissued hregistered).trans (hkept _).symm)

end Returns

theorem leads_of_useCases {b : UseCases.Label Source} (hr : Refines s w)
    (hs : Session.Serving s.session) (hgroups : ∀ {h}, h ∈ w.groups → w.issued h ≠ none)
    (hstep : UseCases.step s.session.useCases b = some session.useCases)
    (hpage : session.page = s.session.page) (hb : ∀ ch delivery, b ≠ .dispatch ch delivery) :
    Leads Live.step livePageLabel w none (Refines { s with session }) := by
  have hreturned : ∀ {flow h}, Session.Returned s.session flow h →
      Session.Returned session flow h := fun h ↦ h.of_step hstep
  -- the request that the execution is for may have failed in the meantime
  have hawaited : ∀ i : Source, (∃ n request, i = .request n ∧
      s.session.page.requests n = some request) ∨
        ∀ n, i = .request n → s.session.page.requests n = none := by
    intro i
    by_cases hawaited : ∃ n request, i = .request n ∧ s.session.page.requests n = some request
    · exact Or.inl hawaited
    · refine Or.inr fun n hi ↦ Option.eq_none_iff_forall_ne_some.mpr fun request hrequest ↦ ?_
      exact hawaited ⟨n, request, hi, hrequest⟩
  cases UseCases.registers_of_step hs.ordered hstep with
  | rests hcoordinator hreturns =>
    refine .rest (hr.of_quiet hpage hreturned (fun {n} hpending ↦ Option.ext fun response ↦ ?_)
      fun _ _ ↦ by rw [hcoordinator])
    simp only [Session.response_eq_some]
    refine exists_congr fun outcome ↦ and_congr_left fun _ ↦
      ⟨fun hprogress ↦ (hreturns hprogress).resolve_right fun hcalling ↦ ?_,
        UseCases.returned_of_step hstep⟩
    obtain ⟨request, hrequest⟩ := Option.ne_none_iff_exists'.mp hpending
    have hserves := hs.serves hrequest
    rw [hcalling] at hserves
    cases hserves
  | subscribes i handle hfrom hprogress hcoordinator =>
    rcases hawaited i with ⟨n, request, rfl, hrequest⟩ | hnobody
    · exact hr.leads_subscribed hs hpage hreturned hrequest hfrom hprogress hcoordinator
    · refine .rest (hr.of_quiet hpage hreturned (response_of_unawaited hprogress hnobody)
        fun hissued _ ↦ ?_)
      have hheld : s.session.useCases.held i = some handle :=
        hs.ordered.held_of_assigned (by rw [hfrom]; rfl)
      rw [hcoordinator, SubscriptionCoordinator.messagesByHandle_register,
        if_neg (ne_of_issued hr hs hheld (by rw [hfrom]; exact nofun) hissued)]
  | registers i command handle queueName hfrom hprogress hcoordinator =>
    have hheld : s.session.useCases.held i = some handle :=
      hs.ordered.held_of_assigned (by rw [hfrom]; rfl)
    have hunder : ∀ outcome, s.session.useCases.progress i ≠ .returned outcome := by
      rw [hfrom]
      exact nofun
    refine .rest (hr.of_quiet hpage hreturned
      (fun _ ↦ response_of_update hprogress hunder nofun) fun hissued _ ↦ ?_)
    rw [hcoordinator, SubscriptionCoordinator.messagesByHandle_register,
      if_neg (ne_of_issued hr hs hheld hunder hissued)]
  | replies i handle correlationId hfrom hprogress hcoordinator =>
    rcases hawaited i with ⟨n, request, rfl, hrequest⟩ | hnobody
    · exact hr.leads_sent hs hgroups hpage hreturned hrequest hfrom hprogress hcoordinator
    · exact .rest (hr.of_quiet hpage hreturned (response_of_unawaited hprogress hnobody)
        fun _ _ ↦ by rw [hcoordinator])
  | drops i handle ex hfrom hprogress hcoordinator =>
    have hheld : s.session.useCases.held i = some handle :=
      hs.ordered.held_of_reached (by rw [hfrom]; rfl)
    have hunder : ∀ outcome, s.session.useCases.progress i ≠ .returned outcome := by
      rw [hfrom]
      exact nofun
    refine .rest (hr.of_quiet hpage hreturned
      (fun _ ↦ response_of_update hprogress hunder nofun) fun hissued _ ↦ ?_)
    rw [hcoordinator, SubscriptionCoordinator.messagesByHandle_unregister,
      if_neg (ne_of_issued hr hs hheld hunder hissued)]
  | unsubscribes i handle hfrom hprogress hcoordinator =>
    rcases hawaited i with ⟨n, request, rfl, hrequest⟩ | hnobody
    · exact hr.leads_unsubscribed hs hpage hreturned hrequest hfrom hprogress hcoordinator
    · refine .rest (hr.of_quiet hpage hreturned (response_of_unawaited hprogress hnobody)
        fun {h} hissued hregistered ↦ ?_)
      rw [hcoordinator] at hregistered ⊢
      rw [SubscriptionCoordinator.messagesByHandle_unregister,
        if_neg (SubscriptionCoordinator.isRegistered_unregister.mp hregistered).1]
  | dispatches ch delivery ha => exact absurd ha (hb ch delivery)

/-- A delivery is dispatched. It is one to `Live` if its handle was returned, and otherwise nobody
is in the group. -/
theorem leads_of_dispatch {ch : RabbitMqAdapter.ChannelId} {delivery : Delivery}
    (hr : Refines s w) (hgroups : ∀ {h}, h ∈ w.groups → w.issued h ≠ none)
    (hstep : UseCases.step s.session.useCases (.dispatch ch delivery) = some session.useCases)
    (hpage : session.page = s.session.page) :
    Leads Live.step livePageLabel w none
      (Refines ⟨s.broadcast (s.session.useCases.broadcast ch delivery), session⟩) := by
  rw [HubConnection.broadcast]
  have hreturned : ∀ {flow h}, Session.Returned s.session flow h →
      Session.Returned session flow h := fun h ↦ h.of_step hstep
  obtain ⟨hcoordinator, hprogress⟩ : session.useCases.backend.coordinator
      = Backend.handle s.session.useCases.backend
        (s.session.useCases.backend.adapter.channels ch).openedBy delivery ∧
          session.useCases.progress = s.session.useCases.progress := by
    obtain ⟨backend, hback, huseCases⟩ := Option.map_eq_some_iff.mp hstep
    rw [← huseCases, Backend.dispatch_spec hback]
    exact ⟨rfl, rfl⟩
  have hresponse : ∀ {n}, session.response n = s.session.response n :=
    response_congr (by rw [hprogress])
  rcases UseCases.broadcast_cases s.session.useCases ch delivery with
    ⟨hsame, hnothing⟩ | ⟨handle, message, hregistered, hnew, hone⟩
  · rw [hnothing, HubConnection.pushes, List.filterMap_nil, List.append_nil]
    exact .rest (hr.of_quiet hpage hreturned (fun _ ↦ hresponse)
      fun _ _ ↦ by rw [hcoordinator, hsame])
  · have hpushes : s.pushes (s.session.useCases.broadcast ch delivery)
        = (s.send handle message).toList := by
      rw [hone, HubConnection.pushes]
      cases hsend : s.send handle message <;> simp [hsend]
    rw [hpushes]
    by_cases hissued : w.issued handle.value = none
    · have hnobody : s.send handle message = none :=
        if_neg fun hh ↦ hgroups (hr.groups ▸ hh) hissued
      rw [hnobody, Option.toList_none, List.append_nil]
      refine .rest (hr.of_quiet hpage hreturned (fun _ ↦ hresponse) fun {h} hh _ ↦ ?_)
      have hne : (⟨h⟩ : SubscriptionHandle) ≠ handle := by
        rintro rfl
        exact hh hissued
      rw [hcoordinator, hnew, SubscriptionCoordinator.messagesByHandle_onMessageReceived,
        if_neg hne]
    · have hbuffer : w.coordinator.messagesByHandle handle
          = s.session.useCases.backend.coordinator.messagesByHandle handle :=
        hr.buffered hissued hregistered
      have hwire : w.broadcast handle.value message = (s.send handle message).toList := by
        have haccepted : w.coordinator.accepted handle message = [message] := by
          refine if_pos ?_
          unfold SubscriptionCoordinator.IsRegistered
          rw [hbuffer]
          exact hregistered
        unfold Live.State.broadcast HubConnection.send
        rw [hr.groups, haccepted]
        split <;> rfl
      have hlive : Live.step w (.deliver handle.value message) = some { w with
          coordinator := w.coordinator.onMessageReceived handle message
          wire := w.wire ++ (s.send handle message).toList } := by
        rw [Live.step, hwire]
      refine .one hlive rfl ⟨hr.page.trans hpage.symm, hr.groups, hr.completions, by rw [hr.wire],
        fun h ↦ hreturned (hr.issued h), fun {n response} ↦ ?_, fun {h} hh hh' ↦ ?_⟩
      · rw [hpage, hresponse]
        exact hr.answers
      · rw [hcoordinator, hnew, SubscriptionCoordinator.isRegistered_onMessageReceived] at hh'
        rw [hcoordinator, hnew]
        simp only [SubscriptionCoordinator.messagesByHandle_onMessageReceived, hbuffer,
          hr.buffered hh hh']

/-! ### The refinement -/

/-- What the simulation relates: the state of the system, and a state that `Live` can reach. -/
structure Matches (s : State) (w : Live.State) : Prop where
  serving : Session.Serving s.session
  reachable : ∃ bs, run Live.step .initial bs = some w
  refines : Refines s w

theorem matches_initial : Matches .initial .initial where
  serving := Session.serving_initial
  reachable := ⟨[], rfl⟩
  refines := refines_initial

theorem Matches.leads {o : Option Page.Label} (hm : Matches s w)
    (ht : Session.Serving t.session) (hleads : Leads Live.step livePageLabel w o (Refines t)) :
    Leads Live.step livePageLabel w o (Matches t) := by
  obtain ⟨bs, w', hbs, hsees, hrefines⟩ := hleads
  obtain ⟨as, has⟩ := hm.reachable
  refine ⟨bs, w', hbs, hsees, ht, ⟨as ++ bs, ?_⟩, hrefines⟩
  rw [run_append, has]
  exact hbs

theorem leads_of_session {b : Session.Label} (hr : Refines s w) (hs : Session.Serving s.session)
    (hgroups : ∀ {h}, h ∈ w.groups → w.issued h ≠ none) (hb : Rests b)
    (hstep : Session.step s.session b = some session) :
    Leads Live.step livePageLabel w (pageLabel s (.session b)) (Refines { s with session }) := by
  cases Session.step_cases hstep with
  | page c ha hrespond hlisted hpage ht =>
    subst ha
    rw [ht]
    refine .one (liveStep_page hb hrespond ?_ (hr.page.symm ▸ hpage)) rfl
      (hr.of_page hs hrespond hpage)
    rw [hr.page]
    exact hlisted
  | arrives n request ha hunderway huseCases hpage hothers =>
    subst ha
    exact leads_of_useCases hr hs hgroups huseCases hpage nofun
  | others n useCase ha hcalling huseCases hpage hunderway =>
    subst ha
    exact leads_of_useCases hr hs hgroups huseCases hpage nofun
  | serves c ha hbegin huseCases hpage hunderway =>
    subst ha
    refine leads_of_useCases hr hs hgroups huseCases hpage ?_
    rintro ch delivery rfl
    exact hb.2.2.2.2 ch delivery rfl
  | responds n response ha hresponse hpage ht =>
    subst ha
    rw [ht]
    have hanswer : w.answers n = some response ∨ response.isFailure = true := by
      refine hresponse.imp_left fun hresponse ↦ hr.answers.mpr ⟨?_, hresponse⟩
      intro hnone
      simp [Page.step, hnone] at hpage
    have hlive : Live.step w (.respond n response) = some { w with
        page := session.page
        answers := Function.update w.answers n none
        joined := w.joinedAfter n } := by
      rw [Live.step, if_pos hanswer, hr.page, hpage]
      rfl
    exact .one hlive rfl (hr.of_answer hs hpage)

theorem leads_of_hub {b : HubConnection.Label} {connection : HubConnection} (hr : Refines s w)
    (hs : Session.Serving s.session)
    (hmove : s.move s.session.page.invocations (fun c ↦ Session.step s.session (.page c)) s.session
      b = some (connection, session)) :
    Leads Live.step livePageLabel w (pageLabel s (.hub b)) (Refines ⟨connection, session⟩) := by
  have hsame : w.toHubConnection = s.toHubConnection :=
    HubConnection.ext hr.groups hr.completions hr.wire
  cases HubConnection.move_cases hmove with
  | executes ok invocation ha hnext hd hsession =>
    subst ha hd hsession
    have hlive : Live.step w (.execute ok)
        = some { w with toHubConnection := w.execute ok invocation } := by
      rw [Live.step, hr.page, hr.completions, hnext]
    rw [hsame] at hlive
    exact .one hlive rfl ⟨hr.page, rfl, rfl, rfl, hr.issued, hr.answers, hr.buffered⟩
  | completes ok rest ha hcompletions hd hsession =>
    subst ha hd
    obtain ⟨page, hpage, rfl⟩ := Session.page_of_step hsession
    have hr' := hr.of_page hs (by rintro n response ⟨⟩) hpage
    obtain ⟨invocation, invocations, hinvocations⟩ :
        ∃ invocation invocations, s.session.page.invocations = invocation :: invocations := by
      cases hinvocations : s.session.page.invocations with
      | nil => simp [Page.step, hinvocations] at hpage
      | cons invocation invocations => exact ⟨invocation, invocations, rfl⟩
    have hlive : Live.step w .complete = some { w with
        page
        completions := rest
        joined := if ok then invocation.record w.joined else w.joined } := by
      simp only [Live.step, hr.page, hr.completions, hcompletions, hinvocations]
      rw [hpage]
      rfl
    refine .one hlive ?_ ⟨rfl, hr.groups, rfl, hr.wire, hr'.issued, hr'.answers, hr'.buffered⟩
    rw [livePageLabel, pageLabel, hsame]
  | arrives message rest ha hwire hd hsession =>
    subst ha hd
    obtain ⟨page, hpage, rfl⟩ := Session.page_of_step hsession
    have hr' := hr.of_page hs (by rintro n response ⟨⟩) hpage
    have hlive : Live.step w .push = some { w with page, wire := rest } := by
      simp only [Live.step, hr.wire, hwire, hr.page]
      rw [hpage]
      rfl
    refine .one hlive ?_ ⟨rfl, hr.groups, hr.completions, rfl, hr'.issued, hr'.answers,
      hr'.buffered⟩
    rw [livePageLabel, pageLabel, hsame]

theorem simulates : Simulates step Live.step pageLabel livePageLabel Matches := by
  intro s a t w hm hstep
  obtain ⟨hs, hw, hr⟩ := hm
  have ht : Session.Serving t.session := by
    rcases projects_session hstep with ⟨-, hsame⟩ | ⟨b, -, hb⟩
    · rw [hsame]
      exact hs
    · exact Session.serving_step hs hb
  refine Matches.leads ⟨hs, hw, hr⟩ ht ?_
  have hgroups : ∀ {h}, h ∈ w.groups → w.issued h ≠ none := fun hh ↦ issued_of_mem_groups hw hh
  cases step_cases hstep with
  | session b session ha hb hsession ht' =>
    subst ha ht'
    exact leads_of_session hr hs hgroups hb hsession
  | loses b session ha hb hsession ht' =>
    subst ha ht'
    obtain ⟨page, hpage, rfl⟩ := Session.page_of_step hsession
    have hrespond : ∀ n response, b ≠ .respond n response := by
      rintro n response rfl
      rcases hb with hb | hb <;> cases hb
    have hr' := hr.of_page hs hrespond hpage
    have hlive : Live.step w (.page b) = some (w.lose page) := by
      rcases hb with rfl | rfl
      · exact congrArg (Option.map w.lose) (hr.page.symm ▸ hpage)
      · exact congrArg (Option.map w.lose) (hr.page.symm ▸ hpage)
    exact .one hlive rfl ⟨rfl, rfl, rfl, rfl, hr'.issued, hr'.answers, hr'.buffered⟩
  | dispatches ch delivery session ha hsession ht' =>
    subst ha ht'
    obtain ⟨useCases, huseCases, rfl⟩ := Option.map_eq_some_iff.mp hsession
    exact leads_of_dispatch hr hgroups huseCases rfl
  | hub b connection session ha hmove ht' =>
    subst ha ht'
    exact leads_of_hub hr hs hmove

/-- **The page cannot tell the system from `Live`.** Whatever it sees in a run of the system it sees
in a run of `Live` that leads to the same state, as far as the page and its connection go, with the
same buffers for the entries that are shown. -/
theorem refines_of_run (hrun : run step .initial as = some t) :
    ∃ bs w, run Live.step .initial bs = some w ∧
      observed Live.step livePageLabel .initial bs = observed step pageLabel .initial as ∧
        Refines t w ∧ ∀ h ∈ t.session.page.shown, w.issued h ≠ none := by
  obtain ⟨bs, w, hbs, hsees, hm⟩ := exists_run_of_simulates simulates matches_initial hrun
  refine ⟨bs, w, hbs, hsees, hm.refines, fun h hh ↦ ?_⟩
  obtain ⟨flow, hlisted⟩ := Page.mem_shown.mp hh
  rw [(Live.heard_of_run hbs).known.listed (hm.refines.page ▸ hlisted)]
  exact Option.some_ne_none flow

open RabbitMqAdapter.Label (succeed)

private def inquiry : SendRequest where
  endpoint := .withReply
  exchange := []
  routingKey := Utf16.ofString "inquiries"
  payload := Utf16.ofString "when"
  headers := .empty
  correlationId := none

/-- An answer with the payload `am` or `pm`. -/
private def hour (half : UInt8) : Delivery where
  exchange := []
  routingKey := Utf16.ofString "amq.gen-2"
  body := [half, 0x6D]
  replyTo := none
  correlationId := none

/-- The page sends with reply. One answer comes while the use case awaits `SendAsync`, and another
after the page has joined the group. -/
private def answeredEarlyAndLate : List Label :=
  [.session (.other 0 (.teardown (.connect .localhost))),
    .session (.server (.adapter (succeed (.other 0, .first)))),
    .session (.server (.adapter (succeed (.other 0, .first)))),
    .session (.server (.proceed (.other 0) ⟨0⟩)), .session (.page (.sendWithReply inquiry)),
    .session (.arrive 0), .session (.server (.adapter (succeed (.request 0, .first)))),
    .session (.server (.adapter (.resume (.request 0, .first)
      (.declared (Utf16.ofString "amq.gen-2")) ⟨0⟩))),
    .session (.server (.adapter (.brokerConsumes 0))),
    .session (.server (.adapter (.resume (.request 0, .first) .completed ⟨7⟩))),
    .session (.server (.adapter (succeed (.request 0, .first)))),
    .session (.server (.proceed (.request 0) ⟨0⟩)), .session (.server (.proceed (.request 0) ⟨0⟩)),
    .session (.server (.proceed (.request 0) ⟨8⟩)),
    .session (.server (.adapter (succeed (.request 0, .send)))),
    .session (.server (.dispatch 0 (hour 0x61))),
    .session (.server (.adapter (succeed (.request 0, .send)))),
    .session (.server (.adapter (succeed (.request 0, .send)))),
    .session (.server (.proceed (.request 0) ⟨0⟩)),
    .session (.respond 0 (.sent ⟨7⟩ (Guid.toString ⟨8⟩))), .session (.page (.started true)),
    .session (.page .startSettled), .hub (.execute true), .hub .complete,
    .session (.server (.dispatch 0 (hour 0x70))), .hub .push]

theorem refines_of_answeredEarlyAndLate : ∃ w : Live.State,
    (w.page.hub.received ⟨7⟩).map MessageReceivedDto.payload = [Utf16.ofString "pm"] ∧
      (w.coordinator.getMessages ⟨⟨7⟩⟩).map BusMessage.payload
        = [Utf16.ofString "am", Utf16.ofString "pm"] := by
  obtain ⟨bs, w, -, -, hr, hshown⟩ := refines_of_run
    (show run step .initial answeredEarlyAndLate = some _ from rfl)
  refine ⟨w, by rw [hr.page]; decide, ?_⟩
  have hbuffer := hr.buffered (hshown ⟨7⟩ (by decide)) (by decide)
  rw [SubscriptionCoordinator.getMessages, hbuffer]
  decide

end System

end BusTester
