import BusTester.Client.ConnectComponent
import BusTester.Infrastructure.OneTeardown
import BusTester.Live.Session
import BusTester.Transition.Projection

/-!
# The connect panel and the adapter

The connect panel is the only client of `ConnectAsync` and `DisconnectAsync`, and its template
disables the controls while a request is in flight. The adapter needs this discipline:
`ConnectionLifecycle`, `SubscriptionRegistry` and `Teardown` show what goes wrong when teardowns
overlap. As long as a request fails in the browser only when its call is not running on the server
and will not begin there any more (`FailsAtRest`), the discipline reaches the adapter
(`oneAtATime_of_run`), and the badge can be believed (`truthful_of_run`).

The other use cases run beside: their calls begin and move at any time.
-/

namespace BusTester

namespace Connecting

open ConnectComponent (connectingBadge disconnectingBadge connectedBadge)
open RabbitMqAdapter (Call ConnectionId OneAtATime factoryOf)
open Session (Source)
open Transition

/-! ## States and steps -/

inductive Request where
  | connect (body : ConnectBody)
  | disconnect
deriving DecidableEq

/-- The badge while the request is in flight. -/
def Request.badge : Request → Utf16
  | .connect _ => connectingBadge
  | .disconnect => disconnectingBadge

/-- The configuration that the controller builds, if it does. -/
def configOf (body : ConnectBody) : Option BusConnectionConfig :=
  body.bound.bind fun request ↦ (ConnectionsController.buildConfig request).toOption

/-- The call that the controller makes, if it does. -/
def callOf : Request → Option Call
  | .connect body => (configOf body).map fun config ↦ .teardown (.connect config)
  | .disconnect => some (.teardown .disconnect)

/-- The panel, the adapter, the requests that the panel waits for, and those that have not reached
the controller. -/
structure State where
  panel : ConnectComponent
  adapter : RabbitMqAdapter.State Source
  nextRequest : ℕ
  requests : ℕ → Option Request
  underway : ℕ → Option Request

def State.initial : State where
  panel := .initial
  adapter := .initial
  nextRequest := 0
  requests := fun _ ↦ none
  underway := fun _ ↦ none

inductive Label where
  | edit (e : ConnectComponent.Edit)
  | connect
  | disconnect
  /-- The request `n` reaches its controller. -/
  | arrive (n : ℕ)
  /-- The request `n` is lost on its way. -/
  | lose (n : ℕ)
  /-- Another call of the adapter begins. -/
  | other (n : ℕ) (call : Call)
  /-- A step of the adapter, other than the beginning of a call. -/
  | adapter (a : RabbitMqAdapter.Label Source)
  /-- The call of the request `n` has returned, and the panel hears of it. -/
  | succeed (n : ℕ)
  /-- The request `n` fails, with the detail of a problem or without one. -/
  | fail (n : ℕ) (detail : Option Utf16)

namespace State

/-- The panel has made a request. -/
def post (s : State) (panel : ConnectComponent) (request : Request) : State :=
  { s with
    panel
    nextRequest := s.nextRequest + 1
    requests := Function.update s.requests s.nextRequest (some request)
    underway := Function.update s.underway s.nextRequest (some request) }

/-- The request `n` is answered. -/
def settle (s : State) (n : ℕ) (panel : ConnectComponent) : State :=
  { s with panel, requests := Function.update s.requests n none }

/-- The call of the request `n` has returned. -/
def hasReturned (s : State) (n : ℕ) : Bool := (s.adapter.calls (.request n)).hasReturned

end State

/-- The success callback. -/
def onSuccess (panel : ConnectComponent) : Request → ConnectComponent
  | .connect _ => panel.onConnected
  | .disconnect => panel.onDisconnected

/-- The error callback. -/
def onFailure (panel : ConnectComponent) (detail : Option Utf16) : Request → ConnectComponent
  | .connect _ => panel.onConnectFailed detail
  | .disconnect => panel.onDisconnected

/-- One step. -/
def step (s : State) : Label → Option State
  | .edit e =>
    if s.panel.connectDisabled then none else some { s with panel := s.panel.edit e }
  | .connect =>
    if s.panel.connectDisabled then none
    else some (s.post s.panel.connect (.connect s.panel.body))
  | .disconnect =>
    if s.panel.disconnectDisabled then none else some (s.post s.panel.disconnect .disconnect)
  | .arrive n =>
    match s.underway n with
    | none => none
    | some request =>
      match callOf request with
      -- The body is not bound, or `BuildConfig` throws.
      | none => some { s with underway := Function.update s.underway n none }
      | some call => (RabbitMqAdapter.step s.adapter (.start (.request n) call)).map fun adapter ↦
          { s with adapter, underway := Function.update s.underway n none }
  | .lose n => some { s with underway := Function.update s.underway n none }
  | .other n call =>
    match call with
    | .teardown _ => none
    | .send _ | .consume _ | .unsubscribe _ =>
      (RabbitMqAdapter.step s.adapter (.start (.other n) call)).map fun adapter ↦ { s with adapter }
  | .adapter a =>
    match a with
    | .start .. => none
    | .resume .. | .brokerConsumes _ | .connectionLost _ | .channelLost _ =>
      (RabbitMqAdapter.step s.adapter a).map fun adapter ↦ { s with adapter }
  | .succeed n =>
    match s.requests n with
    | none => none
    | some request =>
      if s.hasReturned n then some (s.settle n (onSuccess s.panel request)) else none
  | .fail n detail =>
    match s.requests n with
    | none => none
    | some request => some (s.settle n (onFailure s.panel detail request))

variable {s t : State} {a : Label} {as : List Label} {n m : ℕ} {request : Request}
  {body : ConnectBody}

/-! ## The property and the condition -/

/-- A request fails in the browser only when its call is not running, and will not. -/
def FailsAtRest (s : State) : Label → Prop
  | .fail n _ => s.underway n = none ∧ (s.adapter.calls (.request n)).atRest = true
  | _ => True

instance (s : State) : DecidablePred (FailsAtRest s)
  | .fail n _ =>
    inferInstanceAs (Decidable (s.underway n = none ∧ (s.adapter.calls (.request n)).atRest = true))
  | .edit _ | .connect | .disconnect | .arrive _ | .lose _ | .other .. | .adapter _ | .succeed _ =>
    isTrue trivial

/-- The adapter holds a connection that was made with what the body says. -/
def Holds (s : State) (body : ConnectBody) : Prop :=
  ∃ config c, configOf body = some config ∧ s.adapter.connection = some c ∧
    (s.adapter.connections c).factory = factoryOf config

/-- What the panel shows is so. -/
structure Truthful (s : State) : Prop where
  one : ∀ {n m}, s.requests n ≠ none → s.requests m ≠ none → n = m
  /-- The badge names the request in flight. -/
  badge : ∀ {n request}, s.requests n = some request → s.panel.brokerStatus = some request.badge
  /-- A panel that shows the connection shows the settings it was made with. -/
  connected : s.panel.brokerStatus = some connectedBadge → Holds s s.panel.body
  /-- Without a badge nothing is in flight, and no badge stands next to an error. -/
  idle : s.panel.brokerStatus = none → ∀ n, s.requests n = none
  error : s.panel.errorMessage ≠ none → s.panel.brokerStatus = none

theorem requests_post (panel : ConnectComponent) : (s.post panel request).requests
    = Function.update s.requests s.nextRequest (some request) := rfl

theorem underway_post (panel : ConnectComponent) : (s.post panel request).underway
    = Function.update s.underway s.nextRequest (some request) := rfl

theorem requests_settle (panel : ConnectComponent) :
    (s.settle n panel).requests = Function.update s.requests n none := rfl

/-- The step of the adapter that a step runs. -/
def adapterLabel (s : State) : Label → Option (RabbitMqAdapter.Label Source)
  | .arrive n => ((s.underway n).bind callOf).map fun call ↦ .start (.request n) call
  | .other n call => some (.start (.other n) call)
  | .adapter a => some a
  | _ => none

def adapterLabels (as : List Label) : List (RabbitMqAdapter.Label Source) :=
  observed step adapterLabel State.initial as

/-! ## The steps, sorted -/

/-- What a step can be, with the step of the adapter that it runs. -/
inductive StepCases (s : State) (a : Label) (t : State) : Prop where
  | edits (e : ConnectComponent.Edit) (hfree : s.panel.connectDisabled = false)
    (ht : t = { s with panel := s.panel.edit e }) (hlabel : adapterLabel s a = none)
  | connects (hfree : s.panel.connectDisabled = false)
    (ht : t = s.post s.panel.connect (.connect s.panel.body)) (hlabel : adapterLabel s a = none)
  | disconnects (hfree : s.panel.disconnectDisabled = false)
    (ht : t = s.post s.panel.disconnect .disconnect) (hlabel : adapterLabel s a = none)
  | drops (n : ℕ) (ht : t = { s with underway := Function.update s.underway n none })
    (hlabel : adapterLabel s a = none)
  | arrives (n : ℕ) (request : Request) (call : Call) (hunderway : s.underway n = some request)
    (hcall : callOf request = some call)
    (hstep : RabbitMqAdapter.step s.adapter (.start (.request n) call) = some t.adapter)
    (ht : t = { s with
      adapter := t.adapter
      underway := Function.update s.underway n none })
    (hlabel : adapterLabel s a = some (.start (.request n) call))
  | runs (b : RabbitMqAdapter.Label Source) (hb : ∀ n call, b ≠ .start (.request n) call)
    (hcalls : ∀ i caller, b ≠ .start i (.teardown caller))
    (hstep : RabbitMqAdapter.step s.adapter b = some t.adapter)
    (ht : t = { s with adapter := t.adapter }) (hlabel : adapterLabel s a = some b)
  | succeeds (n : ℕ) (request : Request) (hrequest : s.requests n = some request)
    (hreturned : s.hasReturned n = true) (ht : t = s.settle n (onSuccess s.panel request))
    (hlabel : adapterLabel s a = none)
  | fails (n : ℕ) (detail : Option Utf16) (request : Request) (ha : a = .fail n detail)
    (hrequest : s.requests n = some request)
    (ht : t = s.settle n (onFailure s.panel detail request)) (hlabel : adapterLabel s a = none)

theorem step_cases (hstep : step s a = some t) : StepCases s a t := by
  cases a with
  | edit e =>
    obtain ⟨hfree, ht⟩ := Option.ite_none_left_eq_some.mp hstep
    exact .edits e (Bool.not_eq_true _ ▸ hfree) (Option.some.inj ht).symm rfl
  | connect =>
    obtain ⟨hfree, ht⟩ := Option.ite_none_left_eq_some.mp hstep
    exact .connects (Bool.not_eq_true _ ▸ hfree) (Option.some.inj ht).symm rfl
  | disconnect =>
    obtain ⟨hfree, ht⟩ := Option.ite_none_left_eq_some.mp hstep
    exact .disconnects (Bool.not_eq_true _ ▸ hfree) (Option.some.inj ht).symm rfl
  | arrive n =>
    simp only [step] at hstep
    split at hstep
    · cases hstep
    · rename_i request hunderway
      split at hstep
      · rename_i hcall
        cases hstep
        exact .drops n rfl (by simp [adapterLabel, hunderway, hcall])
      · rename_i call hcall
        obtain ⟨adapter, hadapter, rfl⟩ := Option.map_eq_some_iff.mp hstep
        exact .arrives n request call hunderway hcall hadapter rfl
          (by simp [adapterLabel, hunderway, hcall])
  | lose n =>
    cases hstep
    exact .drops n rfl rfl
  | other n call =>
    cases call with
    | teardown => cases hstep
    | send | consume | unsubscribe =>
      obtain ⟨adapter, hadapter, rfl⟩ := Option.map_eq_some_iff.mp hstep
      refine .runs _ ?_ ?_ hadapter rfl rfl
      · rintro m call ⟨⟩
      · rintro i caller ⟨⟩
  | adapter b =>
    have hruns :
        (RabbitMqAdapter.step s.adapter b).map (fun adapter ↦ { s with adapter }) = some t →
          RabbitMqAdapter.step s.adapter b = some t.adapter ∧
            t = { s with adapter := t.adapter } := by
      intro hmap
      obtain ⟨adapter, hadapter, rfl⟩ := Option.map_eq_some_iff.mp hmap
      exact ⟨hadapter, rfl⟩
    cases b with
    | start => cases hstep
    | resume | brokerConsumes | connectionLost | channelLost =>
      obtain ⟨hadapter, ht⟩ := hruns hstep
      refine .runs _ ?_ ?_ hadapter ht rfl
      · rintro m call ⟨⟩
      · rintro i caller ⟨⟩
  | succeed n =>
    simp only [step] at hstep
    split at hstep
    · cases hstep
    · rename_i request hrequest
      obtain ⟨hreturned, ht⟩ := Option.ite_none_right_eq_some.mp hstep
      exact .succeeds n request hrequest hreturned (Option.some.inj ht).symm rfl
  | fail n detail =>
    simp only [step] at hstep
    split at hstep
    · cases hstep
    · rename_i request hrequest
      exact .fails n detail request rfl hrequest (Option.some.inj hstep).symm rfl

/-- **A run of the panel and the adapter is a run of the adapter.** -/
theorem projects_adapter : Projects step RabbitMqAdapter.step State.adapter adapterLabel := by
  intro s a t hstep
  cases step_cases hstep with
  | edits e hfree ht hlabel => exact Or.inl ⟨hlabel, by rw [ht]⟩
  | connects hfree ht hlabel => exact Or.inl ⟨hlabel, by rw [ht]; rfl⟩
  | disconnects hfree ht hlabel => exact Or.inl ⟨hlabel, by rw [ht]; rfl⟩
  | drops n ht hlabel => exact Or.inl ⟨hlabel, by rw [ht]⟩
  | arrives n request call hunderway hcall hadapter ht hlabel => exact Or.inr ⟨_, hlabel, hadapter⟩
  | runs b hb hcalls hadapter ht hlabel => exact Or.inr ⟨b, hlabel, hadapter⟩
  | succeeds n request hrequest hreturned ht hlabel => exact Or.inl ⟨hlabel, by rw [ht]; rfl⟩
  | fails n detail request ha hrequest ht hlabel => exact Or.inl ⟨hlabel, by rw [ht]; rfl⟩

/-! ## What keeps the panel and the adapter together -/

/-- At most one request is in flight, the panel shows which, and only its call tears down. -/
structure Steady (s : State) : Prop where
  one : ∀ {n m}, s.requests n ≠ none → s.requests m ≠ none → n = m
  pending : s.panel.pending = true ↔ ∃ n, s.requests n ≠ none
  connecting : ∀ {n body}, s.requests n = some (.connect body) →
    s.panel.connected = false ∧ body = s.panel.body
  disconnecting : ∀ {n}, s.requests n = some .disconnect → s.panel.connected = true
  error : s.panel.errorMessage ≠ none → s.panel.pending = false ∧ s.panel.connected = false
  numbered : ∀ {n}, s.nextRequest ≤ n →
    s.underway n = none ∧ s.requests n = none ∧ s.adapter.calls (.request n) = .idle
  underway : ∀ {n request}, s.underway n = some request →
    s.requests n = some request ∧ s.adapter.calls (.request n) = .idle
  working : ∀ {n}, (s.adapter.calls (.request n)).atRest = false → s.requests n ≠ none
  /-- Only the panel connects and disconnects. -/
  teardowns : ∀ {i}, (s.adapter.calls i).inTeardown = true → ∃ n, i = .request n
  within : ∀ {n body}, s.requests n = some (.connect body) →
    s.adapter.calls (.request n) = .idle ∨ ∃ config, configOf body = some config ∧
      (s.adapter.calls (.request n)).Within (.teardown (.connect config))
  made : ∀ {n body}, s.requests n = some (.connect body) → s.hasReturned n = true → Holds s body
  shown : s.panel.connected = true → s.panel.pending = false → Holds s s.panel.body

theorem steady_initial : Steady State.initial where
  one h := absurd rfl h
  pending := iff_of_false nofun fun ⟨_, h⟩ ↦ h rfl
  connecting := nofun
  disconnecting := nofun
  error h := absurd rfl h
  numbered _ := ⟨rfl, rfl, rfl⟩
  underway := nofun
  working := nofun
  teardowns := nofun
  within := nofun
  made := nofun
  shown := nofun

theorem Steady.none_of_free (hs : Steady s) (hfree : s.panel.pending = false) (n : ℕ) :
    s.requests n = none := by
  by_contra hn
  exact absurd (hs.pending.mpr ⟨n, hn⟩) (by simp [hfree])

/-- A teardown that is under way is the call of the request in flight. -/
theorem Steady.of_inTeardown (hs : Steady s) {i : Source}
    (hi : (s.adapter.calls i).inTeardown = true) :
    ∃ n, i = .request n ∧ s.requests n ≠ none := by
  obtain ⟨n, rfl⟩ := hs.teardowns hi
  refine ⟨n, rfl, hs.working ?_⟩
  generalize s.adapter.calls (.request n) = pc at hi
  cases pc <;> first | rfl | cases hi

theorem Steady.truthful (hs : Steady s) : Truthful s := by
  refine ⟨hs.one, fun {n request} hrequest ↦ ?_, fun hbadge ↦ ?_, fun hnone n ↦ ?_, fun herror ↦ ?_⟩
  · have hpending : s.panel.pending = true := hs.pending.mpr ⟨n, by simp [hrequest]⟩
    cases request with
    | connect body =>
      obtain ⟨hconnected, -⟩ := hs.connecting hrequest
      simp [ConnectComponent.brokerStatus, hpending, hconnected, Request.badge]
    | disconnect =>
      have hconnected := hs.disconnecting hrequest
      simp [ConnectComponent.brokerStatus, hpending, hconnected, Request.badge]
  · obtain ⟨hpending, hconnected⟩ := ConnectComponent.brokerStatus_eq_connectedBadge.mp hbadge
    exact hs.shown hconnected hpending
  · exact hs.none_of_free (ConnectComponent.brokerStatus_eq_none.mp hnone).1 n
  · exact ConnectComponent.brokerStatus_eq_none.mpr (hs.error herror)

/-! ### The adapter moves -/

/-- A connection that is held stays, with its settings, while no teardown is under way. -/
theorem Holds.of_adapter {b : RabbitMqAdapter.Label Source} (h : Holds s body)
    (hstep : RabbitMqAdapter.step s.adapter b = some t.adapter)
    (hnot : ∀ i awaited newGuid, b = .resume i awaited newGuid →
      (s.adapter.calls i).inTeardown = false) : Holds t body := by
  obtain ⟨config, c, hconfig, hconnection, hfactory⟩ := h
  obtain ⟨hsame, hwears⟩ := RabbitMqAdapter.wears_of_step hstep hnot
  refine ⟨config, c, hconfig, ?_, ?_⟩
  · rw [hsame]
    exact hconnection
  · rw [hwears.factory]
    exact hfactory

private theorem calls_of_adapter {b : RabbitMqAdapter.Label Source} {i : Source}
    (hb : ∀ call, b ≠ .start i call)
    (hstep : RabbitMqAdapter.step s.adapter b = some t.adapter) :
    (s.adapter.calls i = .idle → t.adapter.calls i = .idle) ∧
      ((t.adapter.calls i).atRest = false → (s.adapter.calls i).atRest = false) := by
  rcases RabbitMqAdapter.calls_of_step (i := i) hstep with
    hsame | ⟨-, call, heq, -⟩ | ⟨awaited, newGuid, -, hresume⟩
  · rw [hsame]
    exact ⟨id, id⟩
  · exact absurd heq (hb call)
  · refine ⟨fun hidle ↦ ?_, fun _ ↦ ?_⟩
    · simp [RabbitMqAdapter.resume, hidle] at hresume
    · cases hcall : s.adapter.calls i with
      | idle | ended => simp [RabbitMqAdapter.resume, hcall] at hresume
      | _ => rfl

theorem hasReturned_iff : s.hasReturned n = true ↔
    ∃ result, s.adapter.calls (.request n) = .ended (.ok result) :=
  RabbitMqAdapter.Pc.hasReturned_iff

/-- The call of the request in flight has just returned, or had returned before. -/
private theorem Steady.made_of_step {b : RabbitMqAdapter.Label Source} (hs : Steady s)
    (hstep : RabbitMqAdapter.step s.adapter b = some t.adapter)
    (hrequest : s.requests n = some (.connect body)) (hreturned : t.hasReturned n = true) :
    Holds t body := by
  by_cases hbefore : s.hasReturned n = true
  · refine (hs.made hrequest hbefore).of_adapter hstep fun i awaited newGuid hb ↦ ?_
    -- A teardown under way would be the call of this request, which has returned.
    by_contra hteardown
    rw [Bool.not_eq_false] at hteardown
    obtain ⟨m, rfl, hm⟩ := hs.of_inTeardown hteardown
    obtain rfl := hs.one hm (by simp [hrequest] : s.requests n ≠ none)
    obtain ⟨result', hcall⟩ := hasReturned_iff.mp hbefore
    rw [hcall] at hteardown
    cases hteardown
  · rw [Bool.not_eq_true] at hbefore
    rcases hs.within hrequest with hidle | ⟨config, hconfig, hwithin⟩
    · rcases RabbitMqAdapter.calls_of_step (i := .request n) hstep with
        hsame | ⟨-, call, -, hstart⟩ | ⟨awaited, newGuid, -, hresume⟩
      · rw [State.hasReturned, hsame, hidle] at hreturned
        cases hreturned
      · rw [State.hasReturned, hstart] at hreturned
        cases (RabbitMqAdapter.hasReturned_start call).symm.trans hreturned
      · simp [RabbitMqAdapter.resume, hidle] at hresume
    · obtain ⟨c, hconnection, hfactory⟩ :=
        RabbitMqAdapter.connected_of_step hstep hwithin hbefore hreturned
      exact ⟨config, c, hconfig, hconnection, hfactory⟩

private theorem Steady.of_adapter {b : RabbitMqAdapter.Label Source} (hs : Steady s)
    (hstep : RabbitMqAdapter.step s.adapter b = some t.adapter) (hpanel : t.panel = s.panel)
    (hrequests : t.requests = s.requests) (hnext : t.nextRequest = s.nextRequest)
    (hunderway : ∀ {n request}, t.underway n = some request →
      s.underway n = some request ∧ ∀ call, b ≠ .start (.request n) call)
    (hstart : ∀ {n call}, b = .start (.request n) call →
      ∃ request, s.requests n = some request ∧ callOf request = some call)
    (hteardown : ∀ {i caller}, b = .start i (.teardown caller) → ∃ n, i = .request n) :
    Steady t := by
  have hquiet : ∀ {n}, s.requests n = none → ∀ call, b ≠ .start (.request n) call := by
    rintro n hnone call rfl
    obtain ⟨request, hrequest, -⟩ := hstart rfl
    cases hnone.symm.trans hrequest
  refine ⟨?_, ?_, ?_, ?_, ?_, fun {n} hn ↦ ?_, fun {n request} hn ↦ ?_, fun {n} hn ↦ ?_,
    fun {i} hi ↦ ?_, fun {n body} hn ↦ ?_, fun {n body} hn hreturned ↦ ?_,
    fun hconnected hpending ↦ ?_⟩
  · exact hrequests ▸ hs.one
  · exact hpanel ▸ hrequests ▸ hs.pending
  · exact hpanel ▸ hrequests ▸ hs.connecting
  · exact hpanel ▸ hrequests ▸ hs.disconnecting
  · exact hpanel ▸ hs.error
  · obtain ⟨hnone, hrequest, hidle⟩ := hs.numbered (hnext ▸ hn)
    refine ⟨?_, hrequests ▸ hrequest, (calls_of_adapter (hquiet hrequest) hstep).1 hidle⟩
    by_contra hsome
    obtain ⟨request, hsome⟩ := Option.ne_none_iff_exists'.mp hsome
    cases hnone.symm.trans (hunderway hsome).1
  · obtain ⟨hbefore, hb⟩ := hunderway hn
    obtain ⟨hrequest, hidle⟩ := hs.underway hbefore
    exact ⟨hrequests ▸ hrequest, (calls_of_adapter hb hstep).1 hidle⟩
  · rw [hrequests]
    by_cases hb : ∃ call, b = .start (.request n) call
    · obtain ⟨call, hb⟩ := hb
      obtain ⟨request, hrequest, -⟩ := hstart hb
      simp [hrequest]
    · rw [not_exists] at hb
      exact hs.working ((calls_of_adapter hb hstep).2 hn)
  · rcases RabbitMqAdapter.inTeardown_of_step hstep hi with hi | ⟨caller, hb⟩
    · exact hs.teardowns hi
    · exact hteardown hb
  · rw [hrequests] at hn
    rcases RabbitMqAdapter.calls_of_step (i := .request n) hstep with
      hsame | ⟨-, call, hb, heq⟩ | ⟨awaited, newGuid, -, hresume⟩
    · rw [hsame]
      exact hs.within hn
    · obtain ⟨request, hrequest, hcall⟩ := hstart hb
      cases hn.symm.trans hrequest
      obtain ⟨config, hconfig, rfl⟩ := Option.map_eq_some_iff.mp hcall
      rw [heq]
      exact Or.inr ⟨config, hconfig, RabbitMqAdapter.within_start _⟩
    · rcases hs.within hn with hidle | ⟨config, hconfig, hwithin⟩
      · simp [RabbitMqAdapter.resume, hidle] at hresume
      · exact Or.inr ⟨config, hconfig, RabbitMqAdapter.within_resume hwithin hresume⟩
  · exact hs.made_of_step hstep (hrequests ▸ hn) hreturned
  · rw [hpanel] at hconnected hpending ⊢
    refine (hs.shown hconnected hpending).of_adapter hstep fun i awaited newGuid _ ↦ ?_
    by_contra hteardown'
    obtain ⟨m, -, hm⟩ := hs.of_inTeardown (Bool.not_eq_false _ ▸ hteardown')
    exact hm (hs.none_of_free hpending m)

/-! ### The panel moves -/

private theorem Steady.of_edit (hs : Steady s) (hfree : s.panel.connectDisabled = false)
    (e : ConnectComponent.Edit) : Steady { s with panel := s.panel.edit e } := by
  obtain ⟨hconnected, hpending⟩ := Bool.or_eq_false_iff.mp hfree
  have hnone := hs.none_of_free hpending
  have hsame : (s.panel.edit e).connected = s.panel.connected ∧
      (s.panel.edit e).pending = s.panel.pending ∧
        (s.panel.edit e).errorMessage = s.panel.errorMessage := by
    cases e <;> exact ⟨rfl, rfl, rfl⟩
  refine ⟨hs.one, ?_, fun {n body} hn ↦ ?_, fun {n} hn ↦ ?_, ?_, hs.numbered, hs.underway,
    hs.working, hs.teardowns, hs.within, hs.made, fun hconnected' ↦ ?_⟩
  · rw [hsame.2.1]
    exact hs.pending
  · cases (hnone n).symm.trans hn
  · cases (hnone n).symm.trans hn
  · rw [hsame.1, hsame.2.1, hsame.2.2]
    exact hs.error
  · cases hconnected.symm.trans (hsame.1.symm.trans hconnected')

private theorem Steady.of_post {panel : ConnectComponent} (hs : Steady s)
    (hfree : s.panel.pending = false) (hpending : panel.pending = true)
    (herror : panel.errorMessage = none)
    (hconnect : ∀ body, request = .connect body → panel.connected = false ∧ body = panel.body)
    (hdisconnect : request = .disconnect → panel.connected = true) :
    Steady (s.post panel request) := by
  have hnone := hs.none_of_free hfree
  obtain ⟨hnew, -, hidle⟩ := hs.numbered le_rfl
  have honly : ∀ {n other}, (s.post panel request).requests n = some other →
      n = s.nextRequest ∧ other = request := by
    intro n other hn
    by_cases hnext : n = s.nextRequest
    · rw [requests_post, hnext, Function.update_self] at hn
      exact ⟨hnext, (Option.some.inj hn).symm⟩
    · rw [requests_post, Function.update_of_ne hnext, hnone n] at hn
      cases hn
  have hlast : (s.post panel request).requests s.nextRequest = some request :=
    Function.update_self ..
  refine ⟨fun {n m} hn hm ↦ ?_, iff_of_true hpending ⟨s.nextRequest, by simp [hlast]⟩,
    fun {n body} hn ↦ ?_, fun {n} hn ↦ ?_, fun h ↦ absurd herror h, fun {n} hn ↦ ?_,
    fun {n other} hn ↦ ?_, fun {n} hn ↦ ?_, hs.teardowns, fun {n body} hn ↦ ?_,
    fun {n body} hn hreturned ↦ ?_, fun _ hfree' ↦ ?_⟩
  · obtain ⟨other, hn⟩ := Option.ne_none_iff_exists'.mp hn
    obtain ⟨other', hm⟩ := Option.ne_none_iff_exists'.mp hm
    rw [(honly hn).1, (honly hm).1]
  · exact hconnect body (honly hn).2.symm
  · exact hdisconnect (honly hn).2.symm
  · have hle : s.nextRequest + 1 ≤ n := hn
    have hne : n ≠ s.nextRequest := by omega
    obtain ⟨hunderway, hrequest, hcall⟩ := hs.numbered (n := n) (by omega)
    refine ⟨?_, ?_, hcall⟩
    · rw [underway_post, Function.update_of_ne hne]
      exact hunderway
    · rw [requests_post, Function.update_of_ne hne]
      exact hrequest
  · by_cases hnext : n = s.nextRequest
    · subst hnext
      rw [underway_post, Function.update_self] at hn
      exact ⟨hlast.trans hn, hidle⟩
    · rw [underway_post, Function.update_of_ne hnext] at hn
      cases (hnone n).symm.trans (hs.underway hn).1
  · exact absurd (hnone n) (hs.working hn)
  · rw [(honly hn).1]
    exact Or.inl hidle
  · obtain ⟨result, hcall⟩ := hasReturned_iff.mp hreturned
    rw [(honly hn).1] at hcall
    cases hidle.symm.trans hcall
  · cases hpending.symm.trans hfree'

private theorem Steady.of_drop (hs : Steady s) :
    Steady { s with underway := Function.update s.underway n none } := by
  have hbefore : ∀ {m other}, Function.update s.underway n none m = some other →
      s.underway m = some other := by
    intro m other hm
    by_cases hmn : m = n
    · rw [hmn, Function.update_self] at hm
      cases hm
    · rwa [Function.update_of_ne hmn] at hm
  refine ⟨hs.one, hs.pending, hs.connecting, hs.disconnecting, hs.error, fun {m} hm ↦ ?_,
    fun hm ↦ hs.underway (hbefore hm), hs.working, hs.teardowns, hs.within, hs.made, hs.shown⟩
  obtain ⟨hnone, hrest⟩ := hs.numbered hm
  refine ⟨?_, hrest⟩
  by_contra hsome
  obtain ⟨other, hsome⟩ := Option.ne_none_iff_exists'.mp hsome
  cases hnone.symm.trans (hbefore hsome)

private theorem Steady.of_settle {panel : ConnectComponent} (hs : Steady s)
    (hrequest : s.requests n = some request) (hunderway : s.underway n = none)
    (hrest : (s.adapter.calls (.request n)).atRest = true) (hpending : panel.pending = false)
    (herror : panel.errorMessage ≠ none → panel.connected = false)
    (hshown : panel.connected = true → Holds s panel.body) : Steady (s.settle n panel) := by
  have hothers : ∀ {m}, m ≠ n → s.requests m = none := by
    intro m hmn
    by_contra hm
    exact hmn (hs.one hm (by simp [hrequest]))
  have hnone : ∀ m, (s.settle n panel).requests m = none := by
    intro m
    by_cases hmn : m = n
    · rw [requests_settle, hmn, Function.update_self]
    · rw [requests_settle, Function.update_of_ne hmn, hothers hmn]
  refine ⟨fun hm ↦ absurd (hnone _) hm, iff_of_false ?_ ?_, fun hm ↦ ?_, fun hm ↦ ?_,
    fun h ↦ ⟨hpending, herror h⟩, fun {m} hm ↦ ?_, fun {m other} hm ↦ ?_, fun {m} hm ↦ ?_,
    hs.teardowns, fun hm ↦ ?_, fun hm ↦ ?_, fun hconnected _ ↦ hshown hconnected⟩
  · change ¬panel.pending = true
    simp [hpending]
  · rintro ⟨m, hm⟩
    exact hm (hnone m)
  · cases (hnone _).symm.trans hm
  · cases (hnone _).symm.trans hm
  · obtain ⟨hunderway', -, hcall⟩ := hs.numbered hm
    exact ⟨hunderway', hnone m, hcall⟩
  · have hmn : m ≠ n := by
      rintro rfl
      cases hunderway.symm.trans hm
    cases (hothers hmn).symm.trans (hs.underway hm).1
  · have hmn : m ≠ n := by
      rintro rfl
      cases hrest.symm.trans hm
    exact absurd (hothers hmn) (hs.working hm)
  · cases (hnone _).symm.trans hm
  · cases (hnone _).symm.trans hm

/-- The request reaches its controller, which makes the call. -/
private theorem Steady.of_arrive {call : Call} (hs : Steady s)
    (hunderway : s.underway n = some request) (hcall : callOf request = some call)
    (hadapter : RabbitMqAdapter.step s.adapter (.start (.request n) call) = some t.adapter)
    (ht : t = { s with
      adapter := t.adapter
      underway := Function.update s.underway n none }) : Steady t := by
  have hpanel : t.panel = s.panel := by rw [ht]
  have hrequests : t.requests = s.requests := by rw [ht]
  have hothers : t.underway = Function.update s.underway n none := by rw [ht]
  refine hs.of_adapter hadapter hpanel hrequests (by rw [ht]) (fun {m other} hm ↦ ?_)
    (fun {m call'} hb ↦ ?_) fun {i caller} hb ↦ ?_
  · rw [hothers] at hm
    have hmn : m ≠ n := by
      rintro rfl
      rw [Function.update_self] at hm
      cases hm
    rw [Function.update_of_ne hmn] at hm
    refine ⟨hm, fun call' hb ↦ ?_⟩
    cases hb
    exact hmn rfl
  · cases hb
    exact ⟨request, (hs.underway hunderway).1, hcall⟩
  · cases hb
    exact ⟨n, rfl⟩

/-- The panel hears of a call that has returned. -/
private theorem Steady.of_success (hs : Steady s) (hrequest : s.requests n = some request)
    (hreturned : s.hasReturned n = true) : Steady (s.settle n (onSuccess s.panel request)) := by
  obtain ⟨result, hcall⟩ := hasReturned_iff.mp hreturned
  have hunderway : s.underway n = none := by
    by_contra hsome
    obtain ⟨other, hsome⟩ := Option.ne_none_iff_exists'.mp hsome
    cases (hs.underway hsome).2.symm.trans hcall
  refine hs.of_settle hrequest hunderway (by rw [hcall]; rfl) ?_ (fun herror ↦ ?_) fun hshown ↦ ?_
  · cases request <;> rfl
  · -- An error was cleared when the request was made.
    have hpending : s.panel.pending = true := hs.pending.mpr ⟨n, by simp [hrequest]⟩
    have hkept : s.panel.errorMessage ≠ none := by
      cases request <;> exact herror
    cases hpending.symm.trans (hs.error hkept).1
  · cases request with
    | connect body =>
      obtain ⟨-, rfl⟩ := hs.connecting hrequest
      exact hs.made hrequest hreturned
    | disconnect => cases hshown

/-! ### Every step -/

theorem steady_step (hs : Steady s) (hfails : FailsAtRest s a) (hstep : step s a = some t) :
    Steady t := by
  cases step_cases hstep with
  | edits e hfree ht =>
    rw [ht]
    exact hs.of_edit hfree e
  | connects hfree ht =>
    obtain ⟨hconnected, hpending⟩ := Bool.or_eq_false_iff.mp hfree
    rw [ht]
    refine hs.of_post hpending rfl rfl (fun body hbody ↦ ?_) nofun
    cases hbody
    exact ⟨hconnected, rfl⟩
  | disconnects hfree ht =>
    obtain ⟨hconnected, hpending⟩ := Bool.or_eq_false_iff.mp hfree
    have hshown : s.panel.connected = true := by simpa using hconnected
    rw [ht]
    refine hs.of_post hpending rfl ?_ nofun fun _ ↦ hshown
    by_contra herror
    cases hshown.symm.trans (hs.error herror).2
  | drops n ht =>
    rw [ht]
    exact hs.of_drop
  | arrives n request call hunderway hcall hadapter ht =>
    exact hs.of_arrive hunderway hcall hadapter ht
  | runs b hb hcalls hadapter ht =>
    refine hs.of_adapter hadapter (by rw [ht]) (by rw [ht]) (by rw [ht])
      (fun {m other} hm ↦ ⟨?_, hb m⟩) (fun heq ↦ absurd heq (hb _ _))
      fun heq ↦ absurd heq (hcalls _ _)
    rw [ht] at hm
    exact hm
  | succeeds n request hrequest hreturned ht =>
    rw [ht]
    exact hs.of_success hrequest hreturned
  | fails n detail request ha hrequest ht =>
    subst ha
    rw [ht]
    refine hs.of_settle hrequest hfails.1 hfails.2 ?_ (fun _ ↦ ?_) fun hshown ↦ ?_
    · cases request <;> rfl
    · cases request <;> rfl
    · cases request <;> cases hshown

/-! ## What the panel can rely on, and the adapter -/

/-- **The badge can be believed**, in all runs in which no request fails while its call is running
or may still begin: a panel that shows a connection shows the settings it was made with, and one
that shows nothing has no request in flight. -/
theorem truthful_of_run (hfails : Guarded step FailsAtRest .initial as) :
    Along step Truthful .initial as :=
  along_of_guarded steady_initial (fun _ _ _ hs hfails hstep ↦ steady_step hs hfails hstep)
    (fun _ hs ↦ hs.truthful) hfails

/-- **The panel keeps the discipline that the adapter needs**: no teardown starts while another one
is under way. -/
theorem oneAtATime_of_run (hfails : Guarded step FailsAtRest .initial as)
    (hrun : run step .initial as = some t) :
    Guarded RabbitMqAdapter.step OneAtATime .initial (adapterLabels as) := by
  have hstarts : Guarded step (fun s a ↦ ∀ t b, step s a = some t → adapterLabel s a = some b →
      OneAtATime s.adapter b) State.initial as := by
    refine Guarded.of_invariant steady_initial
      (fun _ _ _ hs hfails hstep ↦ steady_step hs hfails hstep)
      (fun s a hs _ t b hstep hb ↦ ?_) hfails
    cases step_cases hstep with
    | arrives n request call hunderway hcall hadapter ht hlabel =>
      cases hlabel.symm.trans hb
      obtain ⟨hrequest, hidle⟩ := hs.underway hunderway
      -- A teardown under way would be the call of this request, which is only now begun.
      have hquiet : ∀ j, (s.adapter.calls j).inTeardown = false := by
        intro j
        by_contra hj
        rw [Bool.not_eq_false] at hj
        obtain ⟨m, rfl, hm⟩ := hs.of_inTeardown hj
        obtain rfl := hs.one hm (by simp [hrequest] : s.requests n ≠ none)
        rw [hidle] at hj
        cases hj
      cases call with
      | teardown caller => exact hquiet
      | send | consume | unsubscribe => trivial
    | runs b' hb' hcalls hadapter ht hlabel =>
      cases hlabel.symm.trans hb
      cases b with
      | start i call =>
        cases call with
        | teardown caller => exact absurd rfl (hcalls i caller)
        | send | consume | unsubscribe => trivial
      | resume | brokerConsumes | connectionLost | channelLost => trivial
    | edits e hfree ht hlabel | connects hfree ht hlabel | disconnects hfree ht hlabel
    | drops n ht hlabel | succeeds n request hrequest hreturned ht hlabel
    | fails n detail request ha hrequest ht hlabel => cases hlabel.symm.trans hb
  exact guarded_observed projects_adapter (fun h hstep hb ↦ h _ _ hstep hb) hrun hstarts

open RabbitMqAdapter.Label (succeed)

/-- The panel connects with its settings as they are. -/
private def connects : List Label :=
  [.connect, .arrive 0, .adapter (succeed (.request 0)), .adapter (succeed (.request 0)),
    .succeed 0]

theorem truthful_of_connects : ∃ t, run step .initial connects = some t ∧
    t.panel.brokerStatus = some connectedBadge ∧ Holds t t.panel.body := by
  have hfails : Guarded step FailsAtRest .initial connects := by decide
  exact ⟨_, rfl, rfl, ((truthful_of_run hfails).last rfl).connected rfl⟩

/-- **No teardown finds `null`, and no connection is orphaned**, in all runs in which no request
fails while its call is running or may still begin and, for the latter, in which every close
succeeds. -/
theorem tidy_of_run (hfails : Guarded step FailsAtRest .initial as)
    (hrun : run step .initial as = some t) :
    Guarded RabbitMqAdapter.step RabbitMqAdapter.NeverNull .initial (adapterLabels as) ∧
      (Guarded RabbitMqAdapter.step RabbitMqAdapter.ClosesSucceed .initial (adapterLabels as) →
        t.adapter.Quiescent → RabbitMqAdapter.NoOrphan t.adapter) := by
  have hone := oneAtATime_of_run hfails hrun
  refine ⟨RabbitMqAdapter.neverNull_of_oneAtATime hone, fun hcloses hquiescent ↦ ?_⟩
  have hrun' : run RabbitMqAdapter.step .initial (adapterLabels as) = some t.adapter :=
    run_observed projects_adapter hrun
  exact (RabbitMqAdapter.noOrphan_iff hcloses hrun' hquiescent).mpr
    (RabbitMqAdapter.overwritesNothing_of_oneAtATime hone)

/-- The panel disconnects, and the answer is lost after the call has ended. It connects again. -/
private def reconnects : List Label :=
  connects ++ [.disconnect, .arrive 1, .adapter (succeed (.request 1)),
    .adapter (succeed (.request 1)), .adapter (succeed (.request 1)), .fail 1 none,
    .edit (.host (Utf16.ofString "rabbit")), .connect, .arrive 2,
    .adapter (succeed (.request 2)), .adapter (succeed (.request 2)), .succeed 2]

theorem tidy_of_reconnects : ∃ t, run step .initial reconnects = some t ∧
    t.adapter.nextConnection = 2 ∧ RabbitMqAdapter.NoOrphan t.adapter := by
  have hfails : Guarded step FailsAtRest .initial reconnects := by decide
  obtain ⟨-, horphan⟩ := tidy_of_run hfails rfl
  refine ⟨_, rfl, rfl, horphan (by decide) ?_⟩
  rintro ((_ | _ | _ | n) | n) <;> rfl

end Connecting

end BusTester
