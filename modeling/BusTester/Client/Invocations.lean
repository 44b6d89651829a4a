import BusTester.Client.PageEffects

/-!
# What the page invokes

The third summary of a step of the page, `invokes_of_step`: a join is invoked by a continuation of
the resolved start promise, a leave when a DELETE is answered, and nothing else is invoked.

The start promise stays resolved for ever, while the connection may be lost and restored any number
of times. `isConnected_iff_of_issuesJoin` says what that means for the joins: they are invoked after
the connection was started, and on a connection that is up exactly if it has not reported a loss
since, or has reported after the last one that it is up again.
-/

namespace BusTester

namespace Page

open Transition

variable {s t : State} {a : Label} {as : List Label} {flow : Flow} {h : Guid}

theorem invocations_invoke (invocation : Invocation) : (s.invoke invocation).invocations
    = if s.IsConnected then s.invocations ++ [invocation] else s.invocations := by
  rcases (sameLists_invoke s invocation).2 with ⟨hup, hmore⟩ | ⟨hdown, hsame⟩
  · rw [if_pos hup, hmore]
  · rw [if_neg hdown, hsame]

/-! ## What a step invokes -/

/-- The step is the continuation of the start promise that calls `joinSubscription`. -/
def IssuesJoin (s : State) (a : Label) (join : Join) : Prop :=
  a = .startSettled ∧ s.hub.startPromise = some .resolved ∧ s.awaitingStart.head? = some join

theorem invokes_of_issuesJoin {join : Join} (hissues : IssuesJoin s a join)
    (hstep : step s a = some t) :
    t.invocations = (s.invoke (.joinSubscription join)).invocations ∧ t.shown = s.shown := by
  obtain ⟨rfl, hpromise, hhead⟩ := hissues
  cases moves_of_step hstep with
  | joins join' rest hresolved hawaiting =>
    rw [hawaiting] at hhead
    obtain rfl : join' = join := Option.some.inj hhead
    have hsame := (sameLists_invoke { s with awaitingStart := rest } (.joinSubscription join')).1
    refine ⟨?_, hsame.shown_eq⟩
    rw [invocations_invoke, invocations_invoke]
    rfl
  | skips join' rest hrejected hawaiting => cases hpromise.symm.trans hrejected

/-- What a step invokes, and which entries it leaves in the lists. -/
inductive Invokes (s : State) (a : Label) (t : State) : Prop where
  | nothing (hinvocations : t.invocations = s.invocations) (hshown : ∀ h ∈ s.shown, h ∈ t.shown)
  | join (join : Join) (hissues : IssuesJoin s a join)
      (hinvocations : t.invocations = (s.invoke (.joinSubscription join)).invocations)
      (hshown : t.shown = s.shown)
  | leave (id : Guid)
      (hinvocations : t.invocations = (s.invoke (.leaveSubscription id)).invocations)
      (hshown : ∀ h ∈ s.shown, h ≠ id → h ∈ t.shown)
  | settles (invocation : Invocation) (ok : Bool) (ha : a = .settled ok)
      (hinvocations : s.invocations = invocation :: t.invocations) (hshown : t.shown = s.shown)
  | loses (ha : a = .onreconnecting ∨ a = .onclose) (hinvocations : t.invocations = [])

private theorem Invokes.finishes (n : ℕ) (flow : Flow) (id : Guid) :
    Invokes s a ((s.answered n).finish flow id) := by
  have hsame : SameLists (s.answered n) ((s.answered n).invoke (.leaveSubscription id)) :=
    (sameLists_invoke _ _).1
  refine .leave id ?_ fun h hh hne ↦ ?_
  · rw [invocations_invoke]
    cases flow <;> exact invocations_invoke (s := s.answered n) (.leaveSubscription id)
  · refine mem_shown_drop ?_ hne
    rw [State.shown, State.listed, State.listed, hsame.subscriptions, hsame.pending]
    exact hh

/-- **What a step of the page invokes.** -/
theorem invokes_of_step (hstep : step s a = some t) : Invokes s a t := by
  have hmoves := moves_of_step hstep
  cases hmoves with
  | edits | refuses | subscribes | sends | unsubscribes | notSubscribed | notSent | started
  | receives | restores => exact .nothing rfl fun _ hh ↦ hh
  | subscribed n queueName id hrequest =>
    refine .nothing rfl fun h hh ↦ ?_
    rw [State.shown, List.mem_append] at hh ⊢
    refine hh.imp_left fun hlisted ↦ ?_
    rw [State.listed, MessagesComponent.onSubscribed, List.map_append]
    exact List.mem_append_left _ hlisted
  | sent n body id correlationId hrequest =>
    refine .nothing rfl fun h hh ↦ ?_
    rw [State.shown, List.mem_append] at hh ⊢
    refine hh.imp_right fun hlisted ↦ ?_
    rw [State.listed, List.map_append]
    exact List.mem_append_left _ hlisted
  | finishes n flow id response hrequest => exact .finishes n flow id
  | joins join rest hpromise hawaiting =>
    have hissues : IssuesJoin s .startSettled join := ⟨rfl, hpromise, by rw [hawaiting]; rfl⟩
    obtain ⟨hinvocations, hshown⟩ := invokes_of_issuesJoin hissues hstep
    exact .join join hissues hinvocations hshown
  | skips join rest hpromise hawaiting =>
    obtain ⟨hsame, hinvocations⟩ :=
      sameLists_reject { s with awaitingStart := rest } (.joinSubscription join)
    refine .nothing hinvocations fun h hh ↦ ?_
    rw [hsame.shown_eq]
    exact hh
  | succeeds | fails =>
    obtain ⟨invocation, hinvocations, hsame⟩ := settles_of_step hstep
    exact .settles invocation _ rfl hinvocations hsame.shown_eq
  | loses => exact .loses (Or.inl rfl) (loses_of_step (Or.inl rfl) hstep).2.2.2
  | closes => exact .loses (Or.inr rfl) (loses_of_step (Or.inr rfl) hstep).2.2.2

/-! ## The connection behind a join -/

/-- The last callback of the connection, if any, has reported a loss. -/
def lossReported (as : List Label) : Bool :=
  as.foldl (fun lost a ↦
    match a with
    | .onreconnecting | .onclose => true
    | .onreconnected => false
    | _ => lost) false

/-- The state of the connection, by what has been reported. -/
structure Tracks (as : List Label) (s : State) : Prop where
  resolved : s.hub.startPromise = some .resolved →
    .started true ∈ as ∧ (s.IsConnected ↔ lossReported as = false)
  unresolved : s.hub.startPromise ≠ some .resolved →
    (¬s.IsConnected ∧ s.hub.connectionState ≠ .reconnecting) ∧ lossReported as = false

theorem tracks_initial : Tracks [] State.initial := by
  refine ⟨nofun, fun _ ↦ ⟨⟨?_, ?_⟩, rfl⟩⟩
  · exact nofun
  · exact nofun

theorem Tracks.resolved_of_up (hs : Tracks as s)
    (hup : s.IsConnected ∨ s.hub.connectionState = .reconnecting) :
    s.hub.startPromise = some .resolved := by
  by_contra hnot
  obtain ⟨⟨hdown, hrestoring⟩, -⟩ := hs.unresolved hnot
  rcases hup with hup | hup
  · exact hdown hup
  · exact hrestoring hup

private theorem Tracks.of_other (hs : Tracks as s) (hstep : step s a = some t)
    (hlost : lossReported (as ++ [a]) = lossReported as)
    (hloses : ¬(a = .onreconnecting ∨ a = .onclose)) (hrestores : a ≠ .onreconnected) :
    Tracks (as ++ [a]) t := by
  have hmem : .started true ∈ as → .started true ∈ as ++ [a] := List.mem_append_left _
  have hstays : t.hub.connectionState = s.hub.connectionState →
      t.hub.startPromise = s.hub.startPromise → Tracks (as ++ [a]) t := by
    intro hstate hpromise
    refine ⟨?_, ?_⟩
    · rw [hpromise, hlost, State.IsConnected, hstate]
      exact fun h ↦ (hs.resolved h).imp_left hmem
    · rw [hpromise, hlost, State.IsConnected, hstate]
      exact hs.unresolved
  cases connection_of_step hstep with
  | stays hstate hpromise hinvocations => exact hstays hstate hpromise
  | settles ok invocation ha hinvocations hhub => exact hstays (by rw [hhub]) (by rw [hhub])
  | starts hpromise hhub hinvocations =>
    have hnone := (hs.unresolved (by rw [hpromise]; decide)).2
    have hstarted : t.hub = { s.hub with
        connectionState := .connecting, startPromise := some .pending } := by
      rw [hhub, BusHubService.start, hpromise]
    refine ⟨?_, fun _ ↦ ⟨⟨?_, ?_⟩, hlost.trans hnone⟩⟩
    · rw [hstarted]
      intro h
      cases h
    · rw [State.IsConnected, hstarted]
      intro h
      cases h
    · rw [hstarted]
      intro h
      cases h
  | started ok ha hpromise hhub hinvocations =>
    have hnone := (hs.unresolved (by rw [hpromise]; decide)).2
    rw [BusHubService.onStarted] at hhub
    cases ok with
    | true =>
      refine ⟨fun _ ↦ ⟨?_, iff_of_true ?_ (hlost.trans hnone)⟩, fun hnot ↦ absurd ?_ hnot⟩
      · rw [ha]
        exact List.mem_append_right _ (List.mem_singleton_self _)
      · rw [State.IsConnected, hhub]
        rfl
      · rw [hhub]
        rfl
    | false =>
      refine ⟨?_, fun _ ↦ ⟨⟨?_, ?_⟩, hlost.trans hnone⟩⟩
      · rw [hhub]
        intro h
        cases h
      · rw [State.IsConnected, hhub]
        intro h
        cases h
      · rw [hhub]
        intro h
        cases h
  | loses ha => exact absurd ha hloses
  | restores ha => exact absurd ha hrestores

private theorem lossReported_concat : lossReported (as ++ [a]) =
    match a with
    | .onreconnecting | .onclose => true
    | .onreconnected => false
    | _ => lossReported as := by
  simp only [lossReported, List.foldl_append, List.foldl_cons, List.foldl_nil]

private theorem Tracks.of_loss (hs : Tracks as s) (ha : a = .onreconnecting ∨ a = .onclose)
    (hstep : step s a = some t) : Tracks (as ++ [a]) t := by
  obtain ⟨hup, hdown, hpromise, -⟩ := loses_of_step ha hstep
  have hresolved : s.hub.startPromise = some .resolved := hs.resolved_of_up hup
  have hlost : lossReported (as ++ [a]) = true := by
    rw [lossReported_concat]
    rcases ha with rfl | rfl <;> rfl
  refine ⟨fun _ ↦ ⟨List.mem_append_left _ (hs.resolved hresolved).1, ?_⟩, fun hnot ↦ ?_⟩
  · exact iff_of_false hdown (by rw [hlost]; decide)
  · exact absurd (hpromise.trans hresolved) hnot

theorem tracks_step (hs : Tracks as s) (hstep : step s a = some t) : Tracks (as ++ [a]) t := by
  have hother : lossReported (as ++ [a]) = lossReported as →
      ¬(a = .onreconnecting ∨ a = .onclose) → a ≠ .onreconnected → Tracks (as ++ [a]) t :=
    hs.of_other hstep
  cases a with
  | onreconnecting => exact hs.of_loss (Or.inl rfl) hstep
  | onclose => exact hs.of_loss (Or.inr rfl) hstep
  | onreconnected =>
    cases moves_of_step hstep with
    | restores hstate =>
      have hresolved : s.hub.startPromise = some .resolved := hs.resolved_of_up (Or.inr hstate)
      refine ⟨fun _ ↦ ⟨List.mem_append_left _ (hs.resolved hresolved).1, ?_⟩, fun hnot ↦ ?_⟩
      · exact iff_of_true rfl lossReported_concat
      · exact absurd hresolved hnot
  | _ => exact hother lossReported_concat (by simp) fun h ↦ by cases h

/-- **A join is invoked on a connection that was started**, and that is up exactly if the last
callback, if any, has not reported a loss. -/
theorem isConnected_iff_of_issuesJoin {join : Join} (hrun : run step State.initial as = some s)
    (hissues : IssuesJoin s a join) :
    .started true ∈ as ∧ (s.IsConnected ↔ lossReported as = false) := by
  have htracks : Tracks as s :=
    run_induction (motive := Tracks) tracks_initial
      (fun _ _ _ _ _ hs hstep ↦ tracks_step hs hstep) hrun
  exact htracks.resolved hissues.2.1

/-- The connection is lost and restored before the response to the POST arrives. -/
private def restored : List Label :=
  [.editQueueName (Utf16.ofString "orders"), .subscribeToQueue, .started true, .onreconnecting,
    .onreconnected, .respond 0 (.subscribed ⟨1⟩)]

theorem isConnected_of_restored : ∃ s, run step State.initial restored = some s ∧
    IssuesJoin s .startSettled ⟨.subscribe, ⟨1⟩⟩ ∧ s.IsConnected := by
  have hissues : ∀ s, run step State.initial restored = some s →
      IssuesJoin s .startSettled ⟨.subscribe, ⟨1⟩⟩ := by
    rintro s ⟨⟩
    exact ⟨rfl, rfl, rfl⟩
  obtain ⟨s, hrun⟩ : ∃ s, run step State.initial restored = some s := ⟨_, rfl⟩
  have hiff := isConnected_iff_of_issuesJoin hrun (hissues s hrun)
  exact ⟨s, hrun, hissues s hrun, hiff.2.mpr rfl⟩

/-- The response arrives while the connection is being restored. -/
theorem not_isConnected_of_reconnecting : ∃ s, run step State.initial
      [.editQueueName (Utf16.ofString "orders"), .subscribeToQueue, .started true,
        .onreconnecting, .respond 0 (.subscribed ⟨1⟩)] = some s ∧
    IssuesJoin s .startSettled ⟨.subscribe, ⟨1⟩⟩ ∧ (step s .startSettled).isSome = true ∧
      s.hub.connectionState = .reconnecting ∧ ¬s.IsConnected :=
  ⟨_, rfl, ⟨rfl, rfl, rfl⟩, rfl, rfl, by decide⟩

end Page

end BusTester
