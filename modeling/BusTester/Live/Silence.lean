import BusTester.Backend.Unsubscribing
import BusTester.Live.Pages

/-!
# What was unsubscribed is silent

When the use case of a DELETE has returned, the subscription is out of both registries, whatever
else went on in the meantime. Nothing brings it back: only the execution that has made it puts it
there, and that is past. So the coordinator has no buffer for it any more and broadcasts nothing for
it, and every connection to the hub receives at most what was on its way by then
(`silent_of_run`).
-/

namespace BusTester

namespace RabbitMqAdapter

/-- A call that waits for the semaphore goes on waiting, fails, or takes the entry out. -/
theorem calls_of_waitingToUnsubscribe {ι : Type} [DecidableEq ι] {s t : State ι} {i : ι}
    {a : Label ι} {h : SubscriptionHandle} (hcall : s.calls i = .waitingToUnsubscribe h)
    (hstep : step s a = some t) : t.calls i = .waitingToUnsubscribe h ∨
      (∃ ex, t.calls i = .ended (.error ex)) ∨ ¬t.IsLive h := by
  have hremoved : ∀ {u : State ι}, u.subscriptionChannels
      = s.subscriptionChannels.filter (fun entry ↦ entry.1 ≠ h) → ¬u.IsLive h := by
    rintro u hentries ⟨entry, hentry, hkey⟩
    rw [hentries, List.mem_filter, decide_eq_true_iff] at hentry
    exact hentry.2 hkey
  rcases calls_of_step (i := i) hstep with hsame | ⟨hidle, -⟩ | ⟨awaited, newGuid, -, hresume⟩
  · exact Or.inl (hsame.trans hcall)
  · cases hcall.symm.trans hidle
  · simp only [resume, hcall, resumeUnsubscribe] at hresume
    split at hresume
    · obtain ⟨-, hresume⟩ := Option.ite_none_right_eq_some.mp hresume
      split at hresume <;> cases hresume <;> exact Or.inr (Or.inr (hremoved rfl))
    · cases hresume
    · cases hresume
      exact Or.inr (Or.inl ⟨_, calls_goto⟩)

end RabbitMqAdapter

namespace UseCases

open Transition

variable {κ : Type} [DecidableEq κ] {s t : State κ} {i : κ} {h : SubscriptionHandle} {a : Label κ}

/-! ## A subscription whose use case has returned -/

/-- The handle was returned to a caller. -/
def Past (s : State κ) (h : SubscriptionHandle) : Prop :=
  ∃ i, (s.progress i).returnedHandle = some h

theorem returnedHandle_of_step (hi : (s.progress i).returnedHandle = some h)
    (hstep : step s a = some t) : (t.progress i).returnedHandle = some h := by
  unfold Progress.returnedHandle at hi
  split at hi
  · rename_i hprogress
    rw [returned_of_step hstep hprogress]
    exact hi
  · rename_i hprogress
    rw [returned_of_step hstep hprogress]
    exact hi
  · cases hi

theorem Past.of_step (hpast : Past s h) (hstep : step s a = some t) : Past t h :=
  hpast.imp fun _ hi ↦ returnedHandle_of_step hi hstep

omit [DecidableEq κ] in
/-- Only one execution holds the handle, and it has returned. -/
theorem Past.of_held (hs : Ordered s) (hpast : Past s h) (hi : s.held i = some h) :
    (s.progress i).returnedHandle = some h := by
  obtain ⟨j, hj⟩ := hpast
  have hheld := hs.held_of_reached (Progress.reached_of_returnedHandle hj)
  rwa [hs.held_unique hi hheld]

theorem Past.not_isLive (hawaiting : Awaiting s) (hs : Ordered s) (hpast : Past s h)
    (hstep : step s a = some t) (hgone : ¬s.backend.adapter.IsLive h) :
    ¬t.backend.adapter.IsLive h := by
  intro hlive
  obtain ⟨i, hconsumes, hi⟩ := (added_of_step hawaiting hstep hlive).resolve_left hgone
  obtain ⟨j, hj⟩ := hpast
  have hj' := (ordered_step hs hstep).held_of_reached
    (Progress.reached_of_returnedHandle (returnedHandle_of_step hj hstep))
  obtain rfl := (ordered_step hs hstep).held_unique hi hj'
  unfold Progress.returnedHandle at hj
  split at hj
  · rename_i hprogress
    rw [hprogress] at hconsumes
    cases hconsumes
  · rename_i hprogress
    rw [hprogress] at hconsumes
    cases hconsumes
  · cases hj

theorem Past.not_isRegistered (hs : Ordered s) (hpast : Past s h) (hstep : step s a = some t)
    (hgone : ¬s.backend.coordinator.IsRegistered h) : ¬t.backend.coordinator.IsRegistered h := by
  -- an execution that is about to register its handle has not returned it
  have hother : ∀ {i handle}, (s.progress i).reached .first = some (.assigned handle) →
      (s.progress i).returnedHandle = none → h ≠ handle := by
    rintro i handle hassigned hnone rfl
    cases hnone.symm.trans (hpast.of_held hs (hs.held_of_assigned hassigned))
  cases registers_of_step hs hstep with
  | rests hcoordinator => rwa [hcoordinator]
  | replies i handle correlationId hfrom hprogress hcoordinator => rwa [hcoordinator]
  | subscribes i handle hfrom hprogress hcoordinator =>
    have hne : h ≠ handle := hother (by rw [hfrom]; rfl) (by rw [hfrom]; rfl)
    rw [hcoordinator, SubscriptionCoordinator.isRegistered_register]
    exact not_or.mpr ⟨hne, hgone⟩
  | registers i command handle queueName hfrom hprogress hcoordinator =>
    have hne : h ≠ handle := hother (by rw [hfrom]; rfl) (by rw [hfrom]; rfl)
    rw [hcoordinator, SubscriptionCoordinator.isRegistered_register]
    exact not_or.mpr ⟨hne, hgone⟩
  | drops i handle ex hfrom hprogress hcoordinator =>
    rw [hcoordinator, SubscriptionCoordinator.isRegistered_unregister]
    exact fun hregistered ↦ hgone hregistered.2
  | unsubscribes i handle hfrom hprogress hcoordinator =>
    rw [hcoordinator, SubscriptionCoordinator.isRegistered_unregister]
    exact fun hregistered ↦ hgone hregistered.2
  | dispatches ch delivery ha hprogress hcoordinator =>
    rw [hcoordinator, Backend.isRegistered_handle]
    exact hgone

omit [DecidableEq κ] in
/-- Nothing is broadcast for a handle that is not registered. -/
theorem broadcast_of_not_isRegistered (hgone : ¬s.backend.coordinator.IsRegistered h)
    (ch : RabbitMqAdapter.ChannelId) (delivery : Delivery) :
    ∀ broadcast ∈ s.broadcast ch delivery, broadcast.1 ≠ h := by
  unfold State.broadcast
  split
  · rename_i handle message hclosure hreceived
    rintro broadcast hmem rfl
    obtain ⟨accepted, haccepted, heq⟩ := List.mem_map.mp hmem
    obtain rfl := congrArg Prod.fst heq
    rw [SubscriptionCoordinator.accepted, if_neg hgone] at haccepted
    cases haccepted
  · exact fun broadcast hmem ↦ absurd hmem List.not_mem_nil

theorem adapter_of_step (hstep : step s a = some t) : t.backend.adapter = s.backend.adapter ∨
    ∃ l, RabbitMqAdapter.step s.backend.adapter l = some t.backend.adapter := by
  have hback : ∀ {b : Backend.Label (κ × Await)}, Backend.step s.backend b = some t.backend →
      t.backend.adapter = s.backend.adapter ∨
        ∃ l, RabbitMqAdapter.step s.backend.adapter l = some t.backend.adapter := by
    intro b hb
    rcases adapter_of_back hb with ⟨-, hsame⟩ | ⟨l, hl, -⟩
    · exact Or.inl hsame
    · exact Or.inr ⟨l, hl⟩
  cases step_cases hstep with
  | begins i u ha hidle hb => exact hback hb
  | adapter b ha hb => exact hback hb
  | dispatches ch delivery ha hb => exact hback hb
  | proceeds i newGuid b p ha hmoves hb =>
    cases b with
    | none => exact Or.inl (congrArg Backend.State.adapter hb)
    | some b => exact hback hb

/-! ## From the DELETE on -/

/-- The subscription is in neither registry, and was returned before. -/
structure Gone (s : State κ) (h : SubscriptionHandle) : Prop where
  past : Past s h
  notLive : ¬s.backend.adapter.IsLive h
  notRegistered : ¬s.backend.coordinator.IsRegistered h

/-- **It stays so, and nothing is broadcast for it.** -/
theorem Gone.step (hawaiting : Awaiting s) (hs : Ordered s) (hgone : Gone s h)
    (hstep : UseCases.step s a = some t) :
    Gone t h ∧ t.broadcastsFor h = s.broadcastsFor h := by
  refine ⟨⟨hgone.past.of_step hstep, hgone.past.not_isLive hawaiting hs hstep hgone.notLive,
    hgone.past.not_isRegistered hs hstep hgone.notRegistered⟩, ?_⟩
  by_cases hdispatch : ∃ ch delivery, a = .dispatch ch delivery
  · obtain ⟨ch, delivery, rfl⟩ := hdispatch
    obtain ⟨backend, -, rfl⟩ := Option.map_eq_some_iff.mp hstep
    have hnothing : (s.broadcast ch delivery).filter (fun broadcast ↦ broadcast.1 = h) = [] := by
      refine List.filter_eq_nil_iff.mpr fun broadcast hmem ↦ ?_
      rw [decide_eq_true_iff]
      exact broadcast_of_not_isRegistered hgone.notRegistered ch delivery broadcast hmem
    rw [State.broadcastsFor, State.broadcastsFor, List.filter_append, hnothing, List.append_nil]
  · rw [State.broadcastsFor, broadcasts_of_step hstep
      fun ch delivery heq ↦ hdispatch ⟨ch, delivery, heq⟩]
    rfl

/-- An execution of `UnsubscribeUseCase` for a subscription that was returned. Once its call is past
the semaphore the subscription has left the dictionary. -/
structure Leaving (s : State κ) (i : κ) (h : SubscriptionHandle) : Prop where
  progress : s.progress i = .unsubscribing h
  past : Past s h
  call : s.backend.adapter.calls (i, .first) = .waitingToUnsubscribe h ∨
    (∃ ex, s.backend.adapter.calls (i, .first) = .ended (.error ex)) ∨
      ¬s.backend.adapter.IsLive h

theorem Leaving.call_of_step (hawaiting : Awaiting s) (hs : Ordered s) (hleaving : Leaving s i h)
    (hstep : step s a = some t) : t.backend.adapter.calls (i, .first) = .waitingToUnsubscribe h ∨
      (∃ ex, t.backend.adapter.calls (i, .first) = .ended (.error ex)) ∨
        ¬t.backend.adapter.IsLive h := by
  by_cases hgone : s.backend.adapter.IsLive h
  · rcases adapter_of_step hstep with hsame | ⟨l, hl⟩
    · rw [hsame]
      exact hleaving.call
    · rcases hleaving.call with hcall | ⟨ex, hcall⟩ | hnot
      · exact RabbitMqAdapter.calls_of_waitingToUnsubscribe hcall hl
      · exact Or.inr (Or.inl ⟨ex, RabbitMqAdapter.calls_of_ended hl hcall⟩)
      · exact absurd hgone hnot
  · exact Or.inr (Or.inr (hleaving.past.not_isLive hawaiting hs hstep hgone))

/-- **The execution goes on, throws, or leaves the subscription gone.** -/
theorem Leaving.step (hawaiting : Awaiting s) (hs : Ordered s) (hleaving : Leaving s i h)
    (hstep : UseCases.step s a = some t) :
    Leaving t i h ∨ (∃ ex, t.progress i = .threw ex) ∨ Gone t h := by
  have hpast := hleaving.past.of_step hstep
  by_cases hproceeds : ∃ newGuid, a = .proceed i newGuid
  · obtain ⟨newGuid, rfl⟩ := hproceeds
    simp only [UseCases.step, proceed, hleaving.progress] at hstep
    split at hstep
    · rename_i result hcall
      obtain ⟨hback, -, -⟩ := along_spec hstep
      obtain ⟨handle, result', hexecution, -, ht⟩ := Backend.unregister_spec hback
      have hunsubscribing : s.backend.executions (i, .first) = .unsubscribing h :=
        hs.reached (by rw [hleaving.progress]; rfl)
      cases hexecution.symm.trans hunsubscribing
      refine Or.inr (Or.inr ⟨hpast, ?_, ?_⟩)
      · rw [ht]
        rcases hleaving.call with hwaiting | ⟨ex, hthrown⟩ | hgone
        · cases hcall.symm.trans hwaiting
        · cases hcall.symm.trans hthrown
        · exact hgone
      · rw [ht]
        change ¬(s.backend.coordinator.unregister h).IsRegistered h
        rw [SubscriptionCoordinator.isRegistered_unregister]
        exact fun hregistered ↦ hregistered.1 rfl
    · rename_i ex hcall
      cases hstep
      exact Or.inr (Or.inl ⟨ex, Function.update_self ..⟩)
    · cases hstep
  · refine Or.inl ⟨?_, hpast, hleaving.call_of_step hawaiting hs hstep⟩
    cases step_cases hstep with
    | begins k u ha hidle hback hprogress =>
      have hne : i ≠ k := by
        rintro rfl
        cases hidle.symm.trans hleaving.progress
      rw [hprogress, Function.update_of_ne hne, hleaving.progress]
    | adapter b ha hback hprogress => rw [hprogress, hleaving.progress]
    | dispatches ch delivery ha hback hprogress => rw [hprogress, hleaving.progress]
    | proceeds k newGuid b p ha hmoves hback hprogress =>
      have hne : i ≠ k := by
        rintro rfl
        exact hproceeds ⟨newGuid, ha⟩
      rw [hprogress, Function.update_of_ne hne, hleaving.progress]

theorem leaving_of_begin (hstep : UseCases.step s (.begin i (.unsubscribe h)) = some t)
    (hpast : Past t h) : Leaving t i h := by
  simp only [UseCases.step] at hstep
  split at hstep
  · obtain ⟨hback, hprogress, -⟩ := along_spec hstep
    obtain ⟨-, adapter, hadapter, ht⟩ := Backend.start_spec hback
    obtain ⟨-, hstart⟩ := Option.ite_none_right_eq_some.mp hadapter
    refine ⟨by rw [hprogress, Function.update_self], hpast, Or.inl ?_⟩
    rw [ht, ← Option.some.inj hstart]
    exact RabbitMqAdapter.calls_goto
  · cases hstep

end UseCases

namespace Pages

open Transition

variable {π : Type} [DecidableEq π] {s t u : State π} {a : Label π} {as bs : List (Label π)}
  {p q : π} {h : Guid} {n : ℕ}

/-! ## The property -/

/-- In every state from `t` on, such as `u`, the subscription is in neither registry, nothing was
broadcast for it since, and nothing was added to what is on its way to a page. -/
structure Silent (t u : State π) (h : Guid) : Prop where
  notLive : ¬u.useCases.backend.adapter.IsLive ⟨h⟩
  notRegistered : ¬u.useCases.backend.coordinator.IsRegistered ⟨h⟩
  broadcasts : u.useCases.broadcastsFor ⟨h⟩ = t.useCases.broadcastsFor ⟨h⟩
  wire : ∀ q, ((u.tabs q).wire.filter fun m ↦ m.subscriptionId = h) <:+
    (t.tabs q).wire.filter fun m ↦ m.subscriptionId = h

/-! ## Runs -/

theorem useCases_of_step (hstep : step s a = some t) :
    t.useCases = s.useCases ∨ ∃ b, UseCases.step s.useCases b = some t.useCases := by
  cases step_cases hstep with
  | moves p b page ha hrespond hreceived hlisted hpage ht =>
    rcases ht with rfl | rfl <;> exact Or.inl rfl
  | begins p n request ha hunderway huseCases => exact Or.inr ⟨_, huseCases⟩
  | responds p n response page ha hresponse hpage ht => exact Or.inl (ht ▸ rfl)
  | hub p b connection page ha hmove ht => exact Or.inl (ht ▸ rfl)
  | serves b hb hdispatch huseCases => exact Or.inr ⟨_, huseCases⟩
  | dispatches ch delivery huseCases => exact Or.inr ⟨_, huseCases⟩

/-- The executions of the DELETEs are where they belong. -/
structure Ending (s : State π) : Prop where
  apart : Apart s
  awaiting : UseCases.Awaiting s.useCases
  leaving : ∀ {p n handle}, s.useCases.progress (.request p n) = .unsubscribing handle →
    UseCases.Leaving s.useCases (.request p n) handle

omit [DecidableEq π] in
theorem past_of_owns (howns : s.Owns p h) : UseCases.Past s.useCases ⟨h⟩ :=
  howns.imp' _ fun _ hmade ↦ hmade

theorem ending_step (hs : Ending s) (hstep : step s a = some t) : Ending t := by
  have hapart := apart_step hs.apart hstep
  rcases useCases_of_step hstep with hsame | ⟨b, huseCases⟩
  · refine ⟨hapart, hsame ▸ hs.awaiting, fun {p n handle} hends ↦ ?_⟩
    rw [hsame] at hends ⊢
    exact hs.leaving hends
  · refine ⟨hapart, UseCases.awaiting_step hs.awaiting huseCases, fun {p n handle} hends ↦ ?_⟩
    have hpast : UseCases.Past t.useCases handle := past_of_owns (hapart.ends hends)
    rcases UseCases.unsubscribing_of_step huseCases hends with hbefore | rfl
    · rcases (hs.leaving hbefore).step hs.awaiting hs.apart.ordered huseCases with
        hleaving | ⟨ex, hthrew⟩ | hgone
      · exact hleaving
      · cases hends.symm.trans hthrew
      · exact ⟨hends, hpast, Or.inr (Or.inr hgone.notLive)⟩
    · exact UseCases.leaving_of_begin huseCases hpast

theorem ending_of_run (hrun : run step State.initial as = some s) : Ending s :=
  invariant_of_step (P := Ending) ⟨apart_initial, UseCases.awaiting_initial, nofun⟩
    (fun _ _ _ hs hstep ↦ ending_step hs hstep) hrun

theorem wire_of_step (hgone : ¬s.useCases.backend.coordinator.IsRegistered ⟨h⟩)
    (hstep : step s a = some t) (q : π) :
    ((t.tabs q).wire.filter fun m ↦ m.subscriptionId = h) <:+
      (s.tabs q).wire.filter fun m ↦ m.subscriptionId = h := by
  have htab : ∀ {p : π} {tab : Tab}, tab.wire <:+ (s.tabs p).wire →
      (((s.onTab p tab).tabs q).wire.filter fun m ↦ m.subscriptionId = h) <:+
        (s.tabs q).wire.filter fun m ↦ m.subscriptionId = h := by
    intro p tab hwire
    change ((Function.update s.tabs p tab q).wire.filter _) <:+ _
    rw [Function.update_apply]
    split
    · rename_i hq
      exact hq ▸ hwire.filter _
    · exact List.suffix_refl _
  cases step_cases hstep with
  | moves p b page ha hrespond hreceived hlisted hpage ht =>
    rcases ht with rfl | rfl
    · exact htab (List.suffix_refl _)
    · exact htab (List.nil_suffix)
  | begins p n request ha hunderway huseCases ht =>
    rw [ht]
    exact htab (List.suffix_refl _)
  | responds p n response page ha hresponse hpage ht =>
    subst ht
    exact htab (List.suffix_refl _)
  | hub p b connection page ha hmove ht =>
    subst ht
    exact htab (HubConnection.wire_suffix_of_move hmove)
  | serves b hb hdispatch huseCases ht => rw [ht]
  | dispatches ch delivery huseCases ht =>
    rw [ht]
    change ((s.tabs q).wire ++ (s.tabs q).pushes (s.useCases.broadcast ch delivery)).filter _ <:+ _
    rw [List.filter_append, HubConnection.pushes_eq_nil
      (UseCases.broadcast_of_not_isRegistered hgone ch delivery), List.append_nil]

/-- **Once the use case of a DELETE has returned the subscription is silent**, in every run and for
every page. -/
theorem silent_of_run (hrun : run step State.initial as = some s)
    (hends : s.useCases.progress (.request p n) = .unsubscribing ⟨h⟩) (hstep : step s a = some t)
    (hreturns : t.useCases.progress (.request p n) = .returned .done)
    (hlater : run step t bs = some u) : Silent t u h := by
  have hs : Ending s := ending_of_run hrun
  have hgone : UseCases.Gone t.useCases ⟨h⟩ := by
    rcases useCases_of_step hstep with hsame | ⟨b, huseCases⟩
    · rw [hsame, hends] at hreturns
      cases hreturns
    · rcases (hs.leaving hends).step hs.awaiting hs.apart.ordered huseCases with
        hleaving | ⟨ex, hthrew⟩ | hgone
      · cases hleaving.progress.symm.trans hreturns
      · cases hthrew.symm.trans hreturns
      · exact hgone
  -- what holds from then on
  have hstays : Ending u ∧ UseCases.Gone u.useCases ⟨h⟩ ∧ Silent t u h := by
    refine invariant_of_step (P := fun u : State π ↦
      Ending u ∧ UseCases.Gone u.useCases ⟨h⟩ ∧ Silent t u h) ?_ ?_ hlater
    · exact ⟨ending_step hs hstep, hgone, hgone.notLive, hgone.notRegistered, rfl,
        fun q ↦ List.suffix_refl _⟩
    · rintro v b w ⟨hv, hgone, hsilent⟩ hstep
      have hwire := fun q ↦ (wire_of_step hgone.notRegistered hstep q).trans (hsilent.wire q)
      refine ⟨ending_step hv hstep, ?_⟩
      rcases useCases_of_step hstep with hsame | ⟨c, huseCases⟩
      · rw [hsame]
        refine ⟨hgone, ?_, ?_, ?_, hwire⟩
        · exact hsame ▸ hgone.notLive
        · exact hsame ▸ hgone.notRegistered
        · exact hsame ▸ hsilent.broadcasts
      · obtain ⟨hgone', hbroadcasts⟩ := hgone.step hv.awaiting hv.apart.ordered huseCases
        exact ⟨hgone', hgone'.notLive, hgone'.notRegistered,
          hbroadcasts.trans hsilent.broadcasts, hwire⟩
  exact hstays.2.2

open RabbitMqAdapter.Label (succeed)

/-- A page subscribes to a queue and joins the group. One delivery is on its way to the page when
the subscription is removed; its DELETE has come to the last statement of the use case. -/
private def removedWhilePushed : List (Label Bool) :=
  [.other 0 (.teardown (.connect .localhost)), .server (.adapter (succeed (.other 0, .first))),
    .server (.adapter (succeed (.other 0, .first))), .server (.proceed (.other 0) ⟨0⟩),
    .page true (.editQueueName (Utf16.ofString "alarms")), .page true .subscribeToQueue,
    .arrive true 0, .server (.adapter (succeed (.request true 0, .first))),
    .server (.adapter (.brokerConsumes 0)),
    .server (.adapter (.resume (.request true 0, .first) .completed ⟨3⟩)),
    .server (.adapter (succeed (.request true 0, .first))),
    .server (.proceed (.request true 0) ⟨0⟩), .server (.proceed (.request true 0) ⟨0⟩),
    .respond true 0 (.subscribed ⟨3⟩), .page true (.started true), .page true .startSettled,
    .hub true (.execute true), .hub true .complete,
    .server (.dispatch 0 ⟨[], Utf16.ofString "alarms", [0x21], none, none⟩),
    .page true (.unsubscribe .subscribe ⟨3⟩), .arrive true 1,
    .server (.adapter (succeed (.request true 1, .first))),
    .server (.adapter (succeed (.request true 1, .first))),
    .server (.adapter (succeed (.request true 1, .first)))]

theorem silent_of_removedWhilePushed : ∃ s t u, run step .initial removedWhilePushed = some s ∧
    step s (.server (.proceed (.request true 1) ⟨0⟩)) = some t ∧
      (t.tabs true).wire.map MessageReceivedDto.payload = [Utf16.ofString "!"] ∧
        run step t [.hub true .push] = some u ∧ (u.tabs true).wire = [] ∧ Silent t u ⟨3⟩ := by
  refine ⟨_, _, _, rfl, rfl, by decide, rfl, rfl, ?_⟩
  exact silent_of_run (n := 1) (p := true)
    (show run step .initial removedWhilePushed = some _ from rfl) rfl
    (show step _ (.server (.proceed (.request true 1) ⟨0⟩)) = some _ from rfl) rfl
    (show run step _ [.hub true .push] = some _ from rfl)

end Pages

end BusTester
