import BusTester.Backend.UseCases

/-!
# Replies to a send with reply

The consumer of the reply queue is started first, then the handle is registered, and only then is
the request published. So whoever answers the request answers to a registered handle, even if the
answer is dispatched before `SendAsync` has returned. `repliesKept` says what comes of it: the
replies are in the buffer of the handle, each once and in the order of dispatch, and the same
messages were broadcast for it.

Nothing is assumed about the calls of `ConnectAsync` and `DisconnectAsync`. They may close the
channel of the consumer, after which nothing is dispatched; what was dispatched before stays.
-/

namespace BusTester

namespace RabbitMqAdapter

/-- The call of `SendAsync` has come as far as `BasicPublishAsync`, or has failed before. -/
def Pc.mayHavePublished : Pc → Bool
  | .publishing _ _ | .disposingAfterSend _ _ _ | .ended _ => true
  | _ => false

end RabbitMqAdapter

namespace UseCases

open Transition

/-! ## The property and the condition -/

/-- The handle of a send with reply that has come to its `try` block, not to its `catch` block. -/
def Progress.replyHandle : Progress → Option SubscriptionHandle
  | .sending handle _ | .returned (.sent ⟨handle, _⟩) => some handle
  | _ => none

variable {κ : Type} {s t : State κ} {i j : κ} {h : SubscriptionHandle} {a : Label κ}

/-- What was broadcast for the handle. -/
def State.broadcastsFor (s : State κ) (h : SubscriptionHandle) : List BusMessage :=
  (s.broadcasts.filter fun broadcast ↦ broadcast.1 = h).map Prod.snd

/-- What was dispatched to the consumer of `i` is in the buffer of `h`, each message once and in
order, and the same messages were broadcast. -/
def RepliesKept (s : State κ) (i : κ) (h : SubscriptionHandle) : Prop :=
  Backend.NothingLost s.backend (i, .first) h ∧
    s.broadcastsFor h = s.backend.coordinator.getMessages h

/-- What is dispatched to the consumer of `i` answers its request: it comes when the request may
have been published, it has a payload, and its exchange is not named by white space only. -/
def RepliesFollow (i : κ) (s : State κ) : Label κ → Prop
  | .dispatch ch delivery => (s.backend.adapter.channels ch).openedBy = (i, .first) →
    (s.backend.adapter.calls (i, .send)).mayHavePublished = true ∧
      Utf16.isNullOrWhiteSpace (some delivery.payload) = false ∧ ¬WhiteSpaceOnly delivery.exchange
  | _ => True

/-- Nobody asks to unsubscribe the handle. -/
def NotUnsubscribed (h : SubscriptionHandle) (_ : State κ) : Label κ → Prop
  | .begin _ (.unsubscribe handle) => handle ≠ h
  | _ => True

variable [DecidableEq κ]

instance (i : κ) (s : State κ) : DecidablePred (RepliesFollow i s)
  | .dispatch ch delivery => inferInstanceAs (Decidable
      ((s.backend.adapter.channels ch).openedBy = (i, .first) →
        (s.backend.adapter.calls (i, .send)).mayHavePublished = true ∧
          Utf16.isNullOrWhiteSpace (some delivery.payload) = false ∧
            ¬WhiteSpaceOnly delivery.exchange))
  | .begin _ _ | .proceed _ _ | .adapter _ => isTrue trivial

instance (h : SubscriptionHandle) (s : State κ) : DecidablePred (NotUnsubscribed h s)
  | .begin _ (.unsubscribe handle) => inferInstanceAs (Decidable (handle ≠ h))
  | .begin _ (.teardown _) | .begin _ (.send _) | .begin _ (.subscribe _)
  | .begin _ (.sendWithReply _) | .proceed _ _ | .adapter _ | .dispatch _ _ => isTrue trivial

/-! ## The buffer -/

theorem buffers_step (hreplies : RepliesFollow i s a) (hs : Ordered s)
    (hbuffers : Backend.Buffers (i, .first) s.backend) (hstep : step s a = some t) :
    Backend.Buffers (i, .first) t.backend := by
  have hother : ∀ {b}, Backend.step s.backend b = some t.backend →
      (∀ ch delivery, b ≠ .dispatch ch delivery) → Backend.Buffers (i, .first) t.backend := by
    intro b hback hb
    refine Backend.buffers_step (fun ch delivery h ↦ absurd h (hb ch delivery)) ?_ hbuffers hback
    cases b with
    | dispatch ch delivery => exact absurd rfl (hb ch delivery)
    | _ => trivial
  cases step_cases hstep with
  | begins k u ha hidle hback => exact hother hback nofun
  | proceeds k newGuid b p ha hmoves hback =>
    cases hmoves with
    | returns | ends | throws => exact hback ▸ hbuffers
    | _ => exact hother hback nofun
  | adapter b ha hback => exact hother hback nofun
  | dispatches ch delivery ha hback =>
    subst ha
    refine Backend.buffers_step ?_ ?_ hbuffers hback
    · rintro ch' delivery' ⟨⟩ howner
      exact (hreplies howner).2.1
    · intro howner
      obtain ⟨hpublished, -, hexchange⟩ := hreplies howner
      have hbegun : s.backend.adapter.calls (i, .send) ≠ .idle := by
        intro hidle
        rw [hidle] at hpublished
        cases hpublished
      exact ⟨Backend.Execution.hasRegistered_iff.mpr (hs.sends hbegun), hexchange⟩

/-! ## The broadcasts -/

/-- What was broadcast for a registered handle is what is in its buffer. -/
structure Broadcasts (s : State κ) : Prop where
  known : ∀ {broadcast}, broadcast ∈ s.broadcasts →
    ∃ p, s.backend.executions p = .registered broadcast.1
  registered : ∀ {h}, s.backend.coordinator.IsRegistered h →
    ∃ p, s.backend.executions p = .registered h
  same : ∀ {h}, s.backend.coordinator.IsRegistered h →
    s.broadcastsFor h = s.backend.coordinator.getMessages h

omit [DecidableEq κ] in
theorem broadcasts_initial [Inhabited κ] : Broadcasts (State.initial : State κ) where
  known := nofun
  registered := nofun
  same := nofun

omit [DecidableEq κ] in
theorem Broadcasts.broadcastsFor_eq_nil (hs : Broadcasts s)
    (h' : ∀ p, s.backend.executions p ≠ .registered h) : s.broadcastsFor h = [] := by
  rw [State.broadcastsFor, List.map_eq_nil_iff, List.filter_eq_nil_iff]
  intro broadcast hmem hh
  obtain ⟨p, hp⟩ := hs.known hmem
  rw [of_decide_eq_true hh] at hp
  exact h' p hp

theorem Broadcasts.of_back {b : Backend.Label (κ × Await)} (hs : Broadcasts s)
    (hhandles : Backend.Handles s.backend) (hback : Backend.step s.backend b = some t.backend)
    (hb : ∀ ch delivery, b ≠ .dispatch ch delivery) (hbroadcasts : t.broadcasts = s.broadcasts) :
    Broadcasts t := by
  have hkeeps : ∀ {h}, (∃ p, s.backend.executions p = .registered h) →
      ∃ p, t.backend.executions p = .registered h :=
    fun ⟨p, hp⟩ ↦ ⟨p, Backend.registered_of_step hhandles hback hp⟩
  have hknown : ∀ {broadcast}, broadcast ∈ t.broadcasts →
      ∃ p, t.backend.executions p = .registered broadcast.1 :=
    fun hmem ↦ hkeeps (hs.known (hbroadcasts ▸ hmem))
  have hfor : ∀ h, t.broadcastsFor h = s.broadcastsFor h := by
    intro h
    rw [State.broadcastsFor, hbroadcasts]
    rfl
  have hrest : t.backend.coordinator = s.backend.coordinator → Broadcasts t := by
    intro hcoordinator
    refine ⟨hknown, fun hh ↦ hkeeps (hs.registered (hcoordinator ▸ hh)), fun {h} hh ↦ ?_⟩
    rw [hfor, hcoordinator]
    exact hs.same (hcoordinator ▸ hh)
  cases b with
  | start p call =>
    obtain ⟨-, adapter, -, ht⟩ := Backend.start_spec hback
    exact hrest (by rw [ht])
  | adapter b =>
    obtain ⟨-, adapter, -, ht⟩ := Backend.adapter_spec hback
    exact hrest (by rw [ht])
  | assign p =>
    obtain ⟨result, handle, -, -, -, ht⟩ := Backend.assign_spec hback
    exact hrest (by rw [ht])
  | dispatch ch delivery => exact absurd rfl (hb ch delivery)
  | register p =>
    obtain ⟨handle, hassigned, ht⟩ := Backend.register_spec hback
    have hp : t.backend.executions p = .registered handle := by
      rw [ht]
      exact Function.update_self ..
    refine ⟨hknown, fun {h} hh ↦ ?_, fun {h} hh ↦ ?_⟩
    all_goals
      rw [ht] at hh
      have hcases := SubscriptionCoordinator.isRegistered_register.mp hh
    · obtain rfl | hold := hcases
      · exact ⟨p, hp⟩
      · exact hkeeps (hs.registered hold)
    · rw [hfor, ht, SubscriptionCoordinator.getMessages_register]
      split
      · rename_i heq
        -- A handle that is about to be registered was not registered before.
        refine hs.broadcastsFor_eq_nil fun q hq ↦ ?_
        have hpq : p = q := hhandles.unique (by rw [hassigned]; rfl) (by rw [hq, heq]; rfl)
        rw [hpq, hq] at hassigned
        cases hassigned
      · rename_i hne
        exact hs.same (hcases.resolve_left hne)
  | unregister p =>
    obtain ⟨handle, result, -, -, ht⟩ := Backend.unregister_spec hback
    refine ⟨hknown, fun {h} hh ↦ ?_, fun {h} hh ↦ ?_⟩
    all_goals
      rw [ht] at hh
      obtain ⟨hne, hold⟩ := SubscriptionCoordinator.isRegistered_unregister.mp hh
    · exact hkeeps (hs.registered hold)
    · rw [hfor, ht, SubscriptionCoordinator.getMessages_unregister_of_ne hne]
      exact hs.same hold

omit [DecidableEq κ] in
theorem broadcast_cases (s : State κ) (ch : RabbitMqAdapter.ChannelId) (delivery : Delivery) :
    (Backend.handle s.backend (s.backend.adapter.channels ch).openedBy delivery
        = s.backend.coordinator ∧ s.broadcast ch delivery = []) ∨
      ∃ handle message, s.backend.coordinator.IsRegistered handle ∧
        Backend.handle s.backend (s.backend.adapter.channels ch).openedBy delivery
          = s.backend.coordinator.onMessageReceived handle message ∧
        s.broadcast ch delivery = [(handle, message)] := by
  unfold Backend.handle State.broadcast Backend.onMessage
  cases hreceived : delivery.received with
  | error ex =>
    refine Or.inl ⟨rfl, ?_⟩
    split
    · rename_i hok
      cases hok
    · rfl
  | ok message =>
    cases hclosure :
        (s.backend.executions (s.backend.adapter.channels ch).openedBy).closure with
    | none => exact Or.inl ⟨rfl, rfl⟩
    | some handle =>
      by_cases hh : s.backend.coordinator.IsRegistered handle
      · refine Or.inr ⟨handle, message, hh, rfl, ?_⟩
        simp only [SubscriptionCoordinator.accepted, if_pos hh, List.map_singleton]
      · refine Or.inl ⟨?_, ?_⟩
        · have hnone := Option.not_isSome_iff_eq_none.mp hh
          simp only [SubscriptionCoordinator.onMessageReceived, hnone]
        · simp only [SubscriptionCoordinator.accepted, if_neg hh, List.map_nil]

theorem Broadcasts.of_dispatch {ch : RabbitMqAdapter.ChannelId} {delivery : Delivery}
    (hs : Broadcasts s) (hback : Backend.step s.backend (.dispatch ch delivery) = some t.backend)
    (hbroadcasts : t.broadcasts = s.broadcasts ++ s.broadcast ch delivery) : Broadcasts t := by
  have ht := Backend.dispatch_spec hback
  have hexecutions : t.backend.executions = s.backend.executions := by rw [ht]
  have hcoordinator : t.backend.coordinator
      = Backend.handle s.backend (s.backend.adapter.channels ch).openedBy delivery := by rw [ht]
  rcases broadcast_cases s ch delivery with ⟨hsame, hnone⟩ | ⟨handle, message, hh, hnew, hone⟩
  · rw [hnone, List.append_nil] at hbroadcasts
    rw [hsame] at hcoordinator
    refine ⟨?_, ?_, ?_⟩
    · rw [hbroadcasts, hexecutions]
      exact hs.known
    · rw [hcoordinator, hexecutions]
      exact hs.registered
    · intro h
      rw [hcoordinator, State.broadcastsFor, hbroadcasts]
      exact hs.same
  · rw [hone] at hbroadcasts
    rw [hnew] at hcoordinator
    refine ⟨?_, ?_, ?_⟩
    · intro broadcast hmem
      rw [hbroadcasts, List.mem_append, List.mem_singleton] at hmem
      rw [hexecutions]
      rcases hmem with hold | rfl
      · exact hs.known hold
      · exact hs.registered hh
    · intro h hregistered
      rw [hcoordinator, SubscriptionCoordinator.isRegistered_onMessageReceived] at hregistered
      rw [hexecutions]
      exact hs.registered hregistered
    · intro h hregistered
      rw [hcoordinator, SubscriptionCoordinator.isRegistered_onMessageReceived] at hregistered
      have hsame : s.broadcastsFor h = s.backend.coordinator.getMessages h := hs.same hregistered
      rw [State.broadcastsFor, hbroadcasts, List.filter_append, List.map_append, hcoordinator]
      change s.broadcastsFor h ++ _ = _
      by_cases heq : h = handle
      · subst heq
        rw [SubscriptionCoordinator.getMessages_onMessageReceived_self hh, hsame]
        simp
      · rw [SubscriptionCoordinator.getMessages,
          SubscriptionCoordinator.messagesByHandle_onMessageReceived, if_neg heq, hsame]
        simp [Ne.symm heq, SubscriptionCoordinator.getMessages]

theorem broadcasts_step (hhandles : Backend.Handles s.backend) (hs : Broadcasts s)
    (hstep : step s a = some t) : Broadcasts t := by
  cases step_cases hstep with
  | begins k u ha hidle hback hprogress hbroadcasts =>
    exact hs.of_back hhandles hback nofun hbroadcasts
  | proceeds k newGuid b p ha hmoves hback hprogress hbroadcasts =>
    cases hmoves with
    | returns | ends | throws =>
      refine ⟨?_, ?_, ?_⟩
      · rw [hbroadcasts, hback]
        exact hs.known
      · rw [hback]
        exact hs.registered
      · intro h
        rw [State.broadcastsFor, hbroadcasts, hback]
        exact hs.same
    | _ => exact hs.of_back hhandles hback nofun hbroadcasts
  | adapter b ha hback hprogress hbroadcasts => exact hs.of_back hhandles hback nofun hbroadcasts
  | dispatches ch delivery ha hback hprogress hbroadcasts => exact hs.of_dispatch hback hbroadcasts

/-! ## The handle stays registered -/

/-- The handle that an execution has registered and will not unsubscribe by itself. -/
def Progress.keeps : Progress → Option SubscriptionHandle
  | .replyRegistered _ handle _ | .sending handle _ | .returned (.sent ⟨handle, _⟩) => some handle
  | _ => none

/-- As long as nobody asks to unsubscribe the handle. -/
structure Kept (h : SubscriptionHandle) (s : State κ) : Prop where
  notUnsubscribed : ∀ i, s.progress i ≠ .unsubscribing h
  registered : ∀ i, (s.progress i).keeps = some h → s.backend.coordinator.IsRegistered h

omit [DecidableEq κ] in
theorem kept_initial [Inhabited κ] : Kept h (State.initial : State κ) := ⟨nofun, nofun⟩

theorem isRegistered_of_back {b : Backend.Label (κ × Await)}
    (hback : Backend.step s.backend b = some t.backend)
    (hh : s.backend.coordinator.IsRegistered h) : t.backend.coordinator.IsRegistered h ∨
      ∃ p, b = .unregister p ∧ s.backend.executions p = .unsubscribing h := by
  cases b with
  | start p call =>
    obtain ⟨-, adapter, -, ht⟩ := Backend.start_spec hback
    exact Or.inl (by rwa [ht])
  | adapter b =>
    obtain ⟨-, adapter, -, ht⟩ := Backend.adapter_spec hback
    exact Or.inl (by rwa [ht])
  | assign p =>
    obtain ⟨result, handle, -, -, -, ht⟩ := Backend.assign_spec hback
    exact Or.inl (by rwa [ht])
  | dispatch ch delivery =>
    rw [Backend.dispatch_spec hback]
    exact Or.inl ((Backend.isRegistered_handle delivery).mpr hh)
  | register p =>
    obtain ⟨handle, -, ht⟩ := Backend.register_spec hback
    left
    rw [ht]
    exact SubscriptionCoordinator.isRegistered_register.mpr (Or.inr hh)
  | unregister p =>
    obtain ⟨handle, result, hexecution, -, ht⟩ := Backend.unregister_spec hback
    by_cases heq : h = handle
    · subst heq
      exact Or.inr ⟨p, rfl, hexecution⟩
    · left
      rw [ht]
      exact SubscriptionCoordinator.isRegistered_unregister.mpr ⟨heq, hh⟩

theorem keeps_reached {p : Progress} (hp : p.keeps = some h) :
    p.reached .first = some (.registered h) := by
  unfold Progress.keeps at hp
  split at hp <;> cases hp <;> rfl

theorem Kept.of_update {p : Progress} (hs : Kept h s)
    (hprogress : t.progress = Function.update s.progress i p) (hp : p ≠ .unsubscribing h)
    (hkeeps : p.keeps = some h → (s.progress i).keeps = some h ∨
      t.backend.coordinator.IsRegistered h)
    (hback : ∀ j, (t.progress j).keeps = some h → s.backend.coordinator.IsRegistered h →
      t.backend.coordinator.IsRegistered h) : Kept h t := by
  refine ⟨fun j ↦ ?_, fun j hj ↦ ?_⟩
  · rw [hprogress]
    by_cases hji : j = i
    · rwa [hji, Function.update_self]
    · rw [Function.update_of_ne hji]
      exact hs.notUnsubscribed j
  · have hj' := hj
    rw [hprogress] at hj
    by_cases hji : j = i
    · rw [hji, Function.update_self] at hj
      rcases hkeeps hj with hold | hnew
      · exact hback j hj' (hs.registered i hold)
      · exact hnew
    · rw [Function.update_of_ne hji] at hj
      exact hback j hj' (hs.registered j hj)

private theorem isRegistered_of_other {b : Backend.Label (κ × Await)}
    (hback : Backend.step s.backend b = some t.backend) (hb : ∀ p, b ≠ .unregister p)
    (hh : s.backend.coordinator.IsRegistered h) : t.backend.coordinator.IsRegistered h := by
  rcases isRegistered_of_back hback hh with hkeeps | ⟨p, hp, -⟩
  · exact hkeeps
  · exact absurd hp (hb p)

private theorem isRegistered_of_register {handle : SubscriptionHandle} {x : Await}
    (hback : Backend.step s.backend (.register (i, x)) = some t.backend)
    (hassigned : s.backend.executions (i, x) = .assigned handle) :
    t.backend.coordinator.IsRegistered handle := by
  obtain ⟨handle', hassigned', ht⟩ := Backend.register_spec hback
  cases hassigned.symm.trans hassigned'
  rw [ht]
  exact SubscriptionCoordinator.isRegistered_register_self

/-- The clean-up of one execution drops the buffer of its own handle only. -/
theorem Kept.of_drops {handle : SubscriptionHandle} {ex : BusException} (hs : Kept h s)
    (hordered : Ordered s) (hfrom : s.progress i = .cleaningUp handle ex)
    (hback : Backend.step s.backend (.unregister (i, .cleanUp)) = some t.backend)
    (hprogress : t.progress = Function.update s.progress i (.threw ex)) : Kept h t := by
  refine hs.of_update hprogress nofun nofun fun j hj hh ↦ ?_
  rcases isRegistered_of_back hback hh with hkeeps | ⟨p, hp, hexecution⟩
  · exact hkeeps
  · cases hp
    have hdropped : s.backend.executions (i, .cleanUp) = .unsubscribing handle :=
      hordered.reached (by rw [hfrom]; rfl)
    cases hdropped.symm.trans hexecution
    have hi : s.backend.executions (i, .first) = .registered h :=
      hordered.reached (by rw [hfrom]; rfl)
    have hji : j ≠ i := by
      rintro rfl
      rw [hprogress, Function.update_self] at hj
      cases hj
    rw [hprogress, Function.update_of_ne hji] at hj
    have hj' : s.backend.executions (j, .first) = .registered h :=
      hordered.reached (keeps_reached hj)
    cases hordered.handles.unique (by rw [hj']; rfl) (by rw [hi]; rfl)
    exact absurd rfl hji

theorem Kept.of_unsubscribes {handle : SubscriptionHandle} (hs : Kept h s)
    (hordered : Ordered s) (hfrom : s.progress i = .unsubscribing handle)
    (hback : Backend.step s.backend (.unregister (i, .first)) = some t.backend)
    (hprogress : t.progress = Function.update s.progress i (.returned .done)) : Kept h t := by
  refine hs.of_update hprogress nofun nofun fun j _ hh ↦ ?_
  rcases isRegistered_of_back hback hh with hkeeps | ⟨p, hp, hexecution⟩
  · exact hkeeps
  · cases hp
    have hdropped : s.backend.executions (i, .first) = .unsubscribing handle :=
      hordered.reached (by rw [hfrom]; rfl)
    cases hdropped.symm.trans hexecution
    exact absurd hfrom (hs.notUnsubscribed i)

theorem kept_step (hnot : NotUnsubscribed h s a) (hordered : Ordered s) (hs : Kept h s)
    (hstep : step s a = some t) : Kept h t := by
  cases step_cases hstep with
  | begins k u ha hidle hback hprogress hbroadcasts =>
    subst ha
    refine hs.of_update hprogress ?_ ?_ fun j _ ↦ isRegistered_of_other hback nofun
    · cases u with
      | unsubscribe handle =>
        rintro ⟨⟩
        exact hnot rfl
      | _ => exact nofun
    · cases u <;> exact nofun
  | proceeds k newGuid b p ha hmoves hback hprogress hbroadcasts =>
    cases hmoves with
    | assigns | assignsReply | cleansUp =>
      exact hs.of_update hprogress nofun nofun fun j _ ↦ isRegistered_of_other hback nofun
    | registers handle hfrom =>
      exact hs.of_update hprogress nofun nofun fun j _ ↦ isRegistered_of_other hback nofun
    | registersReply command handle queueName hfrom =>
      refine hs.of_update hprogress nofun ?_ fun j _ ↦ isRegistered_of_other hback nofun
      rintro ⟨⟩
      exact Or.inr (isRegistered_of_register hback (hordered.reached (by rw [hfrom]; rfl)))
    | sends command handle queueName correlationId message hfrom =>
      refine hs.of_update hprogress nofun ?_ fun j _ ↦ isRegistered_of_other hback nofun
      intro hp
      rw [hfrom]
      exact Or.inl hp
    | returns handle correlationId hfrom =>
      refine hs.of_update hprogress nofun ?_ fun j _ hh ↦ ?_
      · intro hp
        rw [hfrom]
        exact Or.inl hp
      · rw [hback]
        exact hh
    | ends | throws =>
      refine hs.of_update hprogress nofun nofun fun j _ hh ↦ ?_
      rw [hback]
      exact hh
    | drops handle ex hfrom => exact hs.of_drops hordered hfrom hback hprogress
    | unsubscribes handle hfrom => exact hs.of_unsubscribes hordered hfrom hback hprogress
  | adapter b ha hback hprogress hbroadcasts =>
    refine ⟨fun j ↦ hprogress ▸ hs.notUnsubscribed j, fun j hj ↦ ?_⟩
    exact isRegistered_of_other hback nofun (hs.registered j (hprogress ▸ hj))
  | dispatches ch delivery ha hback hprogress hbroadcasts =>
    refine ⟨fun j ↦ hprogress ▸ hs.notUnsubscribed j, fun j hj ↦ ?_⟩
    exact isRegistered_of_other hback nofun (hs.registered j (hprogress ▸ hj))

/-! ## Runs -/

theorem replyHandle_keeps {p : Progress} (hp : p.replyHandle = some h) : p.keeps = some h := by
  unfold Progress.replyHandle at hp
  split at hp <;> cases hp <;> rfl

/-- **Replies are kept**, from the call of `SendAsync` on. -/
theorem repliesKept [Inhabited κ] {as : List (Label κ)}
    (hreplies : Guarded step (RepliesFollow i) State.initial as)
    (hnot : Guarded step (NotUnsubscribed h) State.initial as)
    (hrun : run step State.initial as = some t) (hhandle : (t.progress i).replyHandle = some h) :
    RepliesKept t i h := by
  obtain ⟨hordered, hbuffers, hbroadcasts, hkept⟩ := invariant_of_guarded
    (P := fun s ↦ Ordered s ∧ Backend.Buffers (i, .first) s.backend ∧ Broadcasts s ∧ Kept h s)
    ⟨ordered_initial, ⟨Backend.handles_initial, fun _ ↦ rfl, nofun⟩, broadcasts_initial,
      kept_initial⟩
    (fun s a t hs hC hstep ↦ ⟨ordered_step hs.1 hstep, buffers_step hC.1 hs.1 hs.2.1 hstep,
      broadcasts_step hs.1.handles hs.2.2.1 hstep, kept_step hC.2 hs.1 hs.2.2.2 hstep⟩)
    (hreplies.and hnot) hrun
  have hkeeps : (t.progress i).keeps = some h := replyHandle_keeps hhandle
  have hregistered : t.backend.coordinator.IsRegistered h := hkept.registered i hkeeps
  exact ⟨hbuffers.after h (hordered.reached (keeps_reached hkeeps)) hregistered,
    hbroadcasts.same hregistered⟩

open RabbitMqAdapter.Label (succeed)

private def ping : SendMessageWithReplyCommand where
  target := some []
  routingKey := some (Utf16.ofString "pings")
  payload := some (Utf16.ofString "ping")
  correlationId := none
  headers := none

/-- An answer with the payload `hi` or `ho`. -/
private def answer (vowel : UInt8) : Delivery where
  exchange := []
  routingKey := Utf16.ofString "amq.gen-1"
  body := [0x68, vowel]
  replyTo := none
  correlationId := none

/-- One execution connects. The other sends with reply, and is answered while it publishes and once
more after it has returned. -/
private def answeredTwice : List (Label Bool) :=
  [.begin false (.teardown (.connect .localhost)), .adapter (succeed (false, .first)),
    .adapter (succeed (false, .first)), .proceed false ⟨0⟩,
    .begin true (.sendWithReply ping), .adapter (succeed (true, .first)),
    .adapter (.resume (true, .first) (.declared (Utf16.ofString "amq.gen-1")) ⟨0⟩),
    .adapter (.brokerConsumes 0), .adapter (.resume (true, .first) .completed ⟨7⟩),
    .adapter (succeed (true, .first)), .proceed true ⟨0⟩, .proceed true ⟨0⟩, .proceed true ⟨8⟩,
    .adapter (succeed (true, .send)), .dispatch 0 (answer 0x69),
    .adapter (succeed (true, .send)), .adapter (succeed (true, .send)), .proceed true ⟨0⟩,
    .dispatch 0 (answer 0x6F)]

theorem repliesKept_of_answeredTwice : ∃ t,
    run step State.initial answeredTwice = some t ∧
      (t.backend.coordinator.getMessages ⟨⟨7⟩⟩).map BusMessage.payload
        = [Utf16.ofString "hi", Utf16.ofString "ho"] ∧ RepliesKept t true ⟨⟨7⟩⟩ := by
  have hreplies : Guarded step (RepliesFollow true) State.initial answeredTwice := by decide
  have hnot : Guarded step (NotUnsubscribed ⟨⟨7⟩⟩) State.initial answeredTwice := by decide
  exact ⟨_, rfl, by decide, repliesKept hreplies hnot rfl rfl⟩

end UseCases

end BusTester
