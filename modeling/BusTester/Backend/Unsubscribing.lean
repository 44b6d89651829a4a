import BusTester.Backend.UseCases

/-!
# Unsubscribing, when it fails

`UnsubscribeUseCase` takes the handle out of two registries, the adapter's before the channel is
closed and the coordinator's after it was disposed. An exception in between leaves the handle with
the coordinator alone, and the channel perhaps open. `allOrNothing_iff` says that this is the only
way in which an execution that nothing but the broker interferes with leaves the handle in one of
the two.
-/

namespace BusTester

namespace RabbitMqAdapter

/-- Awaiting the close or the disposal of a channel that is not in the dictionary any more. -/
def Pc.closesUnsubscribed : Pc → Bool
  | .closingUnsubscribed _ | .disposingUnsubscribed _ => true
  | _ => false

end RabbitMqAdapter

namespace UseCases

open RabbitMqAdapter (ChannelId lookup)
open Transition

variable {κ : Type} {s t u : State κ} {i : κ} {h : SubscriptionHandle} {a : Label κ}
  {as : List (Label κ)}

/-! ## The property and the condition -/

/-- The handle is in both registries, or in neither, and then its channel is closed. -/
def AllOrNothing (s t : State κ) (h : SubscriptionHandle) : Prop :=
  (t.backend.adapter.IsLive h ∧ t.backend.coordinator.IsRegistered h) ∨
    (¬t.backend.adapter.IsLive h ∧ ¬t.backend.coordinator.IsRegistered h ∧
      ∀ ch, lookup h s.backend.adapter.subscriptionChannels = some ch →
        (t.backend.adapter.channels ch).isOpen = false)

/-- `HandleAsync` has returned or thrown. -/
def Progress.hasEnded : Progress → Bool
  | .returned _ | .threw _ => true
  | _ => false

/-- The step is one of the execution `i`, which awaits a single call, or an event of the broker. -/
def Concerns (i : κ) : Label κ → Prop
  | .begin _ _ | .adapter (.start _ _) => False
  | .proceed j _ => j = i
  | .adapter (.resume j _ _) => j = (i, .first)
  | .adapter (.brokerConsumes _) | .adapter (.connectionLost _) | .adapter (.channelLost _)
  | .dispatch _ _ => True

/-- This step is not the failure of a close or of a disposal in `UnsubscribeAsync`. -/
def ClosesUnsubscribed (s : State κ) : Label κ → Prop
  | .adapter (.resume j (.failed _) _) => (s.backend.adapter.calls j).closesUnsubscribed = false
  | _ => True

instance [DecidableEq κ] (i : κ) : DecidablePred (Concerns i)
  | .begin _ _ | .adapter (.start _ _) => isFalse fun h ↦ h
  | .proceed j _ => inferInstanceAs (Decidable (j = i))
  | .adapter (.resume j _ _) => inferInstanceAs (Decidable (j = (i, .first)))
  | .adapter (.brokerConsumes _) | .adapter (.connectionLost _) | .adapter (.channelLost _)
  | .dispatch _ _ => isTrue trivial

instance (s : State κ) : DecidablePred (ClosesUnsubscribed s)
  | .adapter (.resume j (.failed _) _) =>
    inferInstanceAs (Decidable ((s.backend.adapter.calls j).closesUnsubscribed = false))
  | .adapter (.resume _ .completed _) | .adapter (.resume _ (.declared _) _)
  | .adapter (.start _ _) | .adapter (.brokerConsumes _) | .adapter (.connectionLost _)
  | .adapter (.channelLost _) | .begin _ _ | .proceed _ _ | .dispatch _ _ => isTrue trivial

/-! ## The places of the execution -/

/-- The handle has left the adapter's registry, and is on its way out of the coordinator's. -/
structure Removed (s t : State κ) (i : κ) (h : SubscriptionHandle) (ch : ChannelId) : Prop where
  progress : t.progress i = .unsubscribing h
  execution : t.backend.executions (i, .first) = .unsubscribing h
  channel : lookup h s.backend.adapter.subscriptionChannels = some ch
  gone : ¬t.backend.adapter.IsLive h
  registered : t.backend.coordinator.IsRegistered h

/-- How far the execution has come, if nothing has failed that must not. -/
inductive Reaches (s : State κ) (i : κ) (h : SubscriptionHandle) (t : State κ) : Prop where
  | waiting (hprogress : t.progress i = .unsubscribing h)
    (hcall : t.backend.adapter.calls (i, .first) = .waitingToUnsubscribe h)
    (hexecution : t.backend.executions (i, .first) = .unsubscribing h)
    (hentries : t.backend.adapter.subscriptionChannels = s.backend.adapter.subscriptionChannels)
    (hregistered : t.backend.coordinator.IsRegistered h)
  | closing (ch : ChannelId) (hremoved : Removed s t i h ch)
    (hcall : t.backend.adapter.calls (i, .first) = .closingUnsubscribed ch)
  | disposing (ch : ChannelId) (hremoved : Removed s t i h ch)
    (hcall : t.backend.adapter.calls (i, .first) = .disposingUnsubscribed ch)
    (hclosed : (t.backend.adapter.channels ch).isOpen = false)
  | disposed (ch : ChannelId) (result : RabbitMqAdapter.Result) (hremoved : Removed s t i h ch)
    (hcall : t.backend.adapter.calls (i, .first) = .ended (.ok result))
    (hclosed : (t.backend.adapter.channels ch).isOpen = false)
  /-- The wait for the semaphore has failed. -/
  | refused (ex : BusException) (hprogress : t.progress i = .unsubscribing h)
    (hcall : t.backend.adapter.calls (i, .first) = .ended (.error ex))
    (hlive : t.backend.adapter.IsLive h) (hregistered : t.backend.coordinator.IsRegistered h)
  | ended (result : Except BusException RabbitMqAdapter.Result)
    (hprogress : (t.progress i).hasEnded = true)
    (hcall : t.backend.adapter.calls (i, .first) = .ended result) (hresult : AllOrNothing s t h)

/-- The execution is about to throw, or has thrown, and has left the handle to the coordinator. -/
structure Stranded (i : κ) (h : SubscriptionHandle) (t : State κ) : Prop where
  gone : ¬t.backend.adapter.IsLive h
  registered : t.backend.coordinator.IsRegistered h
  progress : t.progress i = .unsubscribing h ∨ (t.progress i).hasEnded = true
  call : ∃ ex, t.backend.adapter.calls (i, .first) = .ended (.error ex)

theorem Stranded.not_allOrNothing (ht : Stranded i h t) : ¬AllOrNothing s t h := by
  rintro (⟨hlive, -⟩ | ⟨-, hnot, -⟩)
  · exact ht.gone hlive
  · exact hnot ht.registered

/-- A failure after the handle has left the adapter's registry. -/
theorem Stranded.of_removed {ch : ChannelId} {ex : BusException} (ht : Removed s t i h ch)
    (hcall : t.backend.adapter.calls (i, .first) = .ended (.error ex)) : Stranded i h t :=
  ⟨ht.gone, ht.registered, Or.inl ht.progress, ex, hcall⟩

theorem Removed.of_adapter {ch : ChannelId} {adapter : RabbitMqAdapter.State (κ × Await)}
    (ht : Removed s t i h ch)
    (hentries : adapter.subscriptionChannels = t.backend.adapter.subscriptionChannels) :
    Removed s { t with backend := { t.backend with adapter } } i h ch where
  progress := ht.progress
  execution := ht.execution
  channel := ht.channel
  gone := by
    rintro ⟨entry, hentry, hkey⟩
    exact ht.gone ⟨entry, hentries ▸ hentry, hkey⟩
  registered := ht.registered

/-! ## Events of the broker -/

/-- A step that leaves the executions and the registries alone, and reopens nothing. -/
structure Rests (s t : State κ) : Prop where
  progress : t.progress = s.progress
  calls : t.backend.adapter.calls = s.backend.adapter.calls
  executions : t.backend.executions = s.backend.executions
  entries : t.backend.adapter.subscriptionChannels = s.backend.adapter.subscriptionChannels
  registered : ∀ h,
    t.backend.coordinator.IsRegistered h ↔ s.backend.coordinator.IsRegistered h
  closed : ∀ ch, (s.backend.adapter.channels ch).isOpen = false →
    (t.backend.adapter.channels ch).isOpen = false

theorem Rests.isLive_iff (hrests : Rests t u) :
    u.backend.adapter.IsLive h ↔ t.backend.adapter.IsLive h := by
  rw [RabbitMqAdapter.State.IsLive, RabbitMqAdapter.State.IsLive, hrests.entries]

theorem Rests.removed {ch : ChannelId} (hrests : Rests t u) (ht : Removed s t i h ch) :
    Removed s u i h ch where
  progress := by rw [hrests.progress, ht.progress]
  execution := by rw [hrests.executions, ht.execution]
  channel := ht.channel
  gone hlive := ht.gone (hrests.isLive_iff.mp hlive)
  registered := (hrests.registered h).mpr ht.registered

theorem Rests.allOrNothing (hrests : Rests t u) (ht : AllOrNothing s t h) : AllOrNothing s u h := by
  rcases ht with ⟨hlive, hregistered⟩ | ⟨hgone, hnot, hclosed⟩
  · exact Or.inl ⟨hrests.isLive_iff.mpr hlive, (hrests.registered h).mpr hregistered⟩
  · refine Or.inr ⟨fun hlive ↦ hgone (hrests.isLive_iff.mp hlive),
      fun hregistered ↦ hnot ((hrests.registered h).mp hregistered), fun ch hch ↦ ?_⟩
    exact hrests.closed ch (hclosed ch hch)

theorem Rests.reaches (hrests : Rests t u) (ht : Reaches s i h t) : Reaches s i h u := by
  cases ht with
  | waiting hprogress hcall hexecution hentries hregistered =>
    exact .waiting (by rw [hrests.progress, hprogress]) (by rw [hrests.calls, hcall])
      (by rw [hrests.executions, hexecution]) (hrests.entries.trans hentries)
      ((hrests.registered h).mpr hregistered)
  | closing ch hremoved hcall =>
    exact .closing ch (hrests.removed hremoved) (by rw [hrests.calls, hcall])
  | disposing ch hremoved hcall hclosed =>
    exact .disposing ch (hrests.removed hremoved) (by rw [hrests.calls, hcall])
      (hrests.closed ch hclosed)
  | disposed ch result hremoved hcall hclosed =>
    exact .disposed ch result (hrests.removed hremoved) (by rw [hrests.calls, hcall])
      (hrests.closed ch hclosed)
  | refused ex hprogress hcall hlive hregistered =>
    exact .refused ex (by rw [hrests.progress, hprogress]) (by rw [hrests.calls, hcall])
      (hrests.isLive_iff.mpr hlive) ((hrests.registered h).mpr hregistered)
  | ended result hprogress hcall hresult =>
    exact .ended result (by rw [hrests.progress, hprogress]) (by rw [hrests.calls, hcall])
      (hrests.allOrNothing hresult)

theorem Rests.stranded (hrests : Rests t u) (ht : Stranded i h t) : Stranded i h u where
  gone hlive := ht.gone (hrests.isLive_iff.mp hlive)
  registered := (hrests.registered h).mpr ht.registered
  progress := by
    rw [hrests.progress]
    exact ht.progress
  call := by
    rw [hrests.calls]
    exact ht.call

theorem not_isLive_filter {adapter : RabbitMqAdapter.State (κ × Await)}
    (hentries : adapter.subscriptionChannels
      = t.backend.adapter.subscriptionChannels.filter fun entry ↦ entry.1 ≠ h) :
    ¬adapter.IsLive h := by
  rintro ⟨entry, hentry, hkey⟩
  rw [hentries, List.mem_filter, decide_eq_true_iff] at hentry
  exact hentry.2 hkey

variable [DecidableEq κ]

theorem concerns_cases (ha : Concerns i a) (hstep : step t a = some u) :
    (∃ newGuid, a = .proceed i newGuid) ∨
      (∃ awaited newGuid, a = .adapter (.resume (i, .first) awaited newGuid)) ∨ Rests t u := by
  cases a with
  | begin j useCase => exact ha.elim
  | proceed j newGuid =>
    obtain rfl : j = i := ha
    exact Or.inl ⟨newGuid, rfl⟩
  | adapter b =>
    obtain ⟨backend, hback, rfl⟩ := Option.map_eq_some_iff.mp hstep
    obtain ⟨-, adapter, hadapter, rfl⟩ := Backend.adapter_spec hback
    cases b with
    | start j call => exact ha.elim
    | resume j awaited newGuid =>
      obtain rfl : j = (i, .first) := ha
      exact Or.inr (Or.inl ⟨awaited, newGuid, rfl⟩)
    | brokerConsumes ch =>
      simp only [RabbitMqAdapter.step, Option.ite_none_right_eq_some, Option.some.injEq] at hadapter
      obtain ⟨⟨-, hopen⟩, rfl⟩ := hadapter
      refine Or.inr (Or.inr ⟨rfl, rfl, rfl, rfl, fun _ ↦ Iff.rfl, fun ch' hclosed ↦ ?_⟩)
      by_cases heq : ch' = ch
      · rw [heq, hopen] at hclosed
        cases hclosed
      · simpa [heq] using hclosed
    | connectionLost c =>
      cases hadapter
      refine Or.inr (Or.inr ⟨rfl, rfl, rfl, rfl, fun _ ↦ Iff.rfl, fun ch hclosed ↦ ?_⟩)
      simp only [RabbitMqAdapter.State.closeConnection_channels,
        RabbitMqAdapter.State.channelsWithout]
      split
      · rfl
      · exact hclosed
    | channelLost ch =>
      cases hadapter
      refine Or.inr (Or.inr ⟨rfl, rfl, rfl, rfl, fun _ ↦ Iff.rfl, fun ch' hclosed ↦ ?_⟩)
      by_cases heq : ch' = ch
      · rw [heq]
        simp
      · simpa [heq] using hclosed
  | dispatch ch delivery =>
    obtain ⟨backend, hback, rfl⟩ := Option.map_eq_some_iff.mp hstep
    rw [Backend.dispatch_spec hback]
    exact Or.inr (Or.inr ⟨rfl, rfl, rfl, rfl,
      fun _ ↦ Backend.isRegistered_handle delivery, fun _ h ↦ h⟩)

/-! ## Steps of the execution -/

theorem resume_spec {awaited : RabbitMqAdapter.Awaited} {newGuid : Guid}
    (hstep : step t (.adapter (.resume (i, .first) awaited newGuid)) = some u) :
    ∃ adapter, RabbitMqAdapter.resume t.backend.adapter (i, .first) awaited newGuid = some adapter ∧
      u = { t with backend := { t.backend with adapter } } := by
  obtain ⟨backend, hback, rfl⟩ := Option.map_eq_some_iff.mp hstep
  obtain ⟨-, adapter, hadapter, rfl⟩ := Backend.adapter_spec hback
  exact ⟨adapter, hadapter, rfl⟩

/-- **A step of `UnsubscribeAsync`** strands the handle exactly if it fails after the wait. -/
theorem reaches_resume {awaited : RabbitMqAdapter.Awaited} {newGuid : Guid}
    (hlive : s.backend.adapter.IsLive h) (ht : Reaches s i h t)
    (hstep : step t (.adapter (.resume (i, .first) awaited newGuid)) = some u) :
    (ClosesUnsubscribed t (.adapter (.resume (i, .first) awaited newGuid)) ∧ Reaches s i h u) ∨
      (¬ClosesUnsubscribed t (.adapter (.resume (i, .first) awaited newGuid)) ∧
        Stranded i h u) := by
  obtain ⟨adapter, hadapter, rfl⟩ := resume_spec hstep
  cases ht with
  | waiting hprogress hcall hexecution hentries hregistered =>
    simp only [RabbitMqAdapter.resume, hcall, RabbitMqAdapter.resumeUnsubscribe] at hadapter
    split at hadapter
    · rw [Option.ite_none_right_eq_some] at hadapter
      obtain ⟨-, hadapter⟩ := hadapter
      split at hadapter <;> cases hadapter
      · rename_i hnone
        rw [hentries, lookup, Option.map_eq_none_iff, List.find?_eq_none] at hnone
        obtain ⟨entry, hentry, hkey⟩ := hlive
        exact absurd (decide_eq_true hkey) (hnone entry hentry)
      · rename_i ch hch
        rw [hentries] at hch
        refine Or.inl ⟨trivial, .closing ch ⟨hprogress, hexecution, hch, ?_, hregistered⟩ ?_⟩
        · exact not_isLive_filter (t := t) rfl
        · exact RabbitMqAdapter.calls_goto
    · cases hadapter
    · cases hadapter
      refine Or.inl ⟨?_, .refused _ hprogress RabbitMqAdapter.calls_goto ?_ hregistered⟩
      · rw [ClosesUnsubscribed, hcall]
        rfl
      · rw [RabbitMqAdapter.State.IsLive] at hlive ⊢
        rwa [← hentries] at hlive
  | closing ch hremoved hcall =>
    simp only [RabbitMqAdapter.resume, hcall, RabbitMqAdapter.resumeUnsubscribe] at hadapter
    split at hadapter <;> cases hadapter
    · refine Or.inl ⟨trivial, .disposing ch (hremoved.of_adapter rfl) RabbitMqAdapter.calls_goto ?_⟩
      simp
    · refine Or.inr ⟨?_, .of_removed (hremoved.of_adapter ?_) RabbitMqAdapter.calls_goto⟩
      · rw [ClosesUnsubscribed, hcall]
        rintro ⟨⟩
      · exact RabbitMqAdapter.subscriptionChannels_interrupt _
  | disposing ch hremoved hcall hclosed =>
    simp only [RabbitMqAdapter.resume, hcall, RabbitMqAdapter.resumeUnsubscribe] at hadapter
    split at hadapter <;> cases hadapter
    · refine Or.inl ⟨trivial, .disposed ch .done (hremoved.of_adapter rfl)
        RabbitMqAdapter.calls_goto ?_⟩
      simp [RabbitMqAdapter.State.return']
    · refine Or.inr ⟨?_, .of_removed (hremoved.of_adapter ?_) RabbitMqAdapter.calls_goto⟩
      · rw [ClosesUnsubscribed, hcall]
        rintro ⟨⟩
      · exact RabbitMqAdapter.subscriptionChannels_interrupt _
  | disposed ch result hremoved hcall =>
    simp only [RabbitMqAdapter.resume, hcall] at hadapter
    cases hadapter
  | refused ex hprogress hcall =>
    simp only [RabbitMqAdapter.resume, hcall] at hadapter
    cases hadapter
  | ended result hprogress hcall =>
    simp only [RabbitMqAdapter.resume, hcall] at hadapter
    cases hadapter

theorem proceed_of_hasEnded {newGuid : Guid} (hended : (t.progress i).hasEnded = true) :
    step t (.proceed i newGuid) = none := by
  cases hprogress : t.progress i with
  | returned | threw => simp only [step, proceed, hprogress]
  | _ =>
    rw [hprogress] at hended
    cases hended

/-- **A statement of `HandleAsync`**: `Unregister` after a call that has returned, and an exception
after one that has thrown. -/
theorem reaches_proceed {newGuid : Guid} (ht : Reaches s i h t)
    (hstep : step t (.proceed i newGuid) = some u) : Reaches s i h u := by
  cases ht with
  | waiting hprogress hcall =>
    simp only [step, proceed, hprogress, hcall] at hstep
    cases hstep
  | closing ch hremoved hcall =>
    simp only [step, proceed, hremoved.progress, hcall] at hstep
    cases hstep
  | disposing ch hremoved hcall =>
    simp only [step, proceed, hremoved.progress, hcall] at hstep
    cases hstep
  | disposed ch result hremoved hcall hclosed =>
    simp only [step, proceed, hremoved.progress, hcall] at hstep
    obtain ⟨backend, hback, rfl⟩ := Option.map_eq_some_iff.mp hstep
    obtain ⟨handle, result', hexecution, -, rfl⟩ := Backend.unregister_spec hback
    cases hremoved.execution.symm.trans hexecution
    refine .ended _ ?_ hcall (Or.inr ⟨hremoved.gone, ?_, fun ch' hch' ↦ ?_⟩)
    · simp [State.goto, Progress.hasEnded]
    · simp [State.goto, SubscriptionCoordinator.IsRegistered]
    · cases hremoved.channel.symm.trans hch'
      exact hclosed
  | refused ex hprogress hcall hlive hregistered =>
    simp only [step, proceed, hprogress, hcall] at hstep
    cases hstep
    refine .ended _ ?_ hcall (Or.inl ⟨hlive, hregistered⟩)
    simp [State.goto, Progress.hasEnded]
  | ended result hprogress hcall => cases hstep.symm.trans (proceed_of_hasEnded hprogress)

/-! ## Runs -/

theorem reaches_step (hlive : s.backend.adapter.IsLive h) (hconcerns : Concerns i a)
    (ht : Reaches s i h t) (hstep : step t a = some u) :
    (ClosesUnsubscribed t a ∧ Reaches s i h u) ∨
      (¬ClosesUnsubscribed t a ∧ Stranded i h u) := by
  rcases concerns_cases hconcerns hstep with
    ⟨newGuid, rfl⟩ | ⟨awaited, newGuid, rfl⟩ | hrests
  · exact Or.inl ⟨trivial, reaches_proceed ht hstep⟩
  · exact reaches_resume hlive ht hstep
  · by_cases hcloses : ClosesUnsubscribed t a
    · exact Or.inl ⟨hcloses, hrests.reaches ht⟩
    · -- A failure is a step of the execution itself, which does not rest.
      cases a with
      | adapter b =>
        cases b with
        | resume j awaited newGuid =>
          obtain rfl : j = (i, .first) := hconcerns
          exact reaches_resume hlive ht hstep
        | _ => exact absurd trivial hcloses
      | _ => exact absurd trivial hcloses

theorem stranded_step (hconcerns : Concerns i a) (ht : Stranded i h t)
    (hstep : step t a = some u) : Stranded i h u := by
  obtain ⟨ex, hcall⟩ := ht.call
  rcases concerns_cases hconcerns hstep with
    ⟨newGuid, rfl⟩ | ⟨awaited, newGuid, rfl⟩ | hrests
  · rcases ht.progress with hprogress | hprogress
    · simp only [step, proceed, hprogress, hcall] at hstep
      cases hstep
      exact ⟨ht.gone, ht.registered, Or.inr (by simp [State.goto, Progress.hasEnded]), ex, hcall⟩
    · cases hstep.symm.trans (proceed_of_hasEnded hprogress)
  · obtain ⟨adapter, hadapter, rfl⟩ := resume_spec hstep
    simp only [RabbitMqAdapter.resume, hcall] at hadapter
    cases hadapter
  · exact hrests.stranded ht

theorem reaches_begin (hregistered : s.backend.coordinator.IsRegistered h)
    (hstep : step s (.begin i (.unsubscribe h)) = some t) : Reaches s i h t := by
  simp only [step] at hstep
  split at hstep
  · obtain ⟨backend, hback, rfl⟩ := Option.map_eq_some_iff.mp hstep
    obtain ⟨-, adapter, hadapter, rfl⟩ := Backend.start_spec hback
    rw [RabbitMqAdapter.step, Option.ite_none_right_eq_some, Option.some.injEq] at hadapter
    obtain ⟨-, rfl⟩ := hadapter
    refine .waiting ?_ RabbitMqAdapter.calls_goto ?_ rfl hregistered
    · simp [State.goto]
    · simp [State.goto, Backend.executionOf]
  · cases hstep

/-- **Unsubscribing is all or nothing unless the channel fails to close.** -/
theorem allOrNothing_iff (hlive : s.backend.adapter.IsLive h)
    (hregistered : s.backend.coordinator.IsRegistered h) (hconcerns : ∀ a ∈ as, Concerns i a)
    (hrun : run step s (.begin i (.unsubscribe h) :: as) = some t)
    (hended : (t.progress i).hasEnded = true) :
    AllOrNothing s t h ↔ Guarded step ClosesUnsubscribed s (.begin i (.unsubscribe h) :: as) := by
  obtain ⟨u, hbegin, hrest⟩ := Option.bind_eq_some_iff.mp hrun
  rw [guarded_cons, hbegin]
  simp only [Option.some.injEq, forall_eq']
  have hdomain : Guarded step (fun _ a ↦ Concerns i a) u as :=
    .of_forall fun a ha _ ↦ hconcerns a ha
  have hdichotomy := guarded_dichotomy (C := ClosesUnsubscribed) (P := Reaches s i h)
    (B := Stranded i h) (reaches_begin hregistered hbegin) ?_ ?_ ?_ hdomain hrest
  · rcases hdichotomy with ⟨hguard, hreaches⟩ | ⟨hguard, hstranded⟩
    · refine iff_of_true ?_ ⟨trivial, hguard⟩
      cases hreaches with
      | waiting hprogress | refused ex hprogress =>
        rw [hprogress] at hended
        cases hended
      | closing ch hremoved | disposing ch hremoved | disposed ch result hremoved =>
        rw [hremoved.progress] at hended
        cases hended
      | ended result hprogress hcall hresult => exact hresult
    · exact iff_of_false hstranded.not_allOrNothing fun h ↦ hguard h.2
  · intro v a w hconcerns hcloses hv hstep
    exact ((reaches_step hlive hconcerns hv hstep).resolve_right fun h ↦ h.1 hcloses).2
  · intro v a w hconcerns hcloses hv hstep
    exact ((reaches_step hlive hconcerns hv hstep).resolve_left fun h ↦ hcloses h.1).2
  · exact fun v a w hconcerns hv hstep ↦ stranded_step hconcerns hv hstep

open RabbitMqAdapter.Label (succeed)

/-- The first execution connects, and the second subscribes to `orders`. -/
private def subscribed : List (Label ℕ) :=
  [.begin 0 (.teardown (.connect .localhost)), .adapter (succeed (0, .first)),
    .adapter (succeed (0, .first)), .proceed 0 ⟨0⟩,
    .begin 1 (.subscribe (Utf16.ofString "orders")), .adapter (succeed (1, .first)),
    .adapter (.brokerConsumes 0), .adapter (.resume (1, .first) .completed ⟨7⟩),
    .adapter (succeed (1, .first)), .proceed 1 ⟨0⟩, .proceed 1 ⟨0⟩]

/-- The channel is closed and disposed. -/
theorem allOrNothing_of_closed : ∃ s t, run step State.initial subscribed = some s ∧
    s.backend.adapter.IsLive ⟨⟨7⟩⟩ ∧ run step s [.begin 2 (.unsubscribe ⟨⟨7⟩⟩),
      .adapter (succeed (2, .first)), .adapter (succeed (2, .first)),
      .adapter (succeed (2, .first)), .proceed 2 ⟨0⟩] = some t ∧ AllOrNothing s t ⟨⟨7⟩⟩ := by
  obtain ⟨s, t, hs, hlive, hregistered, hrun, hended, hcloses⟩ : ∃ s t,
      run step State.initial subscribed = some s ∧ s.backend.adapter.IsLive ⟨⟨7⟩⟩ ∧
      s.backend.coordinator.IsRegistered ⟨⟨7⟩⟩ ∧
      run step s [.begin 2 (.unsubscribe ⟨⟨7⟩⟩), .adapter (succeed (2, .first)),
        .adapter (succeed (2, .first)), .adapter (succeed (2, .first)), .proceed 2 ⟨0⟩] = some t ∧
      (t.progress 2).hasEnded = true ∧ Guarded step ClosesUnsubscribed s
        [.begin 2 (.unsubscribe ⟨⟨7⟩⟩), .adapter (succeed (2, .first)),
          .adapter (succeed (2, .first)), .adapter (succeed (2, .first)), .proceed 2 ⟨0⟩] :=
    ⟨_, _, rfl, ⟨_, List.mem_singleton_self _, rfl⟩, rfl, rfl, rfl, by decide⟩
  exact ⟨s, t, hs, hlive, hrun,
    (allOrNothing_iff hlive hregistered (by decide) hrun hended).mpr hcloses⟩

/-- `CloseAsync` fails: the coordinator keeps the handle, the adapter does not, and the channel is
open. -/
theorem not_allOrNothing_of_open_channel : ∃ s t, run step State.initial subscribed = some s ∧
    s.backend.adapter.IsLive ⟨⟨7⟩⟩ ∧ s.backend.coordinator.IsRegistered ⟨⟨7⟩⟩ ∧
      run step s [.begin 2 (.unsubscribe ⟨⟨7⟩⟩), .adapter (succeed (2, .first)),
        .adapter (.resume (2, .first) (.failed .other) ⟨0⟩), .proceed 2 ⟨0⟩] = some t ∧
      t.progress 2 = .threw .other ∧ (t.backend.adapter.channels 0).isOpen = true ∧
        ¬AllOrNothing s t ⟨⟨7⟩⟩ := by
  refine ⟨_, _, rfl, ⟨_, List.mem_singleton_self _, rfl⟩, rfl, rfl, rfl, rfl, ?_⟩
  rintro (⟨⟨entry, hentry, -⟩, -⟩ | ⟨-, hnot, -⟩)
  · cases hentry
  · exact hnot rfl

end UseCases

end BusTester
