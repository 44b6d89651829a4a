import BusTester.Infrastructure.AdapterFrames

/-!
# Which call owns which channel and which handle

A channel belongs to the call that opened it until that call ends, and a call owns at most one
channel. This is an invariant of every run (`owned_of_run`), and so is that no two calls hold the
same handle. The first makes the question of the last section answerable: when a call that starts a
consumer ends, what has become of its channel?

`SendAsync` disposes its channel on every way out. `SubscribeAsync` and
`DeclareTemporaryReplyQueueAndSubscribeAsync` do not: they hand the channel over to the dictionary,
or rely on the broker having closed it. `channelAccountedFor_iff` says exactly when that leaves an
open channel which no handle reaches.
-/

namespace BusTester

namespace RabbitMqAdapter

open Transition

variable {ι : Type} {s t : State ι} {i j : ι} {ch : ChannelId} {a : Label ι}

/-! ## The invariant -/

/-- A channel is owned by the call that opened it, as long as that call is in flight. -/
structure Owned (s : State ι) : Prop where
  opened : ∀ i ch, (s.calls i).channel = some ch →
    ch < s.nextChannel ∧ (s.channels ch).openedBy = i
  owned : ∀ ch < s.nextChannel, (∃ result, s.calls (s.channels ch).openedBy = .ended result) ∨
    (s.calls (s.channels ch).openedBy).channel = some ch

theorem owned_initial [Inhabited ι] : Owned (State.initial : State ι) :=
  ⟨nofun, nofun⟩

/-- While a call is in flight, the only channel it has opened is the one it is suspended with. -/
theorem Owned.channel_eq (h : Owned s) (hch : ch < s.nextChannel)
    (howner : (s.channels ch).openedBy = i) (hflight : ∀ result, s.calls i ≠ .ended result) :
    (s.calls i).channel = some ch := by
  rcases h.owned ch hch with ⟨result, hended⟩ | hchannel
  · rw [howner] at hended
    exact absurd hended (hflight result)
  · rwa [howner] at hchannel

section Preservation

variable [DecidableEq ι]

/-- A call in flight moves, the channels that exist stay with their owners, and a handle is issued
at most to the call that moves. -/
structure Moved (s : State ι) (i : ι) (t : State ι) : Prop where
  flight : ∀ result, s.calls i ≠ .ended result
  owner : ∀ ch < s.nextChannel, (t.channels ch).openedBy = (s.channels ch).openedBy
  calls : ∃ pc', t.calls = Function.update s.calls i pc' ∧ Follows s i (s.calls i) t pc' ∧
    Hands s (s.calls i) t pc'

theorem Frame.moved (h : Frame s i (s.calls i) t) (hflight : (s.calls i).atRest = false) :
    Moved s i t := by
  obtain ⟨pc', hcalls, -, -, hfollows, hhands⟩ := h.calls
  refine ⟨fun result hended ↦ ?_, fun ch hch ↦ (h.wears.owner ch hch).2, pc', hcalls, hfollows,
    hhands⟩
  rw [hended] at hflight
  cases hflight

/-- **One call moves, or none does.** -/
theorem moved_or_quiet (h : step s a = some t) : (∃ i, Moved s i t) ∨ Quiet s t := by
  have hflight : ∀ i (pc : Pc), s.calls i = pc → (∀ result, pc ≠ .ended result) →
      ∀ result, s.calls i ≠ .ended result := by
    rintro i pc rfl hne
    exact hne
  cases step_cases h with
  | starts i call pc' ha hidle ht hbare hteardown =>
    subst ht
    refine Or.inl ⟨i, hflight i _ hidle fun _ ↦ Pc.noConfusion, fun _ _ ↦ rfl, pc', rfl,
      .kept ?_ rfl, .of_none rfl hbare.handle⟩
    rw [hidle, hbare.channel]
    rfl
  | moves i awaited newGuid ha hframe hentries hrest hfailed =>
    exact Or.inl ⟨i, hframe.moved hrest⟩
  | registers i awaited newGuid ha hframe hregisters =>
    obtain ⟨method, queueName, ch, handle, hpc, -⟩ := hregisters
    exact Or.inl ⟨i, hframe.moved (by rw [hpc]; rfl)⟩
  | disposes i awaited newGuid ha hdisposes =>
    obtain ⟨caller, c, hpc, -, ht⟩ := hdisposes
    obtain ⟨pc', hgoto, hbare⟩ := exists_goto_teardownReturn
      (s := { s.disposeConnection c with connection := none }) i caller rfl
    rw [hgoto] at ht
    subst ht
    refine Or.inl ⟨i, hflight i _ hpc fun _ ↦ Pc.noConfusion, fun ch _ ↦ ?_, pc', rfl,
      .kept ?_ rfl, .of_none rfl hbare.handle⟩
    · simp only [State.goto_channels, State.disposeConnection_channels, State.channelsWithout]
      split <;> rfl
    · rw [hpc, hbare.channel]
      rfl
  | connects i awaited newGuid ha hconnects =>
    obtain ⟨config, hpc, -, rfl⟩ := hconnects
    exact Or.inl ⟨i, hflight i _ hpc fun _ ↦ Pc.noConfusion, fun _ _ ↦ rfl, _, rfl,
      .ended _ rfl rfl, .of_none rfl rfl⟩
  | environment ha hquiet hentries => exact Or.inr hquiet

theorem calls_of_ended {result : Except BusException Result} (h : step s a = some t)
    (hended : s.calls i = .ended result) : t.calls i = .ended result := by
  rcases moved_or_quiet h with ⟨j, hmoved⟩ | hquiet
  · obtain ⟨pc', hcalls, -⟩ := hmoved.calls
    have hne : i ≠ j := by
      rintro rfl
      exact hmoved.flight result hended
    rw [hcalls, Function.update_of_ne hne, hended]
  · rw [hquiet.calls, hended]

/-! ## Channels -/

theorem Moved.owned (h : Moved s i t) (hs : Owned s) : Owned t := by
  obtain ⟨pc', hcalls, hfollows, -⟩ := h.calls
  have hself : t.calls i = pc' := by rw [hcalls, Function.update_self]
  have hne : ∀ j ≠ i, t.calls j = s.calls j := fun j hj ↦ by rw [hcalls, Function.update_of_ne hj]
  have hgrow : s.nextChannel ≤ t.nextChannel := by
    cases hfollows with
    | ended result hpc hnext => exact hnext.ge
    | kept hpc hnext => exact hnext.ge
    | opened hpc hpc' hnext howner => exact hnext ▸ Nat.le_succ _
  constructor
  · intro j ch hch
    by_cases hj : j = i
    · subst hj
      rw [hself] at hch
      cases hfollows with
      | ended result hpc hnext =>
        rw [hpc] at hch
        cases hch
      | kept hpc hnext =>
        obtain ⟨hlt, howner⟩ := hs.opened j ch (hpc ▸ hch)
        exact ⟨hlt.trans_le hgrow, (h.owner ch hlt).trans howner⟩
      | opened hpc hpc' hnext howner =>
        obtain rfl : s.nextChannel = ch := Option.some.inj (hpc'.symm.trans hch)
        exact ⟨hnext ▸ Nat.lt_succ_self _, howner⟩
    · rw [hne j hj] at hch
      obtain ⟨hlt, howner⟩ := hs.opened j ch hch
      exact ⟨hlt.trans_le hgrow, (h.owner ch hlt).trans howner⟩
  · intro ch hch
    by_cases hlt : ch < s.nextChannel
    · rw [h.owner ch hlt]
      by_cases hi : (s.channels ch).openedBy = i
      · have hchannel := hs.channel_eq hlt hi h.flight
        rw [hi, hself]
        cases hfollows with
        | ended result hpc hnext => exact Or.inl ⟨result, hpc⟩
        | kept hpc hnext => exact Or.inr (hpc.trans hchannel)
        | opened hpc hpc' hnext howner =>
          rw [hpc] at hchannel
          cases hchannel
      · rw [hne _ hi]
        exact hs.owned ch hlt
    · cases hfollows with
      | ended result hpc hnext => exact absurd (hnext ▸ hch) hlt
      | kept hpc hnext => exact absurd (hnext ▸ hch) hlt
      | opened hpc hpc' hnext howner =>
        rw [hnext] at hch
        obtain rfl : ch = s.nextChannel := Nat.eq_of_lt_succ_of_not_lt hch hlt
        rw [howner, hself]
        exact Or.inr hpc'

theorem owned_step (hs : Owned s) (h : step s a = some t) : Owned t := by
  rcases moved_or_quiet h with ⟨i, hmoved⟩ | hquiet
  · exact hmoved.owned hs
  · constructor
    · intro i ch hch
      rw [hquiet.calls] at hch
      obtain ⟨hlt, howner⟩ := hs.opened i ch hch
      exact ⟨hquiet.nextChannel ▸ hlt, (hquiet.wears.owner ch hlt).2.trans howner⟩
    · intro ch hch
      rw [hquiet.nextChannel] at hch
      rw [(hquiet.wears.owner ch hch).2, hquiet.calls]
      exact hs.owned ch hch

/-- **Channels stay with the call that opened them**, in every run. -/
theorem owned_of_run [Inhabited ι] {as : List (Label ι)}
    (hrun : run step State.initial as = some s) : Owned s :=
  invariant_of_step owned_initial (fun _ _ _ hs hstep ↦ owned_step hs hstep) hrun

/-! ## Handles -/

/-- No two calls hold the same handle, and none that was not issued. -/
structure HandlesIssued (s : State ι) : Prop where
  issued : ∀ i handle, (s.calls i).handle = some handle → handle ∈ s.issued
  unique : ∀ i j handle, (s.calls i).handle = some handle → (s.calls j).handle = some handle → i = j

omit [DecidableEq ι] in
theorem handlesIssued_initial [Inhabited ι] : HandlesIssued (State.initial : State ι) :=
  ⟨nofun, nofun⟩

theorem Moved.handlesIssued (h : Moved s i t) (hs : HandlesIssued s) : HandlesIssued t := by
  obtain ⟨pc', hcalls, -, hhands⟩ := h.calls
  have hself : t.calls i = pc' := by rw [hcalls, Function.update_self]
  have hne : ∀ j ≠ i, t.calls j = s.calls j := fun j hj ↦ by rw [hcalls, Function.update_of_ne hj]
  -- a handle that `i` holds now is held by no other call
  have hother : ∀ j ≠ i, ∀ handle, pc'.handle = some handle → (s.calls j).handle ≠ some handle := by
    intro j hj handle hhandle hj'
    rcases hhands.handle handle hhandle with hold | ⟨hfresh, -⟩
    · exact hj (hs.unique j i handle hj' hold)
    · exact hfresh (hs.issued j handle hj')
  constructor
  · intro j handle hhandle
    by_cases hj : j = i
    · rw [hj, hself] at hhandle
      rcases hhands.handle handle hhandle with hold | ⟨-, hnew⟩
      · exact hhands.issued (hs.issued i handle hold)
      · exact hnew
    · rw [hne j hj] at hhandle
      exact hhands.issued (hs.issued j handle hhandle)
  · intro j k handle hj hk
    by_cases hji : j = i
    · by_cases hki : k = i
      · rw [hji, hki]
      · rw [hji, hself] at hj
        rw [hne k hki] at hk
        exact absurd hk (hother k hki handle hj)
    · rw [hne j hji] at hj
      by_cases hki : k = i
      · rw [hki, hself] at hk
        exact absurd hj (hother j hji handle hk)
      · rw [hne k hki] at hk
        exact hs.unique j k handle hj hk

theorem handlesIssued_step (hs : HandlesIssued s) (h : step s a = some t) : HandlesIssued t := by
  rcases moved_or_quiet h with ⟨i, hmoved⟩ | hquiet
  · exact hmoved.handlesIssued hs
  · constructor
    · rw [hquiet.calls, hquiet.issued]
      exact hs.issued
    · rw [hquiet.calls]
      exact hs.unique

end Preservation

/-! ## The end of a consuming call -/

/-- The suspensions of `SubscribeAsync` and `DeclareTemporaryReplyQueueAndSubscribeAsync`. -/
def Pc.inConsume : Pc → Bool
  | .openingToConsume .. | .declaringQueue _ | .consuming .. | .waitingToRegister .. => true
  | _ => false

/-- The label is a step of the call `i`, which is one of the two consuming methods. -/
def ConsumeStep (s : State ι) (i : ι) : Label ι → Prop
  | .start j (.consume _) => j = i
  | .resume j _ _ => j = i ∧ (s.calls i).inConsume = true
  | _ => False

/-- Every channel opened by the call is in the dictionary under the handle returned, or closed. -/
def ChannelAccountedFor (t : State ι) (i : ι) (result : Except BusException Result) : Prop :=
  ∀ ch < t.nextChannel, (t.channels ch).openedBy = i →
    (∃ handle, returnedHandle result = some handle ∧ (handle, ch) ∈ t.subscriptionChannels) ∨
      (t.channels ch).isOpen = false

/-- The awaited operation fails while the channel is open, and not because the broker closed it:
the declaration or the consume is canceled or fails otherwise, or the wait for the semaphore
fails. -/
def LeavesChannelOpen (s : State ι) : Label ι → Prop
  | .resume i (.failed failure) _ =>
    match s.calls i with
    | .declaringQueue ch | .consuming _ _ ch =>
      failure ≠ .operationInterrupted ∧ (s.channels ch).isOpen = true
    | .waitingToRegister _ _ ch _ => (s.channels ch).isOpen = true
    | _ => False
  | _ => False

theorem channelAccountedFor_of_unopened {result : Except BusException Result}
    (hs : Owned s) (hnone : (s.calls i).channel = none)
    (hflight : ∀ result, s.calls i ≠ .ended result) (hnext : t.nextChannel = s.nextChannel)
    (hchannels : t.channels = s.channels) : ChannelAccountedFor t i result := by
  intro ch hch howner
  rw [hnext] at hch
  rw [hchannels] at howner
  have hchannel := hs.channel_eq hch howner hflight
  rw [hnone] at hchannel
  cases hchannel

theorem channelAccountedFor_error_iff {ex : BusException} (hs : Owned s)
    (hchannel : (s.calls i).channel = some ch) (hflight : ∀ result, s.calls i ≠ .ended result)
    (hnext : t.nextChannel = s.nextChannel)
    (howners : ∀ ch, (t.channels ch).openedBy = (s.channels ch).openedBy) :
    ChannelAccountedFor t i (.error ex) ↔ (t.channels ch).isOpen = false := by
  obtain ⟨hch, howner⟩ := hs.opened i ch hchannel
  constructor
  · intro haccounted
    rcases haccounted ch (hnext ▸ hch) ((howners ch).trans howner) with ⟨handle, hreturned, -⟩ | h
    · cases hreturned
    · exact h
  · intro hclosed ch' hch' howner'
    rw [hnext] at hch'
    rw [howners] at howner'
    have hchannel' := hs.channel_eq hch' howner' hflight
    obtain rfl : ch = ch' := Option.some.inj (hchannel.symm.trans hchannel')
    exact Or.inr hclosed

theorem openedBy_interrupt (s : State ι) (ch ch' : ChannelId) (failure : Failure) :
    ((s.interrupt ch failure).channels ch').openedBy = (s.channels ch').openedBy := by
  unfold State.interrupt
  split
  · by_cases h : ch' = ch
    · subst h
      simp
    · simp [h]
  · rfl

theorem isOpen_interrupt_eq_false (s : State ι) (ch : ChannelId) (failure : Failure) :
    ((s.interrupt ch failure).channels ch).isOpen = false ↔
      ¬(failure ≠ .operationInterrupted ∧ (s.channels ch).isOpen = true) := by
  unfold State.interrupt
  by_cases h : failure = .operationInterrupted
  · simp [h]
  · simp [h]

variable [DecidableEq ι]

theorem channelAccountedFor_interrupt_iff {method : Consumption} {failure : Failure}
    {result : Except BusException Result} (hs : Owned s)
    (hchannel : (s.calls i).channel = some ch) (hflight : ∀ result, s.calls i ≠ .ended result)
    (ht : t = consumeThrow (s.interrupt ch failure) i method failure)
    (hended : t.calls i = .ended result) :
    ChannelAccountedFor t i result ↔
      ¬(failure ≠ .operationInterrupted ∧ (s.channels ch).isOpen = true) := by
  obtain ⟨ex, hthrow⟩ := exists_goto_consumeThrow (s.interrupt ch failure) i method failure
  rw [hthrow] at ht
  subst ht
  simp only [State.goto_calls, Function.update_self, Pc.ended.injEq] at hended
  subst hended
  have haccounted : ChannelAccountedFor ((s.interrupt ch failure).goto i (.ended (.error ex))) i
      (.error ex) ↔ ((s.interrupt ch failure).channels ch).isOpen = false :=
    channelAccountedFor_error_iff hs hchannel hflight (Quiet.interrupt s ch failure).nextChannel
      fun ch' ↦ openedBy_interrupt s ch ch' failure
  rw [haccounted, isOpen_interrupt_eq_false]

private theorem channelAccountedFor_start {method : Consumption}
    {result : Except BusException Result} (hs : Owned s) (hidle : s.calls i = .idle)
    (ht : start s i (.consume method) = t) (hended : t.calls i = .ended result) :
    ChannelAccountedFor t i result := by
  have hflight : ∀ result, s.calls i ≠ .ended result := by
    rw [hidle]
    exact nofun
  have hnone : (s.calls i).channel = none := by
    rw [hidle]
    rfl
  subst ht
  simp only [start] at hended ⊢
  split at hended
  · exact channelAccountedFor_of_unopened hs hnone hflight rfl rfl
  · simp at hended

section Segments

variable {method : Consumption} {queueName : Utf16} {handle : SubscriptionHandle}
  {awaited : Awaited} {newGuid : Guid} {result : Except BusException Result}

private theorem channelAccountedFor_openingToConsume {c : ConnectionId} (hs : Owned s)
    (hcall : s.calls i = .openingToConsume method c)
    (h : resumeConsume s i awaited newGuid (.openingToConsume method c) = some t)
    (hended : t.calls i = .ended result) :
    ChannelAccountedFor t i result ↔ ¬LeavesChannelOpen s (.resume i awaited newGuid) := by
  cases awaited with
  | completed => cases method <;> cases h <;> simp at hended
  | declared queueName => cases h
  | failed failure =>
    cases h
    obtain ⟨ex, hthrow⟩ := exists_goto_consumeThrow s i method failure
    rw [hthrow] at hended ⊢
    have hnone : (s.calls i).channel = none := by rw [hcall]; rfl
    refine iff_of_true (channelAccountedFor_of_unopened hs hnone ?_ rfl rfl) ?_
    · rw [hcall]
      exact nofun
    · rw [LeavesChannelOpen, hcall]
      exact id

private theorem channelAccountedFor_declaringQueue (hs : Owned s)
    (hcall : s.calls i = .declaringQueue ch)
    (h : resumeConsume s i awaited newGuid (.declaringQueue ch) = some t)
    (hended : t.calls i = .ended result) :
    ChannelAccountedFor t i result ↔ ¬LeavesChannelOpen s (.resume i awaited newGuid) := by
  cases awaited with
  | completed => cases h
  | declared queueName =>
    cases h
    simp at hended
  | failed failure =>
    cases h
    rw [LeavesChannelOpen, hcall]
    refine channelAccountedFor_interrupt_iff hs (by rw [hcall]; rfl) ?_ rfl hended
    rw [hcall]
    exact nofun

private theorem channelAccountedFor_consuming (hs : Owned s)
    (hcall : s.calls i = .consuming method queueName ch)
    (h : resumeConsume s i awaited newGuid (.consuming method queueName ch) = some t)
    (hended : t.calls i = .ended result) :
    ChannelAccountedFor t i result ↔ ¬LeavesChannelOpen s (.resume i awaited newGuid) := by
  cases awaited with
  | completed =>
    simp only [resumeConsume, Option.ite_none_right_eq_some, Option.some.injEq] at h
    rw [← h.2] at hended
    simp at hended
  | declared queueName => cases h
  | failed failure =>
    cases h
    rw [LeavesChannelOpen, hcall]
    refine channelAccountedFor_interrupt_iff hs (by rw [hcall]; rfl) ?_ rfl hended
    rw [hcall]
    exact nofun

private theorem channelAccountedFor_waitingToRegister (hs : Owned s)
    (hcall : s.calls i = .waitingToRegister method queueName ch handle)
    (h : resumeConsume s i awaited newGuid (.waitingToRegister method queueName ch handle) = some t)
    (hended : t.calls i = .ended result) :
    ChannelAccountedFor t i result ↔ ¬LeavesChannelOpen s (.resume i awaited newGuid) := by
  have hchannel : (s.calls i).channel = some ch := by rw [hcall]; rfl
  have hflight : ∀ result, s.calls i ≠ .ended result := by
    rw [hcall]
    exact nofun
  cases awaited with
  | completed =>
    simp only [resumeConsume, Option.ite_none_right_eq_some, Option.some.injEq] at h
    obtain ⟨-, rfl⟩ := h
    refine iff_of_true (fun ch' hch' howner ↦ Or.inl ⟨handle, ?_, ?_⟩) id
    · simp only [State.return', State.goto_calls, Function.update_self, Pc.ended.injEq] at hended
      subst hended
      cases method <;> rfl
    · obtain rfl : ch = ch' :=
        Option.some.inj (hchannel.symm.trans (hs.channel_eq hch' howner hflight))
      simp [State.return']
  | declared queueName => cases h
  | failed failure =>
    cases h
    simp only [State.throw, State.goto_calls, Function.update_self, Pc.ended.injEq] at hended
    subst hended
    rw [LeavesChannelOpen, hcall, Bool.not_eq_true]
    exact channelAccountedFor_error_iff hs hchannel hflight rfl fun _ ↦ rfl

end Segments

/-- The step that ends a consuming call accounts for its channel unless it leaves it open. -/
theorem channelAccountedFor_step_iff {result : Except BusException Result} (hs : Owned s)
    (hconsume : ConsumeStep s i a) (h : step s a = some t) (hended : t.calls i = .ended result) :
    ChannelAccountedFor t i result ↔ ¬LeavesChannelOpen s a := by
  cases a with
  | start j call =>
    cases call with
    | consume method =>
      obtain rfl : j = i := hconsume
      simp only [step, Option.ite_none_right_eq_some, Option.some.injEq] at h
      exact iff_of_true (channelAccountedFor_start hs h.1 h.2 hended) id
    | _ => cases hconsume
  | resume j awaited newGuid =>
    obtain ⟨rfl, hpc⟩ := hconsume
    cases hcall : s.calls j with
    | openingToConsume method c =>
      simp only [step, resume, hcall] at h
      exact channelAccountedFor_openingToConsume hs hcall h hended
    | declaringQueue ch =>
      simp only [step, resume, hcall] at h
      exact channelAccountedFor_declaringQueue hs hcall h hended
    | consuming method queueName ch =>
      simp only [step, resume, hcall] at h
      exact channelAccountedFor_consuming hs hcall h hended
    | waitingToRegister method queueName ch handle =>
      simp only [step, resume, hcall] at h
      exact channelAccountedFor_waitingToRegister hs hcall h hended
    | _ =>
      rw [hcall] at hpc
      cases hpc
  | _ => cases hconsume

/-- **No consuming call leaks its channel, except by failing while the channel is open.** -/
theorem channelAccountedFor_iff [Inhabited ι] {as : List (Label ι)}
    {result : Except BusException Result} (hrun : run step State.initial as = some s)
    (hconsume : ConsumeStep s i a) (hstep : step s a = some t)
    (hended : t.calls i = .ended result) :
    ChannelAccountedFor t i result ↔ ¬LeavesChannelOpen s a :=
  channelAccountedFor_step_iff (owned_of_run hrun) hconsume hstep hended

/-! ## Two failing subscriptions -/

private def orders : Utf16 := Utf16.ofString "orders"

/-- One call connects, another has opened its channel and asked the broker for a consumer. -/
private def consumeRequested : List (Label Bool) :=
  [.start false (.teardown (.connect .localhost)), .succeed false, .succeed false,
    .start true (.consume (.subscribe orders)), .succeed true]

/-- A queue that does not exist: the broker closes the channel. -/
theorem channelAccountedFor_of_missing_queue :
    ∃ s t, run step State.initial consumeRequested = some s ∧
      step s (.resume true (.failed .operationInterrupted) ⟨0⟩) = some t ∧
      ChannelAccountedFor t true (.error (couldNotConsume (.subscribe orders))) := by
  refine ⟨_, _, rfl, rfl, ?_⟩
  have hrun : run step State.initial consumeRequested = some _ := rfl
  exact (channelAccountedFor_iff (a := .resume true (.failed .operationInterrupted) ⟨0⟩) (i := true)
    hrun ⟨rfl, rfl⟩ rfl rfl).mpr fun hopen ↦ hopen.1 rfl

/-- The request is canceled at the semaphore: the consumer stays active on a channel that no handle
reaches. -/
theorem not_channelAccountedFor_of_canceled_registration :
    ∃ s t, run step State.initial
        (consumeRequested ++ [.brokerConsumes 0, .resume true .completed ⟨7⟩]) = some s ∧
      step s (.resume true (.failed .canceled) ⟨0⟩) = some t ∧
      t.calls true = .ended (.error .operationCanceled) ∧ t.subscriptionChannels = [] ∧
      (t.channels 0).consumer = .active ∧
      ¬ChannelAccountedFor t true (.error .operationCanceled) := by
  refine ⟨_, _, rfl, rfl, rfl, rfl, rfl, fun haccounted ↦ ?_⟩
  rcases haccounted 0 (by decide) rfl with ⟨handle, hreturned, -⟩ | hclosed
  · cases hreturned
  · cases hclosed

end RabbitMqAdapter

end BusTester
