import BusTester.Infrastructure.ChannelOwnership

/-!
# A call stays in its method

The place where a call is suspended belongs to the method that was called, until the call ends; and
only the two consuming methods return a handle. `within_step` says so for every step. What a caller
may conclude from the end of a call, and what a suspended call has checked already, is read off
`Pc.Within`.
-/

namespace BusTester

namespace RabbitMqAdapter

variable {ι : Type} {s t : State ι} {i j : ι} {call : Call} {pc : Pc} {a : Label ι}

/-- The suspensions of a call, and its ends. A send is suspended only after the routing key was
found not to be blank. -/
inductive Pc.Within : Call → Pc → Prop where
  | waitingToTearDown (caller : Caller) : Within (.teardown caller) (.waitingToTearDown caller)
  | closingChannel (caller : Caller) (ch : ChannelId) (rest : List ChannelId) :
    Within (.teardown caller) (.closingChannel caller ch rest)
  | disposingChannel (caller : Caller) (ch : ChannelId) (rest : List ChannelId) :
    Within (.teardown caller) (.disposingChannel caller ch rest)
  | closingConnection (caller : Caller) (c : ConnectionId) :
    Within (.teardown caller) (.closingConnection caller c)
  | disposingConnection (caller : Caller) (c : ConnectionId) :
    Within (.teardown caller) (.disposingConnection caller c)
  | creatingConnection (config : BusConnectionConfig) :
    Within (.teardown (.connect config)) (.creatingConnection config)
  | openingToSend (message : BusMessage) (c : ConnectionId)
    (hroutingKey : Utf16.isNullOrWhiteSpace message.routingKey = false) :
    Within (.send message) (.openingToSend message c)
  | declaringExchange (message : BusMessage) (ch : ChannelId)
    (hroutingKey : Utf16.isNullOrWhiteSpace message.routingKey = false) :
    Within (.send message) (.declaringExchange message ch)
  | publishing (message : BusMessage) (ch : ChannelId)
    (hroutingKey : Utf16.isNullOrWhiteSpace message.routingKey = false) :
    Within (.send message) (.publishing message ch)
  | disposingAfterSend (message : BusMessage) (ch : ChannelId) (failure : Option Failure)
    (hroutingKey : Utf16.isNullOrWhiteSpace message.routingKey = false) :
    Within (.send message) (.disposingAfterSend message ch failure)
  | openingToConsume (method : Consumption) (c : ConnectionId) :
    Within (.consume method) (.openingToConsume method c)
  | declaringQueue (ch : ChannelId) : Within (.consume .declareTemporary) (.declaringQueue ch)
  | consuming (method : Consumption) (queueName : Utf16) (ch : ChannelId) :
    Within (.consume method) (.consuming method queueName ch)
  | waitingToRegister (method : Consumption) (queueName : Utf16) (ch : ChannelId)
    (handle : SubscriptionHandle) :
    Within (.consume method) (.waitingToRegister method queueName ch handle)
  | waitingToUnsubscribe (handle : SubscriptionHandle) :
    Within (.unsubscribe handle) (.waitingToUnsubscribe handle)
  | closingUnsubscribed (handle : SubscriptionHandle) (ch : ChannelId) :
    Within (.unsubscribe handle) (.closingUnsubscribed ch)
  | disposingUnsubscribed (handle : SubscriptionHandle) (ch : ChannelId) :
    Within (.unsubscribe handle) (.disposingUnsubscribed ch)
  | ended (call : Call) (result : Except BusException Result)
      (hnone : returnedHandle result = none) : Within call (.ended result)
  | returned (method : Consumption) (handle : SubscriptionHandle) (queueName : Utf16) :
    Within (.consume method) (.ended (.ok (consumeResult handle queueName method)))

theorem Pc.Within.exists_consume {handle : SubscriptionHandle} (h : pc.Within call)
    (hhandle : pc.handle = some handle) : ∃ method, call = .consume method := by
  cases h with
  | waitingToRegister method | returned method => exact ⟨method, rfl⟩
  | ended call result hnone => cases hnone.symm.trans hhandle
  | _ => cases hhandle

variable [DecidableEq ι]

@[simp] theorem calls_goto : (s.goto i pc).calls i = pc := Function.update_self ..

/-! ## The segments of the methods -/

theorem within_throw (ex : BusException) : ((s.throw i ex).calls i).Within call := by
  rw [State.throw, calls_goto]
  exact .ended call _ rfl

theorem within_return {result : Result} (hnone : returnedHandle (.ok result) = none) :
    ((s.return' i result).calls i).Within call := by
  rw [State.return', calls_goto]
  exact .ended call _ hnone

theorem within_teardownThrow (caller : Caller) (ex : BusException) :
    ((teardownThrow s i caller ex).calls i).Within (.teardown caller) := by
  obtain ⟨result, hnone, hend⟩ := exists_goto_teardownThrow s i caller ex
  rw [hend, calls_goto]
  exact .ended _ result hnone

theorem within_teardownReturn (caller : Caller) :
    ((teardownReturn s i caller).calls i).Within (.teardown caller) := by
  cases caller with
  | connect config =>
    rw [teardownReturn, calls_goto]
    exact .creatingConnection config
  | disconnect | dispose => exact within_return rfl

theorem within_teardownConnection (caller : Caller) :
    ((teardownConnection s i caller).calls i).Within (.teardown caller) := by
  unfold teardownConnection
  split
  · exact within_teardownReturn caller
  · split
    · rw [calls_goto]
      exact .closingConnection caller _
    · rw [calls_goto]
      exact .disposingConnection caller _

theorem within_teardownLoop (caller : Caller) (rest : List ChannelId) :
    ((teardownLoop s i caller rest).calls i).Within (.teardown caller) := by
  unfold teardownLoop
  split
  · split
    · rw [calls_goto]
      exact .closingChannel caller _ _
    · rw [calls_goto]
      exact .disposingChannel caller _ _
  · exact within_teardownConnection caller

theorem within_teardownDispose (caller : Caller) :
    ((teardownDispose s i caller).calls i).Within (.teardown caller) := by
  unfold teardownDispose
  split
  · exact within_teardownThrow caller _
  · rw [calls_goto]
    exact .disposingConnection caller _

theorem within_endSend (message : BusMessage) (failure : Option Failure) :
    ((endSend s i message failure).calls i).Within (.send message) := by
  unfold endSend
  split
  · exact within_return rfl
  · exact within_throw _
  · exact within_throw _

theorem within_consumeThrow (method : Consumption) (failure : Failure) :
    ((consumeThrow s i method failure).calls i).Within (.consume method) := by
  unfold consumeThrow
  split <;> exact within_throw _

/-! ## The whole step -/

theorem within_start (call : Call) : ((start s i call).calls i).Within call := by
  cases call with
  | teardown caller =>
    rw [start, calls_goto]
    exact .waitingToTearDown caller
  | send message =>
    simp only [start]
    split
    · exact within_throw _
    · rename_i hroutingKey
      split
      · exact within_throw _
      · rw [calls_goto]
        exact .openingToSend message _ (Bool.not_eq_true _ ▸ hroutingKey)
  | consume method =>
    simp only [start]
    split
    · exact within_throw _
    · rw [calls_goto]
      exact .openingToConsume method _
  | unsubscribe handle =>
    rw [start, calls_goto]
    exact .waitingToUnsubscribe handle

theorem within_resumeTeardown {caller : Caller} {awaited : Awaited}
    (hpc : pc.Within (.teardown caller)) (h : resumeTeardown s i awaited pc = some t) :
    (t.calls i).Within (.teardown caller) := by
  unfold resumeTeardown at h
  cases hpc <;> dsimp only at h
  case waitingToTearDown =>
    split at h
    · simp only [Option.ite_none_right_eq_some, Option.some.injEq] at h
      obtain ⟨-, rfl⟩ := h
      exact within_teardownLoop caller _
    · cases h
    · cases h
      exact within_teardownThrow caller _
  case closingChannel ch rest =>
    split at h <;> cases h
    · rw [calls_goto]
      exact .disposingChannel caller ch rest
    · exact within_teardownThrow caller _
  case disposingChannel ch rest =>
    split at h <;> cases h
    · exact within_teardownLoop caller rest
    · exact within_teardownThrow caller _
  case closingConnection c =>
    split at h <;> cases h
    · exact within_teardownDispose caller
    · exact within_teardownThrow caller _
  case disposingConnection c =>
    split at h <;> cases h
    · exact within_teardownReturn caller
    · exact within_teardownThrow caller _
  case creatingConnection config =>
    split at h <;> cases h
    · exact within_return rfl
    · exact within_throw _
    · exact within_throw _
  case ended => cases h

theorem within_resumeSend {message : BusMessage} {awaited : Awaited}
    (hpc : pc.Within (.send message)) (h : resumeSend s i awaited pc = some t) :
    (t.calls i).Within (.send message) := by
  unfold resumeSend at h
  cases hpc <;> dsimp only at h
  case openingToSend c hroutingKey =>
    split at h <;> cases h
    · rw [calls_goto]
      split
      · exact .declaringExchange message _ hroutingKey
      · exact .publishing message _ hroutingKey
    · exact within_endSend message _
  case declaringExchange ch hroutingKey =>
    split at h <;> cases h
    · rw [calls_goto]
      exact .publishing message ch hroutingKey
    · rw [calls_goto]
      exact .disposingAfterSend message ch _ hroutingKey
  case publishing ch hroutingKey =>
    split at h <;> cases h
    · rw [calls_goto]
      exact .disposingAfterSend message ch none hroutingKey
    · rw [calls_goto]
      exact .disposingAfterSend message ch _ hroutingKey
  case disposingAfterSend ch failure hroutingKey =>
    split at h <;> cases h
    · exact within_endSend message failure
    · exact within_endSend message _
  case ended => cases h

theorem within_resumeConsume {method : Consumption} {awaited : Awaited} {newGuid : Guid}
    (hpc : pc.Within (.consume method)) (h : resumeConsume s i awaited newGuid pc = some t) :
    (t.calls i).Within (.consume method) := by
  unfold resumeConsume at h
  cases hpc <;> dsimp only at h
  case openingToConsume c =>
    split at h
    · cases method <;> cases h <;> rw [calls_goto]
      · exact .consuming _ _ _
      · exact .declaringQueue _
    · cases h
    · cases h
      exact within_consumeThrow method _
  case declaringQueue ch =>
    split at h <;> cases h
    · rw [calls_goto]
      exact .consuming .declareTemporary _ ch
    · exact within_consumeThrow .declareTemporary _
  case consuming queueName ch =>
    split at h
    · simp only [Option.ite_none_right_eq_some, Option.some.injEq] at h
      obtain ⟨-, rfl⟩ := h
      rw [calls_goto]
      exact .waitingToRegister method queueName ch _
    · cases h
    · cases h
      exact within_consumeThrow method _
  case waitingToRegister queueName ch handle =>
    split at h
    · simp only [Option.ite_none_right_eq_some, Option.some.injEq] at h
      obtain ⟨-, rfl⟩ := h
      rw [State.return', calls_goto]
      exact .returned method handle queueName
    · cases h
    · cases h
      exact within_throw _
  case ended => cases h
  case returned => cases h

theorem within_resumeUnsubscribe {handle : SubscriptionHandle} {awaited : Awaited}
    (hpc : pc.Within (.unsubscribe handle)) (h : resumeUnsubscribe s i awaited pc = some t) :
    (t.calls i).Within (.unsubscribe handle) := by
  unfold resumeUnsubscribe at h
  cases hpc <;> dsimp only at h
  case waitingToUnsubscribe =>
    split at h
    · split at h
      · split at h <;> cases h
        · exact within_return rfl
        · rw [calls_goto]
          exact .closingUnsubscribed handle _
      · cases h
    · cases h
    · cases h
      exact within_throw _
  case closingUnsubscribed ch =>
    split at h <;> cases h
    · rw [calls_goto]
      exact .disposingUnsubscribed handle ch
    · exact within_throw _
  case disposingUnsubscribed ch =>
    split at h <;> cases h
    · exact within_return rfl
    · exact within_throw _
  case ended => cases h

theorem within_resume {awaited : Awaited} {newGuid : Guid} (hpc : (s.calls i).Within call)
    (h : resume s i awaited newGuid = some t) : (t.calls i).Within call := by
  have hwithin := hpc
  generalize hcall : s.calls i = pc at hpc
  rw [hcall] at hwithin
  cases hpc <;> simp only [resume, hcall] at h
  case waitingToTearDown | closingChannel | disposingChannel | closingConnection
    | disposingConnection | creatingConnection => exact within_resumeTeardown hwithin h
  case openingToSend | declaringExchange | publishing | disposingAfterSend =>
    exact within_resumeSend hwithin h
  case openingToConsume | declaringQueue | consuming | waitingToRegister =>
    exact within_resumeConsume hwithin h
  case waitingToUnsubscribe | closingUnsubscribed | disposingUnsubscribed =>
    exact within_resumeUnsubscribe hwithin h
  case ended | returned => cases h

theorem calls_of_step (h : step s a = some t) : t.calls i = s.calls i ∨
    (s.calls i = .idle ∧ ∃ call, a = .start i call ∧ t = start s i call) ∨
      ∃ awaited newGuid, a = .resume i awaited newGuid ∧ resume s i awaited newGuid = some t := by
  have hother : ∀ {k pc'}, t.calls = Function.update s.calls k pc' → i ≠ k →
      t.calls i = s.calls i := by
    intro k pc' hcalls hik
    rw [hcalls, Function.update_of_ne hik]
  have hresume : ∀ {k awaited newGuid pc'}, a = .resume k awaited newGuid →
      t.calls = Function.update s.calls k pc' → t.calls i = s.calls i ∨
        (s.calls i = .idle ∧ ∃ call, a = .start i call ∧ t = start s i call) ∨
          ∃ awaited newGuid, a = .resume i awaited newGuid ∧
            resume s i awaited newGuid = some t := by
    rintro k awaited newGuid pc' rfl hcalls
    by_cases hik : i = k
    · subst hik
      exact Or.inr (Or.inr ⟨awaited, newGuid, rfl, h⟩)
    · exact Or.inl (hother hcalls hik)
  cases step_cases h with
  | starts k call pc' ha hidle ht =>
    subst ha
    by_cases hik : i = k
    · subst hik
      simp only [step, if_pos hidle, Option.some.injEq] at h
      exact Or.inr (Or.inl ⟨hidle, call, rfl, h.symm⟩)
    · subst ht
      exact Or.inl (hother rfl hik)
  | moves k awaited newGuid ha hframe =>
    obtain ⟨pc', hcalls, -⟩ := hframe.calls
    exact hresume ha hcalls
  | registers k awaited newGuid ha hframe =>
    obtain ⟨pc', hcalls, -⟩ := hframe.calls
    exact hresume ha hcalls
  | disposes k awaited newGuid ha hdisposes =>
    obtain ⟨caller, c, -, -, ht⟩ := hdisposes
    obtain ⟨pc', hgoto, -⟩ := exists_goto_teardownReturn
      (s := { s.disposeConnection c with connection := none }) k caller rfl
    rw [hgoto] at ht
    subst ht
    exact hresume ha rfl
  | connects k awaited newGuid ha hconnects =>
    obtain ⟨config, -, -, rfl⟩ := hconnects
    exact hresume ha rfl
  | environment ha hquiet => exact Or.inl (congrFun hquiet.calls i)

theorem calls_of_resume {awaited : Awaited} {newGuid : Guid}
    (h : resume s i awaited newGuid = some t) {j : ι} (hj : j ≠ i) : t.calls j = s.calls j := by
  have hstep : step s (.resume i awaited newGuid) = some t := h
  rcases calls_of_step (i := j) hstep with hsame | ⟨-, call, heq, -⟩ | ⟨awaited', g, heq, -⟩
  · exact hsame
  · cases heq
  · cases heq
    exact absurd rfl hj

theorem ne_idle_of_resume {awaited : Awaited} {newGuid : Guid}
    (h : resume s i awaited newGuid = some t) : s.calls i ≠ .idle := by
  intro hidle
  simp [resume, hidle] at h

/-- **A call in a method stays in it.** -/
theorem within_step (h : step s a = some t) (hpc : (s.calls i).Within call) :
    (t.calls i).Within call := by
  rcases calls_of_step h with hsame | ⟨hidle, -⟩ | ⟨awaited, newGuid, -, hresume⟩
  · rwa [hsame]
  · rw [hidle] at hpc
    cases hpc
  · exact within_resume hpc hresume

theorem within_of_step (hs : ∀ i, s.calls i = .idle ∨ ∃ call, (s.calls i).Within call)
    (h : step s a = some t) (i : ι) : t.calls i = .idle ∨ ∃ call, (t.calls i).Within call := by
  rcases calls_of_step (i := i) h with hsame | ⟨-, call, -, rfl⟩ | ⟨awaited, newGuid, -, hresume⟩
  · rw [hsame]
    exact hs i
  · exact Or.inr ⟨call, within_start call⟩
  · obtain ⟨call, hcall⟩ := (hs i).resolve_left (ne_idle_of_resume hresume)
    exact Or.inr ⟨call, within_resume hcall hresume⟩

theorem within_of_run [Inhabited ι] {as : List (Label ι)}
    (hrun : Transition.run step State.initial as = some s) :
    s.calls i = .idle ∨ ∃ call, (s.calls i).Within call :=
  Transition.invariant_of_step
    (P := fun s : State ι ↦ ∀ i, s.calls i = .idle ∨ ∃ call, (s.calls i).Within call)
    (fun _ ↦ Or.inl rfl) (fun _ _ _ hs hstep ↦ within_of_step hs hstep) hrun i

/-! ## The dictionary -/

/-- The dictionary has an entry for the handle. -/
def State.IsLive (s : State ι) (handle : SubscriptionHandle) : Prop :=
  ∃ entry ∈ s.subscriptionChannels, entry.1 = handle

/-- **An entry is added by the call that returns its handle**, at the moment it returns. -/
theorem isLive_of_step {handle : SubscriptionHandle} (h : step s a = some t)
    (hlive : t.IsLive handle) : s.IsLive handle ∨
      ∃ i result,
        (∃ method queueName ch, s.calls i = .waitingToRegister method queueName ch handle) ∧
        t.calls i = .ended result ∧ returnedHandle result = some handle := by
  obtain ⟨entry, hentry, rfl⟩ := hlive
  cases step_cases h with
  | starts i call pc' ha hidle ht =>
    subst ht
    exact Or.inl ⟨entry, hentry, rfl⟩
  | moves i awaited newGuid ha hframe hentries => exact Or.inl ⟨entry, hentries hentry, rfl⟩
  | registers i awaited newGuid ha hframe hregisters =>
    obtain ⟨method, queueName, ch, handle, hpc, -, rfl⟩ := hregisters
    rw [State.return', State.goto_subscriptionChannels, List.mem_append, List.mem_singleton]
      at hentry
    rcases hentry with hold | rfl
    · exact Or.inl ⟨entry, hold, rfl⟩
    · refine Or.inr ⟨i, .ok (consumeResult handle queueName method),
        ⟨method, queueName, ch, hpc⟩, ?_, ?_⟩
      · rw [State.return', calls_goto]
      · cases method <;> rfl
  | disposes i awaited newGuid ha hdisposes =>
    obtain ⟨caller, c, -, -, ht⟩ := hdisposes
    obtain ⟨pc', hgoto, -⟩ := exists_goto_teardownReturn
      (s := { s.disposeConnection c with connection := none }) i caller rfl
    rw [hgoto] at ht
    subst ht
    exact Or.inl ⟨entry, hentry, rfl⟩
  | connects i awaited newGuid ha hconnects =>
    obtain ⟨config, -, -, rfl⟩ := hconnects
    exact Or.inl ⟨entry, hentry, rfl⟩
  | environment ha hquiet hentries => exact Or.inl ⟨entry, hentries ▸ hentry, rfl⟩

/-- **The first segment of `UnsubscribeAsync` removes the entry**, unless the wait for the semaphore
fails. -/
theorem not_isLive_of_step {handle : SubscriptionHandle} (h : step s a = some t)
    (hcall : s.calls i = .waitingToUnsubscribe handle) :
    t.calls i = .waitingToUnsubscribe handle ∨ (∃ ex, t.calls i = .ended (.error ex)) ∨
      ¬t.IsLive handle := by
  rcases calls_of_step (i := i) h with hsame | ⟨hidle, -⟩ | ⟨awaited, newGuid, -, hresume⟩
  · exact Or.inl (hsame.trans hcall)
  · cases hcall.symm.trans hidle
  · simp only [resume, hcall, resumeUnsubscribe] at hresume
    have hremoved : ∀ pc' : Pc, ¬(State.goto { s with
        subscriptionChannels := s.subscriptionChannels.filter fun entry ↦ entry.1 ≠ handle }
          i pc').IsLive handle := by
      rintro pc' ⟨entry, hentry, hkey⟩
      rw [State.goto_subscriptionChannels, List.mem_filter, decide_eq_true_iff] at hentry
      exact hentry.2 hkey
    split at hresume
    · split at hresume
      · split at hresume <;> cases hresume
        · exact Or.inr (Or.inr (hremoved _))
        · exact Or.inr (Or.inr (hremoved _))
      · cases hresume
    · cases hresume
    · cases hresume
      exact Or.inr (Or.inl ⟨_, calls_goto⟩)

/-! ### How an entry leaves -/

@[simp] theorem subscriptionChannels_teardownThrow (caller : Caller) (ex : BusException) :
    (teardownThrow s i caller ex).subscriptionChannels = s.subscriptionChannels := by
  obtain ⟨result, -, hend⟩ := exists_goto_teardownThrow s i caller ex
  rw [hend]
  rfl

@[simp] theorem subscriptionChannels_teardownReturn (caller : Caller) :
    (teardownReturn s i caller).subscriptionChannels = s.subscriptionChannels := by
  cases caller <;> rfl

@[simp] theorem subscriptionChannels_teardownConnection (caller : Caller) :
    (teardownConnection s i caller).subscriptionChannels = s.subscriptionChannels := by
  obtain ⟨pc', hgoto, -⟩ := exists_goto_teardownConnection s i caller
  rw [hgoto]
  rfl

@[simp] theorem subscriptionChannels_teardownDispose (caller : Caller) :
    (teardownDispose s i caller).subscriptionChannels = s.subscriptionChannels := by
  obtain ⟨pc', hgoto, -⟩ := exists_goto_teardownDispose s i caller
  rw [hgoto]
  rfl

@[simp] theorem subscriptionChannels_teardownLoop (caller : Caller) (rest : List ChannelId) :
    (teardownLoop s i caller rest).subscriptionChannels
      = if rest = [] then [] else s.subscriptionChannels := by
  unfold teardownLoop
  split
  · split <;> rfl
  · exact subscriptionChannels_teardownConnection caller

/-- Where a call removes an entry: past the semaphore in `UnsubscribeAsync`, and past the last
channel in `TeardownAsync`. -/
inductive Pc.Removes (handle : SubscriptionHandle) : Pc → Prop where
  | unsubscribe : Removes handle (.waitingToUnsubscribe handle)
  | teardown (caller : Caller) (ch : ChannelId) : Removes handle (.disposingChannel caller ch [])

theorem entries_of_resumeTeardown {awaited : Awaited}
    (h : resumeTeardown s i awaited pc = some t) :
    t.subscriptionChannels = s.subscriptionChannels ∨
      (awaited = .completed ∧ ∃ caller ch, pc = .disposingChannel caller ch []) := by
  unfold resumeTeardown at h
  split at h
  · split at h
    · split at h <;> cases h
      refine Or.inl ?_
      rw [subscriptionChannels_teardownLoop]
      split
      · rename_i hnil
        exact (List.map_eq_nil_iff.mp hnil).symm
      · rfl
    · cases h
    · cases h
      exact Or.inl (subscriptionChannels_teardownThrow _ _)
  · split at h <;> cases h
    · exact Or.inl rfl
    · exact Or.inl (by simp)
  · rename_i caller ch rest
    split at h <;> cases h
    · cases rest with
      | nil => exact Or.inr ⟨rfl, caller, ch, rfl⟩
      | cons =>
        rw [subscriptionChannels_teardownLoop, if_neg (List.cons_ne_nil _ _)]
        exact Or.inl rfl
    · exact Or.inl (by simp)
  · split at h <;> cases h
    · exact Or.inl (subscriptionChannels_teardownDispose _)
    · exact Or.inl (by simp)
  · split at h <;> cases h
    · exact Or.inl (subscriptionChannels_teardownReturn _)
    · exact Or.inl (by simp)
  · split at h <;> cases h <;> exact Or.inl rfl
  · cases h

theorem entries_of_resumeUnsubscribe {awaited : Awaited}
    (h : resumeUnsubscribe s i awaited pc = some t) :
    t.subscriptionChannels = s.subscriptionChannels ∨
      ∃ handle, pc = .waitingToUnsubscribe handle ∧ awaited = .completed ∧
        t.subscriptionChannels = s.subscriptionChannels.filter fun entry ↦ entry.1 ≠ handle := by
  unfold resumeUnsubscribe at h
  split at h
  · rename_i handle
    split at h
    · split at h
      · dsimp only at h
        split at h <;> cases h <;> exact Or.inr ⟨handle, rfl, rfl, rfl⟩
      · cases h
    · cases h
    · cases h
      exact Or.inl rfl
  · split at h <;> cases h
    · exact Or.inl rfl
    · exact Or.inl (subscriptionChannels_interrupt _)
  · split at h <;> cases h
    · exact Or.inl rfl
    · exact Or.inl (subscriptionChannels_interrupt _)
  · cases h

theorem removes_of_resume {handle : SubscriptionHandle} {awaited : Awaited} {newGuid : Guid}
    (h : resume s i awaited newGuid = some t) (hlive : s.IsLive handle) (hgone : ¬t.IsLive handle) :
    awaited = .completed ∧ (s.calls i).Removes handle := by
  have hkeeps : t.subscriptionChannels ≠ s.subscriptionChannels := by
    intro hsame
    rw [State.IsLive, hsame] at hgone
    exact hgone hlive
  have hteardown : ∀ pc, resumeTeardown s i awaited pc = some t →
      awaited = .completed ∧ pc.Removes handle := by
    intro pc h
    obtain ⟨hawaited, caller, ch, rfl⟩ := (entries_of_resumeTeardown h).resolve_left hkeeps
    exact ⟨hawaited, .teardown caller ch⟩
  have hsend : ∀ pc, resumeSend s i awaited pc = some t →
      awaited = .completed ∧ pc.Removes handle :=
    fun pc h ↦ absurd (frame_resumeSend h).2 hkeeps
  have hconsume : ∀ pc, resumeConsume s i awaited newGuid pc = some t →
      awaited = .completed ∧ pc.Removes handle := by
    intro pc h
    rcases (frame_resumeConsume h).2 with ⟨hsame, -⟩ | ⟨method, queueName, ch, handle', -, -, rfl⟩
    · exact absurd hsame hkeeps
    · obtain ⟨entry, hentry, hkey⟩ := hlive
      exact absurd ⟨entry, List.mem_append_left _ hentry, hkey⟩ hgone
  have hunsubscribe : ∀ pc, resumeUnsubscribe s i awaited pc = some t →
      awaited = .completed ∧ pc.Removes handle := by
    intro pc h
    obtain ⟨handle', rfl, hawaited, hfilter⟩ :=
      (entries_of_resumeUnsubscribe h).resolve_left hkeeps
    obtain ⟨entry, hentry, hkey⟩ := hlive
    have heq : handle = handle' := by
      by_contra hne
      refine hgone ⟨entry, ?_, hkey⟩
      rw [hfilter, List.mem_filter]
      exact ⟨hentry, decide_eq_true (hkey.symm ▸ hne)⟩
    rw [heq]
    exact ⟨hawaited, .unsubscribe⟩
  unfold resume at h
  split at h
  case h_1 | h_2 => cases h
  all_goals
    rename_i hcall
    rw [hcall]
  case h_3 | h_4 | h_5 | h_6 | h_7 | h_8 => exact hteardown _ h
  case h_9 | h_10 | h_11 | h_12 => exact hsend _ h
  case h_13 | h_14 | h_15 | h_16 => exact hconsume _ h
  case h_17 | h_18 | h_19 => exact hunsubscribe _ h

/-- **An entry is removed by the call that unsubscribes its handle, or by a teardown.** -/
theorem removes_of_step {handle : SubscriptionHandle} (h : step s a = some t)
    (hlive : s.IsLive handle) (hgone : ¬t.IsLive handle) :
    ∃ i newGuid, a = .resume i .completed newGuid ∧ (s.calls i).Removes handle := by
  cases a with
  | start i call =>
    simp only [step, Option.ite_none_right_eq_some, Option.some.injEq] at h
    obtain ⟨pc', hgoto, -⟩ := exists_goto_start s i call
    rw [hgoto] at h
    exact absurd (h.2 ▸ hlive) hgone
  | resume i awaited newGuid =>
    obtain ⟨rfl, hremoves⟩ := removes_of_resume h hlive hgone
    exact ⟨i, newGuid, rfl, hremoves⟩
  | brokerConsumes ch =>
    simp only [step, Option.ite_none_right_eq_some, Option.some.injEq] at h
    exact absurd (h.2 ▸ hlive) hgone
  | connectionLost c =>
    cases h
    exact absurd hlive hgone
  | channelLost ch =>
    cases h
    exact absurd hlive hgone

end RabbitMqAdapter

end BusTester
