import BusTester.Infrastructure.Methods

/-!
# Every call comes to its end

`_subscriptionsLock` is held over the `foreach` of `TeardownAsync` and nowhere else, and a `finally`
block releases it, so whoever waits for it waits for a call that only waits for the client library
(`Locked`). And the awaits of one call are bounded: only the loop of `TeardownAsync` has no bound of
its own, and it runs over the channels that were registered when it began (`Pc.left`). So calls do
not deadlock, and as long as the library answers, each of them ends: `progresses_of_run`.
-/

namespace BusTester

namespace RabbitMqAdapter

open Transition

variable {ι : Type} [DecidableEq ι] {s t : State ι} {i j : ι} {a : Label ι} {as : List (Label ι)}
  {pc : Pc} {awaited : Awaited} {newGuid : Guid} {n : ℕ}

/-! ## The property -/

/-- The suspensions inside the semaphore. -/
def Pc.holds : Pc → Bool
  | .closingChannel .. | .disposingChannel .. => true
  | _ => false

/-- The suspensions before the semaphore. -/
def Pc.awaitsLock : Pc → Bool
  | .waitingToTearDown _ | .waitingToRegister .. | .waitingToUnsubscribe _ => true
  | _ => false

/-- The call can go on: the library answers in some way, or the semaphore is entered. -/
def Resumable (s : State ι) (i : ι) : Prop :=
  ∃ awaited newGuid t, step s (.resume i awaited newGuid) = some t ∧
    ((s.calls i).awaitsLock = true → awaited = .completed)

/-- How often the call was resumed. -/
def resumptions (i : ι) (as : List (Label ι)) : ℕ :=
  as.countP fun
    | .resume j _ _ => j = i
    | _ => false

/-- The step puts a channel into the dictionary. -/
def registration (s : State ι) : Label ι → Option SubscriptionHandle
  | .resume i .completed _ =>
    match s.calls i with
    | .waitingToRegister _ _ _ handle => some handle
    | _ => none
  | _ => none

/-- The subscriptions that were registered in the course of the run. -/
def registrations [Inhabited ι] (as : List (Label ι)) : List SubscriptionHandle :=
  observed step registration State.initial as

/-- No call waits for ever. -/
structure Progresses [Inhabited ι] (as : List (Label ι)) (s : State ι) : Prop where
  /-- The semaphore is held by a call that is inside. -/
  locked : ∀ i, (s.calls i).holds = true ↔ s.lockHolder = some i
  /-- A call in flight can go on, or waits for one that can. -/
  resumable : ∀ i, (s.calls i).atRest = false →
    Resumable s i ∨ ((s.calls i).awaitsLock = true ∧ ∃ j, s.lockHolder = some j ∧ Resumable s j)
  /-- A call is resumed a bounded number of times. -/
  bounded : ∀ i, resumptions i as ≤ 2 * (registrations as).length + 4

/-! ## The awaits that are left -/

/-- How often a call at this place can be resumed, if the dictionary has at most `n` entries. -/
def Pc.left (n : ℕ) : Pc → ℕ
  | .idle | .ended _ => 0
  | .waitingToTearDown _ => 2 * n + 4
  | .closingChannel _ _ rest => 2 * rest.length + 5
  | .disposingChannel _ _ rest => 2 * rest.length + 4
  | .closingConnection .. => 3
  | .disposingConnection .. => 2
  | .creatingConnection _ => 1
  | .openingToSend .. | .openingToConsume .. => 4
  | .declaringExchange .. | .declaringQueue _ | .waitingToUnsubscribe _ => 3
  | .publishing .. | .consuming .. | .closingUnsubscribed _ => 2
  | .disposingAfterSend .. | .waitingToRegister .. | .disposingUnsubscribed _ => 1

theorem Pc.left_mono {m : ℕ} (h : n ≤ m) (pc : Pc) : pc.left m ≤ pc.left n + 2 * (m - n) := by
  cases pc <;> simp only [left] <;> omega

theorem left_teardownThrow (caller : Caller) (ex : BusException) :
    ((teardownThrow s i caller ex).calls i).left n = 0 := by
  cases caller <;> simp [teardownThrow, State.throw, State.return', Pc.left]

theorem left_teardownReturn (caller : Caller) :
    ((teardownReturn s i caller).calls i).left n ≤ 1 := by
  cases caller <;> simp [teardownReturn, State.return', Pc.left]

theorem left_teardownConnection (caller : Caller) :
    ((teardownConnection s i caller).calls i).left n ≤ 3 := by
  unfold teardownConnection
  split
  · exact (left_teardownReturn caller).trans (by omega)
  · split <;> simp [Pc.left]

theorem left_teardownLoop (caller : Caller) (rest : List ChannelId) :
    ((teardownLoop s i caller rest).calls i).left n ≤ 2 * rest.length + 3 := by
  unfold teardownLoop
  split
  · split
    · rw [calls_goto]
      simp only [Pc.left, List.length_cons]
      omega
    · rw [calls_goto]
      simp only [Pc.left, List.length_cons]
      omega
  · exact left_teardownConnection caller

theorem left_teardownDispose (caller : Caller) :
    ((teardownDispose s i caller).calls i).left n ≤ 2 := by
  unfold teardownDispose
  split
  · rw [left_teardownThrow]
    omega
  · simp [Pc.left]

theorem left_endSend (message : BusMessage) (failure : Option Failure) :
    ((endSend s i message failure).calls i).left n = 0 := by
  obtain ⟨result, -, hend⟩ := exists_goto_endSend s i message failure
  simp [hend, Pc.left]

theorem left_consumeThrow (method : Consumption) (failure : Failure) :
    ((consumeThrow s i method failure).calls i).left n = 0 := by
  obtain ⟨ex, hend⟩ := exists_goto_consumeThrow s i method failure
  simp [hend, Pc.left]

theorem left_start (call : Call) : ((start s i call).calls i).left n ≤ 2 * n + 4 := by
  have hended : ∀ ex, ((s.throw i ex).calls i).left n ≤ 2 * n + 4 := by
    intro ex
    simp [State.throw, Pc.left]
  cases call with
  | teardown caller => simp [start, Pc.left]
  | send message =>
    simp only [start]
    split
    · exact hended _
    · split
      · exact hended _
      · simp [Pc.left]
  | consume method =>
    simp only [start]
    split
    · exact hended _
    · simp [Pc.left]
  | unsubscribe handle =>
    simp only [start, calls_goto, Pc.left]
    omega

/-- **A resumption leaves fewer awaits.** -/
theorem left_resumeTeardown (hn : s.subscriptionChannels.length ≤ n)
    (h : resumeTeardown s i awaited pc = some t) : (t.calls i).left n < pc.left n := by
  unfold resumeTeardown at h
  split at h
  · rename_i caller
    split at h
    · split at h <;> cases h
      have hloop := left_teardownLoop (s := { s with lockHolder := some i }) (i := i) (n := n)
        caller (s.subscriptionChannels.map Prod.snd)
      rw [List.length_map] at hloop
      change _ < 2 * n + 4
      omega
    · cases h
    · cases h
      rw [left_teardownThrow]
      simp [Pc.left]
  · split at h <;> cases h
    · simp [Pc.left]
    · rw [left_teardownThrow]
      simp [Pc.left]
  · rename_i caller ch rest
    split at h <;> cases h
    · exact Nat.lt_succ_of_le (left_teardownLoop caller rest)
    · rw [left_teardownThrow]
      simp [Pc.left]
  · rename_i caller c
    split at h <;> cases h
    · exact Nat.lt_succ_of_le (left_teardownDispose caller)
    · rw [left_teardownThrow]
      simp [Pc.left]
  · rename_i caller c
    split at h <;> cases h
    · exact Nat.lt_succ_of_le (left_teardownReturn caller)
    · rw [left_teardownThrow]
      simp [Pc.left]
  · split at h <;> cases h <;> simp [State.throw, State.return', Pc.left]
  · cases h

theorem left_resumeSend (h : resumeSend s i awaited pc = some t) :
    (t.calls i).left n < pc.left n := by
  unfold resumeSend at h
  repeat' split at h
  all_goals cases h
  all_goals simp only [calls_goto, left_endSend]
  all_goals simp [Pc.left]

theorem left_resumeConsume (h : resumeConsume s i awaited newGuid pc = some t) :
    (t.calls i).left n < pc.left n := by
  unfold resumeConsume at h
  repeat' split at h
  all_goals cases h
  all_goals simp only [calls_goto, left_consumeThrow, State.throw, State.return']
  all_goals simp [Pc.left]

theorem left_resumeUnsubscribe (h : resumeUnsubscribe s i awaited pc = some t) :
    (t.calls i).left n < pc.left n := by
  unfold resumeUnsubscribe at h
  repeat' split at h
  all_goals cases h
  all_goals simp [State.throw, State.return', Pc.left]

theorem left_resume (hn : s.subscriptionChannels.length ≤ n)
    (h : resume s i awaited newGuid = some t) : (t.calls i).left n < (s.calls i).left n := by
  cases hcall : s.calls i <;> simp only [resume, hcall] at h
  case idle | ended => cases h
  case waitingToTearDown | closingChannel | disposingChannel | closingConnection
    | disposingConnection | creatingConnection => exact left_resumeTeardown hn h
  case openingToSend | declaringExchange | publishing | disposingAfterSend =>
    exact left_resumeSend h
  case openingToConsume | declaringQueue | consuming | waitingToRegister =>
    exact left_resumeConsume h
  case waitingToUnsubscribe | closingUnsubscribed | disposingUnsubscribed =>
    exact left_resumeUnsubscribe h

/-! ## The size of the dictionary -/

theorem length_of_step (h : step s a = some t) : t.subscriptionChannels.length
    ≤ s.subscriptionChannels.length + (registration s a).toList.length := by
  cases a with
  | start i call =>
    obtain ⟨-, ht⟩ := Option.ite_none_right_eq_some.mp h
    obtain ⟨pc', hgoto, -⟩ := exists_goto_start s i call
    cases ht
    rw [hgoto]
    exact Nat.le_add_right ..
  | resume i awaited newGuid =>
    have hsame : t.subscriptionChannels = s.subscriptionChannels → t.subscriptionChannels.length
        ≤ s.subscriptionChannels.length
          + (registration s (.resume i awaited newGuid)).toList.length := by
      intro hsame
      rw [hsame]
      exact Nat.le_add_right ..
    change resume s i awaited newGuid = some t at h
    cases hcall : s.calls i <;> simp only [resume, hcall] at h
    case idle | ended => cases h
    case waitingToTearDown | closingChannel | disposingChannel | closingConnection
      | disposingConnection | creatingConnection =>
      rcases entries_of_resumeTeardown h with hentries | ⟨rfl, caller, ch, hpc⟩
      · exact hsame hentries
      · rw [hpc] at h
        cases h
        simp
    case openingToSend | declaringExchange | publishing | disposingAfterSend =>
      exact hsame (frame_resumeSend h).2
    case openingToConsume | declaringQueue | consuming | waitingToRegister =>
      rcases (frame_resumeConsume h).2 with ⟨hentries, -⟩ | hregisters
      · exact hsame hentries
      · obtain ⟨method, queueName, ch, handle, hpc, rfl, rfl⟩ := hregisters
        simp [registration, hcall.trans hpc, State.return']
    case waitingToUnsubscribe | closingUnsubscribed | disposingUnsubscribed =>
      rcases entries_of_resumeUnsubscribe h with hentries | ⟨handle, -, -, hentries⟩
      · exact hsame hentries
      · rw [hentries]
        exact (List.length_filter_le ..).trans (Nat.le_add_right ..)
  | brokerConsumes ch =>
    obtain ⟨-, ht⟩ := Option.ite_none_right_eq_some.mp h
    cases ht
    exact Nat.le_add_right ..
  | connectionLost c =>
    cases h
    exact Nat.le_add_right ..
  | channelLost ch =>
    cases h
    exact Nat.le_add_right ..

/-! ## The semaphore -/

/-- The semaphore is held by a call that is inside. -/
def Locked (s : State ι) : Prop := ∀ i, (s.calls i).holds = true ↔ s.lockHolder = some i

/-- After a segment of the call `i`, it holds the semaphore, or the holder is the one of before. -/
structure Hold (s : State ι) (i : ι) (t : State ι) : Prop where
  self : (t.calls i).holds = true ↔ t.lockHolder = some i
  others : ∀ j ≠ i, t.lockHolder = some j ↔ s.lockHolder = some j

omit [DecidableEq ι] in
theorem Hold.of_same (hs : Locked s) (hlock : t.lockHolder = s.lockHolder)
    (hholds : (t.calls i).holds = (s.calls i).holds) : Hold s i t :=
  ⟨by rw [hholds, hlock]; exact hs i, fun j _ ↦ by rw [hlock]⟩

omit [DecidableEq ι] in
theorem Hold.of_released (hbefore : s.lockHolder = none ∨ s.lockHolder = some i)
    (hlock : t.lockHolder = none) (hholds : (t.calls i).holds = false) : Hold s i t := by
  refine ⟨by rw [hholds, hlock]; exact iff_of_false nofun nofun, fun j hj ↦ ?_⟩
  rw [hlock]
  refine iff_of_false nofun fun hholder ↦ ?_
  rcases hbefore with hbefore | hbefore
  · cases hbefore.symm.trans hholder
  · cases hbefore.symm.trans hholder
    exact hj rfl

/-- The segment ends outside of the semaphore, and does not touch it. -/
structure Outside (s : State ι) (i : ι) (t : State ι) : Prop where
  self : (t.calls i).holds = false
  lock : t.lockHolder = s.lockHolder

theorem outside_goto {t : State ι} (hlock : t.lockHolder = s.lockHolder) (hpc : pc.holds = false) :
    Outside s i (t.goto i pc) :=
  ⟨by rw [calls_goto, hpc], hlock⟩

omit [DecidableEq ι] in
theorem Outside.hold (h : Outside s i t) (hs : Locked s) (hpc : (s.calls i).holds = false) :
    Hold s i t :=
  .of_same hs h.lock (h.self.trans hpc.symm)

omit [DecidableEq ι] in
theorem Outside.of_lock {m : State ι} (h : Outside m i t) (hlock : m.lockHolder = s.lockHolder) :
    Outside s i t :=
  ⟨h.self, h.lock.trans hlock⟩

omit [DecidableEq ι] in
theorem Outside.released {m : State ι} (h : Outside m i t) (hfree : m.lockHolder = none)
    (hbefore : s.lockHolder = none ∨ s.lockHolder = some i) : Hold s i t :=
  .of_released hbefore (h.lock.trans hfree) h.self

/-! The continuations of `TeardownAsync`. -/

theorem outside_teardownThrow (caller : Caller) (ex : BusException) :
    Outside s i (teardownThrow s i caller ex) := by
  cases caller <;> exact outside_goto rfl rfl

theorem outside_teardownReturn (caller : Caller) : Outside s i (teardownReturn s i caller) := by
  cases caller <;> exact outside_goto rfl rfl

theorem outside_teardownConnection (caller : Caller) :
    Outside s i (teardownConnection s i caller) := by
  unfold teardownConnection
  split
  · exact outside_teardownReturn caller
  · split <;> exact outside_goto rfl rfl

theorem outside_teardownDispose (caller : Caller) : Outside s i (teardownDispose s i caller) := by
  unfold teardownDispose
  split
  · exact outside_teardownThrow caller _
  · exact outside_goto rfl rfl

theorem teardownLoop_cases (caller : Caller) (rest : List ChannelId) :
    (((teardownLoop s i caller rest).calls i).holds = true ∧
      (teardownLoop s i caller rest).lockHolder = s.lockHolder) ∨
    Outside { s with subscriptionChannels := [], lockHolder := none } i
      (teardownLoop s i caller rest) := by
  unfold teardownLoop
  split
  · split <;> exact Or.inl ⟨by rw [calls_goto]; rfl, rfl⟩
  · exact Or.inr (outside_teardownConnection caller)

theorem hold_resumeTeardown (hs : Locked s) (hcall : s.calls i = pc)
    (h : resumeTeardown s i awaited pc = some t) : Hold s i t := by
  have hout : pc.holds = false → Outside s i t → Hold s i t := by
    intro hpc houtside
    exact houtside.hold hs (by rw [hcall, hpc])
  have hinside : pc.holds = true → s.lockHolder = some i := fun hpc ↦ (hs i).mp (hcall ▸ hpc)
  unfold resumeTeardown at h
  split at h
  -- `_subscriptionsLock.WaitAsync`
  · rename_i caller
    split at h
    · split at h <;> cases h
      rename_i hfree
      rcases teardownLoop_cases (s := { s with lockHolder := some i }) (i := i) caller
        (s.subscriptionChannels.map Prod.snd) with ⟨hholds, hlock⟩ | houtside
      · refine ⟨iff_of_true hholds hlock, fun j hj ↦ ?_⟩
        rw [hlock, hfree]
        exact iff_of_false (fun heq ↦ hj (Option.some.inj heq).symm) nofun
      · exact houtside.released rfl (Or.inl hfree)
    · cases h
    · cases h
      exact hout rfl (outside_teardownThrow _ _)
  -- inside, an exception releases the semaphore
  · split at h <;> cases h
    · exact .of_same hs rfl (by rw [calls_goto, hcall]; rfl)
    · exact (outside_teardownThrow _ _).released rfl (Or.inr (hinside rfl))
  · rename_i caller ch rest
    split at h <;> cases h
    · rcases teardownLoop_cases (s := s.disposeChannel ch) (i := i) caller rest with
        ⟨hholds, hlock⟩ | houtside
      · exact .of_same hs hlock (by rw [hholds, hcall]; rfl)
      · exact houtside.released rfl (Or.inr (hinside rfl))
    · exact (outside_teardownThrow _ _).released rfl (Or.inr (hinside rfl))
  -- past the `finally` block
  · split at h <;> cases h
    · exact hout rfl ((outside_teardownDispose _).of_lock rfl)
    · exact hout rfl ((outside_teardownThrow _ _).of_lock (lockHolder_interruptConnection _))
  · split at h <;> cases h
    · exact hout rfl ((outside_teardownReturn _).of_lock rfl)
    · exact hout rfl ((outside_teardownThrow _ _).of_lock (lockHolder_interruptConnection _))
  · split at h <;> cases h <;> exact hout rfl (outside_goto rfl rfl)
  · cases h

/-! The other methods only wait for the semaphore. -/

theorem outside_endSend {t : State ι} (hlock : t.lockHolder = s.lockHolder) (message : BusMessage)
    (failure : Option Failure) : Outside s i (endSend t i message failure) := by
  obtain ⟨result, -, hend⟩ := exists_goto_endSend t i message failure
  rw [hend]
  exact outside_goto hlock rfl

theorem outside_consumeThrow {t : State ι} (hlock : t.lockHolder = s.lockHolder)
    (method : Consumption) (failure : Failure) : Outside s i (consumeThrow t i method failure) := by
  obtain ⟨ex, hend⟩ := exists_goto_consumeThrow t i method failure
  rw [hend]
  exact outside_goto hlock rfl

theorem outside_resumeSend (h : resumeSend s i awaited pc = some t) : Outside s i t := by
  unfold resumeSend at h
  split at h
  · split at h <;> cases h
    · exact outside_goto rfl (by split <;> rfl)
    · exact outside_endSend rfl _ _
  · split at h <;> cases h
    · exact outside_goto rfl rfl
    · exact outside_goto (lockHolder_interrupt _) rfl
  · split at h <;> cases h
    · exact outside_goto rfl rfl
    · exact outside_goto (lockHolder_interrupt _) rfl
  · rename_i ch _
    split at h <;> cases h
    · exact (outside_endSend (s := s.disposeChannel ch) rfl _ _).of_lock rfl
    · exact outside_endSend (lockHolder_interrupt _) _ _
  · cases h

theorem outside_resumeConsume (h : resumeConsume s i awaited newGuid pc = some t) :
    Outside s i t := by
  unfold resumeConsume at h
  split at h
  · split at h
    · split at h <;> cases h <;> exact outside_goto rfl rfl
    · cases h
    · cases h
      exact outside_consumeThrow rfl _ _
  · split at h <;> cases h
    · exact outside_goto rfl rfl
    · exact outside_consumeThrow (lockHolder_interrupt _) _ _
  · split at h
    · split at h <;> cases h
      exact outside_goto rfl rfl
    · cases h
    · cases h
      exact outside_consumeThrow (lockHolder_interrupt _) _ _
  · split at h
    · split at h <;> cases h
      exact outside_goto rfl rfl
    · cases h
    · cases h
      exact outside_goto rfl rfl
  · cases h

theorem outside_resumeUnsubscribe (h : resumeUnsubscribe s i awaited pc = some t) :
    Outside s i t := by
  unfold resumeUnsubscribe at h
  split at h
  · split at h
    · split at h
      · dsimp only at h
        split at h <;> cases h <;> exact outside_goto rfl rfl
      · cases h
    · cases h
    · cases h
      exact outside_goto rfl rfl
  · split at h <;> cases h
    · exact outside_goto rfl rfl
    · exact outside_goto (lockHolder_interrupt _) rfl
  · split at h <;> cases h
    · exact outside_goto rfl rfl
    · exact outside_goto (lockHolder_interrupt _) rfl
  · cases h

theorem outside_start (s : State ι) (i : ι) (call : Call) : Outside s i (start s i call) := by
  cases call with
  | teardown caller => exact outside_goto rfl rfl
  | send message =>
    simp only [start]
    split
    · exact outside_goto rfl rfl
    · split <;> exact outside_goto rfl rfl
  | consume method =>
    simp only [start]
    split <;> exact outside_goto rfl rfl
  | unsubscribe handle => exact outside_goto rfl rfl

theorem hold_resume (hs : Locked s) (h : resume s i awaited newGuid = some t) : Hold s i t := by
  cases hcall : s.calls i <;> simp only [resume, hcall] at h
  case idle | ended => cases h
  case waitingToTearDown | closingChannel | disposingChannel | closingConnection
    | disposingConnection | creatingConnection => exact hold_resumeTeardown hs hcall h
  case openingToSend | declaringExchange | publishing | disposingAfterSend =>
    exact (outside_resumeSend h).hold hs (by rw [hcall]; rfl)
  case openingToConsume | declaringQueue | consuming | waitingToRegister =>
    exact (outside_resumeConsume h).hold hs (by rw [hcall]; rfl)
  case waitingToUnsubscribe | closingUnsubscribed | disposingUnsubscribed =>
    exact (outside_resumeUnsubscribe h).hold hs (by rw [hcall]; rfl)

/-- **The semaphore is held by a call that is inside**, after every step. -/
theorem locked_step (hs : Locked s) (h : step s a = some t) : Locked t := by
  -- the calls other than the one that steps
  have hothers : ∀ {i}, Hold s i t → (∀ j ≠ i, t.calls j = s.calls j) → Locked t := by
    intro i hhold hcalls j
    rcases eq_or_ne j i with rfl | hj
    · exact hhold.self
    · rw [hcalls j hj, hhold.others j hj]
      exact hs j
  cases a with
  | start i call =>
    obtain ⟨hidle, ht⟩ := Option.ite_none_right_eq_some.mp h
    cases ht
    refine hothers ((outside_start s i call).hold hs (by rw [hidle]; rfl)) fun j hj ↦ ?_
    obtain ⟨pc', hgoto, -⟩ := exists_goto_start s i call
    rw [hgoto, State.goto_calls, Function.update_of_ne hj]
  | resume i awaited newGuid =>
    exact hothers (hold_resume hs h) fun j hj ↦ calls_of_resume h hj
  | brokerConsumes ch =>
    obtain ⟨-, ht⟩ := Option.ite_none_right_eq_some.mp h
    cases ht
    exact hs
  | connectionLost c =>
    cases h
    exact hs
  | channelLost ch =>
    cases h
    exact hs

/-! ## Calls in flight -/

/-- The client library can always answer. -/
theorem resumable_of_library (hflight : (s.calls i).atRest = false)
    (hlibrary : (s.calls i).awaitsLock = false) : Resumable s i := by
  suffices ∃ t, step s (.resume i (.failed .other) ⟨0⟩) = some t by
    obtain ⟨t, ht⟩ := this
    exact ⟨_, _, t, ht, fun hwaits ↦ absurd (hlibrary.symm.trans hwaits) nofun⟩
  cases hcall : s.calls i <;> rw [hcall] at hflight hlibrary
  case idle | ended => cases hflight
  case waitingToTearDown | waitingToRegister | waitingToUnsubscribe => cases hlibrary
  all_goals
    simp only [step, resume, hcall]
    exact ⟨_, rfl⟩

theorem resumable_of_free (hwaits : (s.calls i).awaitsLock = true) (hfree : s.lockHolder = none) :
    Resumable s i := by
  suffices ∃ t, step s (.succeed i) = some t by
    obtain ⟨t, ht⟩ := this
    exact ⟨_, _, t, ht, fun _ ↦ rfl⟩
  cases hcall : s.calls i <;> rw [hcall] at hwaits
  case waitingToTearDown | waitingToRegister =>
    simp only [Label.succeed, step, resume, hcall]
    exact ⟨_, if_pos hfree⟩
  case waitingToUnsubscribe =>
    simp only [Label.succeed, step, resume, hcall, resumeUnsubscribe, if_pos hfree]
    split <;> exact ⟨_, rfl⟩
  all_goals cases hwaits

/-- Whoever waits, waits for the semaphore, and its holder waits for the client library. -/
theorem resumable_of_locked (hs : Locked s) (hflight : (s.calls i).atRest = false) :
    Resumable s i ∨
      ((s.calls i).awaitsLock = true ∧ ∃ j, s.lockHolder = some j ∧ Resumable s j) := by
  cases hwaits : (s.calls i).awaitsLock with
  | false => exact Or.inl (resumable_of_library hflight hwaits)
  | true =>
    cases hholder : s.lockHolder with
    | none => exact Or.inl (resumable_of_free hwaits hholder)
    | some j =>
      have hinside : (s.calls j).holds = true := (hs j).mpr hholder
      refine Or.inr ⟨rfl, j, rfl, resumable_of_library ?_ ?_⟩ <;>
        cases hcall : s.calls j <;> rw [hcall] at hinside <;> first | rfl | cases hinside

/-! ## Runs -/

/-- The awaits so far and those that are left. -/
structure Bounded [Inhabited ι] (as : List (Label ι)) (s : State ι) : Prop where
  entries : s.subscriptionChannels.length ≤ (registrations as).length
  idle : ∀ {i}, s.calls i = .idle → resumptions i as = 0
  left : ∀ i, resumptions i as + (s.calls i).left (registrations as).length
    ≤ 2 * (registrations as).length + 4

theorem resumptions_concat_self (as : List (Label ι)) :
    resumptions i (as ++ [.resume i awaited newGuid]) = resumptions i as + 1 := by
  simp [resumptions]

theorem resumptions_concat_of_ne (ha : ∀ awaited newGuid, a ≠ .resume i awaited newGuid) :
    resumptions i (as ++ [a]) = resumptions i as := by
  cases a with
  | resume j awaited newGuid =>
    have hj : j ≠ i := by
      rintro rfl
      exact ha awaited newGuid rfl
    simp [resumptions, hj]
  | start | brokerConsumes | connectionLost | channelLost => simp [resumptions]

theorem bounded_of_run [Inhabited ι] (hrun : run step State.initial as = some t) :
    Bounded as t := by
  refine run_induction (motive := Bounded) ?_ ?_ hrun
  · exact ⟨Nat.zero_le _, fun _ ↦ rfl, fun i ↦ Nat.zero_le _⟩
  intro as m a u hm ih hstep
  have hregistrations : (registrations (as ++ [a])).length
      = (registrations as).length + (registration m a).toList.length := by
    rw [registrations, observed_concat hm, List.length_append]
    rfl
  have hgrows : (registrations as).length ≤ (registrations (as ++ [a])).length :=
    Nat.le.intro hregistrations.symm
  have hentries : u.subscriptionChannels.length ≤ (registrations (as ++ [a])).length := by
    rw [hregistrations]
    exact (length_of_step hstep).trans (Nat.add_le_add_right ih.entries _)
  have hmono : ∀ i, resumptions i as + (m.calls i).left (registrations (as ++ [a])).length
      ≤ 2 * (registrations (as ++ [a])).length + 4 := by
    intro i
    have hleft := ih.left i
    have hpc := (m.calls i).left_mono hgrows
    omega
  have hcalls : ∀ i, (u.calls i = .idle → resumptions i (as ++ [a]) = 0) ∧
      resumptions i (as ++ [a]) + (u.calls i).left (registrations (as ++ [a])).length
        ≤ 2 * (registrations (as ++ [a])).length + 4 := by
    intro i
    by_cases ha : ∃ awaited newGuid, a = .resume i awaited newGuid
    · obtain ⟨awaited, newGuid, rfl⟩ := ha
      have hleft := left_resume (ih.entries.trans hgrows) hstep
      have hbefore := hmono i
      rw [resumptions_concat_self]
      refine ⟨fun hidle ↦ ?_, by omega⟩
      rcases within_of_run hm (i := i) with hbusy | ⟨call, hwithin⟩
      · simp [step, resume, hbusy] at hstep
      · have hwithin' := within_step hstep hwithin
        rw [hidle] at hwithin'
        cases hwithin'
    · rw [resumptions_concat_of_ne fun awaited newGuid heq ↦ ha ⟨awaited, newGuid, heq⟩]
      rcases calls_of_step hstep (i := i) with
        hsame | ⟨hidle, call, rfl, rfl⟩ | ⟨awaited, newGuid, rfl, -⟩
      · rw [hsame]
        exact ⟨ih.idle, hmono i⟩
      · rw [ih.idle hidle, Nat.zero_add]
        exact ⟨fun _ ↦ rfl, left_start call⟩
      · exact absurd ⟨awaited, newGuid, rfl⟩ ha
  exact ⟨hentries, fun h ↦ (hcalls _).1 h, fun i ↦ (hcalls i).2⟩

/-- **Every call comes to its end**: none waits for a call that cannot go on, and none is resumed
more often than there are awaits in its method and channels to tear down. -/
theorem progresses_of_run [Inhabited ι] (hrun : run step State.initial as = some t) :
    Progresses as t := by
  have hlocked : Locked t := by
    refine invariant_of_step (P := Locked) ?_ (fun _ _ _ ↦ locked_step) hrun
    exact fun i ↦ iff_of_false nofun nofun
  have hbounded : Bounded as t := bounded_of_run hrun
  refine ⟨hlocked, fun i hflight ↦ resumable_of_locked hlocked hflight, fun i ↦ ?_⟩
  exact (Nat.le_add_right ..).trans (hbounded.left i)

open Label (succeed)

/-- A subscription is removed while a disconnect tears down its channel. -/
private def removedMeanwhile : List (Label ℕ) :=
  [.start 0 (.teardown (.connect .localhost)), succeed 0, succeed 0,
    .start 1 (.consume (.subscribe (Utf16.ofString "parcels"))), succeed 1, .brokerConsumes 0,
    .resume 1 .completed ⟨9⟩, succeed 1, .start 2 (.teardown .disconnect), succeed 2,
    .start 3 (.unsubscribe ⟨⟨9⟩⟩)]

theorem progresses_of_removedMeanwhile : ∃ t, run step State.initial removedMeanwhile = some t ∧
    t.calls 3 = .waitingToUnsubscribe ⟨⟨9⟩⟩ ∧ t.lockHolder = some 2 ∧
      Progresses removedMeanwhile t :=
  ⟨_, rfl, rfl, rfl, progresses_of_run rfl⟩

end RabbitMqAdapter

end BusTester
