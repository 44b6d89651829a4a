import BusTester.Infrastructure.Progress
import BusTester.Infrastructure.Publishing
import BusTester.Transition.Ranking

/-!
# How a call ends

What the caller of the adapter can count on, call by call. A call that has been started is resumed
no more often than its own method allows, whatever the other calls do, and only a teardown counts
the subscriptions (`resumptions_le_awaits`). A consuming call that returns has a handle to return
(`Pc.Answers`). And in every reachable state the client library can bring a call to its end,
by answering that call and whoever holds the semaphore (`exists_atRest`).
-/

namespace BusTester

namespace RabbitMqAdapter

open Transition

variable {ι : Type} [DecidableEq ι] {s t : State ι} {i j : ι} {a : Label ι} {as : List (Label ι)}
  {pc : Pc} {call : Call} {awaited : Awaited} {newGuid : Guid} {m n : ℕ}

/-! ## The awaits of a method -/

/-- How often a call is resumed at most, if `n` subscriptions are registered. -/
def Call.awaits (n : ℕ) : Call → ℕ
  | .teardown _ => 2 * n + 4
  | .send _ | .consume _ => 4
  | .unsubscribe _ => 3

theorem left_start_le (call : Call) : ((start s i call).calls i).left n ≤ call.awaits n := by
  cases call with
  | teardown caller => exact left_start _
  | send message =>
    simp only [start]
    split
    · simp [State.throw, Pc.left]
    · split <;> simp [State.throw, Pc.left, Call.awaits]
  | consume method =>
    simp only [start]
    split <;> simp [State.throw, Pc.left, Call.awaits]
  | unsubscribe handle => simp [start, Pc.left, Call.awaits]

omit [DecidableEq ι] in
theorem Pc.Within.left_mono (hpc : pc.Within call) (h : m ≤ n) :
    pc.left n + call.awaits m ≤ pc.left m + call.awaits n := by
  cases hpc with
  | ended call result =>
    cases call <;> simp only [Pc.left, Call.awaits]
    all_goals omega
  | _ =>
    simp only [Pc.left, Call.awaits]
    omega

/-- The calls that were started, in their methods and within their awaits. -/
structure Metered [Inhabited ι] (as : List (Label ι)) (s : State ι) : Prop where
  within : ∀ {i call}, .start i call ∈ as → (s.calls i).Within call
  metered : ∀ {i call}, .start i call ∈ as →
    resumptions i as + (s.calls i).left (registrations as).length
      ≤ call.awaits (registrations as).length

theorem metered_of_run [Inhabited ι] (hrun : run step State.initial as = some t) :
    Metered as t := by
  refine run_induction (motive := Metered) ⟨nofun, nofun⟩ ?_ hrun
  intro as m a u hm ih hstep
  have hbounded : Bounded as m := bounded_of_run hm
  have hregistrations : (registrations (as ++ [a])).length
      = (registrations as).length + (registration m a).toList.length := by
    rw [registrations, observed_concat hm, List.length_append]
    rfl
  have hgrows : (registrations as).length ≤ (registrations (as ++ [a])).length :=
    Nat.le.intro hregistrations.symm
  have hcalls : ∀ {i call}, .start i call ∈ as ++ [a] → (u.calls i).Within call ∧
      resumptions i (as ++ [a]) + (u.calls i).left (registrations (as ++ [a])).length
        ≤ call.awaits (registrations (as ++ [a])).length := by
    intro i call hmem
    rcases List.mem_append.mp hmem with hmem | hlast
    · have hwithin : (m.calls i).Within call := ih.within hmem
      have hmetered := ih.metered hmem
      have hmono := hwithin.left_mono hgrows
      refine ⟨within_step hstep hwithin, ?_⟩
      by_cases ha : ∃ awaited newGuid, a = .resume i awaited newGuid
      · obtain ⟨awaited, newGuid, rfl⟩ := ha
        have hless := left_resume (hbounded.entries.trans hgrows) hstep
        rw [resumptions_concat_self]
        omega
      · have hsame : u.calls i = m.calls i := by
          rcases calls_of_step hstep (i := i) with hsame | ⟨hidle, -⟩ | ⟨awaited, newGuid, heq, -⟩
          · exact hsame
          · rw [hidle] at hwithin
            cases hwithin
          · exact absurd ⟨awaited, newGuid, heq⟩ ha
        rw [resumptions_concat_of_ne fun awaited newGuid heq ↦ ha ⟨awaited, newGuid, heq⟩, hsame]
        omega
    · obtain rfl := List.mem_singleton.mp hlast
      obtain ⟨hidle, ht⟩ := Option.ite_none_right_eq_some.mp hstep
      cases ht
      rw [resumptions_concat_of_ne (by rintro _ _ ⟨⟩), hbounded.idle hidle, Nat.zero_add]
      exact ⟨within_start call, left_start_le call⟩
  exact ⟨fun hmem ↦ (hcalls hmem).1, fun hmem ↦ (hcalls hmem).2⟩

/-- **A call is resumed no more often than its method allows.** -/
theorem resumptions_le_awaits [Inhabited ι] (hrun : run step State.initial as = some t)
    (hmem : .start i call ∈ as) : resumptions i as ≤ call.awaits (registrations as).length :=
  (Nat.le_add_right ..).trans ((metered_of_run hrun).metered hmem)

theorem resumptions_eq_zero [Inhabited ι] (hrun : run step State.initial as = some t)
    (hnone : ∀ call, .start i call ∉ as) : resumptions i as = 0 := by
  refine (bounded_of_run hrun).idle ?_
  by_contra hbusy
  obtain ⟨call, hmem⟩ := (accounted_of_run hrun).begun hbusy
  exact hnone call hmem

/-! ## What a consuming call returns -/

/-- The call is in its method; if it has returned from a consuming method, it returned a handle. -/
structure Pc.Answers (call : Call) (pc : Pc) : Prop where
  within : pc.Within call
  result : ∀ {method result}, call = .consume method → pc = .ended (.ok result) →
    ∃ handle queueName, result = consumeResult handle queueName method

theorem answers_start (call : Call) : ((start s i call).calls i).Answers call := by
  refine ⟨within_start call, ?_⟩
  rintro method result rfl hended
  simp only [start] at hended
  split at hended <;> simp [State.throw] at hended

theorem result_of_resumeConsume {method : Consumption} {result : Result}
    (hpc : pc.Within (.consume method)) (h : resumeConsume s i awaited newGuid pc = some t)
    (hended : t.calls i = .ended (.ok result)) :
    ∃ handle queueName, result = consumeResult handle queueName method := by
  have hthrows : ∀ {u : State ι} {failure}, t = consumeThrow u i method failure → False := by
    rintro u failure rfl
    obtain ⟨ex, hend⟩ := exists_goto_consumeThrow u i method failure
    rw [hend, calls_goto] at hended
    cases hended
  unfold resumeConsume at h
  cases hpc <;> dsimp only at h
  case openingToConsume c =>
    split at h
    · split at h <;> cases h <;> simp at hended
    · cases h
    · cases h
      exact (hthrows rfl).elim
  case declaringQueue ch =>
    split at h <;> cases h
    · simp at hended
    · exact (hthrows rfl).elim
  case consuming queueName ch =>
    split at h
    · split at h <;> cases h
      simp at hended
    · cases h
    · cases h
      exact (hthrows rfl).elim
  case waitingToRegister queueName ch handle =>
    split at h
    · split at h <;> cases h
      rw [State.return', calls_goto] at hended
      cases hended
      exact ⟨handle, queueName, rfl⟩
    · cases h
    · cases h
      simp [State.throw] at hended
  case ended => cases h
  case returned => cases h

/-- **A call answers as its method does.** -/
theorem Pc.Answers.of_step (hs : (s.calls i).Answers call) (h : step s a = some t) :
    (t.calls i).Answers call := by
  refine ⟨within_step h hs.within, ?_⟩
  rintro method result rfl hended
  rcases calls_of_step h (i := i) with hsame | ⟨hidle, -⟩ | ⟨awaited, newGuid, -, hresume⟩
  · exact hs.result rfl (hsame ▸ hended)
  · have hwithin := hs.within
    rw [hidle] at hwithin
    cases hwithin
  · have hwithin := hs.within
    generalize hcall : s.calls i = pc at hwithin
    have hmoves := hwithin
    cases hwithin <;> simp only [resume, hcall] at hresume
    case openingToConsume | declaringQueue | consuming | waitingToRegister =>
      exact result_of_resumeConsume hmoves hresume hended
    case ended | returned => cases hresume

/-! ## Bringing a call to its end -/

/-- The label resumes some call. -/
def Label.resumes : Label ι → Bool
  | .resume .. => true
  | _ => false

/-- The semaphore is released when the library fails its holder. -/
theorem exists_release (hlocked : Locked s) (hholder : s.lockHolder = some j) :
    ∃ t, step s (.resume j (.failed .other) ⟨0⟩) = some t ∧ t.lockHolder = none ∧
      t.subscriptionChannels = s.subscriptionChannels := by
  have hinside : (s.calls j).holds = true := (hlocked j).mpr hholder
  cases hcall : s.calls j <;> rw [hcall] at hinside
  case closingChannel caller ch rest | disposingChannel caller ch rest =>
    simp only [step, resume, hcall, resumeTeardown]
    exact ⟨_, rfl, by cases caller <;> rfl, by cases caller <;> rfl⟩
  all_goals cases hinside

omit [DecidableEq ι] in
theorem Pc.left_le_left (h : m ≤ n) (pc : Pc) : pc.left m ≤ pc.left n := by
  cases pc <;> simp only [left] <;> omega

omit [DecidableEq ι] in
theorem Pc.holds_of_awaitsLock (h : pc.awaitsLock = true) : pc.holds = false := by
  cases pc <;> first | rfl | cases h

omit [DecidableEq ι] in
theorem registration_eq_some {handle : SubscriptionHandle}
    (h : registration s (.resume i awaited newGuid) = some handle) : awaited = .completed ∧
      ∃ method queueName ch, s.calls i = .waitingToRegister method queueName ch handle := by
  cases awaited with
  | completed =>
    cases hcall : s.calls i <;> simp only [registration, hcall] at h <;> cases h
    exact ⟨rfl, _, _, _, rfl⟩
  | declared | failed => cases h

/-- A resumption leaves fewer awaits, counted with the dictionary of the moment. -/
theorem left_lt_of_resume (h : step s (.resume i awaited newGuid) = some t) :
    (t.calls i).left t.subscriptionChannels.length
      < (s.calls i).left s.subscriptionChannels.length := by
  have hless := left_resume (n := s.subscriptionChannels.length) le_rfl h
  have hlength := length_of_step h
  cases hregisters : registration s (.resume i awaited newGuid) with
  | none =>
    rw [hregisters] at hlength
    exact ((t.calls i).left_le_left hlength).trans_lt hless
  | some handle =>
    -- the dictionary has grown, but the call is over
    have hended : ∃ result, t.calls i = .ended result := by
      obtain ⟨rfl, method, queueName, ch, hcall⟩ := registration_eq_some hregisters
      simp only [step, resume, hcall, resumeConsume] at h
      obtain ⟨-, ht⟩ := Option.ite_none_right_eq_some.mp h
      cases ht
      exact ⟨_, by rw [State.return', calls_goto]⟩
    obtain ⟨result, hended⟩ := hended
    rw [hended]
    exact (Nat.zero_le _).trans_lt hless

/-- As long as the call is in flight, the library can bring it closer to its end. -/
theorem exists_descent (hlocked : Locked s) (hflight : (s.calls i).atRest = false) :
    ∃ bs u, run step s bs = some u ∧ (∀ b ∈ bs, b.resumes = true) ∧ (Locked u ∧
      (u.calls i).left u.subscriptionChannels.length
        < (s.calls i).left s.subscriptionChannels.length) := by
  have hone : ∀ {s : State ι}, Locked s → Resumable s i →
      ∃ bs u, run step s bs = some u ∧ (∀ b ∈ bs, b.resumes = true) ∧ (Locked u ∧
        (u.calls i).left u.subscriptionChannels.length
          < (s.calls i).left s.subscriptionChannels.length) := by
    rintro s hlocked ⟨awaited, newGuid, t, hstep, -⟩
    refine ⟨[.resume i awaited newGuid], t, ?_, ?_, locked_step hlocked hstep,
      left_lt_of_resume hstep⟩
    · rw [run_cons, hstep]
      rfl
    · intro b hb
      rw [List.mem_singleton.mp hb]
      rfl
  rcases resumable_of_locked hlocked hflight with hresumable | ⟨hwaits, j, hholder, -⟩
  · exact hone hlocked hresumable
  · obtain ⟨t, hstep, hfree, hentries⟩ := exists_release hlocked hholder
    have hij : i ≠ j := by
      rintro rfl
      cases (Pc.holds_of_awaitsLock hwaits).symm.trans ((hlocked i).mpr hholder)
    rw [← calls_of_resume hstep hij] at hwaits ⊢
    rw [← hentries]
    have hrun : run step s [.resume j (.failed .other) ⟨0⟩] = some t := by
      rw [run_cons, hstep]
      rfl
    refine exists_run_append hrun ?_
      (hone (locked_step hlocked hstep) (resumable_of_free hwaits hfree))
    · intro b hb
      rw [List.mem_singleton.mp hb]
      rfl

/-- **The library can bring a call to its end**, whatever the other calls are doing. -/
theorem exists_atRest (hlocked : Locked s) (i : ι) :
    ∃ bs u, run step s bs = some u ∧ (∀ b ∈ bs, b.resumes = true) ∧
      (Locked u ∧ (u.calls i).atRest = true) := by
  refine exists_run_of_descends
    (r := fun s ↦ (s.calls i).left s.subscriptionChannels.length) ?_ hlocked
  intro s hlocked hflight
  exact exists_descent hlocked (Bool.not_eq_true _ ▸ hflight)

end RabbitMqAdapter

end BusTester
