import BusTester.Infrastructure.SubscriptionRegistry
import BusTester.Infrastructure.Teardown

/-!
# One teardown at a time

What a caller gains who starts `ConnectAsync` and `DisconnectAsync` one after the other: the field
is never found `null` (`neverNull_of_oneAtATime`), it stays as a returned `ConnectAsync` has left it
until the next call (`wears_of_step`), and what that has left is a connection with the settings it
was given (`connected_of_step`).
-/

namespace BusTester

namespace RabbitMqAdapter

open Transition

variable {ι : Type} [DecidableEq ι] {s t : State ι} {i : ι} {a : Label ι} {as : List (Label ι)}
  {awaited : Awaited} {newGuid : Guid} {config : BusConnectionConfig} {pc : Pc} {c : ConnectionId}

theorem inTeardown_of_step (h : step s a = some t) (hi : (t.calls i).inTeardown = true) :
    (s.calls i).inTeardown = true ∨ ∃ caller, a = .start i (.teardown caller) := by
  have hmoves : ∀ {k} pc', t.calls = Function.update s.calls k pc' →
      (pc'.inTeardown = true → (s.calls k).inTeardown = true) → (s.calls i).inTeardown = true := by
    intro k pc' hcalls hteardown
    rw [hcalls] at hi
    by_cases hik : i = k
    · rw [hik, Function.update_self] at hi
      rw [hik]
      exact hteardown hi
    · rwa [Function.update_of_ne hik] at hi
  cases step_cases h with
  | starts k call pc' ha hidle ht hbare hteardown =>
    subst ha ht
    by_cases hik : i = k
    · subst hik
      rw [calls_goto] at hi
      obtain ⟨caller, rfl⟩ := hteardown hi
      exact Or.inr ⟨caller, rfl⟩
    · rw [State.goto_calls, Function.update_of_ne hik] at hi
      exact Or.inl hi
  | moves k awaited newGuid ha hframe =>
    obtain ⟨pc', hcalls, hteardown, -⟩ := hframe.calls
    exact Or.inl (hmoves pc' hcalls hteardown)
  | registers k awaited newGuid ha hframe =>
    obtain ⟨pc', hcalls, hteardown, -⟩ := hframe.calls
    exact Or.inl (hmoves pc' hcalls hteardown)
  | disposes k awaited newGuid ha hdisposes =>
    obtain ⟨caller, c, hpc, -, ht⟩ := hdisposes
    obtain ⟨pc', hgoto, -⟩ := exists_goto_teardownReturn
      (s := { s.disposeConnection c with connection := none }) k caller rfl
    rw [hgoto] at ht
    exact Or.inl (hmoves pc' (by rw [ht]; rfl) fun _ ↦ by rw [hpc]; rfl)
  | connects k awaited newGuid ha hconnects =>
    obtain ⟨config, hpc, -, ht⟩ := hconnects
    exact Or.inl (hmoves (.ended (.ok .done)) (by rw [ht]; rfl) Bool.noConfusion)
  | environment ha hquiet =>
    rw [hquiet.calls] at hi
    exact Or.inl hi

/-- **The field is never found `null`** where teardowns do not overlap. -/
theorem neverNull_of_oneAtATime [Inhabited ι]
    (hone : Guarded step OneAtATime (State.initial : State ι) as) :
    Guarded step NeverNull State.initial as := by
  refine neverNull_of_disposesAlone (Guarded.of_invariant singleTeardown_initial
    (fun _ _ _ hs hone hstep ↦ singleTeardown_step hone hs hstep) ?_ hone)
  intro s a hs _
  cases a with
  | resume i awaited newGuid =>
    cases awaited with
    | completed =>
      intro hdisposing j
      by_contra hclosing
      have hsame : i = j := by
        refine hs.single i j ?_ ?_
        · generalize s.calls i = pc at hdisposing
          cases pc <;> first | rfl | exact absurd rfl hdisposing
        · generalize s.calls j = pc at hclosing
          cases pc <;> first | rfl | exact absurd rfl hclosing
      subst hsame
      generalize s.calls i = pc at hdisposing hclosing
      cases pc <;> first | exact hdisposing rfl | exact hclosing rfl
    | declared | failed => trivial
  | start | brokerConsumes | connectionLost | channelLost => trivial

/-! ## Between two calls -/

/-- Only a teardown writes the field, and nothing else makes a connection another one. -/
theorem wears_of_step (h : step s a = some t)
    (hnot : ∀ i awaited newGuid, a = .resume i awaited newGuid → (s.calls i).inTeardown = false) :
    t.connection = s.connection ∧ Wears s t := by
  cases step_cases h with
  | starts i call pc' ha hidle ht =>
    rw [ht]
    exact ⟨rfl, Wears.goto s i pc'⟩
  | moves i awaited newGuid ha hframe => exact ⟨hframe.connection, hframe.wears⟩
  | registers i awaited newGuid ha hframe => exact ⟨hframe.connection, hframe.wears⟩
  | disposes i awaited newGuid ha hdisposes =>
    obtain ⟨caller, c, hpc, -⟩ := hdisposes
    have hout := hnot i awaited newGuid ha
    rw [hpc] at hout
    cases hout
  | connects i awaited newGuid ha hconnects =>
    obtain ⟨config, hpc, -⟩ := hconnects
    have hout := hnot i awaited newGuid ha
    rw [hpc] at hout
    cases hout
  | environment ha hquiet => exact ⟨hquiet.connection, hquiet.wears⟩

/-! ## The end of `ConnectAsync` -/

/-- The call has ended without an exception. -/
def Pc.hasReturned : Pc → Bool
  | .ended (.ok _) => true
  | _ => false

theorem Pc.hasReturned_iff : pc.hasReturned = true ↔ ∃ result, pc = .ended (.ok result) := by
  unfold hasReturned
  split
  · exact iff_of_true rfl ⟨_, rfl⟩
  · rename_i hnot
    refine iff_of_false Bool.false_ne_true ?_
    rintro ⟨result, rfl⟩
    exact hnot result rfl

private theorem hasReturned_goto : ((s.goto i pc).calls i).hasReturned = pc.hasReturned := by
  rw [calls_goto]

private theorem hasReturned_throw (ex : BusException) :
    ((s.throw i ex).calls i).hasReturned = false := hasReturned_goto

theorem hasReturned_start (call : Call) : ((start s i call).calls i).hasReturned = false := by
  cases call with
  | teardown | unsubscribe => exact hasReturned_goto
  | send message =>
    simp only [start]
    split
    · exact hasReturned_throw _
    · split
      · exact hasReturned_throw _
      · exact hasReturned_goto
  | consume method =>
    simp only [start]
    split
    · exact hasReturned_throw _
    · exact hasReturned_goto

private theorem hasReturned_teardownReturn :
    ((teardownReturn s i (.connect config)).calls i).hasReturned = false := hasReturned_goto

private theorem hasReturned_teardownConnection :
    ((teardownConnection s i (.connect config)).calls i).hasReturned = false := by
  unfold teardownConnection
  split
  · exact hasReturned_teardownReturn
  · split
    all_goals exact hasReturned_goto

private theorem hasReturned_teardownLoop (rest : List ChannelId) :
    ((teardownLoop s i (.connect config) rest).calls i).hasReturned = false := by
  unfold teardownLoop
  split
  · split
    all_goals exact hasReturned_goto
  · exact hasReturned_teardownConnection

private theorem hasReturned_teardownDispose :
    ((teardownDispose s i (.connect config)).calls i).hasReturned = false := by
  unfold teardownDispose
  split
  · exact hasReturned_throw _
  · exact hasReturned_goto

/-- **A `ConnectAsync` that returns leaves a connection with the settings it was given.** -/
theorem connected_of_step (h : step s a = some t)
    (hwithin : (s.calls i).Within (.teardown (.connect config)))
    (hbefore : (s.calls i).hasReturned = false) (hreturned : (t.calls i).hasReturned = true) :
    ∃ c, t.connection = some c ∧ (t.connections c).factory = factoryOf config := by
  have hnot : (t.calls i).hasReturned ≠ false := by simp [hreturned]
  rcases calls_of_step (i := i) h with hsame | ⟨hidle, -⟩ | ⟨awaited, newGuid, -, hresume⟩
  · rw [hsame] at hnot
    exact absurd hbefore hnot
  · rw [hidle] at hwithin
    cases hwithin
  · generalize hcall : s.calls i = pc at hwithin
    cases hwithin <;> simp only [resume, hcall, resumeTeardown] at hresume
    case creatingConnection =>
      split at hresume <;> cases hresume
      · refine ⟨s.nextConnection, rfl, ?_⟩
        simp [State.return']
      all_goals exact absurd (hasReturned_throw _) hnot
    case ended => cases hresume
    case waitingToTearDown | closingChannel | disposingChannel | closingConnection
      | disposingConnection =>
      repeat' split at hresume
      all_goals cases hresume
      all_goals
        first
          | exact absurd (hasReturned_throw _) hnot
          | exact absurd (hasReturned_teardownLoop _) hnot
          | exact absurd hasReturned_teardownDispose hnot
          | exact absurd hasReturned_teardownReturn hnot
          | exact absurd hasReturned_goto hnot

end RabbitMqAdapter

end BusTester
