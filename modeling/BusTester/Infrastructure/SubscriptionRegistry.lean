import BusTester.Infrastructure.ChannelOwnership
import BusTester.Infrastructure.ConnectionLifecycle
import Mathlib.Data.Fintype.Basic

/-!
# Does the registry belong to the current connection?

`TeardownAsync` empties the dictionary under the semaphore and releases it before it closes the
connection. A call that consumes captured the connection several suspensions before it registers its
channel. So a channel can be registered while its connection is being closed, or after it has been
replaced. The runs considered are those in which at most one call is in a teardown at a time
(`OneAtATime`).

`currentRegistry_iff` says that the dictionary agrees with the connection field all along a run
exactly if every step keeps it so: no channel is registered when the field does not hold its
connection, and the field is not cleared while the dictionary is not empty.

The same discipline answers the question of `ConnectionLifecycle`: calls that do not overlap
overwrite nothing (`overwritesNothing_of_oneAtATime`).
-/

namespace BusTester

namespace RabbitMqAdapter

open Transition

variable {ι : Type} {s t : State ι} {i j : ι} {ch : ChannelId} {a : Label ι}

/-! ## The property and the condition -/

/-- Every channel in the dictionary is on the connection that the field holds. -/
def CurrentRegistry (s : State ι) : Prop :=
  ∀ entry ∈ s.subscriptionChannels, s.connection = some (s.channels entry.2).connection

/-- No call of `ConnectAsync` or `DisconnectAsync` starts while another one is in flight. -/
def OneAtATime (s : State ι) : Label ι → Prop
  | .start _ (.teardown _) => ∀ j, (s.calls j).inTeardown = false
  | _ => True

/-- What keeps the registry current when the operation awaited at `pc` completes: a channel is
registered while the field holds its connection, and the field is cleared while the dictionary is
empty. -/
def KeepsRegistryAt (s : State ι) : Pc → Prop
  | .waitingToRegister _ _ ch _ => s.connection = some (s.channels ch).connection
  | .disposingConnection _ _ => s.subscriptionChannels = []
  | _ => True

/-- The step keeps the registry current. -/
def KeepsRegistry (s : State ι) : Label ι → Prop
  | .resume i .completed _ => KeepsRegistryAt s (s.calls i)
  | _ => True

/-! ## One teardown at a time -/

/-- At most one call is in a teardown, and it agrees with the connection field. -/
structure SingleTeardown (s : State ι) : Prop where
  single : ∀ i j, (s.calls i).inTeardown = true → (s.calls j).inTeardown = true → i = j
  fits : ∀ i, (s.calls i).Fits s.connection

theorem singleTeardown_initial [Inhabited ι] : SingleTeardown (State.initial : State ι) :=
  ⟨nofun, fun _ ↦ trivial⟩

theorem fits_of_not_inTeardown {pc : Pc} {connection : Option ConnectionId}
    (h : pc.inTeardown = false) : pc.Fits connection := by
  cases pc <;> trivial

theorem SingleTeardown.others (hs : SingleTeardown s) (hi : (s.calls i).inTeardown = true) :
    ∀ j ≠ i, (s.calls j).inTeardown = false := by
  intro j hj
  by_contra hteardown
  exact hj (hs.single j i (Bool.not_eq_false _ ▸ hteardown) hi)

section Preservation

variable [DecidableEq ι]

theorem SingleTeardown.update {pc' : Pc} (hs : SingleTeardown s)
    (hcalls : t.calls = Function.update s.calls i pc')
    (hsingle : pc'.inTeardown = true → ∀ j ≠ i, (s.calls j).inTeardown = false)
    (hfits : pc'.Fits t.connection)
    (hothers : ∀ j ≠ i, (s.calls j).Fits t.connection) : SingleTeardown t := by
  have hself : t.calls i = pc' := by rw [hcalls, Function.update_self]
  have hne : ∀ j ≠ i, t.calls j = s.calls j := fun j hj ↦ by rw [hcalls, Function.update_of_ne hj]
  constructor
  · intro j k hj hk
    by_cases hji : j = i
    · by_cases hki : k = i
      · rw [hji, hki]
      · rw [hne k hki] at hk
        rw [hji, hself] at hj
        rw [hsingle hj k hki] at hk
        cases hk
    · rw [hne j hji] at hj
      by_cases hki : k = i
      · rw [hki, hself] at hk
        rw [hsingle hk j hji] at hj
        cases hj
      · rw [hne k hki] at hk
        exact hs.single j k hj hk
  · intro j
    by_cases hji : j = i
    · rw [hji, hself]
      exact hfits
    · rw [hne j hji]
      exact hothers j hji

theorem Frame.singleTeardown (h : Frame s i (s.calls i) t) (hs : SingleTeardown s) :
    SingleTeardown t := by
  obtain ⟨pc', hcalls, hteardown, hfits, -⟩ := h.calls
  refine hs.update hcalls (fun hpc' ↦ hs.others (hteardown hpc')) ?_ fun j _ ↦ ?_
  · rw [h.connection]
    exact hfits
  · rw [h.connection]
    exact hs.fits j

theorem singleTeardown_step (hone : OneAtATime s a) (hs : SingleTeardown s)
    (h : step s a = some t) : SingleTeardown t := by
  cases step_cases h with
  | starts i call pc' ha hidle ht hbare hteardown =>
    subst ha ht
    refine hs.update rfl (fun hpc' j _ ↦ ?_) hbare.fits fun j _ ↦ hs.fits j
    obtain ⟨caller, rfl⟩ := hteardown hpc'
    exact hone j
  | moves i awaited newGuid ha hframe hentries hflight hfailed => exact hframe.singleTeardown hs
  | registers i awaited newGuid ha hframe hregisters => exact hframe.singleTeardown hs
  | disposes i awaited newGuid ha hdisposes =>
    obtain ⟨caller, c, hpc, -, ht⟩ := hdisposes
    obtain ⟨pc', hgoto, hbare⟩ := exists_goto_teardownReturn
      (s := { s.disposeConnection c with connection := none }) i caller rfl
    have hothers := hs.others (i := i) (by rw [hpc]; rfl)
    rw [hgoto] at ht
    subst ht
    refine hs.update rfl (fun _ ↦ hothers) hbare.fits fun j hj ↦ ?_
    exact fits_of_not_inTeardown (hothers j hj)
  | connects i awaited newGuid ha hconnects =>
    obtain ⟨config, hpc, -, rfl⟩ := hconnects
    have hothers := hs.others (i := i) (by rw [hpc]; rfl)
    refine hs.update rfl (fun _ ↦ hothers) trivial fun j hj ↦ ?_
    exact fits_of_not_inTeardown (hothers j hj)
  | environment ha hquiet hentries =>
    constructor
    · rw [hquiet.calls]
      exact hs.single
    · rw [hquiet.calls, hquiet.connection]
      exact hs.fits

end Preservation

/-! ## The registry -/

/-- The invariant of the runs that keep the registry. -/
structure RegistryInvariant (s : State ι) : Prop where
  owned : Owned s
  teardown : SingleTeardown s
  /-- The channels in the dictionary have been opened. -/
  known : ∀ entry ∈ s.subscriptionChannels, entry.2 < s.nextChannel
  current : CurrentRegistry s

theorem CurrentRegistry.of_wears (hs : CurrentRegistry s)
    (hknown : ∀ entry ∈ s.subscriptionChannels, entry.2 < s.nextChannel)
    (hconnection : t.connection = s.connection) (hwears : Wears s t)
    (hentries : t.subscriptionChannels ⊆ s.subscriptionChannels) : CurrentRegistry t := by
  intro entry hentry
  have hold := hentries hentry
  rw [hconnection, (hwears.owner entry.2 (hknown entry hold)).1]
  exact hs entry hold

theorem CurrentRegistry.eq_nil (hs : CurrentRegistry s) (hnone : s.connection = none) :
    s.subscriptionChannels = [] := by
  refine List.eq_nil_iff_forall_not_mem.mpr fun entry hentry ↦ ?_
  have hcurrent := hs entry hentry
  rw [hnone] at hcurrent
  cases hcurrent

theorem currentRegistry_of_nil (hnil : t.subscriptionChannels = []) : CurrentRegistry t := by
  intro entry hentry
  rw [hnil] at hentry
  cases hentry

theorem keepsRegistry_of_not_writes {awaited : Awaited} {newGuid : Guid}
    (hfailed : (s.calls i).writes = true → ∃ failure, awaited = .failed failure) :
    KeepsRegistry s (.resume i awaited newGuid) := by
  have hkeeps : ∀ pc : Pc, pc.writes = false → KeepsRegistryAt s pc := by
    intro pc hwrites
    cases pc <;> trivial
  cases awaited with
  | completed =>
    apply hkeeps
    by_contra hwrites
    obtain ⟨failure, hawaited⟩ := hfailed (Bool.not_eq_false _ ▸ hwrites)
    cases hawaited
  | declared queueName => trivial
  | failed failure => trivial

variable [DecidableEq ι]

private theorem registry_step (hkeeps : KeepsRegistry s a) (hs : RegistryInvariant s)
    (h : step s a = some t) :
    (∀ entry ∈ t.subscriptionChannels, entry.2 < t.nextChannel) ∧ CurrentRegistry t := by
  have hquiet : t.connection = s.connection → Wears s t →
      t.subscriptionChannels ⊆ s.subscriptionChannels →
      (∀ entry ∈ t.subscriptionChannels, entry.2 < t.nextChannel) ∧ CurrentRegistry t := by
    intro hconnection hwears hentries
    refine ⟨fun entry hentry ↦ ?_, hs.current.of_wears hs.known hconnection hwears hentries⟩
    exact (hs.known entry (hentries hentry)).trans_le hwears.nextChannel
  have hempty : t.subscriptionChannels = [] →
      (∀ entry ∈ t.subscriptionChannels, entry.2 < t.nextChannel) ∧ CurrentRegistry t := by
    intro hnil
    refine ⟨fun entry hentry ↦ ?_, currentRegistry_of_nil hnil⟩
    rw [hnil] at hentry
    cases hentry
  cases step_cases h with
  | starts i call pc' ha hidle ht hbare hteardown =>
    subst ht
    exact hquiet rfl (Wears.goto s i pc') (List.Subset.refl _)
  | moves i awaited newGuid ha hframe hentries hflight hfailed =>
    exact hquiet hframe.connection hframe.wears hentries
  | registers i awaited newGuid ha hframe hregisters =>
    obtain ⟨method, queueName, ch, handle, hpc, rfl, ht⟩ := hregisters
    have hch : ch < s.nextChannel := (hs.owned.opened i ch (by rw [hpc]; rfl)).1
    have hcurrent : s.connection = some (s.channels ch).connection := by
      rwa [ha, KeepsRegistry, hpc] at hkeeps
    have hmem : ∀ entry ∈ t.subscriptionChannels,
        entry ∈ s.subscriptionChannels ∨ entry = (handle, ch) := by
      intro entry hentry
      rw [ht] at hentry
      simpa [State.return'] using hentry
    constructor
    · intro entry hentry
      rw [ht]
      rcases hmem entry hentry with hold | rfl
      · exact hs.known entry hold
      · exact hch
    · intro entry hentry
      rw [ht]
      rcases hmem entry hentry with hold | rfl
      · exact hs.current entry hold
      · exact hcurrent
  | disposes i awaited newGuid ha hdisposes =>
    obtain ⟨caller, c, hpc, rfl, ht⟩ := hdisposes
    obtain ⟨pc', hgoto, -⟩ := exists_goto_teardownReturn
      (s := { s.disposeConnection c with connection := none }) i caller rfl
    have hnil : s.subscriptionChannels = [] := by rwa [ha, KeepsRegistry, hpc] at hkeeps
    refine hempty ?_
    rw [ht, hgoto]
    exact hnil
  | connects i awaited newGuid ha hconnects =>
    obtain ⟨config, hpc, -, rfl⟩ := hconnects
    have hnone : s.connection = none := by
      have hfits := hs.teardown.fits i
      rwa [hpc] at hfits
    exact hempty (hs.current.eq_nil hnone)
  | environment ha hunmoved hentries =>
    exact hquiet hunmoved.connection hunmoved.wears fun _ h ↦ hentries ▸ h

/-- **The step lemma.** -/
theorem registryInvariant_step (hone : OneAtATime s a) (hkeeps : KeepsRegistry s a)
    (hs : RegistryInvariant s) (h : step s a = some t) : RegistryInvariant t := by
  obtain ⟨hknown, hcurrent⟩ := registry_step hkeeps hs h
  exact ⟨owned_step hs.owned h, singleTeardown_step hone hs.teardown h, hknown, hcurrent⟩

/-- A step that does not keep the registry shows at once. -/
theorem not_currentRegistry_step (hbreaks : ¬KeepsRegistry s a) (h : step s a = some t) :
    ¬CurrentRegistry t := by
  intro hcurrent
  apply hbreaks
  cases step_cases h with
  | starts i call pc' ha hidle ht hbare hteardown =>
    subst ha
    trivial
  | moves i awaited newGuid ha hframe hentries hflight hfailed =>
    subst ha
    exact keepsRegistry_of_not_writes hfailed
  | registers i awaited newGuid ha hframe hregisters =>
    obtain ⟨method, queueName, ch, handle, hpc, rfl, ht⟩ := hregisters
    rw [ha, KeepsRegistry, hpc]
    have hentry := hcurrent (handle, ch) (by rw [ht]; simp [State.return'])
    rwa [ht] at hentry
  | disposes i awaited newGuid ha hdisposes =>
    obtain ⟨caller, c, hpc, rfl, ht⟩ := hdisposes
    obtain ⟨pc', hgoto, -⟩ := exists_goto_teardownReturn
      (s := { s.disposeConnection c with connection := none }) i caller rfl
    rw [hgoto] at ht
    rw [ha, KeepsRegistry, hpc]
    have hnil := hcurrent.eq_nil (by rw [ht]; rfl)
    rwa [ht] at hnil
  | connects i awaited newGuid ha hconnects =>
    obtain ⟨config, hpc, rfl, -⟩ := hconnects
    rw [ha, KeepsRegistry, hpc]
    trivial
  | environment ha hquiet hentries =>
    rw [KeepsRegistry.eq_def]
    split
    · exact absurd rfl (ha _ _ _)
    · trivial

/-- **The registry belongs to the current connection in exactly the runs whose steps keep it so**,
and then it does in particular whenever no call is in flight. -/
theorem currentRegistry_iff [Inhabited ι] {as : List (Label ι)}
    (hone : Guarded step OneAtATime State.initial as)
    (hrun : run step State.initial as = some t) :
    (Guarded step KeepsRegistry State.initial as →
        Along step (fun s ↦ s.Quiescent → CurrentRegistry s) State.initial as) ∧
      (Along step CurrentRegistry State.initial as ↔
        Guarded step KeepsRegistry State.initial as) := by
  have hinitial : RegistryInvariant (State.initial : State ι) :=
    ⟨owned_initial, singleTeardown_initial, nofun, nofun⟩
  have hiff : Along step CurrentRegistry State.initial as ↔
      Guarded step KeepsRegistry State.initial as :=
    along_iff_guarded hinitial
      (fun _ _ _ hone hkeeps hs hstep ↦ registryInvariant_step hone hkeeps hs hstep)
      (fun _ _ _ _ hbreaks _ hstep ↦ not_currentRegistry_step hbreaks hstep)
      (fun _ hs ↦ hs.current) hone hrun
  exact ⟨fun hkeeps pre u hpre hu _ ↦ hiff.mpr hkeeps pre u hpre hu, hiff⟩

/-- **Calls that do not overlap overwrite nothing**: with one teardown at a time, the field is empty
when a connection arrives, and holds the disposed connection when it is cleared. -/
theorem overwritesNothing_of_oneAtATime [Inhabited ι] {as : List (Label ι)}
    (hone : Guarded step OneAtATime State.initial as) :
    Guarded step OverwritesNothing (State.initial : State ι) as := by
  refine Guarded.of_invariant singleTeardown_initial
    (fun _ _ _ hs hone hstep ↦ singleTeardown_step hone hs hstep) ?_ hone
  intro s a hs _
  cases a with
  | resume i awaited newGuid =>
    cases awaited with
    | completed =>
      intro hwrites c hc
      have hfits := hs.fits i
      cases hcall : s.calls i with
      | disposingConnection caller c' =>
        rw [hcall] at hfits
        obtain rfl : c' = c := Option.some.inj (hfits.symm.trans hc)
        exact ⟨i, by rw [hcall]; rfl⟩
      | creatingConnection config =>
        rw [hcall] at hfits
        cases hfits.symm.trans hc
      | _ =>
        rw [hcall] at hwrites
        cases hwrites
    | _ => trivial
  | _ => trivial

/-! ## A subscription that outlives its connection -/

instance (s : State ι) : Decidable (CurrentRegistry s) :=
  inferInstanceAs (Decidable (∀ entry ∈ s.subscriptionChannels, _))

instance [Fintype ι] (s : State ι) : DecidablePred (OneAtATime s)
  | .start _ (.teardown _) => inferInstanceAs (Decidable (∀ j, (s.calls j).inTeardown = false))
  | .start _ (.send _) | .start _ (.consume _) | .start _ (.unsubscribe _) | .resume _ _ _
  | .brokerConsumes _ | .connectionLost _ | .channelLost _ => isTrue trivial

instance (s : State ι) : DecidablePred (KeepsRegistryAt s) := fun pc ↦
  match pc with
  | .waitingToRegister _ _ ch _ =>
    inferInstanceAs (Decidable (s.connection = some (s.channels ch).connection))
  | .disposingConnection _ _ => inferInstanceAs (Decidable (s.subscriptionChannels = []))
  | .idle | .waitingToTearDown _ | .closingChannel _ _ _ | .disposingChannel _ _ _
  | .closingConnection _ _ | .creatingConnection _ | .openingToSend _ _ | .declaringExchange _ _
  | .publishing _ _ | .disposingAfterSend _ _ _ | .openingToConsume _ _ | .declaringQueue _
  | .consuming _ _ _ | .waitingToUnsubscribe _ | .closingUnsubscribed _ | .disposingUnsubscribed _
  | .ended _ => isTrue trivial

instance (s : State ι) : DecidablePred (KeepsRegistry s)
  | .resume i .completed _ => inferInstanceAs (Decidable (KeepsRegistryAt s (s.calls i)))
  | .resume _ (.failed _) _ | .resume _ (.declared _) _ | .start _ _ | .brokerConsumes _
  | .connectionLost _ | .channelLost _ => isTrue trivial

/-- The call `0` connects; the call `1` has started a consumer and waits to register its channel. -/
private def consumerStarted : List (Label (Fin 3)) :=
  [.start 0 (.teardown (.connect .localhost)), .succeed 0, .succeed 0,
    .start 1 (.consume (.subscribe (Utf16.ofString "orders"))), .succeed 1, .brokerConsumes 0,
    .resume 1 .completed ⟨7⟩]

/-- The call `1` registers its channel, then the call `2` connects again. -/
private def registeredBefore : List (Label (Fin 3)) :=
  consumerStarted ++ [.succeed 1, .start 2 (.teardown (.connect .localhost)), .succeed 2,
    .succeed 2, .succeed 2, .succeed 2, .succeed 2, .succeed 2]

/-- The call `2` connects again, and the call `1` registers its channel when the dictionary has
already been emptied. -/
private def registeredDuring : List (Label (Fin 3)) :=
  consumerStarted ++ [.start 2 (.teardown (.connect .localhost)), .succeed 2, .succeed 1,
    .succeed 2, .succeed 2, .succeed 2]

theorem currentRegistry_of_registered_before :
    ∃ t, run step State.initial registeredBefore = some t ∧ t.connection = some 1 ∧
      CurrentRegistry t := by
  have hone : Guarded step OneAtATime State.initial registeredBefore := by decide
  have hkeeps : Guarded step KeepsRegistry State.initial registeredBefore := by decide
  have hrun : run step State.initial registeredBefore = some _ := rfl
  exact ⟨_, hrun, rfl, (currentRegistry_iff hone hrun).1 hkeeps _ _ (List.prefix_refl _) hrun
    (by decide)⟩

/-- The handle that the call `1` returned is backed by a channel of the connection torn down. -/
theorem not_currentRegistry_of_registered_during :
    ∃ t, Guarded step OneAtATime State.initial registeredDuring ∧
      run step State.initial registeredDuring = some t ∧ t.Quiescent ∧ t.connection = some 1 ∧
      t.calls 1 = .ended (.ok (.subscribed ⟨⟨7⟩⟩)) ∧ t.subscriptionChannels = [(⟨⟨7⟩⟩, 0)] ∧
      (t.channels 0).connection = 0 ∧ ¬CurrentRegistry t :=
  ⟨_, by decide, rfl, by decide, rfl, rfl, rfl, rfl, by decide⟩

end RabbitMqAdapter

end BusTester
