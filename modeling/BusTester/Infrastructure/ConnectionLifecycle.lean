import BusTester.Infrastructure.AdapterFrames

/-!
# Does the adapter orphan a connection?

`TeardownAsync` reads, closes, disposes and clears the connection field across several suspensions
and without a lock, and `ConnectAsync` assigns it after one more. A call that lets go of what the
field holds can therefore let go of a connection that another call has obtained in the meantime.

This file says when that happens. A connection is *kept* when the field holds it, when it has been
disposed, or when some call is about to dispose it. A write to the field loses a connection exactly
when the field holds one that nobody is about to dispose (`OverwritesNothing` excludes it), and a
connection once lost stays lost, because `TeardownAsync` finds connections through the field only.
So at rest, connections are orphaned in exactly the runs that contain such a write
(`noOrphan_iff`).
-/

namespace BusTester

namespace RabbitMqAdapter

open Transition

variable {ι : Type} {s t : State ι} {i : ι} {c : ConnectionId} {a : Label ι}

/-! ## The property and the condition -/

/-- Every connection ever obtained, other than the one the field holds, is closed and disposed. -/
def NoOrphan (s : State ι) : Prop :=
  ∀ c < s.nextConnection, s.connection ≠ some c →
    (s.connections c).isOpen = false ∧ (s.connections c).disposed = true

/-- The connection whose disposal is awaited. -/
def Pc.disposing : Pc → Option ConnectionId
  | .disposingConnection _ c => some c
  | _ => none

/-- Some call is suspended in the disposal of the connection. -/
def BeingDisposed (s : State ι) (c : ConnectionId) : Prop := ∃ i, (s.calls i).disposing = some c

/-- The awaited closes and disposals of `TeardownAsync`. -/
def Pc.releasing : Pc → Bool
  | .closingChannel _ _ _ | .disposingChannel _ _ _ | .closingConnection _ _
  | .disposingConnection _ _ => true
  | _ => false

/-- The suspensions after which a call that succeeds writes the connection field. -/
def Pc.writesConnection : Pc → Bool
  | .disposingConnection _ _ | .creatingConnection _ => true
  | _ => false

/-- This step is not the failure of a close or of a disposal. -/
def ClosesSucceed (s : State ι) : Label ι → Prop
  | .resume i (.failed _) _ => (s.calls i).releasing = false
  | _ => True

/-- If this step writes the connection field, then the field is empty or holds a connection that
some call, possibly this one, is about to dispose. -/
def OverwritesNothing (s : State ι) : Label ι → Prop
  | .resume i .completed _ =>
    (s.calls i).writesConnection = true → ∀ c, s.connection = some c → BeingDisposed s c
  | _ => True

instance (s : State ι) : Decidable (NoOrphan s) :=
  inferInstanceAs (Decidable (∀ c < s.nextConnection, s.connection ≠ some c → _))

instance [Fintype ι] (s : State ι) (c : ConnectionId) : Decidable (BeingDisposed s c) :=
  inferInstanceAs (Decidable (∃ i, (s.calls i).disposing = some c))

instance (s : State ι) : DecidablePred (ClosesSucceed s)
  | .resume i (.failed _) _ => inferInstanceAs (Decidable ((s.calls i).releasing = false))
  | .resume _ .completed _ | .resume _ (.declared _) _ | .start _ _ | .brokerConsumes _
  | .connectionLost _ | .channelLost _ => isTrue trivial

instance [Fintype ι] (s : State ι) : DecidablePred (OverwritesNothing s)
  | .resume i .completed _ => inferInstanceAs (Decidable
      ((s.calls i).writesConnection = true → ∀ c, s.connection = some c → BeingDisposed s c))
  | .resume _ (.failed _) _ | .resume _ (.declared _) _ | .start _ _ | .brokerConsumes _
  | .connectionLost _ | .channelLost _ => isTrue trivial

theorem disposing_eq_some {pc : Pc} :
    pc.disposing = some c ↔ ∃ caller, pc = .disposingConnection caller c := by
  cases pc <;> simp [Pc.disposing]

theorem Pc.Fits.of_disposing {pc : Pc} {connection : Option ConnectionId}
    (hfits : pc.Fits connection) (h : pc.disposing = some c) : connection = some c := by
  obtain ⟨caller, rfl⟩ := disposing_eq_some.mp h
  exact hfits

/-! ## The invariant of all runs -/

/-- What every reachable state satisfies. -/
structure Lifecycle (s : State ι) : Prop where
  /-- The field holds a connection that was obtained and has not been disposed. -/
  current : ∀ c, s.connection = some c → c < s.nextConnection ∧ (s.connections c).disposed = false
  closed : ∀ c, (s.connections c).disposed = true → (s.connections c).isOpen = false
  obtained : ∀ c, BeingDisposed s c → c < s.nextConnection

/-- A connection that is not lost. -/
def Kept (s : State ι) : Prop :=
  ∀ c < s.nextConnection,
    s.connection = some c ∨ (s.connections c).disposed = true ∨ BeingDisposed s c

theorem lifecycle_initial [Inhabited ι] : Lifecycle (State.initial : State ι) :=
  ⟨nofun, nofun, nofun⟩

/-- **At rest**, what is kept is what is not orphaned. -/
theorem noOrphan_iff_kept (h : Lifecycle s) (hidle : s.Quiescent) : NoOrphan s ↔ Kept s := by
  have hnone : ∀ c, ¬BeingDisposed s c := by
    rintro c ⟨i, hdisposing⟩
    obtain ⟨caller, hcall⟩ := disposing_eq_some.mp hdisposing
    have hrest := hidle i
    rw [hcall] at hrest
    cases hrest
  constructor
  · intro hno c hc
    by_cases hcurrent : s.connection = some c
    · exact Or.inl hcurrent
    · exact Or.inr (Or.inl (hno c hc hcurrent).2)
  · intro hkept c hc hcurrent
    rcases hkept c hc with hsome | hdisposed | hbeing
    · exact absurd hsome hcurrent
    · exact ⟨h.closed c hdisposed, hdisposed⟩
    · exact absurd hbeing (hnone c)

/-! ## Steps that leave the field alone -/

/-- A step that leaves the connection field and the disposals alone. -/
structure Undisturbed (s t : State ι) : Prop where
  connection : t.connection = s.connection
  nextConnection : t.nextConnection = s.nextConnection
  disposed : ∀ c, (t.connections c).disposed = (s.connections c).disposed
  closed : ∀ c, (s.connections c).isOpen = false → (t.connections c).isOpen = false
  stays : ∀ c, BeingDisposed s c → BeingDisposed t c
  enters : ∀ c, BeingDisposed t c → BeingDisposed s c ∨ s.connection = some c

namespace Undisturbed

theorem lifecycle (h : Undisturbed s t) (hs : Lifecycle s) : Lifecycle t where
  current c hc := by
    rw [h.connection] at hc
    rw [h.nextConnection, h.disposed]
    exact hs.current c hc
  closed c hc := by
    rw [h.disposed] at hc
    exact h.closed c (hs.closed c hc)
  obtained c hc := by
    rw [h.nextConnection]
    rcases h.enters c hc with hbeing | hcurrent
    · exact hs.obtained c hbeing
    · exact (hs.current c hcurrent).1

theorem kept_iff (h : Undisturbed s t) : Kept t ↔ Kept s := by
  unfold Kept
  rw [h.nextConnection, h.connection]
  refine forall₂_congr fun c hc ↦ ?_
  rw [h.disposed]
  constructor
  · rintro (hcurrent | hdisposed | hbeing)
    · exact Or.inl hcurrent
    · exact Or.inr (Or.inl hdisposed)
    · rcases h.enters c hbeing with hbeing | hcurrent
      · exact Or.inr (Or.inr hbeing)
      · exact Or.inl hcurrent
  · rintro (hcurrent | hdisposed | hbeing)
    · exact Or.inl hcurrent
    · exact Or.inr (Or.inl hdisposed)
    · exact Or.inr (Or.inr (h.stays c hbeing))

theorem of_wears (hconnection : t.connection = s.connection) (hwears : Wears s t)
    (hstays : ∀ c, BeingDisposed s c → BeingDisposed t c)
    (henters : ∀ c, BeingDisposed t c → BeingDisposed s c ∨ s.connection = some c) :
    Undisturbed s t :=
  ⟨hconnection, hwears.nextConnection, hwears.disposed, hwears.closed, hstays, henters⟩

end Undisturbed

/-! ## Steps that write the field -/

/-- What the end of a disposal of `c` by the call `i` leaves behind. -/
structure Disposed (s : State ι) (i : ι) (c : ConnectionId) (t : State ι) : Prop where
  call : (s.calls i).disposing = some c
  connection : t.connection = none
  nextConnection : t.nextConnection = s.nextConnection
  self : (t.connections c).disposed = true ∧ (t.connections c).isOpen = false
  others : ∀ c' ≠ c, t.connections c' = s.connections c'
  being : ∀ c', BeingDisposed t c' → BeingDisposed s c'
  stays : ∀ c' ≠ c, BeingDisposed s c' → BeingDisposed t c'

namespace Disposed

theorem lifecycle (h : Disposed s i c t) (hs : Lifecycle s) : Lifecycle t where
  current c' hc' := by
    rw [h.connection] at hc'
    cases hc'
  closed c' hc' := by
    by_cases heq : c' = c
    · rw [heq]
      exact h.self.2
    · rw [h.others c' heq] at hc' ⊢
      exact hs.closed c' hc'
  obtained c' hc' := by
    rw [h.nextConnection]
    exact hs.obtained c' (h.being c' hc')

theorem kept_iff (h : Disposed s i c t) (hs : Lifecycle s) :
    Kept t ↔ Kept s ∧ ∀ c', s.connection = some c' → BeingDisposed s c' := by
  have hbeing : BeingDisposed s c := ⟨i, h.call⟩
  constructor
  · intro hkept
    -- The field is empty now, so it keeps nothing.
    have hcases : ∀ c' < s.nextConnection,
        (s.connections c').disposed = true ∨ BeingDisposed s c' := by
      intro c' hc'
      by_cases heq : c' = c
      · rw [heq]
        exact Or.inr hbeing
      · rcases hkept c' (h.nextConnection ▸ hc') with hsome | hdisposed | ht
        · rw [h.connection] at hsome
          cases hsome
        · rw [h.others c' heq] at hdisposed
          exact Or.inl hdisposed
        · exact Or.inr (h.being c' ht)
    refine ⟨fun c' hc' ↦ Or.inr (hcases c' hc'), fun c' hc' ↦ ?_⟩
    obtain ⟨hlt, hfalse⟩ := hs.current c' hc'
    rcases hcases c' hlt with hdisposed | hs'
    · rw [hfalse] at hdisposed
      cases hdisposed
    · exact hs'
  · rintro ⟨hkept, hcondition⟩ c' hc'
    rw [h.nextConnection] at hc'
    by_cases heq : c' = c
    · rw [heq]
      exact Or.inr (Or.inl h.self.1)
    · rcases hkept c' hc' with hsome | hdisposed | hs'
      · exact Or.inr (Or.inr (h.stays c' heq (hcondition c' hsome)))
      · rw [← h.others c' heq] at hdisposed
        exact Or.inr (Or.inl hdisposed)
      · exact Or.inr (Or.inr (h.stays c' heq hs'))

end Disposed

/-- What the arrival of a new connection leaves behind. -/
structure Obtained (s t : State ι) : Prop where
  connection : t.connection = some s.nextConnection
  nextConnection : t.nextConnection = s.nextConnection + 1
  self : (t.connections s.nextConnection).disposed = false
  others : ∀ c ≠ s.nextConnection, t.connections c = s.connections c
  being : ∀ c, BeingDisposed t c ↔ BeingDisposed s c

namespace Obtained

theorem lifecycle (h : Obtained s t) (hs : Lifecycle s) : Lifecycle t where
  current c hc := by
    rw [h.connection] at hc
    cases hc
    rw [h.nextConnection]
    exact ⟨Nat.lt_succ_self _, h.self⟩
  closed c hc := by
    by_cases heq : c = s.nextConnection
    · rw [heq, h.self] at hc
      cases hc
    · rw [h.others c heq] at hc ⊢
      exact hs.closed c hc
  obtained c hc := by
    have hlt := hs.obtained c ((h.being c).mp hc)
    rw [h.nextConnection]
    exact Nat.lt_succ_of_lt hlt

theorem kept_iff (h : Obtained s t) (hs : Lifecycle s) :
    Kept t ↔ Kept s ∧ ∀ c, s.connection = some c → BeingDisposed s c := by
  have hold : ∀ c < s.nextConnection, t.connection ≠ some c ∧
      (t.connections c).disposed = (s.connections c).disposed := by
    intro c hc
    rw [h.others c hc.ne, h.connection]
    exact ⟨fun heq ↦ hc.ne' (Option.some.inj heq), rfl⟩
  constructor
  · intro hkept
    -- The field holds the new connection now, so it keeps none of the others.
    have hcases : ∀ c < s.nextConnection,
        (s.connections c).disposed = true ∨ BeingDisposed s c := by
      intro c hc
      rcases hkept c (h.nextConnection ▸ Nat.lt_succ_of_lt hc) with hsome | hdisposed | ht
      · exact absurd hsome (hold c hc).1
      · exact Or.inl ((hold c hc).2 ▸ hdisposed)
      · exact Or.inr ((h.being c).mp ht)
    refine ⟨fun c hc ↦ Or.inr (hcases c hc), fun c hc ↦ ?_⟩
    obtain ⟨hlt, hfalse⟩ := hs.current c hc
    rcases hcases c hlt with hdisposed | hbeing
    · rw [hfalse] at hdisposed
      cases hdisposed
    · exact hbeing
  · rintro ⟨hkept, hcondition⟩ c hc
    rw [h.nextConnection] at hc
    rcases Nat.lt_succ_iff_lt_or_eq.mp hc with hlt | rfl
    · rcases hkept c hlt with hsome | hdisposed | hbeing
      · exact Or.inr (Or.inr ((h.being c).mpr (hcondition c hsome)))
      · exact Or.inr (Or.inl ((hold c hlt).2.trans hdisposed))
      · exact Or.inr (Or.inr ((h.being c).mpr hbeing))
    · exact Or.inl h.connection

end Obtained

/-! ## Every step is one of the three -/

theorem overwritesNothing_of_not_writes {awaited : Awaited} {newGuid : Guid}
    (hfailed : (s.calls i).writes = true → ∃ failure, awaited = .failed failure) :
    OverwritesNothing s (.resume i awaited newGuid) := by
  have hwrites : (s.calls i).writesConnection = true → (s.calls i).writes = true := by
    cases s.calls i <;> simp [Pc.writesConnection, Pc.writes]
  cases awaited with
  | completed =>
    intro h
    obtain ⟨failure, hawaited⟩ := hfailed (hwrites h)
    cases hawaited
  | declared queueName => trivial
  | failed failure => trivial

variable [DecidableEq ι]

theorem beingDisposed_goto {pc' : Pc} (h : BeingDisposed (s.goto i pc') c) :
    BeingDisposed s c ∨ pc'.disposing = some c := by
  obtain ⟨j, hdisposing⟩ := h
  rw [State.goto_calls] at hdisposing
  by_cases hj : j = i
  · rw [hj, Function.update_self] at hdisposing
    exact Or.inr hdisposing
  · rw [Function.update_of_ne hj] at hdisposing
    exact Or.inl ⟨j, hdisposing⟩

theorem BeingDisposed.goto {pc' : Pc} (h : BeingDisposed s c)
    (hne : (s.calls i).disposing ≠ some c) : BeingDisposed (s.goto i pc') c := by
  obtain ⟨j, hdisposing⟩ := h
  have hj : j ≠ i := by
    rintro rfl
    exact hne hdisposing
  exact ⟨j, by rwa [State.goto_calls, Function.update_of_ne hj]⟩

theorem Frame.undisturbed (h : Frame s i (s.calls i) t) (hnone : (s.calls i).disposing = none) :
    Undisturbed s t := by
  obtain ⟨pc', hcalls, -, hfits, -⟩ := h.calls
  have hgoto : ∀ c, BeingDisposed t c ↔ BeingDisposed (s.goto i pc') c := by
    intro c
    rw [BeingDisposed, BeingDisposed, State.goto_calls, hcalls]
  refine .of_wears h.connection h.wears (fun c hbeing ↦ ?_) fun c hbeing ↦ ?_
  · rw [hgoto]
    exact hbeing.goto (by simp [hnone])
  · rw [hgoto] at hbeing
    exact (beingDisposed_goto hbeing).imp_right hfits.of_disposing

/-- Under `ClosesSucceed`, a step writes the connection field or leaves it alone. -/
theorem undisturbed_or_writes (hcloses : ClosesSucceed s a) (h : step s a = some t) :
    (Undisturbed s t ∧ OverwritesNothing s a) ∨
      ∃ i newGuid, a = .resume i .completed newGuid ∧
        (Disposes s i .completed (s.calls i) t ∨ Connects s i .completed (s.calls i) t) := by
  cases step_cases h with
  | starts i call pc' ha hidle ht hbare hteardown =>
    subst ha ht
    refine Or.inl
      ⟨.of_wears rfl (Wears.goto s i pc') (fun c hbeing ↦ ?_) fun c hbeing ↦ ?_, trivial⟩
    · exact hbeing.goto (by simp [hidle, Pc.disposing])
    · exact (beingDisposed_goto hbeing).imp_right hbare.fits.of_disposing
  | moves i awaited newGuid ha hframe hentries hflight hfailed =>
    subst ha
    refine Or.inl ⟨hframe.undisturbed ?_, overwritesNothing_of_not_writes hfailed⟩
    by_contra hdisposing
    obtain ⟨c, hc⟩ := Option.ne_none_iff_exists'.mp hdisposing
    obtain ⟨caller, hcall⟩ := disposing_eq_some.mp hc
    obtain ⟨failure, rfl⟩ := hfailed (by rw [hcall]; rfl)
    rw [ClosesSucceed, hcall] at hcloses
    cases hcloses
  | registers i awaited newGuid ha hframe hregisters =>
    subst ha
    obtain ⟨method, queueName, ch, handle, hpc, rfl, -⟩ := hregisters
    refine Or.inl ⟨hframe.undisturbed (by rw [hpc]; rfl), ?_⟩
    rw [OverwritesNothing, hpc]
    exact nofun
  | disposes i awaited newGuid ha hdisposes =>
    obtain ⟨caller, c, hpc, rfl, ht⟩ := hdisposes
    exact Or.inr ⟨i, newGuid, ha, Or.inl ⟨caller, c, hpc, rfl, ht⟩⟩
  | connects i awaited newGuid ha hconnects =>
    obtain ⟨config, hpc, rfl, ht⟩ := hconnects
    exact Or.inr ⟨i, newGuid, ha, Or.inr ⟨config, hpc, rfl, ht⟩⟩
  | environment ha hquiet hentries =>
    refine Or.inl ⟨.of_wears hquiet.connection hquiet.wears (fun c hbeing ↦ ?_) fun c hbeing ↦
      Or.inl ?_, ?_⟩
    · rwa [BeingDisposed, hquiet.calls]
    · rwa [BeingDisposed, hquiet.calls] at hbeing
    · unfold OverwritesNothing
      split
      · exact absurd rfl (ha _ _ _)
      · trivial

theorem disposed_of_disposes (h : Disposes s i .completed (s.calls i) t) :
    ∃ c, Disposed s i c t := by
  obtain ⟨caller, c, hpc, -, rfl⟩ := h
  have hcall : (s.calls i).disposing = some c := by rw [hpc]; rfl
  obtain ⟨pc', hgoto, hbare⟩ := exists_goto_teardownReturn
    (s := { s.disposeConnection c with connection := none }) i caller rfl
  refine ⟨c, hcall, ?_, ?_, ?_, ?_, ?_, ?_⟩ <;> rw [hgoto]
  · rfl
  · rfl
  · simp
  · intro c' hc'
    simp [Function.update_of_ne hc']
  · intro c' hbeing
    rcases beingDisposed_goto hbeing with hs | hdisposing
    · exact hs
    · cases hbare.fits.of_disposing hdisposing
  · intro c' hc' hbeing
    have hs : BeingDisposed { s.disposeConnection c with connection := none } c' := hbeing
    refine hs.goto fun hdisposing ↦ hc' ?_
    exact Option.some.inj (hdisposing.symm.trans hcall)

theorem obtained_of_connects (h : Connects s i .completed (s.calls i) t) : Obtained s t := by
  obtain ⟨config, hpc, -, rfl⟩ := h
  refine ⟨rfl, rfl, by simp [State.return'], ?_, fun c ↦ ⟨fun hbeing ↦ ?_, fun hbeing ↦ ?_⟩⟩
  · intro c hc
    simp [State.return', Function.update_of_ne hc]
  · rcases beingDisposed_goto hbeing with hs | hended
    · exact hs
    · cases hended
  · have hs : BeingDisposed (s.connected (factoryOf config)) c := hbeing
    have hcall : (s.calls i).disposing = none := by rw [hpc]; rfl
    exact hs.goto (by simp [hcall])

/-- **The step lemma.** The lifecycle is kept, and connections stay kept exactly if the step
overwrites nothing. -/
theorem lifecycle_step (hcloses : ClosesSucceed s a) (hs : Lifecycle s) (h : step s a = some t) :
    Lifecycle t ∧ (Kept t ↔ Kept s ∧ OverwritesNothing s a) := by
  rcases undisturbed_or_writes hcloses h with ⟨hundisturbed, hnothing⟩ | ⟨i, newGuid, rfl, hwrites⟩
  · refine ⟨hundisturbed.lifecycle hs, ?_⟩
    rw [hundisturbed.kept_iff]
    exact ⟨fun hkept ↦ ⟨hkept, hnothing⟩, And.left⟩
  · rcases hwrites with hdisposes | hconnects
    · obtain ⟨c, hdisposed⟩ := disposed_of_disposes hdisposes
      obtain ⟨caller, hcall⟩ := disposing_eq_some.mp hdisposed.call
      refine ⟨hdisposed.lifecycle hs, ?_⟩
      rw [hdisposed.kept_iff hs, OverwritesNothing, hcall]
      exact and_congr_right' ⟨fun h _ ↦ h, fun h ↦ h rfl⟩
    · have hobtained := obtained_of_connects hconnects
      obtain ⟨config, hcall, -⟩ := hconnects
      refine ⟨hobtained.lifecycle hs, ?_⟩
      rw [hobtained.kept_iff hs, OverwritesNothing, hcall]
      exact and_congr_right' ⟨fun h _ ↦ h, fun h ↦ h rfl⟩

/-- **At rest, connections are orphaned in exactly the runs that overwrite one.** -/
theorem noOrphan_iff [Inhabited ι] {as : List (Label ι)}
    (hcloses : Guarded step ClosesSucceed State.initial as)
    (hrun : run step State.initial as = some t) (hidle : t.Quiescent) :
    NoOrphan t ↔ Guarded step OverwritesNothing State.initial as := by
  have hdichotomy := guarded_dichotomy (P := fun s : State ι ↦ Lifecycle s ∧ Kept s)
    (B := fun s ↦ Lifecycle s ∧ ¬Kept s) (C := OverwritesNothing)
    ⟨lifecycle_initial, fun c hc ↦ absurd hc (Nat.not_lt_zero c)⟩ ?_ ?_ ?_ hcloses hrun
  · rcases hdichotomy with ⟨hguard, hlife, hkept⟩ | ⟨hguard, hlife, hlost⟩
    · rw [noOrphan_iff_kept hlife hidle]
      exact iff_of_true hkept hguard
    · rw [noOrphan_iff_kept hlife hidle]
      exact iff_of_false hlost hguard
  · rintro s a u hcloses hcondition ⟨hlife, hkept⟩ hstep
    obtain ⟨hlife', hiff⟩ := lifecycle_step hcloses hlife hstep
    exact ⟨hlife', hiff.mpr ⟨hkept, hcondition⟩⟩
  · rintro s a u hcloses hcondition ⟨hlife, -⟩ hstep
    obtain ⟨hlife', hiff⟩ := lifecycle_step hcloses hlife hstep
    exact ⟨hlife', fun hkept ↦ hcondition (hiff.mp hkept).2⟩
  · rintro s a u hcloses ⟨hlife, hlost⟩ hstep
    obtain ⟨hlife', hiff⟩ := lifecycle_step hcloses hlife hstep
    exact ⟨hlife', fun hkept ↦ hlost (hiff.mp hkept).1⟩

/-! ## Reconnecting, and connecting twice at once -/

/-- `ConnectAsync` on an idle adapter, then again once the first call has returned. -/
def reconnect : List (Label Bool) :=
  [.start false (.teardown (.connect .localhost)), .succeed false, .succeed false,
    .start true (.teardown (.connect .localhost)), .succeed true, .succeed true, .succeed true,
    .succeed true]

/-- Two calls of `ConnectAsync` that both find nothing to tear down. -/
def overlappingConnects : List (Label Bool) :=
  [.start false (.teardown (.connect .localhost)), .start true (.teardown (.connect .localhost)),
    .succeed false, .succeed true, .succeed false, .succeed true]

theorem noOrphan_of_reconnect :
    ∃ t, run step State.initial reconnect = some t ∧ t.nextConnection = 2 ∧ NoOrphan t := by
  have hcloses : Guarded step ClosesSucceed State.initial reconnect := by decide
  refine ⟨_, rfl, rfl, (noOrphan_iff hcloses rfl (by decide)).mpr ?_⟩
  decide

/-- The connection of the first call is neither closed nor disposed when both have returned. -/
theorem not_noOrphan_of_overlappingConnects :
    ∃ t, Guarded step ClosesSucceed State.initial overlappingConnects ∧
      run step State.initial overlappingConnects = some t ∧ t.Quiescent ∧ ¬NoOrphan t :=
  ⟨_, by decide, rfl, by decide, by decide⟩

end RabbitMqAdapter

end BusTester
