import BusTester.Transition.Run

/-!
# From the runs of one system to the runs of another

A system is often built over another one. Each of its steps is then a step of the system below, or
leaves it alone (`Projects`), and so a run above gives a run below: `run_observed`, with
`guarded_observed` for the conditions on its steps.

Where a step above is a sequence of steps below, and the states are related rather than mapped, the
same holds of a simulation (`exists_run_of_simulates`), and of what is observed of either run.
-/

namespace Transition

variable {σ α τ β γ : Type*} {step : Step σ α} {step' : Step τ β} {proj : σ → τ}
  {f : σ → α → Option β} {s t : σ} {as : List α}

/-! ## Projections -/

/-- The step of the one system is the step of the other that `f` sees in it, or none. -/
def Projects (step : Step σ α) (step' : Step τ β) (proj : σ → τ) (f : σ → α → Option β) : Prop :=
  ∀ {s a t}, step s a = some t →
    (f s a = none ∧ proj t = proj s) ∨ ∃ b, f s a = some b ∧ step' (proj s) b = some (proj t)

/-- **A run of the one system is a run of the other.** -/
theorem run_observed (h : Projects step step' proj f) (hrun : run step s as = some t) :
    run step' (proj s) (observed step f s as) = some (proj t) := by
  induction as generalizing s with
  | nil =>
    cases hrun
    rfl
  | cons a as ih =>
    obtain ⟨u, hu, hrest⟩ := Option.bind_eq_some_iff.mp hrun
    simp only [observed, hu, Option.map_some, Option.getD_some]
    rcases h hu with ⟨hnone, hsame⟩ | ⟨b, hsome, hstep⟩
    · rw [hnone, Option.toList_none, List.nil_append, ← hsame]
      exact ih hrest
    · rw [hsome, Option.toList_some, List.singleton_append, run_cons, hstep]
      exact ih hrest

theorem guarded_observed {C : σ → α → Prop} {C' : τ → β → Prop}
    (h : Projects step step' proj f)
    (hC : ∀ {s a t b}, C s a → step s a = some t → f s a = some b → C' (proj s) b)
    (hrun : run step s as = some t) (hguard : Guarded step C s as) :
    Guarded step' C' (proj s) (observed step f s as) := by
  induction as generalizing s with
  | nil => trivial
  | cons a as ih =>
    obtain ⟨u, hu, hrest⟩ := Option.bind_eq_some_iff.mp hrun
    have hnext := ih hrest (hguard.2 u hu)
    simp only [observed, hu, Option.map_some, Option.getD_some]
    rcases h hu with ⟨hnone, hsame⟩ | ⟨b, hsome, hstep⟩
    · rw [hnone, Option.toList_none, List.nil_append, ← hsame]
      exact hnext
    · rw [hsome, Option.toList_some, List.singleton_append, guarded_cons]
      refine ⟨hC hguard.1 hu hsome, fun v hv ↦ ?_⟩
      obtain rfl : proj u = v := Option.some.inj (hstep.symm.trans hv)
      exact hnext

/-! ## Simulations -/

theorem observed_append (hrun : run step s as = some t) (bs : List α) :
    observed step f s (as ++ bs) = observed step f s as ++ observed step f t bs := by
  induction as generalizing s with
  | nil =>
    cases hrun
    rfl
  | cons a as ih =>
    obtain ⟨u, hu, hrest⟩ := Option.bind_eq_some_iff.mp hrun
    rw [List.cons_append, observed, observed, hu, Option.map_some, Option.map_some,
      Option.getD_some, Option.getD_some, ih hrest, List.append_assoc]

/-- Some steps lead from `w` to a state with `P`, and `o` is all that is observed of them. -/
def Leads (step' : Step τ β) (g : τ → β → Option γ) (w : τ) (o : Option γ) (P : τ → Prop) : Prop :=
  ∃ bs w', run step' w bs = some w' ∧ observed step' g w bs = o.toList ∧ P w'

section Leads

variable {g : τ → β → Option γ} {w w' : τ} {b : β} {o : Option γ} {P Q : τ → Prop}

theorem Leads.rest (hP : P w) : Leads step' g w none P := ⟨[], w, rfl, rfl, hP⟩

theorem Leads.one (hstep : step' w b = some w') (hsees : g w b = o) (hP : P w') :
    Leads step' g w o P := by
  refine ⟨[b], w', ?_, ?_, hP⟩
  · rw [run_cons, hstep]
    rfl
  · rw [observed, hsees, hstep]
    exact List.append_nil _

theorem Leads.trans (h : Leads step' g w o P) (hPQ : ∀ w', P w' → Leads step' g w' none Q) :
    Leads step' g w o Q := by
  obtain ⟨bs, w', hbs, hsees, hP⟩ := h
  obtain ⟨cs, w'', hcs, hnothing, hQ⟩ := hPQ w' hP
  refine ⟨bs ++ cs, w'', ?_, ?_, hQ⟩
  · rw [run_append, hbs]
    exact hcs
  · rw [observed_append hbs, hsees, hnothing]
    exact List.append_nil _

end Leads

/-- From related states, a step of the one system leads to related states, and the same is observed
on the way. -/
def Simulates (step : Step σ α) (step' : Step τ β) (f : σ → α → Option γ) (g : τ → β → Option γ)
    (R : σ → τ → Prop) : Prop :=
  ∀ {s a t w}, R s w → step s a = some t → Leads step' g w (f s a) (R t)

/-- **A run of the one system is matched by a run of the other.** -/
theorem exists_run_of_simulates {f : σ → α → Option γ} {g : τ → β → Option γ} {R : σ → τ → Prop}
    {w : τ} (h : Simulates step step' f g R) (hR : R s w) (hrun : run step s as = some t) :
    ∃ bs w', run step' w bs = some w' ∧ observed step' g w bs = observed step f s as ∧
      R t w' := by
  refine run_induction (motive := fun as t ↦ ∃ bs w', run step' w bs = some w' ∧
    observed step' g w bs = observed step f s as ∧ R t w') ⟨[], w, rfl, rfl, hR⟩ ?_ hrun
  rintro as m a u hm ⟨bs, w', hbs, hsame, hR'⟩ hstep
  obtain ⟨cs, w'', hcs, hsees, hR''⟩ := h hR' hstep
  refine ⟨bs ++ cs, w'', ?_, ?_, hR''⟩
  · rw [run_append, hbs]
    exact hcs
  · rw [observed_append hbs, observed_concat hm, hsame, hsees]

end Transition
