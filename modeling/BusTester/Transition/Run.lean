import Mathlib.Data.List.Induction
import Mathlib.Tactic.Tauto

/-!
# Runs of a partial labelled step

A system is a state type together with a partial step `σ → α → Option σ`: the label carries every
choice that is not the system's own (which party moves, how an awaited operation ended, what the
environment delivers), and `none` says that the label is not enabled. A run is then a list of
labels, and a state is reachable when some list of labels leads to it.

Three notions are used throughout. A run is `Guarded` by a condition when every step of it is taken
in a state where the condition allows that step; a property holds *along* a run when it holds in
every state the run visits, the first and the last included. What is `observed` along a run is
the list of what a function sees at each step, for properties of what has happened so far.

The rules at the end package the inductions. `invariant_of_guarded` is the usual invariant rule.
`guarded_dichotomy` keeps track of a condition that a run may break: either every step met it and a
good invariant holds, or some step broke it and a bad invariant has held since.
`along_iff_guarded` is the case in which breaking the condition shows in the very next state.
-/

namespace Transition

variable {σ α : Type*}

/-- A partial labelled step. -/
abbrev Step (σ α : Type*) := σ → α → Option σ

/-- Take the labels in order; `none` as soon as one of them is not enabled. -/
def run (step : Step σ α) : σ → List α → Option σ
  | s, [] => some s
  | s, a :: as => (step s a).bind fun t ↦ run step t as

/-- Every step of the run is taken in a state where `C` allows its label. -/
def Guarded (step : Step σ α) (C : σ → α → Prop) : σ → List α → Prop
  | _, [] => True
  | s, a :: as => C s a ∧ ∀ t, step s a = some t → Guarded step C t as

/-- `Q` holds in every state the run visits. -/
def Along (step : Step σ α) (Q : σ → Prop) (s : σ) (as : List α) : Prop :=
  ∀ pre t, pre <+: as → run step s pre = some t → Q t

/-- What `f` observes of the steps of a run, in their order. -/
def observed {β : Type*} (step : Step σ α) (f : σ → α → Option β) : σ → List α → List β
  | _, [] => []
  | s, a :: as => (f s a).toList ++ ((step s a).map fun t ↦ observed step f t as).getD []

variable {step : Step σ α} {C D : σ → α → Prop} {s t : σ} {a : α} {as bs : List α}

@[simp] theorem run_nil : run step s [] = some s := rfl

@[simp] theorem run_cons :
    run step s (a :: as) = (step s a).bind fun t ↦ run step t as := rfl

theorem run_append :
    run step s (as ++ bs) = (run step s as).bind fun t ↦ run step t bs := by
  induction as generalizing s with
  | nil => simp
  | cons a as ih => simp only [List.cons_append, run_cons, ih, Option.bind_assoc]

theorem run_concat {u : σ} :
    run step s (as ++ [a]) = some u ↔ ∃ t, run step s as = some t ∧ step t a = some u := by
  simp [run_append, Option.bind_eq_some_iff]

@[simp] theorem guarded_nil : Guarded step C s [] := trivial

@[simp] theorem guarded_cons :
    Guarded step C s (a :: as) ↔ C s a ∧ ∀ t, step s a = some t → Guarded step C t as := Iff.rfl

instance Guarded.decidable [∀ s a, Decidable (C s a)] :
    ∀ (s : σ) (as : List α), Decidable (Guarded step C s as)
  | _, [] => isTrue trivial
  | s, a :: as =>
    match hstep : step s a with
    | none => decidable_of_iff (C s a) (by simp [Guarded, hstep])
    | some t =>
      have : Decidable (Guarded step C t as) := Guarded.decidable t as
      decidable_of_iff (C s a ∧ Guarded step C t as) (by simp [Guarded, hstep])

theorem Guarded.of_append (h : Guarded step C s (as ++ bs)) : Guarded step C s as := by
  induction as generalizing s with
  | nil => trivial
  | cons a as ih => exact ⟨h.1, fun t ht ↦ ih (h.2 t ht)⟩

theorem guarded_concat (hrun : run step s as = some t) :
    Guarded step C s (as ++ [a]) ↔ Guarded step C s as ∧ C t a := by
  induction as generalizing s with
  | nil =>
    cases hrun
    simp
  | cons b as ih =>
    obtain ⟨u, hu, hrest⟩ := Option.bind_eq_some_iff.mp hrun
    simp only [List.cons_append, guarded_cons, hu, Option.some.injEq, forall_eq', ih hrest,
      and_assoc]

theorem Guarded.mono (hCD : ∀ s a, C s a → D s a) (h : Guarded step C s as) :
    Guarded step D s as := by
  induction as generalizing s with
  | nil => trivial
  | cons a as ih => exact ⟨hCD s a h.1, fun t ht ↦ ih (h.2 t ht)⟩

theorem Guarded.and (hC : Guarded step C s as) (hD : Guarded step D s as) :
    Guarded step (fun s a ↦ C s a ∧ D s a) s as := by
  induction as generalizing s with
  | nil => trivial
  | cons a as ih => exact ⟨⟨hC.1, hD.1⟩, fun t ht ↦ ih (hC.2 t ht) (hD.2 t ht)⟩

theorem guarded_true : Guarded step (fun _ _ ↦ True) s as := by
  induction as generalizing s with
  | nil => trivial
  | cons a as ih => exact ⟨trivial, fun t _ ↦ ih⟩

theorem Guarded.of_forall (h : ∀ a ∈ as, ∀ s, C s a) : Guarded step C s as := by
  induction as generalizing s with
  | nil => trivial
  | cons a as ih =>
    exact ⟨h a List.mem_cons_self s, fun t _ ↦ ih fun b hb ↦ h b (List.mem_cons_of_mem a hb)⟩

theorem Along.last {Q : σ → Prop} (h : Along step Q s as) (hrun : run step s as = some t) : Q t :=
  h as t (List.prefix_refl as) hrun

theorem observed_concat {β : Type*} {f : σ → α → Option β} (hrun : run step s as = some t) :
    observed step f s (as ++ [a]) = observed step f s as ++ (f t a).toList := by
  induction as generalizing s with
  | nil =>
    cases hrun
    cases hstep : step t a <;> simp [observed, hstep]
  | cons b as ih =>
    obtain ⟨u, hu, hrest⟩ := Option.bind_eq_some_iff.mp hrun
    simp only [List.cons_append, observed, hu, Option.map_some, Option.getD_some, ih hrest,
      List.append_assoc]

/-! ## The rules -/

/-- **Runs are built at their end.** Whatever holds of the empty run and survives one more step
holds of every run. -/
theorem run_induction {motive : List α → σ → Prop} (nil : motive [] s)
    (concat : ∀ as t a u, run step s as = some t → motive as t → step t a = some u →
      motive (as ++ [a]) u) (hrun : run step s as = some t) : motive as t := by
  induction as using List.reverseRecOn generalizing t with
  | nil =>
    cases hrun
    exact nil
  | append_singleton as a ih =>
    obtain ⟨m, hm, hlast⟩ := run_concat.mp hrun
    exact concat as m a t hm (ih hm) hlast

/-- **The invariant rule**, for runs whose steps all meet `C`. -/
theorem invariant_of_guarded {P : σ → Prop} (hinit : P s)
    (hstep : ∀ t a u, P t → C t a → step t a = some u → P u)
    (hguard : Guarded step C s as) (hrun : run step s as = some t) : P t := by
  induction as generalizing s with
  | nil =>
    cases hrun
    exact hinit
  | cons a as ih =>
    obtain ⟨u, hu, hrest⟩ := Option.bind_eq_some_iff.mp hrun
    exact ih (hstep s a u hinit hguard.1 hu) (hguard.2 u hu) hrest

/-- The invariant rule for all runs. -/
theorem invariant_of_step {P : σ → Prop} (hinit : P s)
    (hstep : ∀ t a u, P t → step t a = some u → P u) (hrun : run step s as = some t) : P t :=
  invariant_of_guarded hinit (fun t a u hP _ hu ↦ hstep t a u hP hu) guarded_true hrun

theorem along_of_guarded {P Q : σ → Prop} (hinit : P s)
    (hstep : ∀ t a u, P t → C t a → step t a = some u → P u) (hQ : ∀ t, P t → Q t)
    (hguard : Guarded step C s as) : Along step Q s as := by
  rintro pre t ⟨post, rfl⟩ hrun
  exact hQ t (invariant_of_guarded hinit hstep hguard.of_append hrun)

/-- A condition that follows from an invariant in every state is met by every run. -/
theorem Guarded.of_invariant {P : σ → Prop} (hinit : P s)
    (hstep : ∀ t a u, P t → D t a → step t a = some u → P u)
    (hC : ∀ t a, P t → D t a → C t a) (hguard : Guarded step D s as) : Guarded step C s as := by
  induction as generalizing s with
  | nil => trivial
  | cons a as ih =>
    exact ⟨hC s a hinit hguard.1, fun u hu ↦ ih (hstep s a u hinit hguard.1 hu) (hguard.2 u hu)⟩

/-- **A run keeps a condition or has broken it.** `D` is the domain of runs considered. As long as
every step meets `C` the invariant `P` holds; from the first step that does not, `B` does. -/
theorem guarded_dichotomy {P B : σ → Prop} (hinit : P s)
    (hgood : ∀ t a u, D t a → C t a → P t → step t a = some u → P u)
    (hbad : ∀ t a u, D t a → ¬C t a → P t → step t a = some u → B u)
    (hstay : ∀ t a u, D t a → B t → step t a = some u → B u)
    (hdom : Guarded step D s as) (hrun : run step s as = some t) :
    (Guarded step C s as ∧ P t) ∨ (¬Guarded step C s as ∧ B t) := by
  have key : Guarded step D s as →
      (Guarded step C s as ∧ P t) ∨ (¬Guarded step C s as ∧ B t) := by
    refine run_induction (motive := fun as t ↦ Guarded step D s as →
      (Guarded step C s as ∧ P t) ∨ (¬Guarded step C s as ∧ B t)) ?_ ?_ hrun
    · exact fun _ ↦ Or.inl ⟨trivial, hinit⟩
    · intro as m a u hm ih hlast hdom
      rw [guarded_concat hm] at hdom ⊢
      rcases ih hdom.1 with ⟨hC, hP⟩ | ⟨hC, hB⟩
      · by_cases hCa : C m a
        · exact Or.inl ⟨⟨hC, hCa⟩, hgood m a u hdom.2 hCa hP hlast⟩
        · exact Or.inr ⟨fun h ↦ hCa h.2, hbad m a u hdom.2 hCa hP hlast⟩
      · exact Or.inr ⟨fun h ↦ hC h.1, hstay m a u hdom.2 hB hlast⟩
  exact key hdom

/-- **Exactly the guarded runs.** `D` is the domain of runs considered. If the invariant `P` gives
`Q`, and a step that breaks `C` leads to a state without `Q`, then `Q` holds along a run exactly
when every step of it meets `C`. -/
theorem along_iff_guarded {P Q : σ → Prop} (hinit : P s)
    (hgood : ∀ t a u, D t a → C t a → P t → step t a = some u → P u)
    (hbad : ∀ t a u, D t a → ¬C t a → P t → step t a = some u → ¬Q u) (hQ : ∀ t, P t → Q t)
    (hdom : Guarded step D s as) (hrun : run step s as = some t) :
    Along step Q s as ↔ Guarded step C s as := by
  refine ⟨fun h ↦ ?_, fun h ↦ along_of_guarded (C := fun s a ↦ D s a ∧ C s a) hinit
    (fun t a u hP hDC ↦ hgood t a u hDC.1 hDC.2 hP) hQ (hdom.and h)⟩
  induction as generalizing s with
  | nil => trivial
  | cons a as ih =>
    obtain ⟨u, hu, hrest⟩ := Option.bind_eq_some_iff.mp hrun
    have hnext : Along step Q u as := by
      intro pre v hpre hv
      exact h (a :: pre) v (List.cons_prefix_cons.mpr ⟨rfl, hpre⟩) (by simp [hu, hv])
    have hC : C s a := by
      by_contra hC
      exact hbad s a u hdom.1 hC hinit hu (hnext [] u (List.nil_prefix) rfl)
    refine ⟨hC, fun v hv ↦ ?_⟩
    obtain rfl : u = v := Option.some.inj (hu.symm.trans hv)
    exact ih (hgood s a u hdom.1 hC hinit hu) (hdom.2 u hu) hrest hnext

end Transition
