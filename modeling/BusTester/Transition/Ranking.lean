import BusTester.Transition.Run

/-!
# Ranks

A rank is a number that a state has. If no step raises it and some steps lower it, then a run takes
at most so many of those (`countP_add_rank_le`). And if every state that is no goal yet leads to one
of a smaller rank, then a goal can be reached (`exists_run_of_descends`). The two are the halves of
a termination argument: what is owed is bounded, and something that is owed can always be done.
-/

namespace Transition

variable {σ α : Type*} {step : Step σ α} {s t u : σ} {as bs : List α} {C : α → Prop}

/-- **The steps that lower the rank are at most as many as it counts.** -/
theorem countP_add_rank_le {r : σ → ℕ} {p : α → Bool}
    (hrank : ∀ {s a t}, step s a = some t → r t + (p a).toNat ≤ r s)
    (hrun : run step s as = some t) : as.countP p + r t ≤ r s := by
  induction as generalizing s with
  | nil =>
    cases hrun
    simp
  | cons a as ih =>
    obtain ⟨m, hm, hrest⟩ := Option.bind_eq_some_iff.mp hrun
    have hstep := hrank hm
    have htail := ih hrest
    have hcount : (a :: as).countP p = as.countP p + (p a).toNat := by
      rw [List.countP_cons]
      cases p a <;> rfl
    omega

theorem exists_run_append (hrun : run step s as = some t) (hC : ∀ a ∈ as, C a) {P : σ → Prop}
    (h : ∃ bs u, run step t bs = some u ∧ (∀ b ∈ bs, C b) ∧ P u) :
    ∃ bs u, run step s bs = some u ∧ (∀ b ∈ bs, C b) ∧ P u := by
  obtain ⟨bs, u, hbs, hCb, hu⟩ := h
  refine ⟨as ++ bs, u, ?_, ?_, hu⟩
  · rw [run_append, hrun]
    exact hbs
  · intro a ha
    rcases List.mem_append.mp ha with ha | ha
    · exact hC a ha
    · exact hCb a ha

/-- **A goal is reached where the rank can always be lowered.** -/
theorem exists_run_of_descends {r : σ → ℕ} {P Q : σ → Prop}
    (h : ∀ s, P s → ¬Q s → ∃ bs u, run step s bs = some u ∧ (∀ b ∈ bs, C b) ∧
      (P u ∧ r u < r s)) (hP : P s) :
    ∃ bs u, run step s bs = some u ∧ (∀ b ∈ bs, C b) ∧ (P u ∧ Q u) := by
  induction hn : r s using Nat.strongRecOn generalizing s with
  | ind n ih =>
    by_cases hQ : Q s
    · exact ⟨[], s, rfl, nofun, hP, hQ⟩
    · obtain ⟨bs, u, hbs, hC, hu, hless⟩ := h s hP hQ
      exact exists_run_append hbs hC (ih (r u) (hn ▸ hless) hu rfl)

end Transition
