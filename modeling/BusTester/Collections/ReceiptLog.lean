import Mathlib.Data.List.Basic
import Mathlib.Data.List.Induction
import Mathlib.Data.List.Pairwise
import Mathlib.Tactic.Use

/-!
# A numbered log with cleared keys

Items are received and numbered in the order of their receipt; from time to time all items of one
key are cleared. `held` says without any state what a sequence of such events leaves, the newest
first: the items received, each with its number, whose key was not cleared after them. The lemmas at
the end connect it to a store that is updated event by event.
-/

namespace ReceiptLog

variable {α κ : Type*}

inductive Event (α κ : Type*) where
  | receive (a : α)
  | clear (k : κ)
deriving DecidableEq

/-- Each receipt with its number, counted from `n` on, and the events after it. -/
def receiptsFrom : ℕ → List (Event α κ) → List ((α × ℕ) × List (Event α κ))
  | _, [] => []
  | n, .receive a :: es => ((a, n), es) :: receiptsFrom (n + 1) es
  | n, .clear _ :: es => receiptsFrom n es

/-- The number of receipts. -/
def received : List (Event α κ) → ℕ
  | [] => 0
  | .receive _ :: es => received es + 1
  | .clear _ :: es => received es

@[simp] theorem received_append {es es' : List (Event α κ)} :
    received (es ++ es') = received es + received es' := by
  induction es with
  | nil => rw [List.nil_append, received, Nat.zero_add]
  | cons e es ih =>
    cases e with
    | receive a => rw [List.cons_append, received, received, ih, Nat.add_right_comm]
    | clear k => rw [List.cons_append, received, received, ih]

section Held

variable [DecidableEq α] [DecidableEq κ] (key : α → κ)

/-- The receipts whose key was not cleared after them, counted from `n` on. -/
def heldFrom (n : ℕ) (es : List (Event α κ)) : List (α × ℕ) :=
  (((receiptsFrom n es).filter fun r ↦ .clear (key r.1.1) ∉ r.2).map Prod.fst).reverse

/-- **What is held** after the events, newest first. -/
def held (es : List (Event α κ)) : List (α × ℕ) := heldFrom key 0 es

variable {key} {n : ℕ} {es : List (Event α κ)} {a : α}

theorem heldFrom_receive_cons : heldFrom key n (.receive a :: es)
    = heldFrom key (n + 1) es ++ if .clear (key a) ∉ es then [(a, n)] else [] := by
  by_cases hclear : .clear (key a) ∈ es <;> simp [heldFrom, receiptsFrom, hclear]

/-- A receipt at the end is held, and goes first. -/
theorem heldFrom_receive (n : ℕ) (es : List (Event α κ)) (a : α) :
    heldFrom key n (es ++ [.receive a]) = (a, n + received es) :: heldFrom key n es := by
  induction es generalizing n with
  | nil => simp [heldFrom, receiptsFrom, received]
  | cons e es ih =>
    cases e with
    | receive b =>
      have hclear : (.clear (key b) ∉ es ++ [.receive a]) ↔ .clear (key b) ∉ es := by simp
      rw [List.cons_append, heldFrom_receive_cons, heldFrom_receive_cons, ih, received,
        List.cons_append, Nat.add_right_comm n 1 (received es), Nat.add_assoc]
      simp only [hclear]
    | clear k => exact ih n

theorem heldFrom_clear (n : ℕ) (es : List (Event α κ)) (k : κ) :
    heldFrom key n (es ++ [.clear k]) = (heldFrom key n es).filter fun r ↦ key r.1 ≠ k := by
  induction es generalizing n with
  | nil => rfl
  | cons e es ih =>
    cases e with
    | receive b =>
      rw [List.cons_append, heldFrom_receive_cons, heldFrom_receive_cons, ih, List.filter_append]
      congr 1
      by_cases hk : key b = k
      · simp [hk]
      · have hclear : (.clear (key b) ∉ es ++ [.clear k]) ↔ .clear (key b) ∉ es := by simp [hk]
        simp only [hclear]
        split_ifs <;> simp [hk]
    | clear k' => exact ih n

theorem held_receive : held key (es ++ [.receive a]) = (a, received es) :: held key es := by
  rw [held, heldFrom_receive, Nat.zero_add]
  rfl

theorem held_clear :
    held key (es ++ [.clear k]) = (held key es).filter fun r ↦ key r.1 ≠ k :=
  heldFrom_clear 0 es k

/-- The numbers decrease, and each is the number of an earlier receipt. -/
theorem pairwise_held (key : α → κ) (es : List (Event α κ)) :
    (held key es).Pairwise (fun r r' ↦ r'.2 < r.2) ∧ ∀ r ∈ held key es, r.2 < received es := by
  induction es using List.reverseRecOn with
  | nil => exact ⟨List.Pairwise.nil, nofun⟩
  | append_singleton es e ih =>
    obtain ⟨hpairwise, hlt⟩ := ih
    cases e with
    | receive a =>
      rw [held_receive, received_append]
      refine ⟨List.pairwise_cons.mpr ⟨hlt, hpairwise⟩, fun r hr ↦ ?_⟩
      rcases List.mem_cons.mp hr with rfl | hr
      · exact Nat.lt_succ_self _
      · exact Nat.lt_succ_of_lt (hlt r hr)
    | clear k =>
      rw [held_clear, received_append]
      exact ⟨hpairwise.filter _, fun r hr ↦ hlt r (List.mem_of_mem_filter hr)⟩

end Held

end ReceiptLog
