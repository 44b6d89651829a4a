import Mathlib.Data.Nat.Notation
import Mathlib.Logic.Function.Basic

/-!
# Promises and their rejection handlers

A promise is pending, fulfilled or rejected, and it is *handled* once `then` or `catch` has been
called on it: whatever becomes of it then becomes of the promise that the call has returned. A
rejected promise that is not handled is what a runtime reports.

Promises live on a heap under numbers. Settling one keeps the handlers, attaching a handler keeps
the outcomes, and neither concerns any other promise.
-/

/-- A promise. -/
structure Promise where
  /-- `none` while it is pending, otherwise whether it is fulfilled. -/
  outcome : Option Bool
  /-- `then` or `catch` has been called on it. -/
  handled : Bool
deriving DecidableEq

namespace Promise

/-- `new Promise(...)`. -/
def fresh : Promise := ⟨none, false⟩

/-- It is rejected, and nobody has asked. -/
def Unhandled (p : Promise) : Prop := p.outcome = some false ∧ p.handled = false

instance (p : Promise) : Decidable p.Unhandled := inferInstanceAs (Decidable (_ ∧ _))

theorem not_unhandled_of_handled {p : Promise} (h : p.handled = true) : ¬p.Unhandled := by
  rintro ⟨-, hnot⟩
  cases h.symm.trans hnot

end Promise

/-- The promises made so far, by number. -/
structure PromiseHeap where
  promise : ℕ → Promise
  next : ℕ

namespace PromiseHeap

def empty : PromiseHeap := ⟨fun _ ↦ .fresh, 0⟩

/-- A promise is made; its number is `next`. -/
def create (h : PromiseHeap) : PromiseHeap :=
  ⟨Function.update h.promise h.next .fresh, h.next + 1⟩

/-- `then` or `catch` is called on the promise. -/
def attach (h : PromiseHeap) (n : ℕ) : PromiseHeap :=
  { h with promise := Function.update h.promise n { h.promise n with handled := true } }

/-- The promise is fulfilled or rejected. -/
def settle (h : PromiseHeap) (n : ℕ) (ok : Bool) : PromiseHeap :=
  { h with promise := Function.update h.promise n { h.promise n with outcome := some ok } }

/-- No rejected promise is without a handler. -/
def AllHandled (h : PromiseHeap) : Prop := ∀ n, ¬(h.promise n).Unhandled

variable {h : PromiseHeap} {n m : ℕ} {ok : Bool}

@[simp] theorem next_create : h.create.next = h.next + 1 := rfl
@[simp] theorem next_attach : (h.attach n).next = h.next := rfl
@[simp] theorem next_settle : (h.settle n ok).next = h.next := rfl

@[simp] theorem promise_create_self : h.create.promise h.next = .fresh := Function.update_self ..

theorem promise_create_of_ne (hne : m ≠ h.next) : h.create.promise m = h.promise m :=
  Function.update_of_ne hne ..

@[simp] theorem promise_attach_self :
    (h.attach n).promise n = { h.promise n with handled := true } := Function.update_self ..

theorem promise_attach_of_ne (hne : m ≠ n) : (h.attach n).promise m = h.promise m :=
  Function.update_of_ne hne ..

@[simp] theorem promise_settle_self :
    (h.settle n ok).promise n = { h.promise n with outcome := some ok } := Function.update_self ..

theorem promise_settle_of_ne (hne : m ≠ n) : (h.settle n ok).promise m = h.promise m :=
  Function.update_of_ne hne ..

/-- Settling does not detach a handler. -/
@[simp] theorem handled_settle : ((h.settle n ok).promise m).handled = (h.promise m).handled := by
  by_cases hm : m = n
  · rw [hm, promise_settle_self]
  · rw [promise_settle_of_ne hm]

theorem handled_attach (hm : (h.promise m).handled = true) :
    ((h.attach n).promise m).handled = true := by
  by_cases heq : m = n
  · rw [heq, promise_attach_self]
  · rwa [promise_attach_of_ne heq]

/-! ## What stays handled -/

theorem not_unhandled_create (hm : ¬(h.promise m).Unhandled) : ¬(h.create.promise m).Unhandled := by
  by_cases heq : m = h.next
  · rw [heq, promise_create_self]
    exact fun hnot ↦ by cases hnot.1
  · rwa [promise_create_of_ne heq]

theorem not_unhandled_attach (hm : ¬(h.promise m).Unhandled) :
    ¬((h.attach n).promise m).Unhandled := by
  by_cases heq : m = n
  · rw [heq, promise_attach_self]
    exact Promise.not_unhandled_of_handled rfl
  · rwa [promise_attach_of_ne heq]

/-- Settling is harmless if the promise is handled, or fulfilled. -/
theorem not_unhandled_settle (hm : ¬(h.promise m).Unhandled)
    (hn : (h.promise n).handled = true ∨ ok = true) : ¬((h.settle n ok).promise m).Unhandled := by
  by_cases heq : m = n
  · rw [heq, promise_settle_self]
    rcases hn with hhandled | rfl
    · exact Promise.not_unhandled_of_handled hhandled
    · exact fun hnot ↦ by cases hnot.1
  · rwa [promise_settle_of_ne heq]

end PromiseHeap
