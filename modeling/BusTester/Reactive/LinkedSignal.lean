import Mathlib.Data.Option.Basic

/-!
# Signals that remember

A linked signal is computed from a source, like any derived value, but its computation also sees the
source and the value of the time before. It is lazy: a change of a dependency only marks it as
stale, and the next read computes. How often it is read therefore matters to what it holds, and a
read of a signal that is not stale changes nothing.
-/

/-- A linked signal, with the source and the value of its last computation. -/
structure LinkedSignal (σ ν : Type*) where
  previous : Option (σ × ν)
  /-- A dependency has changed since the last computation. -/
  stale : Bool

namespace LinkedSignal

variable {σ ν : Type*}

/-- A signal that has not been read yet. -/
def initial : LinkedSignal σ ν := ⟨none, true⟩

/-- A dependency changes. -/
def invalidate (l : LinkedSignal σ ν) : LinkedSignal σ ν := { l with stale := true }

/-- The source and the value after a read. -/
def latest (compute : σ → Option (σ × ν) → ν) (source : σ) (l : LinkedSignal σ ν) : σ × ν :=
  match l.previous, l.stale with
  | some p, false => p
  | previous, _ => (source, compute source previous)

/-- The signal after a read. -/
def read (compute : σ → Option (σ × ν) → ν) (source : σ) (l : LinkedSignal σ ν) :
    LinkedSignal σ ν :=
  ⟨some (l.latest compute source), false⟩

/-- What a read returns. -/
def value (compute : σ → Option (σ × ν) → ν) (source : σ) (l : LinkedSignal σ ν) : ν :=
  (l.latest compute source).2

variable {compute : σ → Option (σ × ν) → ν} {source source' : σ} {l : LinkedSignal σ ν} {p : σ × ν}

@[simp] theorem previous_invalidate : l.invalidate.previous = l.previous := rfl

@[simp] theorem stale_invalidate : l.invalidate.stale = true := rfl

@[simp] theorem previous_read :
    (l.read compute source).previous = some (l.latest compute source) := rfl

@[simp] theorem stale_read : (l.read compute source).stale = false := rfl

/-- A stale signal is computed from the source and from what it was. -/
theorem latest_of_stale (h : l.stale = true) :
    l.latest compute source = (source, compute source l.previous) := by
  obtain ⟨previous, stale⟩ := l
  obtain rfl : stale = true := h
  cases previous <;> rfl

theorem latest_of_none (h : l.previous = none) :
    l.latest compute source = (source, compute source none) := by
  obtain ⟨previous, stale⟩ := l
  obtain rfl : previous = none := h
  rfl

theorem latest_cases (l : LinkedSignal σ ν) (compute : σ → Option (σ × ν) → ν) (source : σ) :
    (l.stale = false ∧ l.previous = some (l.latest compute source)) ∨
    l.latest compute source = (source, compute source l.previous) := by
  obtain ⟨previous, stale⟩ := l
  match previous, stale with
  | some p, false => exact Or.inl ⟨rfl, rfl⟩
  | some p, true => exact Or.inr rfl
  | none, _ => exact Or.inr rfl

/-- **A read changes nothing for the next one.** -/
@[simp] theorem value_read :
    (l.read compute source).value compute source' = l.value compute source := rfl

end LinkedSignal
