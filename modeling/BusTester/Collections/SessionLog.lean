import Mathlib.Data.List.Basic
import Mathlib.Data.List.Induction

/-!
# Logs that are opened and closed

Entries arrive under keys, and each key is opened and closed from time to time. `sinceOpen` says
without any state what belongs to a key now: the events after its latest opening, when it was not
closed since. `log` keeps the entries among them, and `taken` the entries that arrived under a key
that was open, over the whole history and over all keys.
-/

namespace SessionLog

variable {κ α : Type*}

inductive Event (κ α : Type*) where
  | opens (k : κ)
  | closes (k : κ)
  | entry (k : κ) (a : α)
deriving DecidableEq

/-- The key that the event is about. -/
def Event.about : Event κ α → κ
  | opens k => k
  | closes k => k
  | entry k _ => k

variable [DecidableEq κ]

def Event.opensKey (k : κ) : Event κ α → Bool
  | opens k' => k' = k
  | _ => false

def Event.closesKey (k : κ) : Event κ α → Bool
  | closes k' => k' = k
  | _ => false

/-- The entry that the event brings for `k`. -/
def Event.entryOf (k : κ) : Event κ α → Option α
  | entry k' a => if k' = k then some a else none
  | _ => none

/-- The events after the latest opening of `k`, when no closing of `k` is among them. -/
def sinceOpen (k : κ) : List (Event κ α) → Option (List (Event κ α))
  | [] => none
  | e :: es =>
    (sinceOpen k es).or (if e.opensKey k ∧ ∀ e' ∈ es, ¬e'.closesKey k then some es else none)

/-- The entries of `k` among the events, in their order. -/
def entries (k : κ) (es : List (Event κ α)) : List α := es.filterMap (·.entryOf k)

/-- The entries of `k` since its latest opening; `none` while `k` is not open. -/
def log (k : κ) (es : List (Event κ α)) : Option (List α) := (sinceOpen k es).map (entries k)

/-- The entries that arrive under an open key, when `past` came before them. -/
def takenFrom : List (Event κ α) → List (Event κ α) → List (κ × α)
  | _, [] => []
  | past, .entry k a :: es =>
    (if (sinceOpen k past).isSome then [(k, a)] else []) ++ takenFrom (past ++ [.entry k a]) es
  | past, e :: es => takenFrom (past ++ [e]) es

/-- **What was taken** over the whole history, in its order. -/
def taken (es : List (Event κ α)) : List (κ × α) := takenFrom [] es

variable {k k' : κ} {a : α} {e : Event κ α} {es post past : List (Event κ α)}

theorem sinceOpen_concat : sinceOpen k (es ++ [e]) =
    if e.opensKey k then some [] else if e.closesKey k then none
    else (sinceOpen k es).map (· ++ [e]) := by
  induction es with
  | nil => simp [sinceOpen]
  | cons e' es ih =>
    rw [List.cons_append, sinceOpen, ih, sinceOpen]
    by_cases hopens : e.opensKey k
    · simp [hopens]
    by_cases hcloses : e.closesKey k
    · simp [hopens, hcloses]
    have hlast : (∀ e'' ∈ es ++ [e], ¬e''.closesKey k) ↔ ∀ e'' ∈ es, ¬e''.closesKey k :=
      List.forall_mem_append.trans (and_iff_left (List.forall_mem_singleton.mpr hcloses))
    rw [if_neg hopens, if_neg hcloses, if_neg hopens, if_neg hcloses]
    simp only [hlast]
    cases sinceOpen k es with
    | some post => rfl
    | none => split_ifs <;> rfl

theorem opensKey_iff : e.opensKey k ↔ e = .opens k := by
  cases e <;> simp [Event.opensKey]

theorem closesKey_iff : e.closesKey k ↔ e = .closes k := by
  cases e <;> simp [Event.closesKey]

theorem isSome_sinceOpen (hopens : .opens k ∈ es) (hcloses : .closes k ∉ es) :
    (sinceOpen k es).isSome := by
  induction es with
  | nil => cases hopens
  | cons e es ih =>
    rw [List.mem_cons, not_or] at hcloses
    rw [sinceOpen, Option.isSome_or, Bool.or_eq_true]
    rcases List.mem_cons.mp hopens with rfl | hlater
    · refine Or.inr ?_
      rw [if_pos ⟨opensKey_iff.mpr rfl, fun e he hk ↦ hcloses.2 (closesKey_iff.mp hk ▸ he)⟩]
      rfl
    · exact Or.inl (ih hlater hcloses.2)

/-- **The latest opening splits the history**: what came after it neither opens nor closes. -/
theorem sinceOpen_eq_some_iff : sinceOpen k es = some post ↔
    ∃ pre, es = pre ++ .opens k :: post ∧ .opens k ∉ post ∧ .closes k ∉ post := by
  induction es generalizing post with
  | nil => simp [sinceOpen]
  | cons e es ih =>
    rw [sinceOpen]
    constructor
    · intro h
      rcases Option.or_eq_some_iff.mp h with hlater | ⟨hnone, hhere⟩
      · obtain ⟨pre, rfl, hfresh⟩ := ih.mp hlater
        exact ⟨e :: pre, rfl, hfresh⟩
      · obtain ⟨⟨hopens, hcloses⟩, hpost⟩ := Option.ite_none_right_eq_some.mp hhere
        obtain rfl := Option.some.inj hpost
        obtain rfl := opensKey_iff.mp hopens
        have hfresh : .closes k ∉ es := fun hmem ↦ hcloses _ hmem (closesKey_iff.mpr rfl)
        refine ⟨[], rfl, fun hmem ↦ ?_, hfresh⟩
        exact Option.isSome_iff_ne_none.mp (isSome_sinceOpen hmem hfresh) hnone
    · rintro ⟨pre, heq, hopens, hcloses⟩
      cases pre with
      | nil =>
        obtain ⟨rfl, rfl⟩ := List.cons.inj heq
        have hnone : sinceOpen k es = none := by
          refine Option.eq_none_iff_forall_ne_some.mpr fun later hlater ↦ ?_
          obtain ⟨pre, rfl, -⟩ := ih.mp hlater
          exact hopens (by simp)
        rw [hnone, Option.none_or, if_pos]
        exact ⟨opensKey_iff.mpr rfl, fun e he hk ↦ hcloses (closesKey_iff.mp hk ▸ he)⟩
      | cons e' pre =>
        obtain ⟨rfl, rfl⟩ := List.cons.inj heq
        rw [ih.mpr ⟨pre, rfl, hopens, hcloses⟩, Option.some_or]

theorem entries_concat : entries k (es ++ [e]) = entries k es ++ (e.entryOf k).toList := by
  rw [entries, entries, List.filterMap_append]
  cases h : e.entryOf k <;> simp [h]

theorem log_concat : log k (es ++ [e]) =
    if e.opensKey k then some [] else if e.closesKey k then none
    else (log k es).map (· ++ (e.entryOf k).toList) := by
  rw [log, sinceOpen_concat]
  split_ifs
  · rfl
  · rfl
  · rw [log, Option.map_map, Option.map_map]
    exact congrArg (Option.map · _) (funext fun post ↦ entries_concat)

theorem log_concat_of_about_ne (h : k ≠ e.about) : log k (es ++ [e]) = log k es := by
  have hkeys : e.opensKey k = false ∧ e.closesKey k = false ∧ e.entryOf k = none := by
    cases e <;> simp [Event.opensKey, Event.closesKey, Event.entryOf] <;> exact Ne.symm h
  rw [log_concat, hkeys.1, hkeys.2.1, hkeys.2.2]
  simp

theorem log_concat_opens :
    log k (es ++ [.opens k']) = if k = k' then some [] else log k es := by
  by_cases h : k = k'
  · simp [log_concat, Event.opensKey, h]
  · rw [log_concat_of_about_ne h, if_neg h]

theorem log_concat_closes :
    log k (es ++ [.closes k']) = if k = k' then none else log k es := by
  by_cases h : k = k'
  · simp [log_concat, Event.opensKey, Event.closesKey, h]
  · rw [log_concat_of_about_ne h, if_neg h]

theorem log_concat_entry : log k (es ++ [.entry k' a]) =
    if k = k' then (log k' es).map (· ++ [a]) else log k es := by
  by_cases h : k = k'
  · simp [log_concat, Event.opensKey, Event.closesKey, Event.entryOf, h]
  · rw [log_concat_of_about_ne h, if_neg h]

theorem takenFrom_concat : takenFrom past (es ++ [e]) = takenFrom past es ++
    (match e with
      | .entry k a => if (sinceOpen k (past ++ es)).isSome then [(k, a)] else []
      | _ => []) := by
  induction es generalizing past with
  | nil => cases e <;> simp [takenFrom]
  | cons e' es ih =>
    cases e' <;> simp [takenFrom, ih, List.append_assoc]

/-- The last event of the history takes its entry when the key is open. -/
theorem taken_concat_entry : taken (es ++ [.entry k a]) =
    taken es ++ if (log k es).isSome then [(k, a)] else [] := by
  rw [taken, takenFrom_concat, List.nil_append, log, Option.isSome_map]
  rfl

theorem taken_concat_opens : taken (es ++ [.opens k]) = taken es := by
  rw [taken, takenFrom_concat, List.append_nil]
  rfl

theorem taken_concat_closes : taken (es ++ [.closes k]) = taken es := by
  rw [taken, takenFrom_concat, List.append_nil]
  rfl

end SessionLog
