import Mathlib.Data.List.Nodup
import Mathlib.Data.List.Induction

/-!
# Lists with one entry for each key

A list whose entries have keys is updated by putting an entry, which replaces the one of its key
and goes last, and by erasing a key. `kept` says without any state what a sequence of updates
leaves: the entries that were put and whose key no later update is about, in the order in which
they were put. `kept_concat` connects the two.
-/

namespace KeyedLog

variable {α κ : Type*} [DecidableEq κ] {key : α → κ}

/-- An update of a keyed list. -/
inductive Update (α κ : Type*) where
  | put (a : α)
  | erase (k : κ)
deriving DecidableEq

/-- The key that the update is about. -/
def Update.about (key : α → κ) : Update α κ → κ
  | put a => key a
  | erase k => k

/-- The list after an update. -/
def update (key : α → κ) (l : List α) : Update α κ → List α
  | .put a => (l.filter fun b ↦ key b ≠ key a) ++ [a]
  | .erase k => l.filter fun b ↦ key b ≠ k

/-- What the updates leave of what they put. -/
def kept (key : α → κ) : List (Update α κ) → List α
  | [] => []
  | .put a :: us =>
    if ∀ u ∈ us, u.about key ≠ key a then a :: kept key us else kept key us
  | .erase _ :: us => kept key us

/-- What the last update about a key put under it. -/
def latest (key : α → κ) (k : κ) (us : List (Update α κ)) : Option α :=
  match us.reverse.find? fun u ↦ u.about key = k with
  | some (.put a) => some a
  | _ => none

variable {us : List (Update α κ)} {u : Update α κ} {l : List α} {a b : α} {k : κ}

theorem mem_update_iff (hb : key b ≠ u.about key) : b ∈ update key l u ↔ b ∈ l := by
  cases u with
  | put a =>
    have hne : b ≠ a := fun heq ↦ hb (congrArg key heq)
    simp [update, List.mem_filter, hne, show key b ≠ key a from hb]
  | erase k => simp [update, List.mem_filter, show key b ≠ k from hb]

theorem mem_update_of_eq (hb : key b = u.about key) : b ∈ update key l u ↔ u = .put b := by
  cases u with
  | put a =>
    have hkey : key b = key a := hb
    simp [update, hkey, eq_comm]
  | erase k =>
    have hkey : key b = k := hb
    simp [update, hkey]

theorem update_subset_iff {l' : List α} : update key l u ⊆ update key l' u ↔
    ∀ b ∈ l, key b ≠ u.about key → b ∈ l' := by
  constructor
  · intro hsub b hb hne
    exact (mem_update_iff hne).mp (hsub ((mem_update_iff hne).mpr hb))
  · intro h b hb
    by_cases hkey : key b = u.about key
    · exact (mem_update_of_eq hkey).mpr ((mem_update_of_eq hkey).mp hb)
    · exact (mem_update_iff hkey).mpr (h b ((mem_update_iff hkey).mp hb) hkey)

theorem nodup_update (hl : (l.map key).Nodup) : ((update key l u).map key).Nodup := by
  have hfilter : ∀ k, ((l.filter fun b ↦ key b ≠ k).map key).Nodup := fun k ↦
    hl.sublist (List.filter_sublist.map key)
  cases u with
  | erase k => exact hfilter k
  | put a =>
    rw [update, List.map_append, List.map_singleton]
    refine List.nodup_append.mpr ⟨hfilter (key a), List.nodup_singleton _, ?_⟩
    intro k hk k' hk' heq
    obtain ⟨b, hb, rfl⟩ := List.mem_map.mp hk
    rw [List.mem_singleton.mp hk'] at heq
    exact of_decide_eq_true (List.mem_filter.mp hb).2 heq

theorem update_cons_of_ne (ha : u.about key ≠ key a) :
    update key (a :: l) u = a :: update key l u := by
  cases u with
  | put b => simp [update, show key a ≠ key b from ha.symm]
  | erase k => simp [update, show key a ≠ k from ha.symm]

theorem update_cons_of_eq (ha : u.about key = key a) : update key (a :: l) u = update key l u := by
  cases u with
  | put b => simp [update, show key a = key b from ha.symm]
  | erase k => simp [update, show key a = k from ha.symm]

/-- **The last update**, exposed. -/
theorem kept_concat : kept key (us ++ [u]) = update key (kept key us) u := by
  induction us with
  | nil => cases u <;> simp [kept, update]
  | cons v us ih =>
    cases v with
    | erase k => rw [List.cons_append, kept, kept, ih]
    | put a =>
      rw [List.cons_append, kept, kept, ih]
      by_cases hlater : ∀ v ∈ us, v.about key ≠ key a
      · rw [if_pos hlater]
        by_cases hu : u.about key = key a
        · rw [update_cons_of_eq hu, if_neg]
          exact fun hall ↦ hall u (List.mem_append_right us (List.mem_singleton_self u)) hu
        · rw [update_cons_of_ne hu, if_pos]
          intro v hv
          rcases List.mem_append.mp hv with hv | hv
          · exact hlater v hv
          · rwa [List.mem_singleton.mp hv]
      · rw [if_neg hlater, if_neg]
        exact fun hall ↦ hlater fun v hv ↦ hall v (List.mem_append_left [u] hv)

theorem nodup_kept (us : List (Update α κ)) : ((kept key us).map key).Nodup := by
  induction us using List.reverseRecOn with
  | nil => exact List.nodup_nil
  | append_singleton us u ih =>
    rw [kept_concat]
    exact nodup_update ih

theorem latest_concat : latest key k (us ++ [u])
    = if u.about key = k then (match u with | .put a => some a | .erase _ => none)
      else latest key k us := by
  rw [latest, List.reverse_concat, List.find?_cons]
  split_ifs with hu
  · simp only [hu, decide_true]
    cases u <;> rfl
  · simp only [hu, decide_false]
    rfl

/-- **An entry is kept exactly if the last update about its key put it.** -/
theorem mem_kept_iff : a ∈ kept key us ↔ latest key (key a) us = some a := by
  induction us using List.reverseRecOn with
  | nil => exact iff_of_false List.not_mem_nil (by simp [latest])
  | append_singleton us u ih =>
    rw [kept_concat, latest_concat]
    split_ifs with hu
    · rw [mem_update_of_eq hu.symm]
      cases u <;> simp
    · rw [mem_update_iff fun heq ↦ hu heq.symm, ih]

end KeyedLog
