import BusTester.Text.Utf16
import Mathlib.Data.List.Nodup

/-!
# Maps from strings to strings

The headers of a message are a `Dictionary<string, string>` on the server and a
`Record<string, string>` in the client: finitely many keys, each with one value, kept in the order
in which they were first set.
-/

/-- A finite map, as its entries in the order in which their keys were first set. -/
structure StringMap where
  entries : List (Utf16 × Utf16)
  /-- Each key is listed once. -/
  nodup : (entries.map Prod.fst).Nodup
deriving DecidableEq

namespace StringMap

/-- The map without entries. -/
def empty : StringMap := ⟨[], List.nodup_nil⟩

def keys (m : StringMap) : List Utf16 := m.entries.map Prod.fst

/-- The entries after `m[key] = value`: an old key keeps its place, a new one goes last. -/
def setEntries (entries : List (Utf16 × Utf16)) (key value : Utf16) : List (Utf16 × Utf16) :=
  if key ∈ entries.map Prod.fst then
    entries.map fun entry ↦ if entry.1 = key then (key, value) else entry
  else entries ++ [(key, value)]

theorem map_fst_setEntries (entries : List (Utf16 × Utf16)) (key value : Utf16) :
    (setEntries entries key value).map Prod.fst
      = if key ∈ entries.map Prod.fst then entries.map Prod.fst
        else entries.map Prod.fst ++ [key] := by
  unfold setEntries
  split
  · rw [List.map_map]
    refine List.map_congr_left fun entry _ ↦ ?_
    by_cases hkey : entry.1 = key <;> simp [hkey]
  · simp

/-- `m[key] = value`. -/
def set (m : StringMap) (key value : Utf16) : StringMap where
  entries := setEntries m.entries key value
  nodup := by
    rw [map_fst_setEntries]
    split
    · exact m.nodup
    · rename_i hkey
      exact List.nodup_append.mpr ⟨m.nodup, List.nodup_singleton key, by grind⟩

@[ext] theorem ext {m n : StringMap} (h : m.entries = n.entries) : m = n := by
  rcases m with ⟨entries, nodup⟩
  cases h
  rfl

/-- The map after the entries have been set one after the other. -/
def ofEntries (entries : List (Utf16 × Utf16)) : StringMap :=
  entries.foldl (fun m entry ↦ m.set entry.1 entry.2) empty

theorem setEntries_of_notMem {entries : List (Utf16 × Utf16)} {key value : Utf16}
    (hkey : key ∉ entries.map Prod.fst) :
    setEntries entries key value = entries ++ [(key, value)] :=
  if_neg hkey

theorem ofEntries_entries (m : StringMap) : ofEntries m.entries = m := by
  have hfold : ∀ (es : List (Utf16 × Utf16)) (n : StringMap),
      ((n.entries ++ es).map Prod.fst).Nodup →
        (es.foldl (fun m entry ↦ m.set entry.1 entry.2) n).entries = n.entries ++ es := by
    intro es
    induction es with
    | nil => exact fun n _ ↦ (List.append_nil _).symm
    | cons e es ih =>
      intro n hnodup
      have hkey : e.1 ∉ n.entries.map Prod.fst := by
        rw [List.map_append, List.nodup_append] at hnodup
        exact fun hmem ↦ hnodup.2.2 _ hmem _ List.mem_cons_self rfl
      have hset : (n.set e.1 e.2).entries = n.entries ++ [e] := setEntries_of_notMem hkey
      have hmore : (n.set e.1 e.2).entries ++ es = n.entries ++ e :: es := by
        rw [hset, List.append_assoc, List.singleton_append]
      rw [List.foldl_cons, ih _ (by rw [hmore]; exact hnodup), hmore]
  have hentries : (ofEntries m.entries).entries = m.entries := hfold m.entries empty m.nodup
  exact ext hentries

/-! ## Looking up a key -/

/-- The value of the last entry with the key. -/
def lastValue (key : Utf16) : List (Utf16 × Utf16) → Option Utf16
  | [] => none
  | entry :: entries => (lastValue key entries).or (if entry.1 = key then some entry.2 else none)

/-- `m[key]`; `none` where it is undefined. -/
def get? (m : StringMap) (key : Utf16) : Option Utf16 := lastValue key m.entries

variable {key value : Utf16} {es es' : List (Utf16 × Utf16)}

theorem lastValue_append :
    lastValue key (es ++ es') = (lastValue key es').or (lastValue key es) := by
  induction es with
  | nil => exact (Option.or_none).symm
  | cons e es ih => rw [List.cons_append, lastValue, ih, lastValue, Option.or_assoc]

theorem mem_of_lastValue (h : lastValue key es = some value) : (key, value) ∈ es := by
  induction es with
  | nil => cases h
  | cons e es ih =>
    rcases Option.or_eq_some_iff.mp h with hlater | ⟨-, hhere⟩
    · exact List.mem_cons_of_mem _ (ih hlater)
    · obtain ⟨rfl, hvalue⟩ := Option.ite_none_right_eq_some.mp hhere
      obtain rfl := Option.some.inj hvalue
      exact List.mem_cons_self

theorem lastValue_eq_none_iff : lastValue key es = none ↔ key ∉ es.map Prod.fst := by
  induction es with
  | nil => exact iff_of_true rfl List.not_mem_nil
  | cons e es ih =>
    rw [lastValue, Option.or_eq_none_iff, ih, List.map_cons, List.mem_cons, not_or, and_comm,
      eq_comm (a := key)]
    by_cases h : e.1 = key <;> simp [h]

/-- With distinct keys, the last entry with a key is the only one. -/
theorem lastValue_eq_some_iff (hnodup : (es.map Prod.fst).Nodup) :
    lastValue key es = some value ↔ (key, value) ∈ es := by
  refine ⟨mem_of_lastValue, fun hmem ↦ ?_⟩
  cases h : lastValue key es with
  | none => exact absurd (List.mem_map_of_mem hmem) (lastValue_eq_none_iff.mp h)
  | some value' =>
    have hsame := List.inj_on_of_nodup_map hnodup (mem_of_lastValue h) hmem rfl
    exact congrArg some (Prod.mk.inj hsame).2

theorem get?_eq_some_iff {m : StringMap} : m.get? key = some value ↔ (key, value) ∈ m.entries :=
  lastValue_eq_some_iff m.nodup

@[simp] theorem get?_empty : empty.get? key = none := rfl

theorem lastValue_filter (p : Utf16 → Bool) : lastValue key (es.filter fun entry ↦ p entry.1)
    = if p key then lastValue key es else none := by
  induction es with
  | nil => exact (ite_self _).symm
  | cons e es ih =>
    by_cases he : p e.1
    · rw [List.filter_cons_of_pos (by exact he), lastValue, ih, lastValue]
      by_cases hkey : e.1 = key
      · simp [← hkey, he]
      · simp [hkey]
    · rw [List.filter_cons_of_neg (by exact he), ih, lastValue]
      by_cases hkey : e.1 = key
      · simp [← hkey, he]
      · simp [hkey]

theorem lastValue_map_replace {k v : Utf16} :
    lastValue key (es.map fun entry ↦ if entry.1 = k then (k, v) else entry)
      = if key = k then (lastValue key es).map fun _ ↦ v else lastValue key es := by
  induction es with
  | nil => simp [lastValue]
  | cons e es ih =>
    rw [List.map_cons, lastValue, ih, lastValue]
    by_cases hkey : key = k
    · subst hkey
      by_cases he : e.1 = key <;> cases lastValue key es <;> simp [he]
    · by_cases he : e.1 = k
      · simp [hkey, he, Ne.symm hkey]
      · simp [hkey, he]

theorem get?_set (m : StringMap) (k v : Utf16) :
    (m.set k v).get? key = if key = k then some v else m.get? key := by
  change lastValue key (setEntries m.entries k v)
    = if key = k then some v else lastValue key m.entries
  unfold setEntries
  split_ifs with hmem hkey hkey
  · subst hkey
    obtain ⟨value, hvalue⟩ := Option.ne_none_iff_exists'.mp fun h ↦
      lastValue_eq_none_iff.mp h hmem
    rw [lastValue_map_replace, if_pos rfl, hvalue, Option.map_some]
  · rw [lastValue_map_replace, if_neg hkey]
  · rw [lastValue_append, hkey]
    simp [lastValue]
  · rw [lastValue_append]
    simp [lastValue, Ne.symm hkey]

end StringMap
