import BusTester.Text.StringMap
import Mathlib.Data.List.Sort

/-!
# The properties of an object

`Object.entries` and `JSON.stringify` list the keys that are array indices first and in ascending
order, and the others in the order in which they were set (`inOrder`). A `Record<string, string>` of
the client is a map from strings to strings with this peculiarity and another one: assigning a
string to `__proto__` has no effect at all. `JSON.parse` creates its properties without this
exception (`ownProperties`).
-/

namespace JsObject

/-- The number that a string of decimal digits denotes. -/
def decimal (key : Utf16) : Option ℕ :=
  key.foldl
    (fun value c ↦ value.bind fun n ↦
      if 0x30 ≤ c ∧ c ≤ 0x39 then some (10 * n + (c.toNat - 0x30)) else none)
    (some 0)

/-- The array index that a key denotes: a number below `2 ^ 32 - 1` in its shortest form. -/
def arrayIndex (key : Utf16) : Option ℕ :=
  if key = [] ∨ (key.head? = some 0x30 ∧ 1 < key.length) then none
  else (decimal key).filter fun n ↦ n < 4294967295

/-! ## The order of properties -/

variable {β γ : Type*} {ps members : List (Utf16 × β)} {key : Utf16} {v : β}

/-- The properties in the order in which they are listed: array indices first, in ascending order.
-/
def inOrder (ps : List (Utf16 × β)) : List (Utf16 × β) :=
  (ps.filter fun p ↦ (arrayIndex p.1).isSome).insertionSort
      (fun a b ↦ (arrayIndex a.1).getD 0 ≤ (arrayIndex b.1).getD 0)
    ++ ps.filter fun p ↦ !(arrayIndex p.1).isSome

/-- The keys are distinct, and before an array index there are only smaller ones. -/
structure InOwnOrder (keys : List Utf16) : Prop where
  nodup : keys.Nodup
  indices : keys.Pairwise fun a b ↦ ∀ j ∈ arrayIndex b, ∃ i ∈ arrayIndex a, i ≤ j

theorem pairwise_sorted (l : List (Utf16 × β)) :
    (l.insertionSort fun a b ↦ (arrayIndex a.1).getD 0 ≤ (arrayIndex b.1).getD 0).Pairwise
      fun a b ↦ (arrayIndex a.1).getD 0 ≤ (arrayIndex b.1).getD 0 := by
  have : Std.Total fun a b : Utf16 × β ↦
      (arrayIndex a.1).getD 0 ≤ (arrayIndex b.1).getD 0 := ⟨fun _ _ ↦ le_total _ _⟩
  have : IsTrans (Utf16 × β) fun a b ↦
      (arrayIndex a.1).getD 0 ≤ (arrayIndex b.1).getD 0 := ⟨fun _ _ _ ↦ le_trans⟩
  exact List.pairwise_insertionSort _ l

theorem inOrder_perm (ps : List (Utf16 × β)) : (inOrder ps).Perm ps := by
  refine List.Perm.trans ?_ (List.filter_append_perm (fun p ↦ (arrayIndex p.1).isSome) _)
  exact (List.perm_insertionSort _ _).append_right _

/-- Properties with distinct keys are listed in this order. -/
theorem inOwnOrder_inOrder (h : (ps.map Prod.fst).Nodup) :
    InOwnOrder ((inOrder ps).map Prod.fst) where
  nodup := ((inOrder_perm ps).map Prod.fst).nodup_iff.mpr h
  indices := by
    rw [List.pairwise_map, inOrder, List.pairwise_append]
    refine ⟨(pairwise_sorted _).imp_of_mem fun {a b} ha _ hab j hj ↦ ?_,
      List.pairwise_of_forall_mem_list fun a _ b hb j hj ↦ ?_, fun a _ b hb j hj ↦ ?_⟩
    · obtain ⟨i, hi⟩ := Option.isSome_iff_exists.mp
        (List.mem_filter.mp ((List.mem_insertionSort _).mp ha)).2
      rw [hi, Option.mem_def.mp hj] at hab
      exact ⟨i, hi, hab⟩
    all_goals
      have hname := (List.mem_filter.mp hb).2
      rw [Option.mem_def.mp hj] at hname
      cases hname

theorem inOrder_eq_self (h : InOwnOrder (ps.map Prod.fst)) : inOrder ps = ps := by
  have hpairwise := List.pairwise_map.mp h.indices
  have hsorted : (ps.filter fun p ↦ (arrayIndex p.1).isSome).Pairwise
      fun a b ↦ (arrayIndex a.1).getD 0 ≤ (arrayIndex b.1).getD 0 := by
    refine (hpairwise.filter _).imp_of_mem fun {a b} _ hb hab ↦ ?_
    obtain ⟨j, hj⟩ := Option.isSome_iff_exists.mp (List.mem_filter.mp hb).2
    obtain ⟨i, hi, hij⟩ := hab j hj
    rwa [Option.mem_def.mp hi, hj]
  rw [inOrder, hsorted.insertionSort_eq]
  clear h hsorted
  induction ps with
  | nil => rfl
  | cons p ps ih =>
    obtain ⟨hfirst, hrest⟩ := List.pairwise_cons.mp hpairwise
    by_cases hp : (arrayIndex p.1).isSome
    · rw [List.filter_cons, if_pos hp, List.filter_cons, if_neg (by simp [hp]), List.cons_append,
        ih hrest]
    · -- After a name there is no index.
      have hnone : ∀ q ∈ ps, ¬(arrayIndex q.1).isSome := by
        intro q hq hsome
        obtain ⟨j, hj⟩ := Option.isSome_iff_exists.mp hsome
        obtain ⟨i, hi, -⟩ := hfirst q hq j hj
        exact hp (Option.isSome_iff_exists.mpr ⟨i, hi⟩)
      rw [List.filter_cons, if_neg hp, List.filter_eq_nil_iff.mpr hnone, List.nil_append,
        List.filter_eq_self]
      intro q hq
      rcases List.mem_cons.mp hq with rfl | hq
      · simpa using hp
      · simpa using hnone q hq

theorem inOrder_map (f : β → γ) : inOrder (ps.map fun p ↦ (p.1, f p.2))
    = (inOrder ps).map fun p ↦ (p.1, f p.2) := by
  have hsort := List.map_insertionSort
    (fun a b : Utf16 × β ↦ (arrayIndex a.1).getD 0 ≤ (arrayIndex b.1).getD 0)
    (fun a b : Utf16 × γ ↦ (arrayIndex a.1).getD 0 ≤ (arrayIndex b.1).getD 0)
    (fun p ↦ (p.1, f p.2)) (ps.filter fun p ↦ (arrayIndex p.1).isSome) fun _ _ _ _ ↦ Iff.rfl
  rw [inOrder, inOrder, List.map_append, hsort, List.filter_map, List.filter_map]
  rfl

/-! ## Records of strings -/

/-- `Object.entries`. -/
def entries (m : StringMap) : List (Utf16 × Utf16) := inOrder m.entries

/-- **Every property is listed once**, whatever the order. -/
theorem entries_perm (m : StringMap) : (entries m).Perm m.entries := inOrder_perm m.entries

theorem inOwnOrder_entries (m : StringMap) : InOwnOrder ((entries m).map Prod.fst) :=
  inOwnOrder_inOrder m.nodup

/-- The same object, its properties in the order in which they are listed. -/
def listed (m : StringMap) : StringMap where
  entries := entries m
  nodup := ((entries_perm m).map Prod.fst).nodup_iff.mpr m.nodup

theorem entries_listed (m : StringMap) : entries (listed m) = entries m :=
  inOrder_eq_self (inOwnOrder_entries m)

theorem listed_listed (m : StringMap) : listed (listed m) = listed m := by
  simp only [listed, StringMap.mk.injEq]
  exact entries_listed m

/-- `headers[key] = value`. -/
def assign (m : StringMap) (key value : Utf16) : StringMap :=
  if key = Utf16.ofString "__proto__" then m else m.set key value

/-- The assignments of a loop over entries. -/
def assignAll (m : StringMap) (es : List (Utf16 × Utf16)) : StringMap :=
  es.foldl (fun m entry ↦ assign m entry.1 entry.2) m

theorem get?_assign (m : StringMap) (k v key : Utf16) : (assign m k v).get? key
    = if key = k ∧ k ≠ Utf16.ofString "__proto__" then some v else m.get? key := by
  unfold assign
  by_cases hproto : k = Utf16.ofString "__proto__" <;> simp [hproto, StringMap.get?_set]

/-- After the loop, a key other than `__proto__` has the last value it was given. -/
theorem get?_assignAll (m : StringMap) (es : List (Utf16 × Utf16)) (key : Utf16) :
    (assignAll m es).get? key = if key = Utf16.ofString "__proto__" then m.get? key
      else (StringMap.lastValue key es).or (m.get? key) := by
  induction es generalizing m with
  | nil => simp [assignAll, StringMap.lastValue]
  | cons e es ih =>
    change (assignAll (assign m e.1 e.2) es).get? key = _
    rw [ih, get?_assign, StringMap.lastValue, Option.or_assoc]
    by_cases hkey : key = e.1
    · subst hkey
      by_cases hproto : e.1 = Utf16.ofString "__proto__" <;> simp [hproto]
    · simp [hkey, Ne.symm hkey]

example : entries (assign (assign StringMap.empty (Utf16.ofString "b") []) (Utf16.ofString "7") [])
    = [(Utf16.ofString "7", []), (Utf16.ofString "b", [])] := by decide

/-! ## The properties that `JSON.parse` creates -/

/-- Create a property: an old key keeps its place, a new one goes last. -/
def setProperty (ps : List (Utf16 × β)) (key : Utf16) (v : β) : List (Utf16 × β) :=
  if (ps.map Prod.fst).contains key then ps.map fun p ↦ if p.1 = key then (key, v) else p
  else ps ++ [(key, v)]

/-- The properties that are created for the members of an object, as they are listed. -/
def ownProperties (members : List (Utf16 × β)) : List (Utf16 × β) :=
  inOrder (members.foldl (fun ps m ↦ setProperty ps m.1 m.2) [])

theorem setProperty_map (f : β → γ) : setProperty (ps.map fun p ↦ (p.1, f p.2)) key (f v)
    = (setProperty ps key v).map fun p ↦ (p.1, f p.2) := by
  have hkeys : (ps.map fun p ↦ (p.1, f p.2)).map Prod.fst = ps.map Prod.fst := by
    rw [List.map_map]
    rfl
  unfold setProperty
  rw [hkeys]
  split
  · rw [List.map_map, List.map_map]
    refine List.map_congr_left fun p _ ↦ ?_
    simp only [Function.comp_apply]
    split <;> rfl
  · rw [List.map_append]
    rfl

theorem ownProperties_map (f : β → γ) : ownProperties (members.map fun m ↦ (m.1, f m.2))
    = (ownProperties members).map fun p ↦ (p.1, f p.2) := by
  have hfold : ∀ (ms ps : List (Utf16 × β)),
      (ms.map fun m ↦ (m.1, f m.2)).foldl (fun ps m ↦ setProperty ps m.1 m.2)
          (ps.map fun p ↦ (p.1, f p.2))
        = (ms.foldl (fun ps m ↦ setProperty ps m.1 m.2) ps).map fun p ↦ (p.1, f p.2) := by
    intro ms
    induction ms with
    | nil => exact fun _ ↦ rfl
    | cons m ms ih =>
      intro ps
      rw [List.map_cons, List.foldl_cons, List.foldl_cons, setProperty_map, ih]
  rw [ownProperties, ownProperties, ← inOrder_map, ← hfold]
  rfl

theorem map_fst_setProperty : (setProperty ps key v).map Prod.fst
    = if (ps.map Prod.fst).contains key then ps.map Prod.fst else ps.map Prod.fst ++ [key] := by
  unfold setProperty
  split
  · rw [List.map_map]
    refine List.map_congr_left fun p _ ↦ ?_
    by_cases hkey : p.1 = key <;> simp [hkey]
  · simp

theorem nodup_setProperty (h : (ps.map Prod.fst).Nodup) :
    ((setProperty ps key v).map Prod.fst).Nodup := by
  rw [map_fst_setProperty]
  split
  · exact h
  · rename_i hkey
    refine List.nodup_append.mpr ⟨h, List.nodup_singleton key, fun a ha b hb ↦ ?_⟩
    rw [List.mem_singleton.mp hb]
    exact fun heq ↦ hkey (List.contains_iff_mem.mpr (heq ▸ ha))

/-- Whatever the members were, the properties are in order. -/
theorem inOwnOrder_ownProperties (members : List (Utf16 × β)) :
    InOwnOrder ((ownProperties members).map Prod.fst) := by
  have hfold : ∀ (ms ps : List (Utf16 × β)), (ps.map Prod.fst).Nodup →
      ((ms.foldl (fun ps m ↦ setProperty ps m.1 m.2) ps).map Prod.fst).Nodup := by
    intro ms
    induction ms with
    | nil => exact fun _ h ↦ h
    | cons m ms ih => exact fun ps h ↦ ih _ (nodup_setProperty h)
  exact inOwnOrder_inOrder (hfold members [] List.nodup_nil)

/-- **Members in order are properties as they stand.** -/
theorem ownProperties_eq_self (h : InOwnOrder (members.map Prod.fst)) :
    ownProperties members = members := by
  have hfold : ∀ (ms ps : List (Utf16 × β)), ((ps ++ ms).map Prod.fst).Nodup →
      ms.foldl (fun ps m ↦ setProperty ps m.1 m.2) ps = ps ++ ms := by
    intro ms
    induction ms with
    | nil => exact fun ps _ ↦ (List.append_nil ps).symm
    | cons m ms ih =>
      intro ps hnodup
      have hkey : m.1 ∉ ps.map Prod.fst := by
        rw [List.map_append, List.nodup_append] at hnodup
        exact fun hmem ↦ hnodup.2.2 _ hmem _ List.mem_cons_self rfl
      rw [List.foldl_cons, setProperty, if_neg (by rwa [List.contains_iff_mem]),
        ih _ (by simpa using hnodup), List.append_assoc, List.singleton_append]
  rw [ownProperties, hfold members [] h.nodup, List.nil_append, inOrder_eq_self h]

theorem mem_setProperty_iff {p : Utf16 × β} :
    p ∈ setProperty ps key v ↔ if p.1 = key then p.2 = v else p ∈ ps := by
  unfold setProperty
  split_ifs with hkey hp hp
  · obtain ⟨q, hq, hname⟩ := List.mem_map.mp (List.contains_iff_mem.mp hkey)
    constructor
    · intro h
      obtain ⟨q, -, rfl⟩ := List.mem_map.mp h
      split_ifs at hp ⊢ with hq
      · rfl
      · exact absurd hp hq
    · rintro rfl
      exact List.mem_map.mpr ⟨q, hq, by rw [if_pos hname, ← hp]⟩
  · constructor
    · intro h
      obtain ⟨q, hq, rfl⟩ := List.mem_map.mp h
      split_ifs at hp ⊢
      · exact absurd rfl hp
      · exact hq
    · exact fun h ↦ List.mem_map.mpr ⟨p, h, if_neg hp⟩
  · have hnot : p ∉ ps := fun h ↦ hkey (List.contains_iff_mem.mpr (hp ▸ List.mem_map_of_mem h))
    rw [List.mem_append, or_iff_right hnot, List.mem_singleton]
    exact ⟨fun h ↦ congrArg Prod.snd h, fun h ↦ Prod.ext hp h⟩
  · rw [List.mem_append, List.mem_singleton]
    exact or_iff_left fun h ↦ hp (congrArg Prod.fst h)

/-- **The properties are the last members with their keys.** -/
theorem mem_ownProperties_iff {p : Utf16 × β} :
    p ∈ ownProperties members ↔ members.findRev? (fun m ↦ m.1 = p.1) = some p := by
  rw [ownProperties, (inOrder_perm _).mem_iff, List.findRev?_eq_find?_reverse]
  induction members using List.reverseRecOn with
  | nil => exact iff_of_false (List.not_mem_nil) (by rintro ⟨⟩)
  | append_singleton ms m ih =>
    rw [List.foldl_concat, mem_setProperty_iff, List.reverse_concat, List.find?_cons, ih]
    by_cases hm : m.1 = p.1
    · simp only [hm, if_true, decide_true, Option.some.injEq]
      exact ⟨fun h ↦ Prod.ext hm h.symm, fun h ↦ h ▸ rfl⟩
    · simp only [hm, Ne.symm hm, if_false, decide_false]

theorem find?_ownProperties (members : List (Utf16 × β)) (key : Utf16) :
    (ownProperties members).find? (fun p ↦ p.1 = key)
      = members.findRev? (fun m ↦ m.1 = key) := by
  refine Option.ext fun p ↦ ⟨fun h ↦ ?_, fun h ↦ ?_⟩
  · obtain rfl : p.1 = key := by simpa using List.find?_some h
    exact mem_ownProperties_iff.mp (List.mem_of_find?_eq_some h)
  · obtain rfl : p.1 = key := by
      rw [List.findRev?_eq_find?_reverse] at h
      simpa using List.find?_some h
    obtain ⟨q, hq⟩ : ∃ q, (ownProperties members).find? (fun r ↦ r.1 = p.1) = some q := by
      refine Option.isSome_iff_exists.mp (List.find?_isSome.mpr ?_)
      exact ⟨p, mem_ownProperties_iff.mpr h, by simp⟩
    have hname : q.1 = p.1 := by simpa using List.find?_some hq
    have hlast := mem_ownProperties_iff.mp (List.mem_of_find?_eq_some hq)
    rw [hname, h] at hlast
    rw [hq, hlast]

/-- Every property is a member of the document. -/
theorem mem_of_mem_ownProperties {p : Utf16 × β} (h : p ∈ ownProperties members) :
    p ∈ members := by
  have hlast := mem_ownProperties_iff.mp h
  rw [List.findRev?_eq_find?_reverse] at hlast
  exact List.mem_reverse.mp (List.mem_of_find?_eq_some hlast)

end JsObject
