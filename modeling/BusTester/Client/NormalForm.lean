import BusTester.Client.JsonPrettyPipe

/-!
# The payload on the screen is a normal form

What `JSON.parse` reads in a payload is a document in which every number is one of binary64, or
`null` where there is none, and in which every object has its own properties (`Json.reading`). What
the pipe shows depends on this alone and tells all of it: `transform_normalForm`. So to apply the
pipe once more changes nothing, and payloads that differ in notation only look the same.
-/

namespace Json

open NearestEven ShortestDecimal

/-! ## Numbers -/

namespace Binary64

variable {x y : Binary64}

/-- The number itself. -/
def value (x : Binary64) : ℚ := if x.negative then -x.magnitude else x.magnitude

theorem value_eq_zero_iff : x.value = 0 ↔ x.magnitude = 0 := by
  unfold value
  split_ifs
  · exact neg_eq_zero
  · exact Iff.rfl

/-- Apart from zero, a number is given by its value. -/
theorem eq_of_value_eq (hx : x.magnitude ≠ 0) (h : x.value = y.value) : x = y := by
  have hxpos : 0 < x.magnitude := x.nonneg.lt_of_ne' hx
  have hynonneg : 0 ≤ y.magnitude := y.nonneg
  unfold value at h
  have hsign : x.negative = y.negative := by
    cases hxn : x.negative <;> cases hyn : y.negative <;> rw [hxn, hyn] at h <;>
      first | rfl | (simp only [if_true, Bool.false_eq_true, if_false] at h; linarith)
  have hmagnitude : x.magnitude = y.magnitude := by
    rw [hsign] at h
    split_ifs at h
    · exact neg_inj.mp h
    · exact h
  cases x
  cases y
  simp only [mk.injEq]
  exact ⟨hsign, hmagnitude⟩

/-- **What is written is read back.** -/
theorem nearest_magnitude_numeral (hx : x.magnitude ≠ 0) :
    binary64.nearest x.numeral.magnitude = x.magnitude := by
  rw [(x.magnitude_numeral hx).1]
  exact (isShortest_decimal (x.rounds hx) (x.exists_fits hx)).rounds

theorem magnitude_numeral_eq_zero_iff : x.numeral.magnitude = 0 ↔ x.magnitude = 0 := by
  by_cases hx : x.magnitude = 0
  · exact iff_of_true (NumberLiteral.value_eq_zero_iff.mp (value_numeral_of_zero hx)) hx
  · refine iff_of_false ?_ hx
    rw [(x.magnitude_numeral hx).1]
    exact (isShortest_decimal (x.rounds hx) (x.exists_fits hx)).pos.ne'

theorem numeral_congr (h : x.value = y.value) : x.numeral = y.numeral := by
  by_cases hx : x.magnitude = 0
  · have hy : y.magnitude = 0 := by rwa [← value_eq_zero_iff, ← h, value_eq_zero_iff]
    rw [numeral, dif_pos hx, numeral, dif_pos hy]
  · rw [eq_of_value_eq hx h]

theorem exists_toNumber_numeral (hfinite : x.magnitude < 2 ^ 1024) :
    ∃ y, x.numeral.toNumber = .finite y ∧ y.value = x.value := by
  by_cases hx : x.magnitude = 0
  · refine ⟨.zero, dif_pos (magnitude_numeral_eq_zero_iff.mpr hx), ?_⟩
    rw [value_eq_zero_iff.mpr hx]
    rfl
  · have hnearest := nearest_magnitude_numeral hx
    have hne : x.numeral.magnitude ≠ 0 := fun h ↦ hx (magnitude_numeral_eq_zero_iff.mp h)
    rw [NumberLiteral.toNumber, dif_neg hne, if_pos (hnearest.trans_lt hfinite)]
    refine ⟨_, rfl, ?_⟩
    change (if x.numeral.negative then -binary64.nearest x.numeral.magnitude
      else binary64.nearest x.numeral.magnitude) = x.value
    rw [(x.magnitude_numeral hx).2, hnearest]
    rfl

end Binary64

theorem NumberLiteral.magnitude_lt_of_toNumber {n : NumberLiteral} {x : Binary64}
    (h : n.toNumber = .finite x) : x.magnitude < 2 ^ 1024 := by
  unfold toNumber at h
  split at h
  · cases h
    exact pow_pos (by norm_num) _
  · dsimp only at h
    split at h
    · rename_i hfinite
      cases h
      exact hfinite
    · cases h

/-! ## What is read in a document -/

/-- What JavaScript reads in a document. Infinity is left to be written as `null`. -/
def reading : Json → Document :=
  fold .null .bool
    (fun n ↦ match n.toNumber with
      | .finite x => .number x.value
      | .infinite => .null)
    .string .array fun members ↦ .object (JsObject.ownProperties members)

@[simp] theorem reading_null : reading null = .null := rfl

@[simp] theorem reading_bool (b : Bool) : (bool b).reading = .bool b := rfl

@[simp] theorem reading_string (s : Utf16) : (string s).reading = .string s := rfl

@[simp] theorem reading_array (items : List Json) :
    (array items).reading = .array (items.map reading) :=
  congrArg Document.array (foldItems_eq ..)

@[simp] theorem reading_object (members : List (Utf16 × Json)) : (object members).reading
    = .object (JsObject.ownProperties (members.map fun m ↦ (m.1, m.2.reading))) :=
  congrArg (fun ms ↦ Document.object (JsObject.ownProperties ms)) (foldMembers_eq ..)

theorem reading_number (n : NumberLiteral) :
    (∃ x, n.toNumber = .finite x ∧ (number n).reading = .number x.value ∧
      (number n).viaJs = number x.numeral) ∨
    (n.toNumber = .infinite ∧ (number n).reading = .null ∧ (number n).viaJs = null) := by
  have hreading : (number n).reading = match n.toNumber with
      | .finite x => .number x.value
      | .infinite => .null := rfl
  have hviaJs : (number n).viaJs = (JsValue.number n.toNumber).toJson := rfl
  cases hn : n.toNumber with
  | infinite =>
    rw [hn] at hreading hviaJs
    exact Or.inr ⟨rfl, hreading, hviaJs⟩
  | finite x =>
    rw [hn] at hreading hviaJs
    exact Or.inl ⟨x, rfl, hreading, hviaJs⟩

/-- Only `null` and a number too large read as `null`. -/
theorem viaJs_of_reading_null {v : Json} (h : v.reading = .null) : v.viaJs = null := by
  cases v with
  | null => rfl
  | number n =>
    rcases reading_number n with ⟨x, -, hreading, -⟩ | ⟨-, -, hviaJs⟩
    · cases hreading.symm.trans h
    · exact hviaJs
  | bool | string | array | object => simp at h

theorem viaJs_of_reading_number {v : Json} {q : ℚ} (h : v.reading = .number q) :
    ∃ x : Binary64, x.value = q ∧ v.viaJs = number x.numeral := by
  cases v with
  | number n =>
    rcases reading_number n with ⟨x, -, hreading, hviaJs⟩ | ⟨-, hreading, -⟩
    · exact ⟨x, Document.number.inj (hreading.symm.trans h), hviaJs⟩
    · cases hreading.symm.trans h
  | null | bool | string | array | object => simp at h

theorem viaJs_array (items : List Json) : (array items).viaJs = array (items.map viaJs) := by
  rw [viaJs, toJs_array, JsValue.toJson_array, List.map_map]
  rfl

theorem viaJs_object_eq (members : List (Utf16 × Json)) : (object members).viaJs
    = object ((JsObject.ownProperties members).map fun m ↦ (m.1, m.2.viaJs)) := by
  rw [viaJs, toJs_object, JsValue.toJson_object, JsObject.ownProperties_map, List.map_map]
  rfl

theorem ownProperties_ownProperties {β : Type*} (members : List (Utf16 × β)) :
    JsObject.ownProperties (JsObject.ownProperties members) = JsObject.ownProperties members :=
  JsObject.ownProperties_eq_self (JsObject.inOwnOrder_ownProperties members)

/-- **What is shown reads the same.** -/
theorem reading_viaJs (v : Json) : v.viaJs.reading = v.reading := by
  induction v using induction with
  | null | bool | string => rfl
  | number n =>
    rcases reading_number n with ⟨x, hx, hreading, hviaJs⟩ | ⟨-, hreading, hviaJs⟩
    · obtain ⟨y, hy, hvalue⟩ :=
        x.exists_toNumber_numeral (NumberLiteral.magnitude_lt_of_toNumber hx)
      rw [hviaJs, hreading, ← hvalue]
      rcases reading_number x.numeral with ⟨z, hz, hsame, -⟩ | ⟨hinfinite, -⟩
      · cases hy.symm.trans hz
        exact hsame
      · cases hy.symm.trans hinfinite
    · rw [hviaJs, hreading, reading_null]
  | array items ih =>
    rw [viaJs_array, reading_array, reading_array, List.map_map]
    exact congrArg Document.array (List.map_congr_left ih)
  | object members ih =>
    have hsame : (JsObject.ownProperties members).map (fun m ↦ (m.1, m.2.viaJs.reading))
        = (JsObject.ownProperties members).map fun m ↦ (m.1, m.2.reading) :=
      List.map_congr_left fun m hm ↦
        Prod.ext rfl (ih m (JsObject.mem_of_mem_ownProperties hm))
    rw [viaJs_object_eq, reading_object, reading_object, List.map_map]
    change Document.object (JsObject.ownProperties
      ((JsObject.ownProperties members).map fun m ↦ (m.1, m.2.viaJs.reading))) = _
    rw [hsame, JsObject.ownProperties_map, JsObject.ownProperties_map, ownProperties_ownProperties]

/-- Lists that `f` takes to the same are taken to the same by `g`, if their items are. -/
theorem map_congr_of {α β γ : Type*} {f : α → β} {g : α → γ} {xs ys : List α}
    (h : ∀ x ∈ xs, ∀ y, f x = f y → g x = g y) (heq : xs.map f = ys.map f) :
    xs.map g = ys.map g := by
  induction xs generalizing ys with
  | nil =>
    rw [List.map_nil, eq_comm, List.map_eq_nil_iff] at heq
    rw [heq]
  | cons x xs ih =>
    cases ys with
    | nil => cases heq
    | cons y ys =>
      obtain ⟨hhead, htail⟩ := List.cons.inj heq
      rw [List.map_cons, List.map_cons, h x List.mem_cons_self y hhead,
        ih (fun x hx ↦ h x (List.mem_cons_of_mem _ hx)) htail]

/-- **Nothing else matters**: documents that read the same are shown alike. -/
theorem viaJs_congr {v w : Json} (h : v.reading = w.reading) : v.viaJs = w.viaJs := by
  -- a literal on the right of a document that is none
  have hliteral : ∀ {n : NumberLiteral} {d : Document}, d = (number n).reading → d ≠ .null →
      (∀ q, d ≠ .number q) → False := by
    intro n d hd hnull hnumber
    rcases reading_number n with ⟨x, -, hreading, -⟩ | ⟨-, hreading, -⟩
    · exact hnumber _ (hd.trans hreading)
    · exact hnull (hd.trans hreading)
  induction v using induction generalizing w with
  | null => exact (viaJs_of_reading_null h.symm).symm
  | bool b =>
    cases w with
    | bool => exact congrArg (viaJs ∘ bool) (Document.bool.inj h)
    | number n => exact (hliteral h (by simp) (by simp)).elim
    | null | string | array | object => simp at h
  | number n =>
    rcases reading_number n with ⟨x, -, hreading, hviaJs⟩ | ⟨-, hreading, hviaJs⟩
    · obtain ⟨y, hvalue, hw⟩ := viaJs_of_reading_number (h.symm.trans hreading)
      rw [hviaJs, hw, Binary64.numeral_congr hvalue]
    · rw [hviaJs, viaJs_of_reading_null (h.symm.trans hreading)]
  | string s =>
    cases w with
    | string => exact congrArg (viaJs ∘ string) (Document.string.inj h)
    | number n => exact (hliteral h (by simp) (by simp)).elim
    | null | bool | array | object => simp at h
  | array items ih =>
    rw [reading_array] at h
    cases w with
    | array items' =>
      rw [reading_array] at h
      rw [viaJs_array, viaJs_array]
      exact congrArg array (map_congr_of ih (Document.array.inj h))
    | number n => exact (hliteral h (by simp) (by simp)).elim
    | null | bool | string | object => simp at h
  | object members ih =>
    rw [reading_object, JsObject.ownProperties_map] at h
    cases w with
    | object members' =>
      rw [reading_object, JsObject.ownProperties_map] at h
      rw [viaJs_object_eq, viaJs_object_eq]
      refine congrArg object (map_congr_of (fun m hm m' hread ↦ ?_) (Document.object.inj h))
      obtain ⟨hkey, hvalue⟩ := Prod.ext_iff.mp hread
      exact Prod.ext hkey (ih m (JsObject.mem_of_mem_ownProperties hm) hvalue)
    | number n => exact (hliteral h (by simp) (by simp)).elim
    | null | bool | string | array => simp at h

end Json

namespace BusTester.JsonPrettyPipe

/-- What there is to see in a payload: what is read in it, or the text itself. -/
def seen (value : Utf16) : Utf16 ⊕ Json.Document :=
  match Json.parse value with
  | none => .inl value
  | some v => .inr v.reading

theorem seen_transform (value : Utf16) : seen (transform value) = seen value := by
  unfold seen
  cases h : Json.parse value with
  | none =>
    rw [transform_eq_self h, h]
  | some v =>
    rw [parse_transform h]
    exact congrArg Sum.inr v.reading_viaJs

theorem transform_of_parse {value : Utf16} {v : Json} (h : Json.parse value = some v) :
    transform value = Json.pretty 0 v.viaJs := by
  rw [transform, h]
  rfl

theorem transform_congr {a b : Utf16} (h : seen a = seen b) : transform a = transform b := by
  unfold seen at h
  cases ha : Json.parse a with
  | none =>
    cases hb : Json.parse b with
    | none =>
      rw [ha, hb] at h
      rw [Sum.inl.inj h]
    | some w =>
      rw [ha, hb] at h
      cases h
  | some v =>
    cases hb : Json.parse b with
    | none =>
      rw [ha, hb] at h
      cases h
    | some w =>
      rw [ha, hb] at h
      rw [transform_of_parse ha, transform_of_parse hb, Json.viaJs_congr (Sum.inr.inj h)]

/-- **What is shown is a normal form** of what is seen: payloads are shown alike if and only if
the same is seen in them, and what is shown is shown as it is. -/
theorem transform_normalForm (value : Utf16) : transform (transform value) = transform value ∧
    ∀ other, transform value = transform other ↔ seen value = seen other := by
  refine ⟨transform_congr (seen_transform value), fun other ↦ ⟨fun h ↦ ?_, transform_congr⟩⟩
  rw [← seen_transform value, h, seen_transform]

end BusTester.JsonPrettyPipe
