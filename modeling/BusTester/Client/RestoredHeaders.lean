import BusTester.Client.SendComponent

/-!
# Headers that are resolved and restored

`resolvedHeaders` makes one map of two sources, the free rows and the five fixed fields, and
`restoreHeaders` splits a map into the two again. Resolving what was restored gives the map back,
whatever rows it came from: blank entries were dropped, the last of several rows with one key was
kept, and a row with the key of a fixed field moves into the field.

Both are described by the entries they go through: the map is a loop of assignments over `assigned`,
and restoring gives each field the last value of its key.
-/

namespace BusTester

/-- The keys of the fixed fields. -/
def SendComponent.comunesKeys : List Utf16 :=
  [comunesHeaderKeys.tipoMensaje, comunesHeaderKeys.contentType, comunesHeaderKeys.intencion,
    comunesHeaderKeys.messageId, comunesHeaderKeys.correlationId]

theorem SendComponent.nodup_comunesKeys : comunesKeys.Nodup := by decide

/-! ## The loop of `restoreHeaders` -/

namespace HeaderEditor

open SendComponent (comunesKeys nodup_comunesKeys)
open StringMap (lastValue)

variable {β : Type} {c : HeaderEditor β} {entry e : Utf16 × β} {es : List (Utf16 × β)}

/-- All headers of the editor, filled in or not. -/
def headers (c : HeaderEditor β) : List (Utf16 × β) :=
  c.comunes ++ c.additionalHeaders.map fun row ↦ (row.key, row.value)

theorem map_fst_comunes (c : HeaderEditor β) : c.comunes.map Prod.fst = comunesKeys := rfl

theorem comunes_restoreHeader (c : HeaderEditor β) (entry : Utf16 × β) :
    (c.restoreHeader entry).comunes
      = c.comunes.map fun field ↦ (field.1, if entry.1 = field.1 then entry.2 else field.2) := by
  have hdistinct := nodup_comunesKeys
  simp only [comunesKeys, List.nodup_cons, List.mem_cons, List.not_mem_nil, or_false, not_or]
    at hdistinct
  unfold restoreHeader
  split_ifs with h₁ h₂ h₃ h₄ h₅ <;> simp [comunes, *, eq_comm]

theorem additionalHeaders_restoreHeader (c : HeaderEditor β) (entry : Utf16 × β) :
    (c.restoreHeader entry).additionalHeaders = c.additionalHeaders ++
      if entry.1 ∈ comunesKeys then [] else [⟨entry.1, entry.2⟩] := by
  unfold restoreHeader
  split_ifs <;> simp_all [comunesKeys]

theorem comunes_foldl_restoreHeader (es : List (Utf16 × Utf16)) (c : HeaderEditor Utf16) :
    (es.foldl restoreHeader c).comunes
      = c.comunes.map fun field ↦ (field.1, (lastValue field.1 es).getD field.2) := by
  induction es generalizing c with
  | nil => exact (List.map_id _).symm
  | cons e es ih =>
    rw [List.foldl_cons, ih, comunes_restoreHeader, List.map_map]
    refine List.map_congr_left fun field _ ↦ ?_
    rw [Function.comp_apply, lastValue]
    cases lastValue field.1 es with
    | some v => rfl
    | none => by_cases he : e.1 = field.1 <;> simp [he]

theorem additionalHeaders_foldl_restoreHeader (es : List (Utf16 × β)) (c : HeaderEditor β) :
    (es.foldl restoreHeader c).additionalHeaders = c.additionalHeaders ++
      (es.filter fun entry ↦ entry.1 ∉ comunesKeys).map fun entry ↦ ⟨entry.1, entry.2⟩ := by
  induction es generalizing c with
  | nil => exact (List.append_nil _).symm
  | cons e es ih =>
    rw [List.foldl_cons, ih, additionalHeaders_restoreHeader, List.append_assoc]
    by_cases he : e.1 ∈ comunesKeys <;> simp [he]

theorem mem_headers_iff : e ∈ c.headers ↔
    e ∈ c.comunes ∨ ∃ row ∈ c.additionalHeaders, (row.key, row.value) = e := by
  rw [headers, List.mem_append, List.mem_map]

theorem mem_headers_restoreHeader (c : HeaderEditor β) (entry : Utf16 × β) :
    entry ∈ (c.restoreHeader entry).headers := by
  rw [mem_headers_iff, comunes_restoreHeader, additionalHeaders_restoreHeader]
  by_cases hkey : entry.1 ∈ comunesKeys
  · obtain ⟨field, hfield, hname⟩ := List.mem_map.mp (c.map_fst_comunes ▸ hkey)
    refine Or.inl (List.mem_map.mpr ⟨field, hfield, ?_⟩)
    rw [if_pos hname.symm, hname]
  · exact Or.inr ⟨⟨entry.1, entry.2⟩, by simp [hkey], rfl⟩

theorem mem_headers_of_restoreHeader (h : e ∈ (c.restoreHeader entry).headers) :
    e ∈ c.headers ∨ e = entry := by
  rw [mem_headers_iff, comunes_restoreHeader, additionalHeaders_restoreHeader] at h
  rcases h with h | ⟨row, hrow, rfl⟩
  · obtain ⟨field, hfield, rfl⟩ := List.mem_map.mp h
    split_ifs with hname
    · exact Or.inr (Prod.ext hname.symm rfl)
    · exact Or.inl (mem_headers_iff.mpr (Or.inl hfield))
  · rcases List.mem_append.mp hrow with hrow | hrow
    · exact Or.inl (mem_headers_iff.mpr (Or.inr ⟨row, hrow, rfl⟩))
    · split_ifs at hrow
      · cases hrow
      · rw [List.mem_singleton.mp hrow]
        exact Or.inr rfl

theorem mem_headers_restoreHeader_of_mem (h : e ∈ c.headers)
    (hkey : e.1 ∈ comunesKeys → e.1 ≠ entry.1) :
    e ∈ (c.restoreHeader entry).headers := by
  rw [mem_headers_iff, comunes_restoreHeader, additionalHeaders_restoreHeader]
  rcases mem_headers_iff.mp h with hfield | ⟨row, hrow, hrow_eq⟩
  · refine Or.inl (List.mem_map.mpr ⟨e, hfield, ?_⟩)
    rw [if_neg (hkey (c.map_fst_comunes ▸ List.mem_map_of_mem hfield)).symm]
  · exact Or.inr ⟨row, List.mem_append_left _ hrow, hrow_eq⟩

/-- For each fixed field there is one entry at most. -/
def SingleFields (es : List (Utf16 × β)) : Prop :=
  ∀ e ∈ es, ∀ e' ∈ es, e'.1 = e.1 → e.1 ∈ comunesKeys → e' = e

theorem mem_headers_foldl_restoreHeader (hes : SingleFields es) (he : e ∈ es) :
    e ∈ (es.foldl restoreHeader c).headers := by
  induction es using List.reverseRecOn with
  | nil => cases he
  | append_singleton es x ih =>
    rw [List.foldl_concat]
    by_cases hx : e = x
    · rw [hx]
      exact mem_headers_restoreHeader _ x
    · have hmem : e ∈ es := by simpa [hx] using he
      refine mem_headers_restoreHeader_of_mem (ih ?_ hmem) fun hkey hname ↦ ?_
      · exact fun a ha b hb ↦ hes a (List.mem_append_left _ ha) b (List.mem_append_left _ hb)
      · exact hx (hes e he x (by simp) hname.symm hkey).symm

theorem mem_of_mem_headers_foldl_restoreHeader (h : e ∈ (es.foldl restoreHeader c).headers) :
    e ∈ c.headers ∨ e ∈ es := by
  induction es using List.reverseRecOn with
  | nil => exact Or.inl h
  | append_singleton es x ih =>
    rw [List.foldl_concat] at h
    rcases mem_headers_of_restoreHeader h with h | rfl
    · exact (ih h).imp_right (List.mem_append_left _)
    · exact Or.inr (by simp)

end HeaderEditor

namespace SendComponent

open JsObject StringMap

/-- The rows that are neither without a key nor without a value. -/
def filledRows (c : SendComponent) : List (Utf16 × Utf16) :=
  (c.additionalHeaders.map fun row ↦ (row.key, row.value)).filter fun entry ↦
    entry.1.jsTrim ≠ [] ∧ entry.2.jsTrim ≠ []

/-- The fixed fields that are not blank. -/
def filledComunes (c : SendComponent) : List (Utf16 × Utf16) :=
  c.comunes.filter fun entry ↦ entry.2.jsTrim ≠ []

/-- What the two loops of `resolvedHeaders` assign. -/
def assigned (c : SendComponent) : List (Utf16 × Utf16) := c.filledRows ++ c.filledComunes

/-- What can be sent as headers: no key and no value is blank, and no key is `__proto__`. -/
def Sendable (m : StringMap) : Prop :=
  ∀ entry ∈ m.entries, entry.1.jsTrim ≠ [] ∧ entry.2.jsTrim ≠ [] ∧
    entry.1 ≠ Utf16.ofString "__proto__"

variable {c d : SendComponent} {m : StringMap} {key value : Utf16} {es : List (Utf16 × Utf16)}

theorem sendable_of_mem_comunesKeys (h : key ∈ comunesKeys) :
    key.jsTrim ≠ [] ∧ key ≠ Utf16.ofString "__proto__" := by
  revert key
  decide

/-! ## Resolving -/

theorem resolvedHeaders_eq_assignAll (henabled : c.headersEnabled = true) :
    c.resolvedHeaders = assignAll .empty c.assigned := by
  rw [resolvedHeaders, if_pos henabled, assigned, assignAll, List.foldl_append, filledRows,
    filledComunes, List.foldl_filter, List.foldl_filter, List.foldl_map]
  simp only [decide_eq_true_eq]

/-- **What is resolved for a key** is the last value that the loops assign to it. -/
theorem get?_resolvedHeaders (henabled : c.headersEnabled = true) : c.resolvedHeaders.get? key
    = if key = Utf16.ofString "__proto__" then none else lastValue key c.assigned := by
  rw [resolvedHeaders_eq_assignAll henabled, get?_assignAll, get?_empty, Option.or_none]

/-- Whatever the form holds, what is resolved can be sent. -/
theorem sendable_resolvedHeaders (c : SendComponent) : Sendable c.resolvedHeaders := by
  rintro ⟨key, value⟩ hmem
  rw [← get?_eq_some_iff] at hmem
  cases henabled : c.headersEnabled with
  | false =>
    rw [resolvedHeaders, henabled] at hmem
    cases hmem
  | true =>
    rw [get?_resolvedHeaders henabled] at hmem
    obtain ⟨hproto, hlast⟩ := Option.ite_none_left_eq_some.mp hmem
    rcases List.mem_append.mp (mem_of_lastValue hlast) with hrow | hfield
    · have hfilled := (List.mem_filter.mp hrow).2
      rw [decide_eq_true_eq] at hfilled
      exact ⟨hfilled.1, hfilled.2, hproto⟩
    · have hfilled := (List.mem_filter.mp hfield).2
      have hkey : key ∈ comunesKeys := by
        rw [← c.map_fst_comunes]
        exact List.mem_map_of_mem (List.mem_of_mem_filter hfield)
      exact ⟨(sendable_of_mem_comunesKeys hkey).1, by simpa using hfilled, hproto⟩

/-! ## Restoring -/

theorem lastValue_entries (m : StringMap) (key : Utf16) :
    lastValue key (JsObject.entries m) = m.get? key := by
  refine Option.ext fun value ↦ ?_
  rw [get?_eq_some_iff, ← (entries_perm m).mem_iff]
  exact lastValue_eq_some_iff (listed m).nodup

/-- **What is restored**: each field has the value of its key, or is empty; the other keys are the
rows, and the headers are on when there are any. -/
theorem comunes_restoreHeaders (d : SendComponent) (m : StringMap) :
    (d.restoreHeaders (some m)).comunes
      = comunesKeys.map fun key ↦ (key, (m.get? key).getD []) := by
  refine (HeaderEditor.comunes_foldl_restoreHeader (JsObject.entries m) (.cleared [])).trans ?_
  simp only [lastValue_entries]
  rfl

theorem additionalHeaders_restoreHeaders (d : SendComponent) (m : StringMap) :
    (d.restoreHeaders (some m)).additionalHeaders
      = ((JsObject.entries m).filter fun entry ↦ entry.1 ∉ comunesKeys).map
        fun entry ↦ ⟨entry.1, entry.2⟩ :=
  HeaderEditor.additionalHeaders_foldl_restoreHeader (JsObject.entries m) (.cleared [])

theorem headersEnabled_restoreHeaders (d : SendComponent) (m : StringMap) :
    (d.restoreHeaders (some m)).headersEnabled = true ↔ m ≠ .empty := by
  change decide (0 < (JsObject.entries m).length) = true ↔ _
  rw [decide_eq_true_eq, (entries_perm m).length_eq, List.length_pos_iff, ne_eq, ne_eq,
    not_iff_not]
  exact ⟨fun h ↦ StringMap.ext h, fun h ↦ congrArg StringMap.entries h⟩

/-! ## There and back -/

theorem filledRows_restoreHeaders (d : SendComponent) (hm : Sendable m) :
    (d.restoreHeaders (some m)).filledRows
      = (JsObject.entries m).filter fun entry ↦ entry.1 ∉ comunesKeys := by
  rw [filledRows, additionalHeaders_restoreHeaders, List.map_map]
  refine (congrArg _ (List.map_id _)).trans (List.filter_eq_self.mpr fun entry hmem ↦ ?_)
  have hentry := hm entry ((entries_perm m).mem_iff.mp (List.mem_of_mem_filter hmem))
  simp [hentry.1, hentry.2.1]

/-- The restored fields that are not blank are the keys of the map among the fixed ones. -/
theorem lastValue_filledComunes_restoreHeaders (d : SendComponent) (hm : Sendable m) :
    lastValue key (d.restoreHeaders (some m)).filledComunes
      = if key ∈ comunesKeys then m.get? key else none := by
  have hnodup : ((d.restoreHeaders (some m)).filledComunes.map Prod.fst).Nodup :=
    nodup_comunesKeys.sublist (List.filter_sublist.map Prod.fst)
  refine Option.ext fun value ↦ ?_
  rw [lastValue_eq_some_iff hnodup, filledComunes, comunes_restoreHeaders, List.mem_filter,
    List.mem_map, Option.ite_none_right_eq_some]
  constructor
  · rintro ⟨⟨k, hk, heq⟩, hfilled⟩
    obtain ⟨rfl, rfl⟩ := Prod.mk.inj heq
    refine ⟨hk, ?_⟩
    cases hvalue : m.get? k with
    | some v => rfl
    | none =>
      rw [hvalue] at hfilled
      exact absurd rfl (of_decide_eq_true hfilled)
  · rintro ⟨hk, hvalue⟩
    have hfilled := hm _ (get?_eq_some_iff.mp hvalue)
    exact ⟨⟨key, hk, by rw [hvalue, Option.getD_some]⟩, decide_eq_true hfilled.2.1⟩

/-- **Restoring a map that can be sent and resolving it again gives the map.** -/
theorem get?_resolvedHeaders_restoreHeaders (d : SendComponent) (hm : Sendable m) :
    (d.restoreHeaders (some m)).resolvedHeaders.get? key = m.get? key := by
  cases henabled : (d.restoreHeaders (some m)).headersEnabled with
  | false =>
    have hempty : m = .empty := by
      by_contra hne
      rw [(headersEnabled_restoreHeaders d m).mpr hne] at henabled
      cases henabled
    rw [resolvedHeaders, henabled, hempty]
    rfl
  | true =>
    rw [get?_resolvedHeaders henabled, assigned, lastValue_append, filledRows_restoreHeaders d hm,
      lastValue_filledComunes_restoreHeaders d hm,
      lastValue_filter (fun key ↦ decide (key ∉ comunesKeys)), lastValue_entries]
    split_ifs with hproto hfixed hrow hrow
    · -- `__proto__` is never a key of the map.
      refine (Option.eq_none_iff_forall_ne_some.mpr fun value hvalue ↦ ?_).symm
      exact (hm _ (get?_eq_some_iff.mp hvalue)).2.2 hproto
    · exact absurd hfixed (of_decide_eq_true hrow)
    · exact Option.or_none
    · exact Option.none_or
    · exact absurd (decide_eq_true hfixed) hrow

/-- **Headers survive being recalled.** Whatever the form held, restoring what it resolved to over
any other form makes the form resolve to it again; the rows then have distinct keys, none of them a
fixed one, and the headers are on exactly if there are any. -/
theorem restoreHeaders_resolvedHeaders (c d : SendComponent) :
    (∀ key, (d.restoreHeaders (some c.resolvedHeaders)).resolvedHeaders.get? key
      = c.resolvedHeaders.get? key) ∧
    (∀ row ∈ (d.restoreHeaders (some c.resolvedHeaders)).additionalHeaders,
      row.key ∉ comunesKeys) ∧
    ((d.restoreHeaders (some c.resolvedHeaders)).additionalHeaders.map HeaderRow.key).Nodup ∧
    ((d.restoreHeaders (some c.resolvedHeaders)).headersEnabled = true ↔
      c.resolvedHeaders ≠ .empty) := by
  refine ⟨fun key ↦ get?_resolvedHeaders_restoreHeaders d (sendable_resolvedHeaders c), ?_, ?_,
    headersEnabled_restoreHeaders d c.resolvedHeaders⟩
  · rw [additionalHeaders_restoreHeaders]
    rintro row hrow
    obtain ⟨entry, hentry, rfl⟩ := List.mem_map.mp hrow
    exact of_decide_eq_true (List.mem_filter.mp hentry).2
  · rw [additionalHeaders_restoreHeaders, List.map_map]
    exact (listed c.resolvedHeaders).nodup.sublist (List.filter_sublist.map Prod.fst)

end SendComponent

end BusTester
