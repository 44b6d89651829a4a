import BusTester.Client.CorruptedHistory

/-!
# Records that are what they are taken for

`SendComponent` and `HistoryStorage` take every stored item for a record of its kind, with strings
in its fields; `CorruptedHistory` takes it as it is. For the items that are such records the two
agree: what the form holds after one of them was used is what `SendComponent` says, as values
(`run_useRecent`, `run_useTemplate`), and over a storage that `HistoryStorage.load` can load, run by
run, so do the lists (`related_run`).
-/

namespace BusTester

open JsObject

/-! ## Headers that are strings -/

namespace HeaderEditor

variable {β γ : Type}

/-- The editor with `f` applied to every value. -/
def map (f : β → γ) (c : HeaderEditor β) : HeaderEditor γ where
  headersEnabled := c.headersEnabled
  headerTipoMensaje := f c.headerTipoMensaje
  headerContentType := f c.headerContentType
  headerIntencion := f c.headerIntencion
  headerMessageId := f c.headerMessageId
  headerCorrelationId := f c.headerCorrelationId
  additionalHeaders := c.additionalHeaders.map fun row ↦ ⟨row.key, f row.value⟩

theorem restoreHeader_map (f : β → γ) (c : HeaderEditor β) (entry : Utf16 × β) :
    (c.map f).restoreHeader (entry.1, f entry.2) = (c.restoreHeader entry).map f := by
  unfold restoreHeader
  split_ifs <;> simp [map]

/-- `restoreHeaders` looks at the keys of the entries only. -/
theorem restored_map (f : β → γ) (blank : β) (es : List (Utf16 × β)) :
    restored (f blank) (es.map fun entry ↦ (entry.1, f entry.2)) = (restored blank es).map f := by
  have hfold : ∀ c : HeaderEditor β,
      (es.map fun entry ↦ (entry.1, f entry.2)).foldl restoreHeader (c.map f)
        = (es.foldl restoreHeader c).map f := by
    induction es with
    | nil => exact fun _ ↦ rfl
    | cons e es ih =>
      intro c
      rw [List.map_cons, List.foldl_cons, restoreHeader_map, List.foldl_cons, ih]
  unfold restored
  rw [List.length_map]
  exact congrArg
    (fun c : HeaderEditor γ ↦ { c with headersEnabled := decide (0 < es.length) })
    (hfold (cleared blank))

end HeaderEditor

/-- Headers as values. -/
def headerValues (es : List (Utf16 × Utf16)) : List (Utf16 × JsValue) :=
  es.map fun entry ↦ (entry.1, .string entry.2)

theorem setProperty_eq_setEntries (es : List (Utf16 × Utf16)) (key value : Utf16) :
    setProperty es key value = StringMap.setEntries es key value := by
  unfold setProperty StringMap.setEntries
  simp only [List.contains_iff_mem]

theorem ownProperties_eq_entries (es : List (Utf16 × Utf16)) :
    ownProperties es = JsObject.entries (StringMap.ofEntries es) := by
  have hfold : ∀ (l : List (Utf16 × Utf16)) (m : StringMap),
      l.foldl (fun ps e ↦ setProperty ps e.1 e.2) m.entries
        = (l.foldl (fun m e ↦ m.set e.1 e.2) m).entries := by
    intro l
    induction l with
    | nil => exact fun _ ↦ rfl
    | cons e l ih =>
      intro m
      rw [List.foldl_cons, List.foldl_cons, setProperty_eq_setEntries, ← ih]
      rfl
  exact congrArg inOrder (hfold es .empty)

theorem toJs_of_asString {v : Json} {s : Utf16} (h : asString v = some s) :
    v.toJs = .string s := by
  cases v with
  | string s' =>
    cases h
    rfl
  | _ => cases h

theorem toJs_of_mapM {members : List (Utf16 × Json)} {es : List (Utf16 × Utf16)}
    (h : (members.mapM fun m ↦ (asString m.2).map fun value ↦ (m.1, value)) = some es) :
    (members.map fun m ↦ (m.1, m.2.toJs)) = headerValues es := by
  induction members generalizing es with
  | nil =>
    cases h
    rfl
  | cons m ms ih =>
    simp only [List.mapM_cons, Option.bind_eq_bind, Option.bind_eq_some_iff, Option.pure_def,
      Option.some.injEq] at h
    obtain ⟨e, he, rest, hrest, rfl⟩ := h
    obtain ⟨value, hvalue, rfl⟩ := Option.map_eq_some_iff.mp he
    rw [List.map_cons, ih hrest, toJs_of_asString hvalue]
    rfl

theorem headerEntries_of_recordOfJson {v : Json} {m : StringMap} (h : recordOfJson v = some m) :
    UncheckedHistory.headerEntries (some v.toJs) = headerValues (JsObject.entries m) := by
  cases v with
  | object members =>
    obtain ⟨es, hes, rfl⟩ := Option.map_eq_some_iff.mp h
    rw [Json.toJs_object, toJs_of_mapM hes, headerValues, ownProperties_map,
      ownProperties_eq_entries, entries_listed]
    rfl
  | _ => cases h

namespace UncheckedHistory

/-! ## The form -/

namespace Form

/-- The form of `SendComponent`, its fields as values. -/
def ofSend (c : SendComponent) : Form where
  toHeaderEditor := c.toHeaderEditor.map .string
  exchange := some (.string c.exchange)
  routingKey := some (.string c.routingKey)
  payload := some (.string c.payload)
  replyMode := c.replyMode
  lastAppliedSnapshot := {
    exchange := some (.string c.lastAppliedSnapshot.exchange)
    routingKey := some (.string c.lastAppliedSnapshot.routingKey)
    payload := some (.string c.lastAppliedSnapshot.payload)
    headers := c.lastAppliedSnapshot.headers }

theorem restoreHeaders_ofSend {c : SendComponent} {headers : Option JsValue}
    {record : Option StringMap} (h : headerEntries headers
      = headerValues ((record.map JsObject.entries).getD [])) :
    (ofSend c).restoreHeaders headers = ofSend (c.restoreHeaders record) := by
  have heditor :=
    HeaderEditor.restored_map JsValue.string [] ((record.map JsObject.entries).getD [])
  unfold restoreHeaders
  rw [h]
  exact congrArg (fun editor ↦ { ofSend c with toHeaderEditor := editor }) heditor

theorem resolveRow_string (headers : StringMap) (row : HeaderRow Utf16) :
    resolveRow headers ⟨row.key, .string row.value⟩ = pure (if row.key.jsTrim ≠ [] ∧
      row.value.jsTrim ≠ [] then JsObject.assign headers row.key row.value else headers) := by
  unfold resolveRow
  by_cases hkey : row.key.jsTrim ≠ []
  · rw [if_pos hkey]
    simp only [hkey, not_false_eq_true, true_and, ne_eq]
    rfl
  · rw [if_neg hkey, if_neg fun h ↦ hkey h.1]

theorem resolvedHeaders_ofSend (c : SendComponent) :
    (ofSend c).resolvedHeaders = .ok c.resolvedHeaders := by
  have hrows : (ofSend c).additionalHeaders.foldlM resolveRow StringMap.empty
      = pure (c.additionalHeaders.foldl (fun headers row ↦
        if row.key.jsTrim ≠ [] ∧ row.value.jsTrim ≠ [] then
          JsObject.assign headers row.key row.value
        else headers) .empty) := by
    rw [ofSend, HeaderEditor.map, List.foldlM_map]
    simp only [resolveRow_string, List.foldlM_pure]
  have hcomunes : ∀ headers, (ofSend c).comunes.foldlM resolveComun headers
      = pure (c.comunes.foldl (fun headers entry ↦
        if entry.2.jsTrim ≠ [] then JsObject.assign headers entry.1 entry.2 else headers)
          headers) := fun _ ↦ rfl
  unfold resolvedHeaders SendComponent.resolvedHeaders
  change (if c.headersEnabled = true then _ else _) = _
  split_ifs
  · rw [hrows, pure_bind, hcomunes]
    rfl
  · rfl

end Form

/-! ## One record -/

variable {s t : State} {c : SendComponent} {members : List (Utf16 × Json)} {v : Json}

theorem lookup_of_stringOf {name : String} {value : Utf16}
    (h : stringOf members name = some value) :
    lookup name (Json.object members).toJs = some (.string value) := by
  obtain ⟨w, hw, hvalue⟩ := Option.bind_eq_some_iff.mp h
  rw [lookup_toJs_object, hw, Option.map_some, toJs_of_asString hvalue]

theorem headerEntries_of_headersOf {record : Option StringMap}
    (h : headersOf members = some record) :
    headerEntries (lookup "headers" (Json.object members).toJs)
      = headerValues ((record.map JsObject.entries).getD []) := by
  rw [lookup_toJs_object]
  unfold headersOf at h
  cases hheaders : propertyOf members "headers" with
  | none =>
    rw [hheaders] at h
    cases h
    rfl
  | some w =>
    rw [hheaders] at h
    obtain ⟨m, hm, rfl⟩ := Option.map_eq_some_iff.mp h
    exact headerEntries_of_recordOfJson hm

/-- What the two kinds of records have in common, as it was read. -/
structure Fields (members : List (Utf16 × Json)) (exchange routingKey payload : Utf16)
    (headers : Option StringMap) : Prop where
  exchange : stringOf members "exchange" = some exchange
  routingKey : stringOf members "routingKey" = some routingKey
  payload : stringOf members "payload" = some payload
  headers : headersOf members = some headers

/-- The form with the fields of a record. -/
def recalled (c : SendComponent) (exchange routingKey payload : Utf16) : SendComponent :=
  { c with replyMode := false, exchange, routingKey, payload }

/-- **Restoring a record** does to the form what `SendComponent` says. -/
theorem run_restore_of_fields {exchange routingKey payload : Utf16} {headers : Option StringMap}
    (h : Fields members exchange routingKey payload headers) (hform : s.form = Form.ofSend c) :
    (restore (Json.object members).toJs).run s = .ok () { s with
      form := Form.ofSend (SendComponent.captureSnapshot
        ((recalled c exchange routingKey payload).restoreHeaders headers)) } := by
  have hne : (Json.object members).toJs ≠ .null := by
    rw [Json.toJs_object]
    rintro ⟨⟩
  have hfilled : s.form.filled (Json.object members).toJs
      = Form.ofSend ((recalled c exchange routingKey payload).restoreHeaders headers) := by
    rw [Form.filled, lookup_of_stringOf h.exchange, lookup_of_stringOf h.routingKey,
      lookup_of_stringOf h.payload, hform]
    exact Form.restoreHeaders_ofSend (c := recalled c exchange routingKey payload)
      (headerEntries_of_headersOf h.headers)
  rw [run_restore hne, hfilled, captureSnapshot, EStateM.run_bind, run_readHeaders,
    Form.resolvedHeaders_ofSend]
  rfl

theorem restorable_of_fields {exchange routingKey payload : Utf16} {headers : Option StringMap}
    (h : Fields members exchange routingKey payload headers) :
    Restorable (Json.object members).toJs where
  notNull := by
    rw [Json.toJs_object]
    rintro ⟨⟩
  headers := by
    rw [headerEntries_of_headersOf h.headers]
    intro e he
    obtain ⟨entry, -, rfl⟩ := List.mem_map.mp he
    exact Or.inr ⟨entry.2, rfl⟩

theorem fields_of_recentSend {r : RecentSend} (h : RecentSend.ofJson v = some r) :
    ∃ members, v = .object members ∧
      Fields members r.exchange r.routingKey r.payload r.headers := by
  cases v with
  | object members =>
    simp only [RecentSend.ofJson, Option.bind_eq_bind, Option.bind_eq_some_iff, Option.pure_def,
      Option.some.injEq] at h
    obtain ⟨_, hexchange, _, hroutingKey, _, hpayload, _, -, _, hheaders, rfl⟩ := h
    exact ⟨members, rfl, hexchange, hroutingKey, hpayload, hheaders⟩
  | _ => cases h

theorem fields_of_template {r : SendTemplate} (h : SendTemplate.ofJson v = some r) :
    ∃ members, v = .object members ∧ stringOf members "name" = some r.name ∧
      Fields members r.exchange r.routingKey r.payload r.headers := by
  cases v with
  | object members =>
    simp only [SendTemplate.ofJson, Option.bind_eq_bind, Option.bind_eq_some_iff, Option.pure_def,
      Option.some.injEq] at h
    obtain ⟨_, hname, _, hexchange, _, hroutingKey, _, hpayload, _, hheaders, rfl⟩ := h
    exact ⟨members, rfl, hname, hexchange, hroutingKey, hpayload, hheaders⟩
  | _ => cases h

theorem run_useRecent {r : RecentSend} (h : RecentSend.ofJson v = some r)
    (hform : s.form = Form.ofSend c) :
    (useRecent v.toJs).run s = .ok () { s with form := Form.ofSend (c.useRecent r) } := by
  obtain ⟨members, rfl, hfields⟩ := fields_of_recentSend h
  exact run_restore_of_fields hfields hform

theorem run_useTemplate {r : SendTemplate} (h : SendTemplate.ofJson v = some r)
    (hform : s.form = Form.ofSend c) :
    (useTemplate v.toJs).run s = .ok () { s with form := Form.ofSend (c.useTemplate r) } := by
  obtain ⟨members, rfl, -, hfields⟩ := fields_of_template h
  exact run_restore_of_fields hfields hform

/-! ## Runs -/

/-- The value of a record, as a text of the record is read. -/
def IsRecord {ρ : Type} (ofJson : Json → Option ρ) (record : JsValue) (r : ρ) : Prop :=
  ∃ v : Json, v.toJs = record ∧ ofJson v = some r

theorem isRecord_of_mapM {ρ : Type} {ofJson : Json → Option ρ} {vs : List Json} {rs : List ρ}
    (h : vs.mapM ofJson = some rs) : List.Forall₂ (IsRecord ofJson) (vs.map Json.toJs) rs := by
  induction vs generalizing rs with
  | nil =>
    cases h
    exact List.Forall₂.nil
  | cons v vs ih =>
    simp only [List.mapM_cons, Option.bind_eq_bind, Option.bind_eq_some_iff, Option.pure_def,
      Option.some.injEq] at h
    obtain ⟨r, hr, rs, hrs, rfl⟩ := h
    exact List.Forall₂.cons ⟨v, rfl, hr⟩ (ih hrs)

/-- The service and the form as `SendHistory` and `SendComponent` have them. -/
structure Checked where
  service : SendHistoryService
  form : SendComponent

def Checked.step (u : Checked) : Label → Option Checked
  | .history call => some { u with service := call.update u.service }
  | .useRecent i => u.service.recentSends[i]?.map fun r ↦ { u with form := u.form.useRecent r }
  | .useTemplate i => u.service.templates[i]?.map fun r ↦ { u with form := u.form.useTemplate r }

/-- The same service and the same form, as values. -/
structure Related (s : State) (u : Checked) : Prop where
  recentSends : List.Forall₂ (IsRecord RecentSend.ofJson) s.recentSends u.service.recentSends
  templates : List.Forall₂ (IsRecord SendTemplate.ofJson) s.templates u.service.templates
  form : s.form = Form.ofSend u.form

variable {storage : HistoryStorage} {service : SendHistoryService} {u : Checked} {a : Label}
  {as : List Label}

theorem related_load (h : storage.load = some service) :
    Related (load storage) ⟨service, .initial⟩ := by
  rw [HistoryStorage.load_eq_some_iff] at h
  exact ⟨isRecord_of_mapM h.1, isRecord_of_mapM h.2, rfl⟩

theorem foldlM_keepOther_of_records {ts kept : List JsValue} {rs rkept : List SendTemplate}
    (h : List.Forall₂ (IsRecord SendTemplate.ofJson) ts rs)
    (hkept : List.Forall₂ (IsRecord SendTemplate.ofJson) kept rkept) (name : Utf16) :
    ∃ next, ts.foldlM (keepOther name) kept = .ok next ∧
      List.Forall₂ (IsRecord SendTemplate.ofJson) next (rkept ++ rs.filter fun r ↦ r.name ≠ name)
    := by
  induction h generalizing kept rkept with
  | nil =>
    refine ⟨kept, rfl, ?_⟩
    rwa [List.filter_nil, List.append_nil]
  | @cons t r ts rs htr hts ih =>
    obtain ⟨v, rfl, hv⟩ := htr
    obtain ⟨members, rfl, hname, hfields⟩ := fields_of_template hv
    have hkeep : keepOther name kept (Json.object members).toJs
        = .ok (if r.name = name then kept else kept ++ [(Json.object members).toJs]) := by
      rw [keepOther, property_of_ne_null (restorable_of_fields hfields).notNull,
        lookup_of_stringOf hname]
      change Except.ok (if decide (r.name = name) = true then _ else _) = _
      simp only [decide_eq_true_eq]
    rw [List.foldlM_cons, hkeep]
    by_cases hr : r.name = name
    · obtain ⟨next, hnext, hrel⟩ := ih hkept
      rw [if_pos hr, List.filter_cons, if_neg (by simpa using hr)]
      exact ⟨next, hnext, hrel⟩
    · obtain ⟨next, hnext, hrel⟩ := ih (List.rel_append hkept
        (List.Forall₂.cons ⟨_, rfl, hv⟩ List.Forall₂.nil))
      rw [if_neg hr, List.filter_cons, if_pos (by simpa using hr)]
      rw [List.append_assoc] at hrel
      exact ⟨next, hnext, hrel⟩

theorem exists_getElem?_of_forall₂ {α β : Type*} {R : α → β → Prop} {xs : List α} {ys : List β}
    (h : List.Forall₂ R xs ys) {i : ℕ} {x : α} (hx : xs[i]? = some x) :
    ∃ y, ys[i]? = some y ∧ R x y := by
  induction h generalizing i with
  | nil => cases hx
  | cons hxy _ ih =>
    cases i with
    | zero =>
      cases hx
      exact ⟨_, rfl, hxy⟩
    | succ i => exact ih hx

theorem run_thenRead {op : Operation Unit} (h : op.run s = .ok () t)
    (hform : t.form = Form.ofSend c) : (thenRead op).run s = .ok () t := by
  rw [thenRead, EStateM.run_bind, h]
  simp only [EStateM.run_bind, run_readHeaders, hform, Form.resolvedHeaders_ofSend]
  rfl

theorem Related.history (h : Related s u) (call : HistoryCall) {op : Operation Unit}
    (hop : operation s (.history call) = some op) :
    ∃ t, op.run s = .ok () t ∧ Related t { u with service := call.update u.service } := by
  cases call with
  | recordSend entry =>
    cases hop
    refine ⟨_, rfl, List.forall₂_take _ (List.Forall₂.cons ?_ h.recentSends), h.templates, h.form⟩
    exact ⟨entry.toJson, rfl, RecentSend.ofJson_toJson entry⟩
  | saveTemplate template =>
    cases hop
    obtain ⟨next, hnext, hrel⟩ := foldlM_keepOther_of_records h.templates List.Forall₂.nil
      template.name
    refine ⟨{ s with templates := next ++ [template.toJson.toJs] }, ?_, h.recentSends, ?_, h.form⟩
    · simp only [saveTemplate, EStateM.run_bind, EStateM.run_get, hnext]
      rfl
    · exact List.rel_append hrel
        (List.Forall₂.cons ⟨template.toJson, rfl, SendTemplate.ofJson_toJson template⟩ .nil)
  | deleteTemplate name =>
    cases hop
    obtain ⟨next, hnext, hrel⟩ := foldlM_keepOther_of_records h.templates List.Forall₂.nil name
    refine ⟨{ s with templates := next }, ?_, h.recentSends, hrel, h.form⟩
    simp only [deleteTemplate, EStateM.run_bind, EStateM.run_get, hnext]
    rfl

/-- **Each step is the same step**, and it does not throw. -/
theorem Related.step (h : Related s u) {op : Operation Unit} (hop : operation s a = some op) :
    ∃ t u', op.run s = .ok () t ∧ u.step a = some u' ∧ Related t u' := by
  cases a with
  | history call =>
    obtain ⟨t, ht, hrel⟩ := h.history call hop
    exact ⟨t, _, ht, rfl, hrel⟩
  | useRecent i =>
    obtain ⟨record, hrecord, rfl⟩ := Option.map_eq_some_iff.mp hop
    obtain ⟨r, hr, v, rfl, hv⟩ := exists_getElem?_of_forall₂ h.recentSends hrecord
    have hu : u.step (.useRecent i) = some { u with form := u.form.useRecent r } := by
      rw [Checked.step, hr, Option.map_some]
    exact ⟨_, _, run_thenRead (run_useRecent hv h.form) rfl, hu, h.recentSends, h.templates, rfl⟩
  | useTemplate i =>
    obtain ⟨record, hrecord, rfl⟩ := Option.map_eq_some_iff.mp hop
    obtain ⟨r, hr, v, rfl, hv⟩ := exists_getElem?_of_forall₂ h.templates hrecord
    have hu : u.step (.useTemplate i) = some { u with form := u.form.useTemplate r } := by
      rw [Checked.step, hr, Option.map_some]
    exact ⟨_, _, run_thenRead (run_useTemplate hv h.form) rfl, hu, h.recentSends, h.templates, rfl⟩

/-- **Over a storage of records the unchecked panel is the checked one**: each of its runs is a run
of the checked one, to the same lists and the same form, and no step of it throws. -/
theorem related_run (hload : storage.load = some service)
    (hrun : Transition.run step (load storage) as = some t) :
    Transition.Guarded step Quiet (load storage) as ∧
      ∃ u, Transition.run Checked.step ⟨service, .initial⟩ as = some u ∧ Related t u := by
  have hrelated := related_load hload
  generalize load storage = s at hrun hrelated
  generalize Checked.mk service SendComponent.initial = u at hrelated
  induction as generalizing s u with
  | nil =>
    cases hrun
    exact ⟨trivial, u, rfl, hrelated⟩
  | cons a as ih =>
    obtain ⟨s', hs', hrest⟩ := Option.bind_eq_some_iff.mp hrun
    obtain ⟨op, hop, rfl⟩ := Option.map_eq_some_iff.mp hs'
    obtain ⟨t', u', ht', hu', hrel⟩ := hrelated.step hop
    rw [ht'] at hrest
    obtain ⟨hquiet, u'', hu'', hrel''⟩ := ih _ hrest _ hrel
    refine ⟨⟨?_, ?_⟩, u'', ?_, hrel''⟩
    · intro op' hop'
      cases hop.symm.trans hop'
      exact ⟨t', ht'⟩
    · intro s'' hs''
      rw [UncheckedHistory.step, hop, Option.map_some, ht'] at hs''
      cases hs''
      exact hquiet
    · rw [Transition.run_cons, hu', Option.bind_some, hu'']

theorem restorable_of_load (hload : storage.load = some service) : RestorableStorage storage := by
  obtain ⟨hrecent, htemplates, -⟩ := related_load hload
  constructor
  · intro entry hentry
    obtain ⟨i, hi⟩ := List.mem_iff_getElem?.mp hentry
    obtain ⟨r, -, v, rfl, hv⟩ := exists_getElem?_of_forall₂ hrecent hi
    obtain ⟨members, rfl, hfields⟩ := fields_of_recentSend hv
    exact restorable_of_fields hfields
  · intro template htemplate
    obtain ⟨i, hi⟩ := List.mem_iff_getElem?.mp htemplate
    obtain ⟨r, -, v, rfl, hv⟩ := exists_getElem?_of_forall₂ htemplates hi
    obtain ⟨members, rfl, -, hfields⟩ := fields_of_template hv
    exact restorable_of_fields hfields

end UncheckedHistory

end BusTester
