import BusTester.Client.HistoryStorage
import BusTester.Client.RestoredHeaders
import BusTester.Text.JsValue

/-!
# A corrupted storage

`readArray` looks at nothing but the outermost shape of what is stored: the items of an array are
taken as records without having been looked at. Here they are what they are, values of JavaScript,
and so are the fields of the form that they are copied to. What a wrong value does shows only where
a property of it is read, or its method `trim` is called.

An operation ends with an exception or without one, and changes the signals up to there in both
cases. What it writes to the storage is not read again by the same instance and is left out.
-/

namespace BusTester.UncheckedHistory

open JsObject

inductive JsError where
  | typeError

/-! ## Values that may be of any kind -/

/-- The property of an object. Other values do not have properties of the names that are read. -/
def lookup (name : String) : JsValue → Option JsValue
  | .object ps => (ps.find? fun p ↦ p.1 = Utf16.ofString name).map Prod.snd
  | _ => none

/-- Read a property. -/
def property (name : String) : JsValue → Except JsError (Option JsValue)
  | .null => .error .typeError
  | v => .ok (lookup name v)

/-- The string that `trim` is called on; no other value has this method. -/
def trimmable : JsValue → Except JsError Utf16
  | .string s => .ok s
  | _ => .error .typeError

def truthy : JsValue → Bool
  | .null => false
  | .bool b => b
  | .number (.finite x) => x.magnitude ≠ 0
  | .number .infinite => true
  | .string s => s ≠ []
  | .array _ | .object _ => true

/-- `value === s`. -/
def isString (s : Utf16) : Option JsValue → Bool
  | some (.string t) => t = s
  | _ => false

/-- The key of an item. -/
def indexKey (n : ℕ) : Utf16 := (Json.integerPart (Json.naturalDigits n)).text

/-- `Object.entries`. -/
def entries : JsValue → List (Utf16 × JsValue)
  | .object ps => ps
  | .array items => items.zipIdx.map fun p ↦ (indexKey p.2, p.1)
  | .string s => s.zipIdx.map fun p ↦ (indexKey p.2, .string [p.1])
  | _ => []

/-- `headers ? Object.entries(headers) : []`. -/
def headerEntries (headers : Option JsValue) : List (Utf16 × JsValue) :=
  ((headers.filter truthy).map entries).getD []

/-! ## The form -/

/-- `FormSnapshot`, the headers as the list of their entries. -/
structure Snapshot where
  exchange : Option JsValue
  routingKey : Option JsValue
  payload : Option JsValue
  headers : List (Utf16 × Utf16)

/-- The signals of the form that a record is copied to. A field may become undefined. -/
structure Form extends HeaderEditor JsValue where
  exchange : Option JsValue
  routingKey : Option JsValue
  payload : Option JsValue
  replyMode : Bool
  lastAppliedSnapshot : Snapshot

namespace Form

def initial : Form where
  toHeaderEditor := .cleared (.string [])
  exchange := some (.string [])
  routingKey := some (.string [])
  payload := some (.string [])
  replyMode := false
  lastAppliedSnapshot := ⟨some (.string []), some (.string []), some (.string []), []⟩

/-- One turn of the first loop of `resolvedHeaders`; `&&` does not look at the value of a row with a
blank key. -/
def resolveRow (headers : StringMap) (row : HeaderRow JsValue) :
    Except JsError StringMap :=
  if row.key.jsTrim ≠ [] then do
    let value ← trimmable row.value
    return if value.jsTrim ≠ [] then assign headers row.key value else headers
  else return headers

def resolveComun (headers : StringMap) (entry : Utf16 × JsValue) : Except JsError StringMap := do
  let value ← trimmable entry.2
  return if value.jsTrim ≠ [] then assign headers entry.1 value else headers

/-- `resolvedHeaders`. -/
def resolvedHeaders (c : Form) : Except JsError StringMap :=
  if c.headersEnabled then do
    let headers ← c.additionalHeaders.foldlM resolveRow .empty
    c.comunes.foldlM resolveComun headers
  else return .empty

/-- `restoreHeaders`. -/
def restoreHeaders (c : Form) (headers : Option JsValue) : Form :=
  { c with toHeaderEditor := .restored (.string []) (headerEntries headers) }

/-- The form with the snapshot that `captureSnapshot` takes. -/
def captured (c : Form) (headers : StringMap) : Form :=
  { c with
    lastAppliedSnapshot := ⟨c.exchange, c.routingKey, c.payload, JsObject.entries headers⟩ }

end Form

/-! ## The operations -/

structure State where
  recentSends : List JsValue
  templates : List JsValue
  form : Form

/-- An operation may throw, and keeps the changes that it has made by then. -/
abbrev Operation := EStateM JsError State

instance : MonadLift (Except JsError) Operation where
  monadLift
    | .ok a => pure a
    | .error e => throw e

def modifyForm (f : Form → Form) : Operation Unit := modify fun s ↦ { s with form := f s.form }

/-- `resolvedHeaders()`. -/
def readHeaders : Operation StringMap := do
  let s ← get
  liftM s.form.resolvedHeaders

def captureSnapshot : Operation Unit := do
  let headers ← readHeaders
  modifyForm fun c ↦ c.captured headers

/-- What `useRecent` and `useTemplate` have in common. -/
def restore (record : JsValue) : Operation Unit := do
  modifyForm fun c ↦ { c with replyMode := false }
  let exchange ← liftM (property "exchange" record)
  modifyForm fun c ↦ { c with exchange }
  let routingKey ← liftM (property "routingKey" record)
  modifyForm fun c ↦ { c with routingKey }
  let payload ← liftM (property "payload" record)
  modifyForm fun c ↦ { c with payload }
  let headers ← liftM (property "headers" record)
  modifyForm fun c ↦ c.restoreHeaders headers
  captureSnapshot

def useRecent (entry : JsValue) : Operation Unit := restore entry

def useTemplate (template : JsValue) : Operation Unit := restore template

def recordSend (entry : RecentSend) : Operation Unit :=
  modify fun s ↦ { s with
    recentSends := (entry.toJson.toJs :: s.recentSends).take SendHistoryService.recentSendsCap }

/-- One turn of `filter((t) => t.name !== name)`. -/
def keepOther (name : Utf16) (kept : List JsValue) (t : JsValue) :
    Except JsError (List JsValue) := do
  let found ← property "name" t
  return if isString name found then kept else kept ++ [t]

def saveTemplate (template : SendTemplate) : Operation Unit := do
  let s ← get
  let next ← liftM (s.templates.foldlM (keepOther template.name) [])
  set { s with templates := next ++ [template.toJson.toJs] }

def deleteTemplate (name : Utf16) : Operation Unit := do
  let s ← get
  let next ← liftM (s.templates.foldlM (keepOther name) [])
  set { s with templates := next }

inductive Label where
  | history (call : HistoryCall)
  /-- Use an entry that the service exposes, and read the headers. -/
  | useRecent (i : ℕ)
  | useTemplate (i : ℕ)

/-- Read the headers after the operation. -/
def thenRead (op : Operation Unit) : Operation Unit := do
  op
  let _ ← readHeaders

/-- What runs; there has to be an entry to use. -/
def operation (s : State) : Label → Option (Operation Unit)
  | .history (.recordSend entry) => some (recordSend entry)
  | .history (.saveTemplate template) => some (saveTemplate template)
  | .history (.deleteTemplate name) => some (deleteTemplate name)
  | .useRecent i => s.recentSends[i]?.map fun entry ↦ thenRead (useRecent entry)
  | .useTemplate i => s.templates[i]?.map fun template ↦ thenRead (useTemplate template)

/-- What an operation leaves behind, whether it has thrown or not. -/
def stateAfter : EStateM.Result JsError State Unit → State
  | .ok _ t => t
  | .error _ t => t

def step (s : State) (a : Label) : Option State :=
  (operation s a).map fun op ↦ stateAfter (op.run s)

/-- The operation does not throw. -/
def Quiet (s : State) (a : Label) : Prop :=
  ∀ op, operation s a = some op → ∃ t, op.run s = .ok () t

/-- The items of what is stored, as `JSON.parse` returns them. -/
def items (raw : Option Utf16) : List JsValue := (readArray raw).map Json.toJs

/-- The service over the storage, and the component. -/
def load (storage : HistoryStorage) : State :=
  ⟨items storage.recentSends, items storage.templates, Form.initial⟩

/-! ## Resolving the headers -/

/-- The computation does not throw. -/
def Returns {α : Type} (x : Except JsError α) : Prop := ∃ a, x = .ok a

section Returns

variable {α β : Type}

theorem returns_ok (a : α) : Returns (.ok a) := ⟨a, rfl⟩

theorem not_returns_error (e : JsError) : ¬Returns (.error e : Except JsError α) := by
  rintro ⟨a, ⟨⟩⟩

theorem returns_bind_iff {x : Except JsError α} {f : α → Except JsError β} :
    Returns (x >>= f) ↔ ∃ a, x = .ok a ∧ Returns (f a) := by
  cases x with
  | ok a => exact ⟨fun h ↦ ⟨a, rfl, h⟩, by rintro ⟨_, ⟨⟩, h⟩; exact h⟩
  | error e => exact iff_of_false (not_returns_error e) (by rintro ⟨_, ⟨⟩, -⟩)

/-- A loop throws if and only if one of its turns does, where it does not matter what the loop has
made so far. -/
theorem returns_foldlM_iff {f : β → α → Except JsError β} {P : α → Prop}
    (hf : ∀ b a, Returns (f b a) ↔ P a) (l : List α) (b : β) :
    Returns (l.foldlM f b) ↔ ∀ a ∈ l, P a := by
  induction l generalizing b with
  | nil => exact iff_of_true (returns_ok b) (List.forall_mem_nil P)
  | cons a l ih =>
    rw [List.foldlM_cons, returns_bind_iff, List.forall_mem_cons]
    constructor
    · rintro ⟨b', hb', hl⟩
      exact ⟨(hf b a).mp ⟨b', hb'⟩, (ih b').mp hl⟩
    · rintro ⟨ha, hl⟩
      obtain ⟨b', hb'⟩ := (hf b a).mpr ha
      exact ⟨b', hb', (ih b').mpr hl⟩

end Returns

/-- The method `trim` of the value is called, if at all, on a string. -/
def Harmless (entry : Utf16 × JsValue) : Prop :=
  entry.1.jsTrim = [] ∨ ∃ s, entry.2 = .string s

theorem returns_trimmable_iff {v : JsValue} : Returns (trimmable v) ↔ ∃ s, v = .string s := by
  cases v with
  | string s => exact iff_of_true (returns_ok s) ⟨s, rfl⟩
  | _ => exact iff_of_false (not_returns_error _) (by rintro ⟨s, ⟨⟩⟩)

namespace Form

variable {c : Form} {entry e : Utf16 × JsValue} {es : List (Utf16 × JsValue)}

theorem returns_resolveRow_iff (headers : StringMap) (row : HeaderRow JsValue) :
    Returns (resolveRow headers row) ↔ Harmless (row.key, row.value) := by
  unfold resolveRow Harmless
  split_ifs with hkey
  · rw [returns_bind_iff, ← returns_trimmable_iff, or_iff_right hkey]
    exact exists_congr fun s ↦ and_iff_left (returns_ok _)
  · exact iff_of_true (returns_ok headers) (Or.inl (not_not.mp hkey))

theorem returns_resolveComun_iff (headers : StringMap) (entry : Utf16 × JsValue) :
    Returns (resolveComun headers entry) ↔ ∃ s, entry.2 = .string s := by
  rw [resolveComun, returns_bind_iff, ← returns_trimmable_iff]
  exact exists_congr fun s ↦ and_iff_left (returns_ok _)

/-- **When the headers of the form can be read.** -/
theorem returns_resolvedHeaders_iff :
    Returns c.resolvedHeaders ↔ (c.headersEnabled = true → ∀ e ∈ c.headers, Harmless e) := by
  have hrows : Returns (c.additionalHeaders.foldlM resolveRow .empty) ↔
      ∀ row ∈ c.additionalHeaders, Harmless (row.key, row.value) :=
    returns_foldlM_iff returns_resolveRow_iff _ _
  have hcomunes : ∀ b, Returns (c.comunes.foldlM resolveComun b) ↔ ∀ e ∈ c.comunes, Harmless e := by
    intro b
    rw [returns_foldlM_iff returns_resolveComun_iff]
    refine forall₂_congr fun e he ↦ (or_iff_right ?_).symm
    have hkey : e.1 ∈ SendComponent.comunesKeys :=
      c.map_fst_comunes ▸ List.mem_map_of_mem (f := Prod.fst) he
    exact (SendComponent.sendable_of_mem_comunesKeys hkey).1
  unfold resolvedHeaders
  split_ifs with henabled
  · rw [returns_bind_iff, imp_iff_right henabled, HeaderEditor.headers, List.forall_mem_append,
      List.forall_mem_map]
    simp only [hcomunes, exists_and_right]
    rw [and_comm]
    exact and_congr Iff.rfl hrows
  · exact iff_of_true (returns_ok _) fun h ↦ absurd h henabled

/-! ## Restoring them -/

theorem returns_resolvedHeaders_of_harmless {headers : Option JsValue}
    (h : ∀ e ∈ headerEntries headers, Harmless e) :
    Returns (c.restoreHeaders headers).resolvedHeaders := by
  refine returns_resolvedHeaders_iff.mpr fun _ e he ↦ ?_
  rcases HeaderEditor.mem_of_mem_headers_foldl_restoreHeader he with hcleared | he
  · refine Or.inr ?_
    rcases HeaderEditor.mem_headers_iff.mp hcleared with hfield | ⟨row, hrow, -⟩
    · simp only [HeaderEditor.comunes, List.mem_cons, List.not_mem_nil, or_false] at hfield
      rcases hfield with rfl | rfl | rfl | rfl | rfl <;> exact ⟨[], rfl⟩
    · cases hrow
  · exact h e he

/-- **When the restored headers can be read.** -/
theorem returns_resolvedHeaders_restoreHeaders {headers : Option JsValue}
    (hes : HeaderEditor.SingleFields (headerEntries headers)) :
    Returns (c.restoreHeaders headers).resolvedHeaders ↔
      ∀ e ∈ headerEntries headers, Harmless e := by
  refine ⟨fun h e he ↦ ?_, returns_resolvedHeaders_of_harmless⟩
  exact returns_resolvedHeaders_iff.mp h (decide_eq_true (List.length_pos_of_mem he)) e
    (HeaderEditor.mem_headers_foldl_restoreHeader hes he)

end Form

/-! ## Values that were read -/

/-- The items of an array and the units of a string have no keys of fixed fields. -/
theorem indexKey_notMem (n : ℕ) : indexKey n ∉ SendComponent.comunesKeys := by
  have hhead : ∀ key ∈ SendComponent.comunesKeys, key.head? = some 0x4E := by decide
  have hdigit : ∀ d : Fin 10, Json.digitUnit d ≠ 0x4E := by decide
  intro hmem
  have h := hhead _ hmem
  rw [indexKey] at h
  cases hinteger : Json.integerPart (Json.naturalDigits n) with
  | zero =>
    rw [hinteger] at h
    exact hdigit 0 (Option.some.inj h)
  | positive d more =>
    rw [hinteger] at h
    exact hdigit d.succ (Option.some.inj h)

theorem singleFields_of_notMem {es : List (Utf16 × JsValue)}
    (h : ∀ e ∈ es, e.1 ∉ SendComponent.comunesKeys) : HeaderEditor.SingleFields es :=
  fun e he _ _ _ hkey ↦ absurd hkey (h e he)

theorem singleFields_entries (v : Json) : HeaderEditor.SingleFields (entries v.toJs) := by
  cases v with
  | object members =>
    rw [Json.toJs_object]
    have hnodup := (inOwnOrder_ownProperties (members.map fun m ↦ (m.1, m.2.toJs))).nodup
    exact fun e he e' he' hkey _ ↦ List.inj_on_of_nodup_map hnodup he' he hkey
  | array items =>
    rw [Json.toJs_array]
    refine singleFields_of_notMem fun e he ↦ ?_
    obtain ⟨p, -, rfl⟩ := List.mem_map.mp he
    exact indexKey_notMem p.2
  | string s =>
    refine singleFields_of_notMem fun e he ↦ ?_
    obtain ⟨p, -, rfl⟩ := List.mem_map.mp he
    exact indexKey_notMem p.2
  | null | bool | number => exact fun e he ↦ by cases he

theorem lookup_toJs_object (name : String) (members : List (Utf16 × Json)) :
    lookup name (Json.object members).toJs = (propertyOf members name).map Json.toJs := by
  rw [Json.toJs_object, lookup, ownProperties_map, List.find?_map, propertyOf,
    ← find?_ownProperties, Option.map_map, Option.map_map]
  rfl

theorem singleFields_headers (v : Json) :
    HeaderEditor.SingleFields (headerEntries (lookup "headers" v.toJs)) := by
  have hnil : HeaderEditor.SingleFields ([] : List (Utf16 × JsValue)) := fun e he ↦ by cases he
  cases v with
  | object members =>
    rw [lookup_toJs_object]
    cases propertyOf members "headers" with
    | none => exact hnil
    | some w =>
      rw [Option.map_some, headerEntries, Option.filter_some]
      split_ifs
      · exact singleFields_entries w
      · exact hnil
  | array items =>
    rw [Json.toJs_array]
    exact hnil
  | null | bool | number | string => exact hnil

/-! ## Restoring a record -/

/-- A record that can be restored: it is not `null`, and those of its headers whose values are
looked at are strings. -/
structure Restorable (record : JsValue) : Prop where
  notNull : record ≠ .null
  headers : ∀ e ∈ headerEntries (lookup "headers" record), Harmless e

/-- The form as `restore` leaves it for `captureSnapshot`. -/
def Form.filled (c : Form) (record : JsValue) : Form :=
  Form.restoreHeaders { c with
    replyMode := false
    exchange := lookup "exchange" record
    routingKey := lookup "routingKey" record
    payload := lookup "payload" record } (lookup "headers" record)

theorem property_of_ne_null {record : JsValue} (h : record ≠ .null) (name : String) :
    property name record = .ok (lookup name record) := by
  cases record with
  | null => exact absurd rfl h
  | _ => rfl

variable {s : State} {record : JsValue}

theorem run_readHeaders (s : State) : readHeaders.run s =
    match s.form.resolvedHeaders with
    | .ok headers => .ok headers s
    | .error e => .error e s := by
  change (liftM s.form.resolvedHeaders : Operation StringMap).run s = _
  cases s.form.resolvedHeaders <;> rfl

/-- The copying of the fields does not throw; the headers are read afterwards. -/
theorem run_restore (h : record ≠ .null) :
    (restore record).run s = captureSnapshot.run { s with form := s.form.filled record } := by
  simp only [restore, property_of_ne_null h]
  rfl

/-- The headers are read twice, before the snapshot is taken and afterwards. -/
theorem run_thenRead_restore (h : record ≠ .null) : (thenRead (restore record)).run s =
    match (s.form.filled record).resolvedHeaders with
    | .ok headers => .ok () { s with form := (s.form.filled record).captured headers }
    | .error e => .error e { s with form := s.form.filled record } := by
  simp only [thenRead, EStateM.run_bind, run_restore h, captureSnapshot, run_readHeaders]
  cases hread : (s.form.filled record).resolvedHeaders with
  | ok headers =>
    have hagain : ((s.form.filled record).captured headers).resolvedHeaders = .ok headers := hread
    simp only [modifyForm, EStateM.run_modify, hagain]
    rfl
  | error e => rfl

/-- **When a record can be used.** -/
theorem thenRead_restore_returns_iff :
    (∃ t, (thenRead (restore record)).run s = .ok () t) ↔
      record ≠ .null ∧ Returns (s.form.filled record).resolvedHeaders := by
  by_cases hnull : record = .null
  · subst hnull
    refine iff_of_false ?_ fun h ↦ h.1 rfl
    rintro ⟨t, ht⟩
    cases ht
  · rw [and_iff_right hnull, run_thenRead_restore hnull]
    cases (s.form.filled record).resolvedHeaders with
    | ok headers => exact iff_of_true ⟨_, rfl⟩ (returns_ok headers)
    | error e => exact iff_of_false (by rintro ⟨t, ⟨⟩⟩) (not_returns_error e)

theorem thenRead_restore_of_restorable (h : Restorable record) :
    ∃ t, (thenRead (restore record)).run s = .ok () t := by
  exact thenRead_restore_returns_iff.mpr
    ⟨h.notNull, Form.returns_resolvedHeaders_of_harmless h.headers⟩

theorem thenRead_restore_toJs_iff {v : Json} :
    (∃ t, (thenRead (restore v.toJs)).run s = .ok () t) ↔ Restorable v.toJs := by
  rw [thenRead_restore_returns_iff, Form.filled,
    Form.returns_resolvedHeaders_restoreHeaders (singleFields_headers v)]
  exact ⟨fun h ↦ ⟨h.1, h.2⟩, fun h ↦ ⟨h.notNull, h.headers⟩⟩

/-! ## Records of the panel -/

theorem harmless_of_headersMember {headers : Option StringMap} {m : Utf16 × Json}
    (hm : m ∈ headersMember headers) : ∀ e ∈ headerEntries (some m.2.toJs), Harmless e := by
  cases headers with
  | none => cases hm
  | some headers =>
    rw [List.mem_singleton.mp hm, recordJson, Json.toJs_object, List.map_map]
    intro e he
    obtain ⟨entry, -, rfl⟩ := List.mem_map.mp (mem_of_mem_ownProperties he)
    exact Or.inr ⟨entry.2, rfl⟩

theorem restorable_toJs {before after : List (Utf16 × Json)} {headers : Option StringMap}
    (h : Utf16.ofString "headers" ∉ (before ++ after).map Prod.fst) :
    Restorable (Json.object (before ++ headersMember headers ++ after)).toJs where
  notNull := by
    rw [Json.toJs_object]
    rintro ⟨⟩
  headers := by
    rw [lookup_toJs_object]
    cases hheaders : propertyOf (before ++ headersMember headers ++ after) "headers" with
    | none => exact fun e he ↦ by cases he
    | some w =>
      obtain ⟨m, hlast, rfl⟩ := Option.map_eq_some_iff.mp hheaders
      rw [List.findRev?_eq_find?_reverse] at hlast
      have hname : m.1 = Utf16.ofString "headers" := by simpa using List.find?_some hlast
      have hother : m ∉ before ++ after := fun hm ↦ h (hname ▸ List.mem_map_of_mem hm)
      rw [List.mem_append, not_or] at hother
      have hheader : m ∈ headersMember headers := by
        simpa [hother] using List.mem_of_find?_eq_some hlast
      exact harmless_of_headersMember hheader

theorem restorable_recentSend (entry : RecentSend) : Restorable entry.toJson.toJs := by
  have hkeys : Utf16.ofString "headers"
      ∉ ["exchange", "routingKey", "payload", "sentAt"].map Utf16.ofString := by decide
  exact restorable_toJs hkeys

theorem restorable_template (template : SendTemplate) : Restorable template.toJson.toJs := by
  have hkeys : Utf16.ofString "headers"
      ∉ ["name", "exchange", "routingKey", "payload"].map Utf16.ofString := by decide
  rw [SendTemplate.toJson, ← List.append_nil (_ ++ headersMember template.headers)]
  exact restorable_toJs hkeys

/-! ## The templates -/

theorem returns_keepOther_iff (name : Utf16) (kept : List JsValue) (t : JsValue) :
    Returns (keepOther name kept t) ↔ t ≠ .null := by
  rw [keepOther, returns_bind_iff]
  by_cases ht : t = .null
  · subst ht
    exact iff_of_false (by rintro ⟨_, ⟨⟩, -⟩) fun h ↦ h rfl
  · exact iff_of_true ⟨_, property_of_ne_null ht "name", returns_ok _⟩ ht

theorem mem_of_foldlM_keepOther {name : Utf16} {ts kept kept' : List JsValue}
    (h : ts.foldlM (keepOther name) kept = .ok kept') : ∀ t ∈ kept', t ∈ kept ∨ t ∈ ts := by
  induction ts generalizing kept with
  | nil =>
    cases h
    exact fun t ht ↦ Or.inl ht
  | cons u ts ih =>
    rw [List.foldlM_cons] at h
    obtain ⟨next, hnext, hrest⟩ := returns_bind_iff.mp ⟨kept', h⟩
    rw [hnext] at h
    have hmem : ∀ t ∈ next, t ∈ kept ∨ t = u := by
      rw [keepOther] at hnext
      cases hname : property "name" u with
      | error e =>
        rw [hname] at hnext
        cases hnext
      | ok found =>
        rw [hname] at hnext
        cases hnext
        split_ifs
        · exact fun t ht ↦ Or.inl ht
        · exact fun t ht ↦ by simpa using ht
    intro t ht
    rcases ih h t ht with ht | ht
    · exact (hmem t ht).imp_right fun heq ↦ List.mem_cons.mpr (Or.inl heq)
    · exact Or.inr (List.mem_cons_of_mem u ht)

/-- **When the templates can be filtered**, and what is left of them then. -/
theorem exists_foldlM_keepOther {ts : List JsValue} (h : ∀ t ∈ ts, t ≠ .null) (name : Utf16) :
    ∃ next, ts.foldlM (keepOther name) [] = .ok next ∧ ∀ t ∈ next, t ∈ ts := by
  obtain ⟨next, hnext⟩ := (returns_foldlM_iff (returns_keepOther_iff name) ts []).mpr h
  refine ⟨next, hnext, fun t ht ↦ ?_⟩
  exact (mem_of_foldlM_keepOther hnext t ht).resolve_left (List.not_mem_nil)

/-! ## Runs -/

structure State.Restorable (s : State) : Prop where
  recentSends : ∀ entry ∈ s.recentSends, UncheckedHistory.Restorable entry
  templates : ∀ template ∈ s.templates, UncheckedHistory.Restorable template

variable {a : Label} {t : State}

theorem lists_thenRead_restore (s : State) (record : JsValue) :
    (stateAfter ((thenRead (restore record)).run s)).recentSends = s.recentSends ∧
      (stateAfter ((thenRead (restore record)).run s)).templates = s.templates := by
  by_cases hnull : record = .null
  · subst hnull
    exact ⟨rfl, rfl⟩
  rw [run_thenRead_restore hnull]
  cases (s.form.filled record).resolvedHeaders with
  | ok headers => exact ⟨rfl, rfl⟩
  | error e => exact ⟨rfl, rfl⟩

/-- **A step among records that can be restored** does not throw, and adds no others. -/
theorem quiet_step (hs : s.Restorable) {op : Operation Unit} (hop : operation s a = some op) :
    (∃ t, op.run s = .ok () t) ∧ (stateAfter (op.run s)).Restorable := by
  have hrestore : ∀ record, Restorable record →
      (∃ t, (thenRead (restore record)).run s = .ok () t) ∧
        (stateAfter ((thenRead (restore record)).run s)).Restorable := by
    intro record hrecord
    obtain ⟨hrecent, htemplates⟩ := lists_thenRead_restore s record
    exact ⟨thenRead_restore_of_restorable hrecord,
      fun e he ↦ hs.recentSends e (hrecent ▸ he), fun e he ↦ hs.templates e (htemplates ▸ he)⟩
  match a with
  | .history (.recordSend entry) =>
    cases hop
    refine ⟨⟨_, rfl⟩, fun e he ↦ ?_, hs.templates⟩
    rcases List.mem_cons.mp (List.mem_of_mem_take he) with rfl | he
    · exact restorable_recentSend entry
    · exact hs.recentSends e he
  | .history (.saveTemplate template) =>
    cases hop
    obtain ⟨next, hnext, hmem⟩ := exists_foldlM_keepOther
      (fun t ht ↦ (hs.templates t ht).notNull) template.name
    have hrun : (saveTemplate template).run s
        = .ok () { s with templates := next ++ [template.toJson.toJs] } := by
      simp only [saveTemplate, EStateM.run_bind, EStateM.run_get, hnext]
      rfl
    rw [hrun]
    refine ⟨⟨_, rfl⟩, hs.recentSends, fun t ht ↦ ?_⟩
    rcases List.mem_append.mp ht with ht | ht
    · exact hs.templates t (hmem t ht)
    · exact List.mem_singleton.mp ht ▸ restorable_template template
  | .history (.deleteTemplate name) =>
    cases hop
    obtain ⟨next, hnext, hmem⟩ := exists_foldlM_keepOther
      (fun t ht ↦ (hs.templates t ht).notNull) name
    have hrun : (deleteTemplate name).run s = .ok () { s with templates := next } := by
      simp only [deleteTemplate, EStateM.run_bind, EStateM.run_get, hnext]
      rfl
    rw [hrun]
    exact ⟨⟨_, rfl⟩, hs.recentSends, fun t ht ↦ hs.templates t (hmem t ht)⟩
  | .useRecent i =>
    obtain ⟨entry, hentry, rfl⟩ := Option.map_eq_some_iff.mp hop
    exact hrestore entry (hs.recentSends entry (List.mem_of_getElem? hentry))
  | .useTemplate i =>
    obtain ⟨template, htemplate, rfl⟩ := Option.map_eq_some_iff.mp hop
    exact hrestore template (hs.templates template (List.mem_of_getElem? htemplate))

theorem quiet_of_restorable (hs : s.Restorable) : Quiet s a := fun _ hop ↦ (quiet_step hs hop).1

theorem restorable_step (hs : s.Restorable) (hstep : step s a = some t) : t.Restorable := by
  obtain ⟨op, hop, rfl⟩ := Option.map_eq_some_iff.mp hstep
  exact (quiet_step hs hop).2

/-- What is stored can be restored. -/
def RestorableStorage (storage : HistoryStorage) : Prop :=
  (∀ entry ∈ items storage.recentSends, Restorable entry) ∧
    ∀ template ∈ items storage.templates, Restorable template

theorem exists_toJs_of_mem_items {raw : Option Utf16} (h : record ∈ items raw) :
    ∃ v : Json, v.toJs = record := by
  obtain ⟨v, -, hv⟩ := List.mem_map.mp h
  exact ⟨v, hv⟩

theorem restorable_of_quiet {raw : Option Utf16} (hrecord : record ∈ items raw) (a : ℕ → Label)
    (hop : ∀ i, operation s (a i) = (items raw)[i]?.map fun r ↦ thenRead (restore r))
    (hquiet : ∀ i, Quiet s (a i)) : Restorable record := by
  obtain ⟨v, rfl⟩ := exists_toJs_of_mem_items hrecord
  obtain ⟨i, hi⟩ := List.mem_iff_getElem?.mp hrecord
  refine thenRead_restore_toJs_iff.mp (hquiet i _ ?_)
  rw [hop, hi, Option.map_some]

/-- **When no operation throws**, whatever is called and used, and in whatever order. -/
theorem guarded_quiet_iff (storage : HistoryStorage) :
    (∀ as, Transition.Guarded step Quiet (load storage) as) ↔ RestorableStorage storage := by
  constructor
  · intro h
    have hquiet : ∀ a, Quiet (load storage) a := fun a ↦ (h [a]).1
    exact ⟨fun entry hentry ↦ restorable_of_quiet hentry .useRecent (fun _ ↦ rfl)
        fun _ ↦ hquiet _,
      fun template htemplate ↦ restorable_of_quiet htemplate .useTemplate (fun _ ↦ rfl)
        fun _ ↦ hquiet _⟩
  · rintro ⟨hrecent, htemplates⟩ as
    exact Transition.Guarded.of_invariant (P := State.Restorable) ⟨hrecent, htemplates⟩
      (fun _ _ _ hs _ hstep ↦ restorable_step hs hstep) (fun _ _ hs _ ↦ quiet_of_restorable hs)
      Transition.guarded_true

/-- An array that holds `null` is taken as a list of templates. -/
theorem not_guarded_quiet_of_null : ¬Transition.Guarded step Quiet
    (load ⟨none, some (Utf16.ofString "[null]")⟩)
    [.history (.deleteTemplate (Utf16.ofString "orders"))] := by
  have htext : Utf16.ofString "[null]" = arrayText id [Json.null] := by decide
  have hitems : items (some (Utf16.ofString "[null]")) = [.null] := by
    rw [items, htext, readArray_arrayText]
    rfl
  rintro ⟨hquiet, -⟩
  obtain ⟨t, ht⟩ := hquiet _ rfl
  rw [load, hitems] at ht
  cases ht

end BusTester.UncheckedHistory
