import BusTester.Client.SendHistory
import BusTester.Collections.KeyedLog
import BusTester.Text.JsObject
import BusTester.Text.Json
import BusTester.Transition.Run

/-!
# The history in the storage of the browser

`SendHistoryService` reads its two lists from `localStorage` when it is constructed and writes a
list back, as a JSON text, each time it changes. The signal is set before the text is written, and
a write may throw.

A run is a sequence of calls and of reloads, each of which constructs a new service over the same
storage. An object lists its properties in an order of its own, whatever the order in which they
were set, and so does the text it is written as; an entry is therefore taken with its headers in
that order.
-/

namespace BusTester

/-! ## Records as documents -/

/-- A property that is a string. -/
def stringMember (key : String) (value : Utf16) : Utf16 × Json :=
  (Utf16.ofString key, .string value)

/-- `JSON.stringify` lists the properties in the order of the object. -/
def recordJson (m : StringMap) : Json :=
  .object ((JsObject.entries m).map fun entry ↦ (entry.1, .string entry.2))

/-- The headers of a record. `JSON.stringify` leaves out a property that is undefined. -/
def headersMember : Option StringMap → List (Utf16 × Json)
  | none => []
  | some headers => [(Utf16.ofString "headers", recordJson headers)]

/-- The property of an object, of which `JSON.parse` keeps the last one. -/
def propertyOf (members : List (Utf16 × Json)) (key : String) : Option Json :=
  (members.findRev? fun m ↦ m.1 = Utf16.ofString key).map Prod.snd

def asString : Json → Option Utf16
  | .string s => some s
  | _ => none

def stringOf (members : List (Utf16 × Json)) (key : String) : Option Utf16 :=
  (propertyOf members key).bind asString

def recordOfJson : Json → Option StringMap
  | .object members =>
    (members.mapM fun m ↦ (asString m.2).map fun value ↦ (m.1, value)).map
      fun entries ↦ JsObject.listed (StringMap.ofEntries entries)
  | _ => none

/-- The headers of a record that was read; they may be undefined. -/
def headersOf (members : List (Utf16 × Json)) : Option (Option StringMap) :=
  match propertyOf members "headers" with
  | none => some none
  | some headers => (recordOfJson headers).map some

namespace RecentSend

/-- The entry with its headers in the order in which they are listed. -/
def listed (r : RecentSend) : RecentSend := { r with headers := r.headers.map JsObject.listed }

def toJson (r : RecentSend) : Json :=
  .object ([stringMember "exchange" r.exchange, stringMember "routingKey" r.routingKey,
    stringMember "payload" r.payload] ++ headersMember r.headers
      ++ [stringMember "sentAt" r.sentAt])

def ofJson : Json → Option RecentSend
  | .object members => do
    let exchange ← stringOf members "exchange"
    let routingKey ← stringOf members "routingKey"
    let payload ← stringOf members "payload"
    let sentAt ← stringOf members "sentAt"
    let headers ← headersOf members
    return { exchange, routingKey, payload, sentAt, headers }
  | _ => none

end RecentSend

namespace SendTemplate

/-- The template with its headers in the order in which they are listed. -/
def listed (t : SendTemplate) : SendTemplate := { t with headers := t.headers.map JsObject.listed }

def toJson (t : SendTemplate) : Json :=
  .object ([stringMember "name" t.name, stringMember "exchange" t.exchange,
    stringMember "routingKey" t.routingKey, stringMember "payload" t.payload]
      ++ headersMember t.headers)

def ofJson : Json → Option SendTemplate
  | .object members => do
    let name ← stringOf members "name"
    let exchange ← stringOf members "exchange"
    let routingKey ← stringOf members "routingKey"
    let payload ← stringOf members "payload"
    let headers ← headersOf members
    return { name, exchange, routingKey, payload, headers }
  | _ => none

end SendTemplate

theorem mapM_map_of_forall {α β : Type*} {f : α → β} {g : β → Option α} {l : List α}
    (h : ∀ a ∈ l, g (f a) = some a) : (l.map f).mapM g = some l := by
  induction l with
  | nil => rfl
  | cons a l ih =>
    rw [List.map_cons, List.mapM_cons, h a List.mem_cons_self,
      ih fun b hb ↦ h b (List.mem_cons_of_mem a hb)]
    rfl

theorem forall_mem_of_mapM {α β : Type*} {f : α → Option β} {P : β → Prop}
    (hf : ∀ a b, f a = some b → P b) {l : List α} {l' : List β} (h : l.mapM f = some l') :
    ∀ b ∈ l', P b := by
  induction l generalizing l' with
  | nil =>
    cases h
    exact nofun
  | cons a l ih =>
    simp only [List.mapM_cons, Option.bind_eq_bind, Option.bind_eq_some_iff, Option.pure_def,
      Option.some.injEq] at h
    obtain ⟨b, hb, bs, hbs, rfl⟩ := h
    intro c hc
    rcases List.mem_cons.mp hc with rfl | hc
    · exact hf a c hb
    · exact ih hbs c hc

/-- A record that was written is read in the order in which it is listed. -/
theorem recordOfJson_recordJson (m : StringMap) :
    recordOfJson (recordJson m) = some (JsObject.listed m) := by
  have hread : ((JsObject.entries m).map fun entry ↦ (entry.1, Json.string entry.2)).mapM
      (fun m ↦ (asString m.2).map fun value ↦ (m.1, value)) = some (JsObject.entries m) :=
    mapM_map_of_forall fun _ _ ↦ rfl
  have hentries : StringMap.ofEntries (JsObject.entries m) = JsObject.listed m :=
    StringMap.ofEntries_entries (JsObject.listed m)
  rw [recordJson, recordOfJson, hread, Option.map_some, hentries, JsObject.listed_listed]

theorem headersOf_of_property {members : List (Utf16 × Json)} {headers : StringMap}
    (h : propertyOf members "headers" = some (recordJson headers)) :
    headersOf members = some (some (JsObject.listed headers)) := by
  rw [headersOf, h]
  exact congrArg (Option.map some) (recordOfJson_recordJson headers)

theorem listed_of_headersOf {members : List (Utf16 × Json)} {headers : Option StringMap}
    (h : headersOf members = some headers) : headers.map JsObject.listed = headers := by
  unfold headersOf at h
  split at h
  · cases h
    rfl
  · obtain ⟨m, hm, rfl⟩ := Option.map_eq_some_iff.mp h
    unfold recordOfJson at hm
    split at hm
    · obtain ⟨entries, -, rfl⟩ := Option.map_eq_some_iff.mp hm
      rw [Option.map_some, JsObject.listed_listed]
    · cases hm

/-- **Reading a record undoes writing it**, up to the order of the headers. -/
theorem RecentSend.ofJson_toJson (r : RecentSend) : ofJson r.toJson = some r.listed := by
  obtain ⟨exchange, routingKey, payload, sentAt, headers⟩ := r
  cases headers with
  | none => rfl
  | some headers =>
    change (headersOf _).bind (fun headers ↦
      some (RecentSend.mk exchange routingKey payload sentAt headers)) = _
    rw [headersOf_of_property rfl]
    rfl

theorem RecentSend.listed_of_ofJson {r : RecentSend} {v : Json} (h : ofJson v = some r) :
    r.listed = r := by
  cases v with
  | object members =>
    simp only [ofJson, Option.bind_eq_bind, Option.bind_eq_some_iff, Option.pure_def,
      Option.some.injEq] at h
    obtain ⟨_, -, _, -, _, -, _, -, headers, hheaders, rfl⟩ := h
    rw [RecentSend.listed, listed_of_headersOf hheaders]
  | _ => cases h

theorem SendTemplate.ofJson_toJson (t : SendTemplate) : ofJson t.toJson = some t.listed := by
  obtain ⟨name, exchange, routingKey, payload, headers⟩ := t
  cases headers with
  | none => rfl
  | some headers =>
    change (headersOf _).bind (fun headers ↦
      some (SendTemplate.mk name exchange routingKey payload headers)) = _
    rw [headersOf_of_property rfl]
    rfl

theorem SendTemplate.listed_of_ofJson {t : SendTemplate} {v : Json} (h : ofJson v = some t) :
    t.listed = t := by
  cases v with
  | object members =>
    simp only [ofJson, Option.bind_eq_bind, Option.bind_eq_some_iff, Option.pure_def,
      Option.some.injEq] at h
    obtain ⟨_, -, _, -, _, -, _, -, headers, hheaders, rfl⟩ := h
    rw [SendTemplate.listed, listed_of_headersOf hheaders]
  | _ => cases h

/-! ## The storage -/

/-- The two entries of `localStorage` that belong to the history. -/
structure HistoryStorage where
  /-- The text under `RECENT_SENDS_KEY`. -/
  recentSends : Option Utf16
  /-- The text under `TEMPLATES_KEY`. -/
  templates : Option Utf16
deriving DecidableEq

/-- `readArray`: missing, malformed and other data count as an array without items. -/
def readArray : Option Utf16 → List Json
  | none => []
  | some raw =>
    if raw = [] then []
    else
      match Json.parse raw with
      | some (.array items) => items
      | _ => []

/-- What is written for a list. -/
def arrayText {α : Type*} (toJson : α → Json) (l : List α) : Utf16 :=
  Json.print (.array (l.map toJson))

theorem readArray_arrayText {α : Type*} (toJson : α → Json) (l : List α) :
    readArray (some (arrayText toJson l)) = l.map toJson := by
  simp only [readArray, arrayText, Json.print_ne_nil, if_false, Json.parse_print]

namespace HistoryStorage

/-- The service that is constructed over the storage. The source takes the items of the two arrays
unchecked; the storage has no service here if one of them is not a record of its kind. -/
def load (storage : HistoryStorage) : Option SendHistoryService := do
  let recentSends ← (readArray storage.recentSends).mapM RecentSend.ofJson
  let templates ← (readArray storage.templates).mapM SendTemplate.ofJson
  return { recentSends, templates }

theorem load_eq_some_iff {storage : HistoryStorage} {s : SendHistoryService} :
    storage.load = some s ↔
      (readArray storage.recentSends).mapM RecentSend.ofJson = some s.recentSends ∧
        (readArray storage.templates).mapM SendTemplate.ofJson = some s.templates := by
  obtain ⟨recentSends, templates⟩ := s
  simp only [load, Option.bind_eq_bind, Option.bind_eq_some_iff, Option.pure_def,
    Option.some.injEq, SendHistoryService.mk.injEq]
  constructor
  · rintro ⟨_, hrecent, _, htemplates, rfl, rfl⟩
    exact ⟨hrecent, htemplates⟩
  · rintro ⟨hrecent, htemplates⟩
    exact ⟨recentSends, hrecent, templates, htemplates, rfl, rfl⟩

end HistoryStorage

/-- A call of the service. -/
inductive HistoryCall where
  | recordSend (entry : RecentSend)
  | saveTemplate (template : SendTemplate)
  | deleteTemplate (name : Utf16)
deriving DecidableEq

namespace HistoryCall

/-- What the call makes of the signals. -/
def update (s : SendHistoryService) : HistoryCall → SendHistoryService
  | recordSend entry => s.recordSend entry.listed
  | saveTemplate template => s.saveTemplate template.listed
  | deleteTemplate name => s.deleteTemplate name

/-- `localStorage.setItem` at the end of the call, with what the signal holds by then. -/
def write (s : SendHistoryService) (storage : HistoryStorage) : HistoryCall → HistoryStorage
  | recordSend _ =>
    { storage with recentSends := some (arrayText RecentSend.toJson s.recentSends) }
  | saveTemplate _ | deleteTemplate _ =>
    { storage with templates := some (arrayText SendTemplate.toJson s.templates) }

/-- What a new instance finds after the write: the list that was written, and the other one. -/
def found (fresh s : SendHistoryService) : HistoryCall → SendHistoryService
  | recordSend _ => { fresh with recentSends := s.recentSends }
  | saveTemplate _ | deleteTemplate _ => { fresh with templates := s.templates }

theorem found_update (s : SendHistoryService) (call : HistoryCall) :
    call.found s (call.update s) = call.update s := by
  cases call <;> rfl

/-- What the call does to the templates, as an update of a list with one entry for each name. -/
def templateUpdate : HistoryCall → Option (KeyedLog.Update SendTemplate Utf16)
  | recordSend _ => none
  | saveTemplate template => some (.put template.listed)
  | deleteTemplate name => some (.erase name)

theorem templates_update (s : SendHistoryService) (call : HistoryCall) :
    (call.update s).templates
      = (call.templateUpdate.elim s.templates (KeyedLog.update SendTemplate.name s.templates)) := by
  cases call <;> rfl

theorem templates_found (fresh s : SendHistoryService) (call : HistoryCall) :
    (call.found fresh (call.update s)).templates
      = call.templateUpdate.elim fresh.templates
        (KeyedLog.update SendTemplate.name s.templates) := by
  cases call <;> rfl

end HistoryCall

/-- Each entry has its headers in the order in which they are listed. -/
structure SendHistoryService.Listed (s : SendHistoryService) : Prop where
  recentSends : ∀ r ∈ s.recentSends, r.listed = r
  templates : ∀ t ∈ s.templates, t.listed = t

theorem listed_headers (headers : Option StringMap) :
    (headers.map JsObject.listed).map JsObject.listed = headers.map JsObject.listed := by
  cases headers with
  | none => rfl
  | some headers => exact congrArg some (JsObject.listed_listed headers)

theorem HistoryStorage.listed_of_load {storage : HistoryStorage} {s : SendHistoryService}
    (h : storage.load = some s) : s.Listed := by
  rw [load_eq_some_iff] at h
  exact ⟨forall_mem_of_mapM (fun _ _ ↦ RecentSend.listed_of_ofJson) h.1,
    forall_mem_of_mapM (fun _ _ ↦ SendTemplate.listed_of_ofJson) h.2⟩

namespace SendHistoryService

variable {s : SendHistoryService} {storage : HistoryStorage} {call : HistoryCall}

theorem Listed.update (hs : s.Listed) : (call.update s).Listed := by
  cases call with
  | recordSend entry =>
    refine ⟨fun r hr ↦ ?_, hs.templates⟩
    rcases List.mem_cons.mp (List.mem_of_mem_take hr) with rfl | hr
    · rw [RecentSend.listed, RecentSend.listed, listed_headers]
    · exact hs.recentSends r hr
  | saveTemplate template =>
    refine ⟨hs.recentSends, fun t ht ↦ ?_⟩
    rcases List.mem_append.mp ht with ht | ht
    · exact hs.templates t (List.mem_filter.mp ht).1
    · rw [List.mem_singleton.mp ht, SendTemplate.listed, SendTemplate.listed, listed_headers]
  | deleteTemplate name =>
    exact ⟨hs.recentSends, fun t ht ↦ hs.templates t (List.mem_filter.mp ht).1⟩

/-- **What was written is loaded.** -/
theorem load_write {fresh : SendHistoryService} (hs : s.Listed)
    (hload : storage.load = some fresh) :
    (call.write s storage).load = some (call.found fresh s) := by
  rw [HistoryStorage.load_eq_some_iff] at hload ⊢
  have htemplates : (readArray (some (arrayText SendTemplate.toJson s.templates))).mapM
      SendTemplate.ofJson = some s.templates := by
    rw [readArray_arrayText]
    exact mapM_map_of_forall fun t ht ↦
      (SendTemplate.ofJson_toJson t).trans (congrArg some (hs.templates t ht))
  cases call with
  | recordSend entry =>
    refine ⟨?_, hload.2⟩
    rw [HistoryCall.write, readArray_arrayText]
    exact mapM_map_of_forall fun r hr ↦
      (RecentSend.ofJson_toJson r).trans (congrArg some (hs.recentSends r hr))
  | saveTemplate template => exact ⟨hload.1, htemplates⟩
  | deleteTemplate name => exact ⟨hload.1, htemplates⟩

end SendHistoryService

/-! ## Runs of one instance -/

namespace HistoryStorage

open Transition KeyedLog

/-- The signals of the instance and the storage. -/
structure State where
  service : SendHistoryService
  storage : HistoryStorage
deriving DecidableEq

/-- Nothing is stored. -/
def State.initial : State := ⟨⟨[], []⟩, ⟨none, none⟩⟩

inductive Label where
  /-- A call, whose write succeeds or throws. -/
  | call (c : HistoryCall) (stored : Bool)
  /-- A new instance is constructed over the storage. -/
  | reload

def step (s : State) : Label → Option State
  | .call c stored =>
    some
      { service := c.update s.service
        storage := if stored then c.write (c.update s.service) s.storage else s.storage }
  | .reload => s.storage.load.map fun service ↦ { s with service }

/-- No write throws. -/
def Stored (_ : State) : Label → Prop
  | .call _ stored => stored = true
  | .reload => True

/-- The entry that the step records. -/
def recordedBy : Label → Option RecentSend
  | .call (.recordSend entry) _ => some entry.listed
  | _ => none

/-- The entries recorded in the whole run, the oldest first. -/
def recorded (as : List Label) : List RecentSend := as.filterMap recordedBy

/-- What the step does to the templates. -/
def updateBy : Label → Option (Update SendTemplate Utf16)
  | .call c _ => c.templateUpdate
  | .reload => none

/-- What the whole run does to the templates. -/
def updates (as : List Label) : List (Update SendTemplate Utf16) := as.filterMap updateBy

/-- The two lists are what the run has made of them, and the storage holds the same. -/
structure IsHistory (as : List Label) (s : State) : Prop where
  recentSends : s.service.recentSends
    = (recorded as).reverse.take SendHistoryService.recentSendsCap
  templates : s.service.templates = kept SendTemplate.name (updates as)
  listed : s.service.Listed
  load : s.storage.load = some s.service

variable {s t : State} {a : Label} {as : List Label}

theorem isHistory_initial : IsHistory [] State.initial :=
  ⟨rfl, rfl, ⟨nofun, nofun⟩, rfl⟩

theorem take_cons_take {α : Type*} (a : α) (l : List α) (n : ℕ) :
    (a :: l.take n).take n = (a :: l).take n := by
  cases n with
  | zero => rfl
  | succ n =>
    rw [List.take_succ_cons, List.take_succ_cons, List.take_take, Nat.min_eq_left n.le_succ]

theorem recorded_concat : recorded (as ++ [a]) = recorded as ++ (recordedBy a).toList := by
  rw [recorded, List.filterMap_append]
  cases h : recordedBy a <;> simp [recorded, h]

theorem updates_concat : updates (as ++ [a]) = updates as ++ (updateBy a).toList := by
  rw [updates, List.filterMap_append]
  cases h : updateBy a <;> simp [updates, h]

theorem isHistory_step (hs : IsHistory as s) (hstored : Stored s a) (hstep : step s a = some t) :
    IsHistory (as ++ [a]) t := by
  cases a with
  | reload =>
    rw [step, hs.load] at hstep
    obtain rfl : s = t := Option.some.inj hstep
    have hrecorded : recorded (as ++ [.reload]) = recorded as :=
      recorded_concat.trans (List.append_nil _)
    have hupdates : updates (as ++ [.reload]) = updates as :=
      updates_concat.trans (List.append_nil _)
    exact ⟨by rw [hrecorded, hs.recentSends], by rw [hupdates, hs.templates], hs.listed, hs.load⟩
  | call c stored =>
    obtain rfl : stored = true := hstored
    cases hstep
    have hlisted : (c.update s.service).Listed := hs.listed.update
    have hload : (c.write (c.update s.service) s.storage).load = some (c.update s.service) := by
      rw [SendHistoryService.load_write hlisted hs.load, HistoryCall.found_update]
    refine ⟨?_, ?_, hlisted, hload⟩
    · cases c with
      | recordSend entry =>
        have hrecorded : recorded (as ++ [.call (.recordSend entry) true])
            = recorded as ++ [entry.listed] := recorded_concat
        change (entry.listed :: s.service.recentSends).take _ = _
        rw [hrecorded, hs.recentSends, take_cons_take, List.reverse_concat]
      | saveTemplate template =>
        have hrecorded : recorded (as ++ [.call (.saveTemplate template) true]) = recorded as :=
          recorded_concat.trans (List.append_nil _)
        exact hs.recentSends.trans (by rw [hrecorded])
      | deleteTemplate name =>
        have hrecorded : recorded (as ++ [.call (.deleteTemplate name) true]) = recorded as :=
          recorded_concat.trans (List.append_nil _)
        exact hs.recentSends.trans (by rw [hrecorded])
    · rw [updates_concat, HistoryCall.templates_update, hs.templates]
      cases h : c.templateUpdate with
      | none => rw [updateBy, h, Option.toList_none, List.append_nil, Option.elim_none]
      | some u => rw [updateBy, h, Option.toList_some, kept_concat, Option.elim_some]

theorem IsHistory.reload (hs : IsHistory as s) : step s .reload = some s := by
  rw [step, hs.load]
  rfl

/-- A run is never stuck: what is stored can be loaded. -/
theorem exists_isHistory (hstored : Guarded step Stored State.initial as) :
    ∃ s, run step State.initial as = some s ∧ IsHistory as s := by
  induction as using List.reverseRecOn with
  | nil => exact ⟨State.initial, rfl, isHistory_initial⟩
  | append_singleton as a ih =>
    obtain ⟨s, hrun, hs⟩ := ih hstored.of_append
    have ha : Stored s a := ((guarded_concat hrun).mp hstored).2
    obtain ⟨t, hstep⟩ : ∃ t, step s a = some t := by
      cases a with
      | call c stored => exact ⟨_, rfl⟩
      | reload => exact ⟨s, hs.reload⟩
    exact ⟨t, run_concat.mpr ⟨s, hrun, hstep⟩, isHistory_step hs ha hstep⟩

/-- **The history is a capped log and a finite map, and a reload changes nothing.** -/
theorem isHistory_of_stored (hstored : Guarded step Stored State.initial as)
    (hrun : run step State.initial as = some s) :
    IsHistory as s ∧ (s.service.templates.map SendTemplate.name).Nodup ∧
      (∀ template, template ∈ s.service.templates ↔
        latest SendTemplate.name template.name (updates as) = some template) ∧
      step s .reload = some s := by
  obtain ⟨t, ht, hs⟩ := exists_isHistory hstored
  obtain rfl : s = t := Option.some.inj (hrun.symm.trans ht)
  refine ⟨hs, ?_, fun template ↦ ?_, hs.reload⟩
  · rw [hs.templates]
    exact nodup_kept (updates as)
  · rw [hs.templates]
    exact mem_kept_iff

/-- A template is saved again under its name, with a reload in between. -/
private def savedAgain : List Label :=
  [.call (.recordSend ⟨Utf16.ofString "ex", [], Utf16.ofString "ping", Utf16.ofString "10:00",
      some (StringMap.empty.set (Utf16.ofString "retry") (Utf16.ofString "1"))⟩) true,
    .call (.saveTemplate ⟨Utf16.ofString "a", Utf16.ofString "ex", [], [], none⟩) true, .reload,
    .call (.saveTemplate ⟨Utf16.ofString "b", Utf16.ofString "ex", [], [], none⟩) true,
    .call (.saveTemplate ⟨Utf16.ofString "a", [], Utf16.ofString "rk", [], none⟩) true]

theorem history_of_savedAgain : ∃ s, run step State.initial savedAgain = some s ∧
    s.service.templates.map SendTemplate.name = [Utf16.ofString "b", Utf16.ofString "a"] ∧
      step s .reload = some s := by
  have hstored : Guarded step Stored State.initial savedAgain :=
    Guarded.of_forall fun a ha s ↦ by
      simp only [savedAgain, List.mem_cons, List.not_mem_nil, or_false] at ha
      rcases ha with rfl | rfl | rfl | rfl | rfl <;> first | rfl | trivial
  obtain ⟨s, hrun, -⟩ := exists_isHistory hstored
  obtain ⟨hs, -, -, hreload⟩ := isHistory_of_stored hstored hrun
  refine ⟨s, hrun, ?_, hreload⟩
  rw [hs.templates]
  decide

end HistoryStorage

end BusTester
