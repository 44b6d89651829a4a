import BusTester.Text.JsValue
import BusTester.Text.JsonPretty

/-!
# The payload on the screen

`JsonPrettyPipe` shows a payload that is JSON as `JSON.stringify` writes what `JSON.parse` has made
of it, over several lines. This is a document again, and `transform_spec` says when it is the one
of the payload: when the numbers survive the rounding and the keys of each object are distinct and
in the order in which JavaScript lists them.
-/

namespace Json

/-! ## What a document says -/

/-- The content of a document, whatever the notation of its numbers. -/
inductive Document where
  | null
  | bool (b : Bool)
  | number (value : ℚ)
  | string (s : Utf16)
  | array (items : List Document)
  | object (members : List (Utf16 × Document))

def content : Json → Document :=
  fold .null .bool (fun n ↦ .number n.value) .string .array .object

theorem content_array (items : List Json) :
    (array items).content = .array (items.map content) :=
  congrArg Document.array (foldItems_eq ..)

theorem content_object (members : List (Utf16 × Json)) :
    (object members).content = .object (members.map fun m ↦ (m.1, m.2.content)) :=
  congrArg Document.object (foldMembers_eq ..)

/-- The documents that a JavaScript value can hold: every number is the shortest decimal of what it
is rounded to, and every object has distinct keys, with the array indices first and ascending. -/
inductive Faithful : Json → Prop
  | null : Faithful null
  | bool (b : Bool) : Faithful (bool b)
  | number {n : NumberLiteral} (hn : n.Exact) : Faithful (number n)
  | string (s : Utf16) : Faithful (string s)
  | array {items : List Json} (hitems : ∀ v ∈ items, Faithful v) : Faithful (array items)
  | object {members : List (Utf16 × Json)} (horder : JsObject.InOwnOrder (members.map Prod.fst))
    (hmembers : ∀ m ∈ members, Faithful m.2) : Faithful (object members)

theorem faithful_array_iff {items : List Json} :
    (array items).Faithful ↔ ∀ v ∈ items, v.Faithful := by
  constructor
  · rintro (_ | _ | _ | _ | hitems | _)
    exact hitems
  · exact Faithful.array

theorem faithful_object_iff {members : List (Utf16 × Json)} : (object members).Faithful ↔
    JsObject.InOwnOrder (members.map Prod.fst) ∧ ∀ m ∈ members, m.2.Faithful := by
  constructor
  · rintro (_ | _ | _ | _ | _ | ⟨horder, hmembers⟩)
    exact ⟨horder, hmembers⟩
  · exact fun h ↦ Faithful.object h.1 h.2

/-- What is left of a document in JavaScript, written as a document. -/
def viaJs (v : Json) : Json := v.toJs.toJson

theorem viaJs_number (n : NumberLiteral) :
    (number n).viaJs.content = (number n).content ↔ (number n).Faithful := by
  have hfaithful : (number n).Faithful ↔ n.Exact := by
    constructor
    · rintro (_ | _ | hn | _ | _ | _)
      exact hn
    · exact Faithful.number
  rw [hfaithful, n.exact_iff]
  change (JsValue.number n.toNumber).toJson.content = Document.number n.value ↔ _
  cases n.toNumber with
  | infinite => exact iff_of_false (by rintro ⟨⟩) (by rintro ⟨x, ⟨⟩, -⟩)
  | finite x =>
    rw [JsValue.toJson]
    change Document.number x.numeral.value = _ ↔ _
    simp only [Document.number.injEq, JsNumber.finite.injEq, exists_eq_left']

theorem viaJs_object {members : List (Utf16 × Json)}
    (ih : ∀ m ∈ members, m.2.viaJs.content = m.2.content ↔ m.2.Faithful) :
    (object members).viaJs.content = (object members).content ↔
      (object members).Faithful := by
  have hvia : (object members).viaJs.content
      = .object (JsObject.ownProperties (members.map fun m ↦ (m.1, m.2.viaJs.content))) := by
    rw [viaJs, toJs_object, JsValue.toJson_object, content_object, JsObject.ownProperties_map,
      JsObject.ownProperties_map fun v : Json ↦ v.viaJs.content, List.map_map, List.map_map]
    rfl
  have hkeys : ∀ f : Json → Document,
      (members.map fun m ↦ (m.1, f m.2)).map Prod.fst = members.map Prod.fst := by
    intro f
    rw [List.map_map]
    rfl
  have hself : JsObject.InOwnOrder (members.map Prod.fst) →
      JsObject.ownProperties (members.map fun m ↦ (m.1, m.2.viaJs.content))
        = members.map fun m ↦ (m.1, m.2.viaJs.content) := by
    intro horder
    exact JsObject.ownProperties_eq_self (by rwa [hkeys fun v ↦ v.viaJs.content])
  rw [hvia, content_object, Document.object.injEq, faithful_object_iff]
  constructor
  · intro heq
    -- The keys of the properties are in order, and they are the keys of the members.
    have horder : JsObject.InOwnOrder (members.map Prod.fst) := by
      rw [← hkeys content, ← heq]
      exact JsObject.inOwnOrder_ownProperties _
    rw [hself horder, List.map_inj_left] at heq
    exact ⟨horder, fun m hm ↦ (ih m hm).mp (Prod.ext_iff.mp (heq m hm)).2⟩
  · rintro ⟨horder, hmembers⟩
    rw [hself horder, List.map_inj_left]
    exact fun m hm ↦ Prod.ext rfl ((ih m hm).mpr (hmembers m hm))

/-- **When JavaScript keeps what a document says.** -/
theorem content_viaJs_iff (v : Json) : v.viaJs.content = v.content ↔ v.Faithful := by
  induction v using induction with
  | null => exact iff_of_true rfl Faithful.null
  | bool b => exact iff_of_true rfl (Faithful.bool b)
  | number n => exact viaJs_number n
  | string s => exact iff_of_true rfl (Faithful.string s)
  | array items ih =>
    rw [viaJs, toJs_array, JsValue.toJson_array, content_array, content_array, List.map_map,
      List.map_map, Document.array.injEq, List.map_inj_left, faithful_array_iff]
    exact forall₂_congr ih
  | object members ih => exact viaJs_object ih

end Json

namespace BusTester.JsonPrettyPipe

/-- `JSON.stringify(value, null, 2)`. -/
def stringify (value : JsValue) : Utf16 := Json.pretty 0 value.toJson

/-- `JsonPrettyPipe.transform`. Where `JSON.parse` throws, the payload is returned as it is. -/
def transform (value : Utf16) : Utf16 :=
  match (Json.parse value).map Json.toJs with
  | none => value
  | some parsed => stringify parsed

/-- What is shown says what the payload says. -/
def SaysTheSame (value : Utf16) : Prop :=
  match Json.parse value with
  | none => transform value = value
  | some v => ∃ w, Json.parse (transform value) = some w ∧ w.content = v.content

theorem transform_eq_self {value : Utf16} (h : Json.parse value = none) :
    transform value = value := by
  rw [transform, h]
  rfl

theorem parse_transform {value : Utf16} {v : Json} (h : Json.parse value = some v) :
    Json.parse (transform value) = some v.viaJs := by
  rw [transform, h]
  exact Json.parse_pretty 0 _

/-- **What the pipe shows.** A payload that is not JSON is shown as it is. Any other is shown as a
document, which says the same if and only if JavaScript can hold what the payload says. -/
theorem transform_spec (value : Utf16) :
    match Json.parse value with
    | none => transform value = value
    | some v => Json.parse (transform value) = some v.viaJs ∧
        (v.viaJs.content = v.content ↔ v.Faithful) := by
  cases h : Json.parse value with
  | none => exact transform_eq_self h
  | some v => exact ⟨parse_transform h, v.content_viaJs_iff⟩

/-- Of a repeated key only the last value is shown. -/
theorem not_saysTheSame_of_repeated_key :
    ¬SaysTheSame (Utf16.ofString "\x7b\"a\":true,\"a\":false\x7d") := by
  have htext : Utf16.ofString "\x7b\"a\":true,\"a\":false\x7d" = Json.print (.object
      [(Utf16.ofString "a", .bool true), (Utf16.ofString "a", .bool false)]) := by decide
  have hparse := htext ▸ Json.parse_print _
  rw [SaysTheSame, hparse]
  rintro ⟨w, hw, hsame⟩
  rw [parse_transform hparse] at hw
  cases hw
  have hfaithful := (Json.content_viaJs_iff _).mp hsame
  exact absurd (Json.faithful_object_iff.mp hfaithful).1.nodup (by decide)

end BusTester.JsonPrettyPipe
