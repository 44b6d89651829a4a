import BusTester.Text.JsNumber
import BusTester.Text.JsObject
import BusTester.Text.Json

/-!
# Values of JavaScript

What `JSON.parse` makes of a document is not the document any more. A number is rounded, and an
object keeps one property for each key, with the last value that the document gives it, and lists
the keys that are array indices first. `toJs` is this step, and `toJson` the way back that
`JSON.stringify` takes.
-/

/-- A value that `JSON.parse` returns. -/
inductive JsValue where
  | null
  | bool (b : Bool)
  | number (x : Json.JsNumber)
  | string (s : Utf16)
  | array (items : List JsValue)
  | object (properties : List (Utf16 × JsValue))

namespace Json

/-! ## From a document to a value -/

section Fold

variable {α : Type*} (null : α) (bool : Bool → α) (number : NumberLiteral → α)
  (string : Utf16 → α) (array : List α → α) (object : List (Utf16 × α) → α)

mutual

/-- Replace the constructors of a document. -/
def fold : Json → α
  | .null => null
  | .bool b => bool b
  | .number n => number n
  | .string s => string s
  | .array items => array (foldItems items)
  | .object members => object (foldMembers members)

def foldItems : List Json → List α
  | [] => []
  | v :: vs => fold v :: foldItems vs

def foldMembers : List (Utf16 × Json) → List (Utf16 × α)
  | [] => []
  | (key, v) :: ms => (key, fold v) :: foldMembers ms

end

theorem foldItems_eq (items : List Json) :
    foldItems null bool number string array object items
      = items.map (fold null bool number string array object) := by
  induction items with
  | nil => rfl
  | cons v vs ih => rw [foldItems, ih, List.map_cons]

theorem foldMembers_eq (members : List (Utf16 × Json)) :
    foldMembers null bool number string array object members
      = members.map fun m ↦ (m.1, fold null bool number string array object m.2) := by
  induction members with
  | nil => rfl
  | cons m ms ih => rw [foldMembers, ih, List.map_cons]

end Fold

/-- What `JSON.parse` makes of a document. -/
def toJs : Json → JsValue :=
  fold .null .bool (fun n ↦ .number n.toNumber) .string .array
    fun members ↦ .object (JsObject.ownProperties members)

@[simp] theorem toJs_array (items : List Json) : (array items).toJs = .array (items.map toJs) :=
  congrArg JsValue.array (foldItems_eq ..)

@[simp] theorem toJs_object (members : List (Utf16 × Json)) : (object members).toJs
    = .object (JsObject.ownProperties (members.map fun m ↦ (m.1, m.2.toJs))) :=
  congrArg (fun ms ↦ JsValue.object (JsObject.ownProperties ms)) (foldMembers_eq ..)

end Json

/-! ## From a value to a document -/

namespace JsValue

mutual

/-- The document that `JSON.stringify` writes. There is no number for an infinity. -/
def toJson : JsValue → Json
  | null => .null
  | bool b => .bool b
  | number (.finite x) => .number x.numeral
  | number .infinite => .null
  | string s => .string s
  | array items => .array (itemsToJson items)
  | object properties => .object (propertiesToJson properties)

def itemsToJson : List JsValue → List Json
  | [] => []
  | v :: vs => v.toJson :: itemsToJson vs

def propertiesToJson : List (Utf16 × JsValue) → List (Utf16 × Json)
  | [] => []
  | (key, v) :: ps => (key, v.toJson) :: propertiesToJson ps

end

@[simp] theorem toJson_array (items : List JsValue) :
    (array items).toJson = .array (items.map toJson) := by
  rw [toJson]
  congr 1
  induction items with
  | nil => rfl
  | cons v vs ih => rw [itemsToJson, ih, List.map_cons]

@[simp] theorem toJson_object (properties : List (Utf16 × JsValue)) :
    (object properties).toJson = .object (properties.map fun p ↦ (p.1, p.2.toJson)) := by
  rw [toJson]
  congr 1
  induction properties with
  | nil => rfl
  | cons p ps ih => rw [propertiesToJson, ih, List.map_cons]

end JsValue
