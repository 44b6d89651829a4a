import BusTester.Text.Json

/-!
# Indented documents

`pretty` writes a document as `JSON.stringify` does when it is told to indent by two spaces: each
item and each member is on a line of its own. The line breaks are white space where JSON allows it,
so what is read back is the document, as from `print`.
-/

namespace Json

/-- A line break, and the indentation of the next line. -/
def newline (depth : ℕ) : Utf16 := 0x0A :: List.replicate (2 * depth) 0x20

mutual

/-- Write a document whose lines after the first one are indented. -/
def pretty : ℕ → Json → Utf16
  | _, null => Utf16.ofString "null"
  | _, bool true => Utf16.ofString "true"
  | _, bool false => Utf16.ofString "false"
  | _, number n => n.text
  | _, string s => quote s
  | _, array [] => [0x5B, 0x5D]
  | depth, array (v :: vs) =>
    0x5B :: (newline (depth + 1) ++ pretty (depth + 1) v ++ prettyItems depth vs)
  | _, object [] => [0x7B, 0x7D]
  | depth, object ((key, v) :: ms) =>
    0x7B :: (newline (depth + 1)
      ++ (quote key ++ 0x3A :: (0x20 :: pretty (depth + 1) v ++ prettyMembers depth ms)))

/-- Write the items of an array after the first one, and its end. -/
def prettyItems : ℕ → List Json → Utf16
  | depth, [] => newline depth ++ [0x5D]
  | depth, v :: vs =>
    0x2C :: (newline (depth + 1) ++ pretty (depth + 1) v ++ prettyItems depth vs)

/-- Write the members of an object after the first one, and its end. -/
def prettyMembers : ℕ → List (Utf16 × Json) → Utf16
  | depth, [] => newline depth ++ [0x7D]
  | depth, (key, v) :: ms =>
    0x2C :: (newline (depth + 1)
      ++ (quote key ++ 0x3A :: (0x20 :: pretty (depth + 1) v ++ prettyMembers depth ms)))

end

theorem isSpace_newline (depth : ℕ) : ∀ c ∈ newline depth, isSpace c = true := by
  intro c hc
  rcases List.mem_cons.mp hc with rfl | hc
  · rfl
  · rw [List.eq_of_mem_replicate hc]
    rfl

/-- The document is read back from any depth. -/
def ReadsPretty (v : Json) : Prop := ∀ depth, ReadsAs (pretty depth v) v

theorem readsAsItems_prettyItems {vs : List Json} (hvs : ∀ v ∈ vs, ReadsPretty v) (depth : ℕ) :
    ReadsAsItems (prettyItems depth vs) vs := by
  induction vs with
  | nil =>
    rw [prettyItems]
    exact ReadsAsItems.nil (isSpace_newline depth)
  | cons v vs ih =>
    rw [prettyItems]
    exact ReadsAsItems.cons ((hvs v List.mem_cons_self _).space (isSpace_newline _))
      (ih fun w hw ↦ hvs w (List.mem_cons_of_mem _ hw))

theorem ReadsPretty.space {v : Json} (hv : ReadsPretty v) (depth : ℕ) :
    ReadsAs (0x20 :: pretty depth v) v :=
  (hv depth).space (s := [0x20]) (List.forall_mem_singleton.mpr rfl)

theorem readsAsMembers_prettyMembers {ms : List (Utf16 × Json)}
    (hms : ∀ m ∈ ms, ReadsPretty m.2) (depth : ℕ) :
    ReadsAsMembers (prettyMembers depth ms) ms := by
  induction ms with
  | nil =>
    rw [prettyMembers]
    exact ReadsAsMembers.nil (isSpace_newline depth)
  | cons m ms ih =>
    rw [prettyMembers]
    exact ReadsAsMembers.cons m.1 (isSpace_newline _) ((hms m List.mem_cons_self).space _)
      (ih fun w hw ↦ hms w (List.mem_cons_of_mem _ hw))

theorem readsPretty (v : Json) : ReadsPretty v := by
  induction v using induction with
  | null => exact fun _ ↦ readsAs_null
  | bool b =>
    cases b with
    | true => exact fun _ ↦ readsAs_true
    | false => exact fun _ ↦ readsAs_false
  | number n => exact fun _ ↦ readsAs_number n
  | string s => exact fun _ ↦ readsAs_quote s
  | array items ih =>
    intro depth
    cases items with
    | nil => exact readsAs_array_nil
    | cons v vs =>
      rw [pretty]
      exact ReadsAs.array ((ih v List.mem_cons_self _).space (isSpace_newline _))
        (readsAsItems_prettyItems (fun w hw ↦ ih w (List.mem_cons_of_mem _ hw)) depth)
  | object members ih =>
    intro depth
    cases members with
    | nil => exact readsAs_object_nil
    | cons m ms =>
      rw [pretty]
      exact ReadsAs.object m.1 (isSpace_newline _) (ReadsPretty.space (ih m List.mem_cons_self) _)
        (readsAsMembers_prettyMembers (fun w hw ↦ ih w (List.mem_cons_of_mem _ hw)) depth)

/-- **An indented document is read back.** -/
theorem parse_pretty (depth : ℕ) (v : Json) : parse (pretty depth v) = some v :=
  (readsPretty v depth).parse

example : pretty 0 (array [null, bool true]) = Utf16.ofString "[\n  null,\n  true\n]" := by decide

end Json
