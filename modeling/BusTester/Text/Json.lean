import BusTester.Text.JsonLexer

/-!
# JSON documents

A document is kept as it is written: the members of an object in their order, repeated keys
included, and each number digit by digit. `print` writes it without white space, as `JSON.stringify`
does, and `parse` reads any JSON text. `parse_print` says that a printed document is read back.

The parser takes a bound on its depth, so that it is structurally recursive. No text needs a larger
bound than twice its length, since every second call is made on a shorter text: by
`parse_eq_some_iff` the texts that `parse` reads are those that some bound allows.
-/

/-- A JSON document. -/
inductive Json where
  | null
  | bool (b : Bool)
  | number (n : Json.NumberLiteral)
  | string (s : Utf16)
  | array (items : List Json)
  | object (members : List (Utf16 × Json))

namespace Json

/-! ## Writing -/

mutual

/-- Write a document. -/
def print : Json → Utf16
  | null => Utf16.ofString "null"
  | bool true => Utf16.ofString "true"
  | bool false => Utf16.ofString "false"
  | number n => n.text
  | string s => quote s
  | array [] => [0x5B, 0x5D]
  | array (v :: vs) => 0x5B :: (print v ++ printItems vs)
  | object [] => [0x7B, 0x7D]
  | object ((key, v) :: ms) => 0x7B :: (quote key ++ 0x3A :: (print v ++ printMembers ms))

/-- Write the items of an array after the first one, and its end. -/
def printItems : List Json → Utf16
  | [] => [0x5D]
  | v :: vs => 0x2C :: (print v ++ printItems vs)

/-- Write the members of an object after the first one, and its end. -/
def printMembers : List (Utf16 × Json) → Utf16
  | [] => [0x7D]
  | (key, v) :: ms => 0x2C :: (quote key ++ 0x3A :: (print v ++ printMembers ms))

end

/-! ## Reading -/

/-- The white space of JSON. -/
def isSpace (c : UInt16) : Bool := c == 0x20 || c == 0x09 || c == 0x0A || c == 0x0D

def skipSpace (cs : Utf16) : Utf16 := cs.dropWhile isSpace

/-- Read the words of the literals. -/
def lexWord (word : Utf16) (v : Json) (cs : Utf16) : Option (Json × Utf16) :=
  if word <+: cs then some (v, cs.drop word.length) else none

/-- Read a value that is not made of others. -/
def lexScalar : Utf16 → Option (Json × Utf16)
  | [] => none
  | c :: cs =>
    if c = 0x22 then (lexString cs).map fun r ↦ (string r.1, r.2)
    else if c = 0x6E then lexWord (Utf16.ofString "null") null (c :: cs)
    else if c = 0x74 then lexWord (Utf16.ofString "true") (bool true) (c :: cs)
    else if c = 0x66 then lexWord (Utf16.ofString "false") (bool false) (c :: cs)
    else (lexNumber (c :: cs)).map fun r ↦ (number r.1, r.2)

/-- Read the key of a member and the colon after it. -/
def lexKey (cs : Utf16) : Option (Utf16 × Utf16) := do
  let cs ← expect 0x22 (skipSpace cs)
  let (key, cs) ← lexString cs
  let cs ← expect 0x3A (skipSpace cs)
  return (key, cs)

mutual

/-- Read a value. -/
def parseValue : ℕ → Utf16 → Option (Json × Utf16)
  | 0, _ => none
  | fuel + 1, cs =>
    match skipSpace cs with
    | [] => none
    | c :: cs =>
      if c = 0x5B then
        match expect 0x5D (skipSpace cs) with
        | some rest => some (array [], rest)
        | none => (parseItems fuel cs).map fun r ↦ (array r.1, r.2)
      else if c = 0x7B then
        match expect 0x7D (skipSpace cs) with
        | some rest => some (object [], rest)
        | none => (parseMembers fuel cs).map fun r ↦ (object r.1, r.2)
      else lexScalar (c :: cs)

/-- Read the items of an array, of which there is at least one, up to its end. -/
def parseItems : ℕ → Utf16 → Option (List Json × Utf16)
  | 0, _ => none
  | fuel + 1, cs =>
    (parseValue fuel cs).bind fun r ↦
      match skipSpace r.2 with
      | [] => none
      | c :: cs =>
        if c = 0x2C then (parseItems fuel cs).map fun rs ↦ (r.1 :: rs.1, rs.2)
        else if c = 0x5D then some ([r.1], cs)
        else none

/-- Read the members of an object, of which there is at least one, up to its end. -/
def parseMembers : ℕ → Utf16 → Option (List (Utf16 × Json) × Utf16)
  | 0, _ => none
  | fuel + 1, cs =>
    (lexKey cs).bind fun key ↦
      (parseValue fuel key.2).bind fun r ↦
        match skipSpace r.2 with
        | [] => none
        | c :: cs =>
          if c = 0x2C then (parseMembers fuel cs).map fun rs ↦ ((key.1, r.1) :: rs.1, rs.2)
          else if c = 0x7D then some ([(key.1, r.1)], cs)
          else none

end

/-- Read a text that holds one value and nothing else. -/
def parse (text : Utf16) : Option Json := do
  let (v, rest) ← parseValue (2 * text.length) text
  if skipSpace rest = [] then some v else none

/-! ## The round trip -/

/-- **Induction over a document**, with the hypothesis for each item and for each member. -/
@[elab_as_elim]
theorem induction {motive : Json → Prop} (null : motive null) (bool : ∀ b, motive (bool b))
    (number : ∀ n, motive (number n)) (string : ∀ s, motive (string s))
    (array : ∀ items, (∀ v ∈ items, motive v) → motive (array items))
    (object : ∀ members, (∀ m ∈ members, motive m.2) → motive (object members)) :
    ∀ v, motive v
  | .null => null
  | .bool b => bool b
  | .number n => number n
  | .string s => string s
  | .array items => array items fun v hv ↦
    have := List.sizeOf_lt_of_mem hv
    induction null bool number string array object v
  | .object members => object members fun m hm ↦
    have := List.sizeOf_lt_of_mem hm
    induction null bool number string array object m.2
termination_by v => sizeOf v
decreasing_by
  · simp only [Json.array.sizeOf_spec]
    omega
  · obtain ⟨key, v⟩ := m
    simp only [Json.object.sizeOf_spec, Prod.mk.sizeOf_spec] at *
    omega

theorem skipSpace_cons {c : UInt16} {cs : Utf16} (hc : isSpace c = false) :
    skipSpace (c :: cs) = c :: cs := by
  rw [skipSpace, List.dropWhile_cons, hc]
  rfl

theorem skipSpace_append {s : Utf16} (hs : ∀ c ∈ s, isSpace c = true) (cs : Utf16) :
    skipSpace (s ++ cs) = skipSpace cs := List.dropWhile_append_of_pos hs

theorem endsNumber_of_isSpace {c : UInt16} {cs : Utf16} (hc : isSpace c = true) :
    EndsNumber (c :: cs) := by
  simp only [isSpace, Bool.or_eq_true, beq_iff_eq] at hc
  rcases hc with ((rfl | rfl) | rfl) | rfl <;> exact endsNumber_cons rfl (by decide) (by decide)

/-- The text is read as the document, with any bound that its length allows. -/
def ReadsAs (text : Utf16) (v : Json) : Prop :=
  ∀ fuel rest, text.length ≤ fuel → EndsNumber rest →
    parseValue fuel (text ++ rest) = some (v, rest)

/-- What may follow the first item of an array: the other items and the end. -/
inductive ReadsAsItems : Utf16 → List Json → Prop
  | nil {s : Utf16} (hs : ∀ c ∈ s, isSpace c = true) : ReadsAsItems (s ++ [0x5D]) []
  | cons {text more : Utf16} {v : Json} {vs : List Json} (hv : ReadsAs text v)
    (hvs : ReadsAsItems more vs) : ReadsAsItems (0x2C :: (text ++ more)) (v :: vs)

/-- What may follow the first member of an object. -/
inductive ReadsAsMembers : Utf16 → List (Utf16 × Json) → Prop
  | nil {s : Utf16} (hs : ∀ c ∈ s, isSpace c = true) : ReadsAsMembers (s ++ [0x7D]) []
  | cons {s text more : Utf16} (key : Utf16) {v : Json} {ms : List (Utf16 × Json)}
    (hs : ∀ c ∈ s, isSpace c = true) (hv : ReadsAs text v) (hms : ReadsAsMembers more ms) :
    ReadsAsMembers (0x2C :: (s ++ (quote key ++ 0x3A :: (text ++ more)))) ((key, v) :: ms)

section ReadsAs

variable {s text more : Utf16} {v : Json} {vs : List Json} {ms : List (Utf16 × Json)}

theorem ReadsAs.space (h : ReadsAs text v) (hs : ∀ c ∈ s, isSpace c = true) :
    ReadsAs (s ++ text) v := by
  intro fuel rest hfuel hrest
  rw [List.length_append] at hfuel
  have hread := h fuel rest (by omega) hrest
  cases fuel with
  | zero => cases hread
  | succ fuel =>
    rw [parseValue] at hread
    rwa [parseValue, List.append_assoc, skipSpace_append hs]

theorem ReadsAs.length_pos (h : ReadsAs text v) : 0 < text.length := by
  refine List.length_pos_iff.mpr fun hnil ↦ ?_
  cases h 0 [] (by rw [hnil]; rfl) endsNumber_nil

/-- No value begins with the end of an array. -/
theorem parseValue_close {fuel : ℕ} {cs cs' : Utf16} (h : skipSpace cs = 0x5D :: cs') :
    parseValue fuel cs = none := by
  cases fuel with
  | zero => rfl
  | succ fuel =>
    rw [parseValue, h]
    rfl

theorem ReadsAs.not_close (h : ReadsAs text v) {rest : Utf16} (hrest : EndsNumber rest) :
    expect 0x5D (skipSpace (text ++ rest)) = none := by
  have hread := h text.length rest le_rfl hrest
  cases hcs : skipSpace (text ++ rest) with
  | nil => rfl
  | cons c cs =>
    refine expect_cons_of_ne fun hc ↦ ?_
    rw [parseValue_close (by rw [hcs, hc])] at hread
    cases hread

theorem endsNumber_append_cons (hs : ∀ c ∈ s, isSpace c = true) {c : UInt16} {cs : Utf16}
    (hc : EndsNumber (c :: cs)) : EndsNumber (s ++ c :: cs) := by
  cases s with
  | nil => exact hc
  | cons d s => exact endsNumber_of_isSpace (hs d List.mem_cons_self)

/-- What follows an item or a member does not continue a number. -/
theorem ReadsAsItems.endsNumber (h : ReadsAsItems more vs) (rest : Utf16) :
    EndsNumber (more ++ rest) := by
  cases h with
  | nil hs =>
    rw [List.append_assoc]
    exact endsNumber_append_cons hs (endsNumber_cons rfl (by decide) (by decide))
  | cons => exact endsNumber_cons rfl (by decide) (by decide)

theorem ReadsAsMembers.endsNumber (h : ReadsAsMembers more ms) (rest : Utf16) :
    EndsNumber (more ++ rest) := by
  cases h with
  | nil hs =>
    rw [List.append_assoc]
    exact endsNumber_append_cons hs (endsNumber_cons rfl (by decide) (by decide))
  | cons => exact endsNumber_cons rfl (by decide) (by decide)

theorem parseItems_of_readsAs {fuel : ℕ} {rest : Utf16} (hv : ReadsAs text v)
    (hvs : ReadsAsItems more vs) (hfuel : (text ++ more).length ≤ fuel) :
    parseItems fuel (text ++ more ++ rest) = some (v :: vs, rest) := by
  induction hvs generalizing text v fuel with
  | @nil s hs =>
    have hend := (ReadsAsItems.nil hs).endsNumber rest
    rw [List.length_append, List.length_append, List.length_singleton] at hfuel
    obtain ⟨fuel, rfl⟩ := Nat.exists_eq_add_one.mpr (show 0 < fuel by omega)
    rw [List.append_assoc, parseItems, hv fuel _ (by omega) hend, Option.bind_some,
      List.append_assoc, skipSpace_append hs, List.singleton_append, skipSpace_cons rfl]
    rfl
  | @cons text' more' w ws hw hws ih =>
    have hend := (ReadsAsItems.cons hw hws).endsNumber rest
    rw [List.length_append, List.length_cons] at hfuel
    obtain ⟨fuel, rfl⟩ := Nat.exists_eq_add_one.mpr (show 0 < fuel by omega)
    have hmore := ih hw (show (text' ++ more').length ≤ fuel by omega)
    rw [List.append_assoc, parseItems, hv fuel _ (by omega) hend, Option.bind_some,
      List.cons_append, skipSpace_cons rfl]
    simp only [if_pos, hmore, Option.map_some]

theorem lexKey_quote (hs : ∀ c ∈ s, isSpace c = true) (key cs : Utf16) :
    lexKey (s ++ (quote key ++ 0x3A :: cs)) = some (key, cs) := by
  have hstring : lexString (escape key ++ 0x22 :: (0x3A :: cs)) = some (key, 0x3A :: cs) :=
    lexString_escape key _
  have hquote : skipSpace (s ++ (quote key ++ 0x3A :: cs))
      = 0x22 :: (escape key ++ 0x22 :: (0x3A :: cs)) := by
    rw [skipSpace_append hs, quote, List.cons_append, skipSpace_cons rfl, List.append_assoc]
    rfl
  have hcolon : skipSpace (0x3A :: cs) = 0x3A :: cs := skipSpace_cons rfl
  simp only [lexKey, hquote, expect_cons_self, Option.bind_eq_bind, Option.bind_some, hstring,
    hcolon, Option.pure_def]

theorem parseMembers_of_readsAs {fuel : ℕ} {rest : Utf16} (key : Utf16)
    (hs : ∀ c ∈ s, isSpace c = true) (hv : ReadsAs text v) (hms : ReadsAsMembers more ms)
    (hfuel : (text ++ more).length ≤ fuel) :
    parseMembers fuel (s ++ (quote key ++ 0x3A :: (text ++ more ++ rest)))
      = some ((key, v) :: ms, rest) := by
  induction hms generalizing s text key v fuel with
  | @nil s' hs' =>
    have hend := (ReadsAsMembers.nil hs').endsNumber rest
    rw [List.length_append, List.length_append, List.length_singleton] at hfuel
    obtain ⟨fuel, rfl⟩ := Nat.exists_eq_add_one.mpr (show 0 < fuel by omega)
    rw [parseMembers, lexKey_quote hs, Option.bind_some, List.append_assoc,
      hv fuel _ (by omega) hend, Option.bind_some, List.append_assoc, skipSpace_append hs',
      List.singleton_append, skipSpace_cons rfl]
    rfl
  | @cons s' text' more' key' w ws hs' hw hws ih =>
    have hend := (ReadsAsMembers.cons key' hs' hw hws).endsNumber rest
    rw [List.length_append, List.length_cons, List.length_append, List.length_append,
      List.length_cons] at hfuel
    obtain ⟨fuel, rfl⟩ := Nat.exists_eq_add_one.mpr (show 0 < fuel by omega)
    have hmore := ih key' hs' hw (show (text' ++ more').length ≤ fuel by omega)
    rw [parseMembers, lexKey_quote hs, Option.bind_some, List.append_assoc,
      hv fuel _ (by omega) hend, Option.bind_some, List.cons_append, skipSpace_cons rfl]
    simp only [if_pos, List.append_assoc, List.cons_append] at hmore ⊢
    rw [hmore, Option.map_some]

theorem ReadsAs.array (hv : ReadsAs text v) (hvs : ReadsAsItems more vs) :
    ReadsAs (0x5B :: (text ++ more)) (array (v :: vs)) := by
  intro fuel rest hfuel hrest
  rw [List.length_cons] at hfuel
  obtain ⟨fuel, rfl⟩ := Nat.exists_eq_add_one.mpr (show 0 < fuel by omega)
  have hopen := hv.not_close (hvs.endsNumber rest)
  rw [← List.append_assoc] at hopen
  have hitems : parseItems fuel (text ++ more ++ rest) = some (v :: vs, rest) :=
    parseItems_of_readsAs hv hvs (by omega)
  rw [List.cons_append, parseValue, skipSpace_cons rfl]
  simp only [if_pos, hopen, hitems, Option.map_some]

theorem ReadsAs.object (key : Utf16) (hs : ∀ c ∈ s, isSpace c = true) (hv : ReadsAs text v)
    (hms : ReadsAsMembers more ms) :
    ReadsAs (0x7B :: (s ++ (quote key ++ 0x3A :: (text ++ more)))) (object ((key, v) :: ms)) := by
  intro fuel rest hfuel hrest
  rw [List.length_cons, List.length_append, List.length_append, List.length_cons] at hfuel
  obtain ⟨fuel, rfl⟩ := Nat.exists_eq_add_one.mpr (show 0 < fuel by omega)
  have hmembers : parseMembers fuel (s ++ (quote key ++ 0x3A :: (text ++ more ++ rest)))
      = some ((key, v) :: ms, rest) :=
    parseMembers_of_readsAs key hs hv hms (show (text ++ more).length ≤ fuel by omega)
  have hopen : expect 0x7D (skipSpace (s ++ (quote key ++ 0x3A :: (text ++ more ++ rest))))
      = none := by
    rw [skipSpace_append hs, quote, List.cons_append, skipSpace_cons rfl,
      expect_cons_of_ne (by decide)]
  rw [List.cons_append, List.append_assoc, List.append_assoc, List.cons_append, parseValue,
    skipSpace_cons rfl]
  simp only [hopen, hmembers, Option.map_some]
  rfl

/-- **A text that is read as a document is parsed.** -/
theorem ReadsAs.parse (h : ReadsAs text v) : parse text = some v := by
  have hread := h (2 * text.length) [] (by omega) endsNumber_nil
  rw [List.append_nil] at hread
  rw [Json.parse, hread]
  rfl

end ReadsAs

/-! ### The values that are not made of others -/

/-- What a number begins with begins no other value. -/
theorem head_numberText (n : NumberLiteral) : ∃ c cs, n.text = c :: cs ∧ isSpace c = false ∧
    c ∉ [0x22, 0x5B, 0x5D, 0x7B, 0x6E, 0x74, 0x66] := by
  have hdigit : ∀ d : Fin 10, isSpace (digitUnit d) = false ∧
      digitUnit d ∉ [0x22, 0x5B, 0x5D, 0x7B, 0x6E, 0x74, 0x66] := by decide
  obtain ⟨negative, integer, fraction, exponent⟩ := n
  match negative, integer with
  | true, _ => exact ⟨0x2D, _, rfl, rfl, by decide⟩
  | false, .zero => exact ⟨digitUnit 0, _, rfl, hdigit 0⟩
  | false, .positive d more => exact ⟨digitUnit d.succ, _, rfl, hdigit d.succ⟩

theorem lexWord_append (word rest : Utf16) (v : Json) :
    lexWord word v (word ++ rest) = some (v, rest) := by
  rw [lexWord, if_pos (List.prefix_append word rest), List.drop_left]

/-- A value that is not made of others is read by `lexScalar`. -/
theorem readsAs_of_lexScalar {c : UInt16} {cs : Utf16} {v : Json} (hspace : isSpace c = false)
    (harray : c ≠ 0x5B) (hobject : c ≠ 0x7B)
    (hscalar : ∀ rest, EndsNumber rest → lexScalar (c :: cs ++ rest) = some (v, rest)) :
    ReadsAs (c :: cs) v := by
  intro fuel rest hfuel hrest
  obtain ⟨fuel, rfl⟩ := Nat.exists_eq_add_one.mpr (show 0 < fuel by
    rw [List.length_cons] at hfuel
    omega)
  rw [List.cons_append, parseValue, skipSpace_cons hspace]
  simp only [harray, hobject, if_false]
  exact hscalar rest hrest

theorem lexScalar_number (n : NumberLiteral) {rest : Utf16} (hrest : EndsNumber rest) :
    lexScalar (n.text ++ rest) = some (number n, rest) := by
  have hnumber := lexNumber_text n hrest
  obtain ⟨c, cs, htext, -, hmem⟩ := head_numberText n
  simp only [List.mem_cons, List.not_mem_nil, or_false, not_or] at hmem
  rw [htext, List.cons_append] at hnumber ⊢
  rw [lexScalar]
  simp only [hmem, if_false, hnumber, Option.map_some]

theorem lexScalar_quote (s rest : Utf16) :
    lexScalar (quote s ++ rest) = some (string s, rest) := by
  have hstring : lexString (escape s ++ 0x22 :: rest) = some (s, rest) := lexString_escape s rest
  rw [quote, List.cons_append, List.append_assoc, List.singleton_append, lexScalar, if_pos rfl,
    hstring, Option.map_some]

theorem readsAs_null : ReadsAs (Utf16.ofString "null") null :=
  readsAs_of_lexScalar rfl (by decide) (by decide) fun rest _ ↦
    lexWord_append (Utf16.ofString "null") rest null

theorem readsAs_true : ReadsAs (Utf16.ofString "true") (bool true) :=
  readsAs_of_lexScalar rfl (by decide) (by decide) fun rest _ ↦
    lexWord_append (Utf16.ofString "true") rest (bool true)

theorem readsAs_false : ReadsAs (Utf16.ofString "false") (bool false) :=
  readsAs_of_lexScalar rfl (by decide) (by decide) fun rest _ ↦
    lexWord_append (Utf16.ofString "false") rest (bool false)

theorem readsAs_number (n : NumberLiteral) : ReadsAs n.text (number n) := by
  have hscalar := fun rest (hrest : EndsNumber rest) ↦ lexScalar_number n hrest
  obtain ⟨c, cs, htext, hspace, hmem⟩ := head_numberText n
  simp only [List.mem_cons, List.not_mem_nil, or_false, not_or] at hmem
  rw [htext] at hscalar ⊢
  exact readsAs_of_lexScalar hspace hmem.2.1 hmem.2.2.2.1 hscalar

theorem readsAs_quote (s : Utf16) : ReadsAs (quote s) (string s) :=
  readsAs_of_lexScalar rfl (by decide) (by decide) fun rest _ ↦ lexScalar_quote s rest

theorem readsAs_array_nil : ReadsAs [0x5B, 0x5D] (array []) := by
  intro fuel rest hfuel hrest
  cases fuel with
  | zero => cases hfuel
  | succ fuel => rfl

theorem readsAs_object_nil : ReadsAs [0x7B, 0x7D] (object []) := by
  intro fuel rest hfuel hrest
  cases fuel with
  | zero => cases hfuel
  | succ fuel => rfl

/-! ### What is written -/

/-- The document is read back, with any bound that its length allows. -/
def Reads (v : Json) : Prop :=
  ∀ fuel rest, (print v).length ≤ fuel → EndsNumber rest →
    parseValue fuel (print v ++ rest) = some (v, rest)

theorem readsAsItems_printItems {vs : List Json} (hvs : ∀ v ∈ vs, Reads v) :
    ReadsAsItems (printItems vs) vs := by
  induction vs with
  | nil => exact ReadsAsItems.nil (List.forall_mem_nil _)
  | cons v vs ih =>
    rw [printItems]
    exact ReadsAsItems.cons (hvs v List.mem_cons_self)
      (ih fun w hw ↦ hvs w (List.mem_cons_of_mem _ hw))

theorem readsAsMembers_printMembers {ms : List (Utf16 × Json)} (hms : ∀ m ∈ ms, Reads m.2) :
    ReadsAsMembers (printMembers ms) ms := by
  induction ms with
  | nil => exact ReadsAsMembers.nil (List.forall_mem_nil _)
  | cons m ms ih =>
    rw [printMembers]
    exact ReadsAsMembers.cons m.1 (List.forall_mem_nil _) (hms m List.mem_cons_self)
      (ih fun w hw ↦ hms w (List.mem_cons_of_mem _ hw))

/-- **Every document is read back**, whatever may follow it. -/
theorem reads (v : Json) : Reads v := by
  induction v using induction with
  | null => exact readsAs_null
  | bool b =>
    cases b with
    | true => exact readsAs_true
    | false => exact readsAs_false
  | number n => exact readsAs_number n
  | string s => exact readsAs_quote s
  | array items ih =>
    cases items with
    | nil => exact readsAs_array_nil
    | cons v vs =>
      have harray := ReadsAs.array (ih v List.mem_cons_self)
        (readsAsItems_printItems fun w hw ↦ ih w (List.mem_cons_of_mem _ hw))
      rwa [← print] at harray
  | object members ih =>
    cases members with
    | nil => exact readsAs_object_nil
    | cons m ms =>
      have hobject := ReadsAs.object m.1 (List.forall_mem_nil _) (ih m List.mem_cons_self)
        (readsAsMembers_printMembers fun w hw ↦ ih w (List.mem_cons_of_mem _ hw))
      rwa [List.nil_append, ← print] at hobject

/-- **Reading undoes writing.** -/
theorem parse_print (v : Json) : parse (print v) = some v := ReadsAs.parse (reads v)

theorem print_ne_nil (v : Json) : print v ≠ [] :=
  List.length_pos_iff.mp (ReadsAs.length_pos (reads v))

/-! ## The bound -/

theorem lexWord_length {word cs rest : Utf16} {v w : Json} (hword : word ≠ [])
    (h : lexWord word v cs = some (w, rest)) : rest.length < cs.length := by
  obtain ⟨⟨cs', rfl⟩, heq⟩ := Option.ite_none_right_eq_some.mp h
  cases heq
  have hpos := List.length_pos_iff.mpr hword
  rw [List.drop_left, List.length_append]
  omega

theorem lexScalar_length {cs rest : Utf16} {v : Json} (h : lexScalar cs = some (v, rest)) :
    rest.length < cs.length := by
  cases cs with
  | nil => cases h
  | cons c cs =>
    rw [lexScalar] at h
    split_ifs at h
    · obtain ⟨r, hr, heq⟩ := Option.map_eq_some_iff.mp h
      cases heq
      exact (lexString_length hr).trans (Nat.lt_succ_self _)
    · exact lexWord_length (by decide) h
    · exact lexWord_length (by decide) h
    · exact lexWord_length (by decide) h
    · obtain ⟨r, hr, heq⟩ := Option.map_eq_some_iff.mp h
      cases heq
      exact lexNumber_length hr

theorem skipSpace_length (cs : Utf16) : (skipSpace cs).length ≤ cs.length :=
  List.length_dropWhile_le ..

theorem lexKey_length {cs key rest : Utf16} (h : lexKey cs = some (key, rest)) :
    rest.length < cs.length := by
  simp only [lexKey, Option.bind_eq_bind, Option.bind_eq_some_iff, Option.pure_def,
    Option.some.injEq, Prod.exists, Prod.mk.injEq] at h
  obtain ⟨cs₁, hquote, key', cs₂, hstring, cs₃, hcolon, -, rfl⟩ := h
  have h₀ := skipSpace_length cs
  have h₁ := expect_length hquote
  have h₂ := lexString_length hstring
  have h₃ := skipSpace_length cs₂
  have h₄ := expect_length hcolon
  omega

/-- A call of `parseValue` looks at the bound only to read the items or the members inside. -/
theorem parseValue_cases {fuel : ℕ} {cs rest : Utf16} {v : Json}
    (h : parseValue (fuel + 1) cs = some (v, rest)) :
    (rest.length < cs.length ∧ ∀ fuel', parseValue (fuel' + 1) cs = some (v, rest)) ∨
      (∃ cs' items, cs'.length < cs.length ∧ parseItems fuel cs' = some (items, rest) ∧
        ∀ fuel', parseItems fuel' cs' = some (items, rest) →
          parseValue (fuel' + 1) cs = some (v, rest)) ∨
      (∃ cs' members, cs'.length < cs.length ∧ parseMembers fuel cs' = some (members, rest) ∧
        ∀ fuel', parseMembers fuel' cs' = some (members, rest) →
          parseValue (fuel' + 1) cs = some (v, rest)) := by
  have hskip := skipSpace_length cs
  cases hcs : skipSpace cs with
  | nil =>
    rw [parseValue, hcs] at h
    cases h
  | cons c cs' =>
    rw [hcs, List.length_cons] at hskip
    simp only [parseValue, hcs] at h ⊢
    split_ifs at h ⊢ with harray hobject
    · cases hclose : expect 0x5D (skipSpace cs') with
      | some rest' =>
        simp only [hclose] at h ⊢
        cases h
        have h₁ := expect_length hclose
        have h₂ := skipSpace_length cs'
        exact Or.inl ⟨by omega, fun _ ↦ rfl⟩
      | none =>
        simp only [hclose] at h ⊢
        obtain ⟨⟨items, rest'⟩, hitems, heq⟩ := Option.map_eq_some_iff.mp h
        cases heq
        exact Or.inr (Or.inl ⟨cs', items, by omega, hitems, fun _ hmore ↦ by
          rw [hmore, Option.map_some]⟩)
    · cases hclose : expect 0x7D (skipSpace cs') with
      | some rest' =>
        simp only [hclose] at h ⊢
        cases h
        have h₁ := expect_length hclose
        have h₂ := skipSpace_length cs'
        exact Or.inl ⟨by omega, fun _ ↦ rfl⟩
      | none =>
        simp only [hclose] at h ⊢
        obtain ⟨⟨members, rest'⟩, hmembers, heq⟩ := Option.map_eq_some_iff.mp h
        cases heq
        exact Or.inr (Or.inr ⟨cs', members, by omega, hmembers, fun _ hmore ↦ by
          rw [hmore, Option.map_some]⟩)
    · have hlength := lexScalar_length h
      rw [List.length_cons] at hlength
      exact Or.inl ⟨by omega, fun _ ↦ h⟩

/-- A call of `parseItems` reads an item, and more of them if a comma follows. -/
theorem parseItems_cases {fuel : ℕ} {cs rest : Utf16} {vs : List Json}
    (h : parseItems (fuel + 1) cs = some (vs, rest)) :
    ∃ v rest', parseValue fuel cs = some (v, rest') ∧
      ((rest.length < rest'.length ∧ ∀ fuel', parseValue fuel' cs = some (v, rest') →
          parseItems (fuel' + 1) cs = some (vs, rest)) ∨
        ∃ cs' ws, cs'.length < rest'.length ∧ parseItems fuel cs' = some (ws, rest) ∧
          ∀ fuel', parseValue fuel' cs = some (v, rest') →
            parseItems fuel' cs' = some (ws, rest) →
              parseItems (fuel' + 1) cs = some (vs, rest)) := by
  rw [parseItems] at h
  obtain ⟨⟨v, rest'⟩, hvalue, h⟩ := Option.bind_eq_some_iff.mp h
  refine ⟨v, rest', hvalue, ?_⟩
  have hskip := skipSpace_length rest'
  cases hcs : skipSpace rest' with
  | nil =>
    simp only [hcs] at h
    cases h
  | cons c cs' =>
    rw [hcs, List.length_cons] at hskip
    simp only [hcs] at h
    split_ifs at h with hcomma hclose
    · obtain ⟨⟨ws, rest''⟩, hitems, heq⟩ := Option.map_eq_some_iff.mp h
      cases heq
      refine Or.inr ⟨cs', ws, by omega, hitems, fun fuel' hv hws ↦ ?_⟩
      simp only [parseItems, hv, Option.bind_some, hcs, if_pos hcomma, hws, Option.map_some]
    · cases h
      refine Or.inl ⟨by omega, fun fuel' hv ↦ ?_⟩
      simp only [parseItems, hv, Option.bind_some, hcs, if_neg hcomma, if_pos hclose]

theorem parseMembers_cases {fuel : ℕ} {cs rest : Utf16} {ms : List (Utf16 × Json)}
    (h : parseMembers (fuel + 1) cs = some (ms, rest)) :
    ∃ cs₀ v rest', cs₀.length < cs.length ∧ parseValue fuel cs₀ = some (v, rest') ∧
      ((rest.length < rest'.length ∧ ∀ fuel', parseValue fuel' cs₀ = some (v, rest') →
          parseMembers (fuel' + 1) cs = some (ms, rest)) ∨
        ∃ cs' ws, cs'.length < rest'.length ∧ parseMembers fuel cs' = some (ws, rest) ∧
          ∀ fuel', parseValue fuel' cs₀ = some (v, rest') →
            parseMembers fuel' cs' = some (ws, rest) →
              parseMembers (fuel' + 1) cs = some (ms, rest)) := by
  rw [parseMembers] at h
  obtain ⟨⟨key, cs₀⟩, hkey, h⟩ := Option.bind_eq_some_iff.mp h
  obtain ⟨⟨v, rest'⟩, hvalue, h⟩ := Option.bind_eq_some_iff.mp h
  refine ⟨cs₀, v, rest', lexKey_length hkey, hvalue, ?_⟩
  have hskip := skipSpace_length rest'
  cases hcs : skipSpace rest' with
  | nil =>
    simp only [hcs] at h
    cases h
  | cons c cs' =>
    rw [hcs, List.length_cons] at hskip
    simp only [hcs] at h
    split_ifs at h with hcomma hclose
    · obtain ⟨⟨ws, rest''⟩, hmembers, heq⟩ := Option.map_eq_some_iff.mp h
      cases heq
      refine Or.inr ⟨cs', ws, by omega, hmembers, fun fuel' hv hws ↦ ?_⟩
      simp only [parseMembers, hkey, hv, Option.bind_some, hcs, if_pos hcomma, hws,
        Option.map_some]
    · cases h
      refine Or.inl ⟨by omega, fun fuel' hv ↦ ?_⟩
      simp only [parseMembers, hkey, hv, Option.bind_some, hcs, if_neg hcomma, if_pos hclose]

theorem parse_length (fuel : ℕ) :
    (∀ cs v rest, parseValue fuel cs = some (v, rest) → rest.length < cs.length) ∧
      (∀ cs vs rest, parseItems fuel cs = some (vs, rest) → rest.length < cs.length) ∧
        ∀ cs ms rest, parseMembers fuel cs = some (ms, rest) → rest.length < cs.length := by
  induction fuel with
  | zero => exact ⟨nofun, nofun, nofun⟩
  | succ fuel ih =>
    obtain ⟨hvalue, hitems, hmembers⟩ := ih
    refine ⟨fun cs v rest h ↦ ?_, fun cs vs rest h ↦ ?_, fun cs ms rest h ↦ ?_⟩
    · rcases parseValue_cases h with ⟨hlt, -⟩ | ⟨cs', items, hlt, h', -⟩ | ⟨cs', ms, hlt, h', -⟩
      · exact hlt
      · exact (hitems cs' items rest h').trans hlt
      · exact (hmembers cs' ms rest h').trans hlt
    · obtain ⟨v, rest', hv, ⟨hlt, -⟩ | ⟨cs', ws, hlt, h', -⟩⟩ := parseItems_cases h
      · exact hlt.trans (hvalue cs v rest' hv)
      · exact ((hitems cs' ws rest h').trans hlt).trans (hvalue cs v rest' hv)
    · obtain ⟨cs₀, v, rest', hkey, hv, ⟨hlt, -⟩ | ⟨cs', ws, hlt, h', -⟩⟩ := parseMembers_cases h
      · exact (hlt.trans (hvalue cs₀ v rest' hv)).trans hkey
      · exact (((hmembers cs' ws rest h').trans hlt).trans (hvalue cs₀ v rest' hv)).trans hkey

/-- **The bound decides nothing** once it is twice the length of the text. -/
theorem parse_of_bound (fuel : ℕ) :
    (∀ cs v rest, parseValue fuel cs = some (v, rest) →
      ∀ bound, 2 * cs.length ≤ bound → parseValue bound cs = some (v, rest)) ∧
      (∀ cs vs rest, parseItems fuel cs = some (vs, rest) →
        ∀ bound, 2 * cs.length + 1 ≤ bound → parseItems bound cs = some (vs, rest)) ∧
        ∀ cs ms rest, parseMembers fuel cs = some (ms, rest) →
          ∀ bound, 2 * cs.length + 1 ≤ bound → parseMembers bound cs = some (ms, rest) := by
  induction fuel with
  | zero => exact ⟨nofun, nofun, nofun⟩
  | succ fuel ih =>
    obtain ⟨hvalue, hitems, hmembers⟩ := ih
    refine ⟨fun cs v rest h bound hbound ↦ ?_, fun cs vs rest h bound hbound ↦ ?_,
      fun cs ms rest h bound hbound ↦ ?_⟩
    · have hlength := (parse_length (fuel + 1)).1 cs v rest h
      obtain ⟨bound, rfl⟩ := Nat.exists_eq_add_one.mpr (show 0 < bound by omega)
      rcases parseValue_cases h with ⟨-, hall⟩ | ⟨cs', items, hlt, h', hall⟩ |
        ⟨cs', ms, hlt, h', hall⟩
      · exact hall bound
      · exact hall bound (hitems cs' items rest h' bound (by omega))
      · exact hall bound (hmembers cs' ms rest h' bound (by omega))
    · obtain ⟨bound, rfl⟩ := Nat.exists_eq_add_one.mpr (show 0 < bound by omega)
      obtain ⟨v, rest', hv, hmore⟩ := parseItems_cases h
      have hlength := (parse_length fuel).1 cs v rest' hv
      have hv' := hvalue cs v rest' hv bound (by omega)
      rcases hmore with ⟨-, hall⟩ | ⟨cs', ws, hlt, h', hall⟩
      · exact hall bound hv'
      · exact hall bound hv' (hitems cs' ws rest h' bound (by omega))
    · obtain ⟨bound, rfl⟩ := Nat.exists_eq_add_one.mpr (show 0 < bound by omega)
      obtain ⟨cs₀, v, rest', hkey, hv, hmore⟩ := parseMembers_cases h
      have hlength := (parse_length fuel).1 cs₀ v rest' hv
      have hv' := hvalue cs₀ v rest' hv bound (by omega)
      rcases hmore with ⟨-, hall⟩ | ⟨cs', ws, hlt, h', hall⟩
      · exact hall bound hv'
      · exact hall bound hv' (hmembers cs' ws rest h' bound (by omega))

/-- A text is read if any bound allows it. -/
theorem parse_eq_some_iff {text : Utf16} {v : Json} : parse text = some v ↔
    ∃ bound rest, parseValue bound text = some (v, rest) ∧ skipSpace rest = [] := by
  simp only [parse, Option.bind_eq_bind, Option.bind_eq_some_iff, Prod.exists,
    Option.ite_none_right_eq_some, Option.some.injEq]
  constructor
  · rintro ⟨w, rest, hread, hrest, rfl⟩
    exact ⟨_, rest, hread, hrest⟩
  · rintro ⟨bound, rest, hread, hrest⟩
    exact ⟨v, rest, (parse_of_bound bound).1 text v rest hread _ le_rfl, hrest, rfl⟩

end Json
