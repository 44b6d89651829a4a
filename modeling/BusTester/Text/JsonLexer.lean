import BusTester.Text.Utf8

/-!
# The tokens of JSON

Strings and numbers, as `JSON.stringify` writes and `JSON.parse` reads them. A string is written
with an escape for the quotation mark, the backslash, the control characters and the surrogates that
have no partner, and read with any escape of the grammar. A number is kept as it is written, digit
by digit, so nothing is lost to rounding here. The lemmas named `_length` say that what is read is
taken off the text.
-/

namespace Json

/-- Read one given code unit. -/
def expect (u : UInt16) : Utf16 → Option Utf16
  | [] => none
  | c :: cs => if c = u then some cs else none

@[simp] theorem expect_cons_self {u : UInt16} {cs : Utf16} : expect u (u :: cs) = some cs :=
  if_pos rfl

theorem expect_cons_of_ne {u c : UInt16} {cs : Utf16} (h : c ≠ u) : expect u (c :: cs) = none :=
  if_neg h

/-! ## Strings -/

/-- The escapes of two code units, with what they stand for. -/
def shortEscapes : List (UInt16 × UInt16) :=
  [(0x08, 0x62), (0x09, 0x74), (0x0A, 0x6E), (0x0C, 0x66), (0x0D, 0x72), (0x22, 0x22),
    (0x5C, 0x5C)]

/-- A hexadecimal digit, in lower case. -/
def hexUnit (d : ℕ) : UInt16 := UInt16.ofNat (if d < 10 then 0x30 + d else 0x57 + d)

/-- The four hexadecimal digits of a code unit. -/
def hexUnits (c : UInt16) : Utf16 :=
  [hexUnit (c.toNat / 0x1000), hexUnit (c.toNat / 0x100 % 0x10), hexUnit (c.toNat / 0x10 % 0x10),
    hexUnit (c.toNat % 0x10)]

def isSurrogate (c : UInt16) : Bool := Utf8.isHighSurrogate c || Utf8.isLowSurrogate c

/-- A code unit as it is written in a string, unless it is half of a surrogate pair. -/
def escapeUnit (c : UInt16) : Utf16 :=
  match shortEscapes.find? fun escape ↦ escape.1 = c with
  | some escape => [0x5C, escape.2]
  | none => if c < 0x20 ∨ isSurrogate c then 0x5C :: 0x75 :: hexUnits c else [c]

/-- `QuoteJSONString` of ECMA-262, between the quotation marks. -/
def escape : Utf16 → Utf16
  | [] => []
  | [c] => escapeUnit c
  | c :: d :: cs =>
    if Utf8.isHighSurrogate c ∧ Utf8.isLowSurrogate d then c :: d :: escape cs
    else escapeUnit c ++ escape (d :: cs)

def quote (s : Utf16) : Utf16 := 0x22 :: (escape s ++ [0x22])

/-- The value of a hexadecimal digit of either case. -/
def hexValue (c : UInt16) : Option ℕ :=
  if 0x30 ≤ c ∧ c ≤ 0x39 then some (c.toNat - 0x30)
  else if 0x61 ≤ c ∧ c ≤ 0x66 then some (c.toNat - 0x57)
  else if 0x41 ≤ c ∧ c ≤ 0x46 then some (c.toNat - 0x37)
  else none

/-- The code unit of four hexadecimal digits. -/
def unitOfHex (a b c d : UInt16) : Option UInt16 := do
  let a ← hexValue a
  let b ← hexValue b
  let c ← hexValue c
  let d ← hexValue d
  return UInt16.ofNat (0x1000 * a + 0x100 * b + 0x10 * c + d)

/-- What an escape of two code units stands for; a slash may be escaped as well. -/
def unescape (e : UInt16) : Option UInt16 :=
  if e = 0x2F then some 0x2F
  else (shortEscapes.find? fun escape ↦ escape.2 = e).map Prod.fst

/-- Read a string after its opening quotation mark, up to the closing one. -/
def lexString : Utf16 → Option (Utf16 × Utf16)
  | [] => none
  | c :: cs =>
    if c = 0x22 then some ([], cs)
    else if c = 0x5C then
      match cs with
      | 0x75 :: a :: b :: c :: d :: cs =>
        (unitOfHex a b c d).bind fun u ↦ (lexString cs).map fun r ↦ (u :: r.1, r.2)
      | e :: cs => (unescape e).bind fun u ↦ (lexString cs).map fun r ↦ (u :: r.1, r.2)
      | [] => none
    else if c < 0x20 then none
    else (lexString cs).map fun r ↦ (c :: r.1, r.2)

@[simp] theorem lexString_quote {cs : Utf16} : lexString (0x22 :: cs) = some ([], cs) := by
  simp [lexString.eq_def]

theorem lexString_hex {a b c d : UInt16} {cs : Utf16} :
    lexString (0x5C :: 0x75 :: a :: b :: c :: d :: cs)
      = (unitOfHex a b c d).bind fun u ↦ (lexString cs).map fun r ↦ (u :: r.1, r.2) := by
  rw [lexString.eq_def]
  simp

theorem lexString_short {e : UInt16} {cs : Utf16} (he : e ≠ 0x75) :
    lexString (0x5C :: e :: cs)
      = (unescape e).bind fun u ↦ (lexString cs).map fun r ↦ (u :: r.1, r.2) := by
  rw [lexString.eq_def]
  simp [he]

theorem lexString_plain {c : UInt16} {cs : Utf16} (hquote : c ≠ 0x22) (hbackslash : c ≠ 0x5C)
    (hcontrol : ¬c < 0x20) :
    lexString (c :: cs) = (lexString cs).map fun r ↦ (c :: r.1, r.2) := by
  rw [lexString.eq_def]
  simp [hquote, hbackslash, hcontrol]

theorem hexValue_hexUnit {d : ℕ} (hd : d < 16) : hexValue (hexUnit d) = some d := by
  have hall : ∀ d < 16, hexValue (hexUnit d) = some d := by decide
  exact hall d hd

theorem unitOfHex_hexUnits (c : UInt16) :
    unitOfHex (hexUnit (c.toNat / 0x1000)) (hexUnit (c.toNat / 0x100 % 0x10))
      (hexUnit (c.toNat / 0x10 % 0x10)) (hexUnit (c.toNat % 0x10)) = some c := by
  have hc : c.toNat < 0x10000 := c.toNat_lt
  have hsum : 0x1000 * (c.toNat / 0x1000) + 0x100 * (c.toNat / 0x100 % 0x10)
      + 0x10 * (c.toNat / 0x10 % 0x10) + c.toNat % 0x10 = c.toNat := by omega
  simp only [unitOfHex, hexValue_hexUnit (show c.toNat / 0x1000 < 16 by omega),
    hexValue_hexUnit (Nat.mod_lt _ (show 0x10 > 0 by decide)), Option.bind_eq_bind,
    Option.bind_some, hsum, UInt16.ofNat_toNat, Option.pure_def]

theorem unescape_of_mem {e : UInt16 × UInt16} (he : e ∈ shortEscapes) :
    e.2 ≠ 0x75 ∧ unescape e.2 = some e.1 := by
  simp only [shortEscapes, List.mem_cons, List.not_mem_nil, or_false] at he
  rcases he with rfl | rfl | rfl | rfl | rfl | rfl | rfl <;> exact ⟨by decide, rfl⟩

/-- What is written for a code unit is read as that code unit. -/
theorem lexString_escapeUnit {c : UInt16} {cs : Utf16} :
    lexString (escapeUnit c ++ cs) = (lexString cs).map fun r ↦ (c :: r.1, r.2) := by
  unfold escapeUnit
  split
  · rename_i e he
    obtain ⟨hne, hvalue⟩ := unescape_of_mem (List.mem_of_find?_eq_some he)
    obtain rfl : e.1 = c := by simpa using List.find?_some he
    rw [List.cons_append, List.cons_append, List.nil_append, lexString_short hne, hvalue,
      Option.bind_some]
  · rename_i hnone
    split
    · rw [hexUnits]
      simp only [List.cons_append, List.nil_append]
      rw [lexString_hex, unitOfHex_hexUnits, Option.bind_some]
    · rename_i hplain
      rw [not_or] at hplain
      have hshort : ∀ e ∈ shortEscapes, e.1 ≠ c := fun e he ↦
        of_decide_eq_false (Bool.eq_false_iff.mpr (List.find?_eq_none.mp hnone e he))
      exact lexString_plain (hshort (0x22, 0x22) (by simp [shortEscapes])).symm
        (hshort (0x5C, 0x5C) (by simp [shortEscapes])).symm hplain.1

theorem lexString_surrogate {c : UInt16} {cs : Utf16} (hc : isSurrogate c = true) :
    lexString (c :: cs) = (lexString cs).map fun r ↦ (c :: r.1, r.2) := by
  have hlarge : 0xD800 ≤ c.toNat := by
    rw [isSurrogate, Bool.or_eq_true, Utf8.isHighSurrogate_iff, Utf8.isLowSurrogate_iff] at hc
    omega
  refine lexString_plain ?_ ?_ (fun hlt ↦ ?_)
  · rintro rfl
    exact absurd hlarge (by decide)
  · rintro rfl
    exact absurd hlarge (by decide)
  · rw [UInt16.lt_iff_toNat_lt] at hlt
    exact absurd hlt (by simp; omega)

/-- **A written string is read back**, whatever follows it. -/
theorem lexString_escape (s rest : Utf16) :
    lexString (escape s ++ 0x22 :: rest) = some (s, rest) := by
  fun_induction escape s with
  | case1 => exact lexString_quote
  | case2 c => rw [lexString_escapeUnit, lexString_quote, Option.map_some]
  | case3 c d cs hpair ih =>
    have hc : isSurrogate c = true := by rw [isSurrogate, hpair.1, Bool.true_or]
    have hd : isSurrogate d = true := by rw [isSurrogate, hpair.2, Bool.or_true]
    rw [List.cons_append, List.cons_append, lexString_surrogate hc, lexString_surrogate hd, ih]
    rfl
  | case4 c d cs hpair ih =>
    rw [List.append_assoc, lexString_escapeUnit, ih, Option.map_some]

/-! ## Numbers -/

/-- One digit or more. -/
structure Digits where
  first : Fin 10
  more : List (Fin 10)
deriving DecidableEq

/-- The digits before the point: no number but zero begins with a zero. -/
inductive IntegerPart where
  | zero
  | positive (predFirst : Fin 9) (more : List (Fin 10))
deriving DecidableEq

/-- The exponent, with the letter and the sign as they are written. -/
structure Exponent where
  capital : Bool
  sign : Option Bool
  digits : Digits
deriving DecidableEq

/-- A number as it is written. -/
structure NumberLiteral where
  negative : Bool
  integer : IntegerPart
  fraction : Option Digits
  exponent : Option Exponent
deriving DecidableEq

def digitUnit (d : Fin 10) : UInt16 := UInt16.ofNat (0x30 + d.val)

def Digits.text (ds : Digits) : Utf16 := digitUnit ds.first :: ds.more.map digitUnit

def IntegerPart.text : IntegerPart → Utf16
  | zero => [0x30]
  | positive predFirst more => digitUnit predFirst.succ :: more.map digitUnit

/-- A sign, `true` being the minus. -/
def signText : Option Bool → Utf16
  | none => []
  | some true => [0x2D]
  | some false => [0x2B]

def Exponent.text (e : Exponent) : Utf16 :=
  (if e.capital then 0x45 else 0x65) :: (signText e.sign ++ e.digits.text)

def fractionText : Option Digits → Utf16
  | none => []
  | some ds => 0x2E :: ds.text

def exponentText : Option Exponent → Utf16
  | none => []
  | some e => e.text

def NumberLiteral.text (n : NumberLiteral) : Utf16 :=
  (if n.negative then [0x2D] else []) ++ n.integer.text ++ fractionText n.fraction
    ++ exponentText n.exponent

def digitOf (c : UInt16) : Option (Fin 10) :=
  if h : 0x30 ≤ c.toNat ∧ c.toNat ≤ 0x39 then some ⟨c.toNat - 0x30, by omega⟩ else none

/-- Read the digits that come first. -/
def lexDigits : Utf16 → List (Fin 10) × Utf16
  | [] => ([], [])
  | c :: cs =>
    match digitOf c with
    | some d => (d :: (lexDigits cs).1, (lexDigits cs).2)
    | none => ([], c :: cs)

/-- Read one digit or more. -/
def lexDigits1 (cs : Utf16) : Option (Digits × Utf16) :=
  match lexDigits cs with
  | (d :: ds, rest) => some (⟨d, ds⟩, rest)
  | ([], _) => none

/-- A zero ends the part, so what follows it is not read. -/
def lexInteger : Utf16 → Option (IntegerPart × Utf16)
  | [] => none
  | c :: cs =>
    match digitOf c with
    | none => none
    | some ⟨0, _⟩ => some (.zero, cs)
    | some ⟨d + 1, h⟩ =>
      some (.positive ⟨d, Nat.lt_of_succ_lt_succ h⟩ (lexDigits cs).1, (lexDigits cs).2)

/-- A point must have a digit after it. -/
def lexFraction : Utf16 → Option (Option Digits × Utf16)
  | [] => some (none, [])
  | c :: cs =>
    if c = 0x2E then (lexDigits1 cs).map fun r ↦ (some r.1, r.2) else some (none, c :: cs)

def lexSign : Utf16 → Option Bool × Utf16
  | [] => (none, [])
  | c :: cs =>
    if c = 0x2D then (some true, cs) else if c = 0x2B then (some false, cs) else (none, c :: cs)

def lexExponent : Utf16 → Option (Option Exponent × Utf16)
  | [] => some (none, [])
  | c :: cs =>
    if c = 0x45 ∨ c = 0x65 then
      (lexDigits1 (lexSign cs).2).map fun r ↦ (some ⟨c = 0x45, (lexSign cs).1, r.1⟩, r.2)
    else some (none, c :: cs)

/-- Read a number, as far as it goes. -/
def lexNumber (cs : Utf16) : Option (NumberLiteral × Utf16) := do
  let unsigned := if cs.head? = some 0x2D then cs.tail else cs
  let (integer, cs₁) ← lexInteger unsigned
  let (fraction, cs₂) ← lexFraction cs₁
  let (exponent, rest) ← lexExponent cs₂
  return (⟨cs.head? = some 0x2D, integer, fraction, exponent⟩, rest)

/-- What may come after a number does not continue it. -/
structure EndsNumber (rest : Utf16) : Prop where
  digit : ∀ c ∈ rest.head?, digitOf c = none
  point : 0x2E ∉ rest.head?
  exponent : 0x45 ∉ rest.head? ∧ 0x65 ∉ rest.head?

theorem endsNumber_nil : EndsNumber [] := ⟨nofun, nofun, nofun, nofun⟩

theorem endsNumber_cons {c : UInt16} {cs : Utf16} (hdigit : digitOf c = none) (hpoint : c ≠ 0x2E)
    (hexponent : c ≠ 0x45 ∧ c ≠ 0x65) : EndsNumber (c :: cs) where
  digit := by
    rintro d hd
    cases hd
    exact hdigit
  point := fun hmem ↦ hpoint (Option.some.inj hmem)
  exponent := ⟨fun hmem ↦ hexponent.1 (Option.some.inj hmem),
    fun hmem ↦ hexponent.2 (Option.some.inj hmem)⟩

@[simp] theorem digitOf_digitUnit (d : Fin 10) : digitOf (digitUnit d) = some d := by
  revert d
  decide

theorem lexDigits_map (ds : List (Fin 10)) {rest : Utf16}
    (hrest : ∀ c ∈ rest.head?, digitOf c = none) :
    lexDigits (ds.map digitUnit ++ rest) = (ds, rest) := by
  induction ds with
  | nil =>
    cases rest with
    | nil => rfl
    | cons c cs =>
      have hc : digitOf c = none := hrest c rfl
      rw [List.map_nil, List.nil_append, lexDigits, hc]
  | cons d ds ih => rw [List.map_cons, List.cons_append, lexDigits, digitOf_digitUnit, ih]

theorem lexDigits1_text (ds : Digits) {rest : Utf16}
    (hrest : ∀ c ∈ rest.head?, digitOf c = none) :
    lexDigits1 (ds.text ++ rest) = some (ds, rest) := by
  have hall := lexDigits_map (ds.first :: ds.more) hrest
  rw [List.map_cons, ← Digits.text] at hall
  rw [lexDigits1, hall]

theorem lexInteger_text (n : IntegerPart) {rest : Utf16}
    (hrest : ∀ c ∈ rest.head?, digitOf c = none) :
    lexInteger (n.text ++ rest) = some (n, rest) := by
  cases n with
  | zero => rfl
  | positive d more =>
    rw [IntegerPart.text, List.cons_append, lexInteger, digitOf_digitUnit, lexDigits_map more hrest]
    rfl

theorem lexSign_text (sign : Option Bool) {d : Fin 10} {cs : Utf16} :
    lexSign (signText sign ++ digitUnit d :: cs) = (sign, digitUnit d :: cs) := by
  have hnot : digitUnit d ≠ 0x2D ∧ digitUnit d ≠ 0x2B := by
    revert d
    decide
  match sign with
  | none => rw [signText, List.nil_append, lexSign, if_neg hnot.1, if_neg hnot.2]
  | some true => rfl
  | some false => rfl

theorem lexExponent_text (e : Option Exponent) {rest : Utf16} (hrest : EndsNumber rest) :
    lexExponent (exponentText e ++ rest) = some (e, rest) := by
  cases e with
  | none =>
    cases rest with
    | nil => rfl
    | cons c cs =>
      have hc : ¬(c = 0x45 ∨ c = 0x65) := by
        rintro (rfl | rfl)
        · exact hrest.exponent.1 rfl
        · exact hrest.exponent.2 rfl
      rw [exponentText, List.nil_append, lexExponent, if_neg hc]
  | some e =>
    obtain ⟨capital, sign, digits⟩ := e
    have hletter : (if capital then 0x45 else 0x65 : UInt16) = 0x45
        ∨ (if capital then 0x45 else 0x65 : UInt16) = 0x65 := by cases capital <;> decide
    have hcapital : decide ((if capital then 0x45 else 0x65 : UInt16) = 0x45) = capital := by
      cases capital <;> rfl
    have hsign : lexSign (signText sign ++ (digits.text ++ rest)) = (sign, digits.text ++ rest) :=
      lexSign_text sign
    rw [exponentText, Exponent.text, List.cons_append, lexExponent, if_pos hletter,
      List.append_assoc, hsign, lexDigits1_text digits hrest.digit, hcapital, Option.map_some]

theorem lexFraction_text (f : Option Digits) {rest : Utf16}
    (hdigit : ∀ c ∈ rest.head?, digitOf c = none) (hpoint : 0x2E ∉ rest.head?) :
    lexFraction (fractionText f ++ rest) = some (f, rest) := by
  cases f with
  | none =>
    cases rest with
    | nil => rfl
    | cons c cs =>
      rw [fractionText, List.nil_append, lexFraction,
        if_neg fun hc ↦ hpoint (congrArg some hc)]
  | some ds =>
    rw [fractionText, List.cons_append, lexFraction, if_pos rfl, lexDigits1_text ds hdigit,
      Option.map_some]

/-- An exponent continues neither the fraction nor the integer part. -/
theorem head_exponentText (e : Option Exponent) {rest : Utf16} (hrest : EndsNumber rest) :
    (∀ c ∈ (exponentText e ++ rest).head?, digitOf c = none) ∧
      0x2E ∉ (exponentText e ++ rest).head? := by
  match e with
  | none => exact ⟨hrest.digit, hrest.point⟩
  | some ⟨true, _, _⟩ => exact ⟨by rintro c ⟨⟩; rfl, by rintro ⟨⟩⟩
  | some ⟨false, _, _⟩ => exact ⟨by rintro c ⟨⟩; rfl, by rintro ⟨⟩⟩

theorem head_fractionText (f : Option Digits) {rest : Utf16}
    (hdigit : ∀ c ∈ rest.head?, digitOf c = none) :
    ∀ c ∈ (fractionText f ++ rest).head?, digitOf c = none := by
  cases f with
  | none => exact hdigit
  | some ds =>
    rintro c ⟨⟩
    rfl

theorem head?_integerText (n : IntegerPart) (rest : Utf16) :
    (n.text ++ rest).head? ≠ some 0x2D := by
  have hdigit : ∀ d : Fin 10, some (digitUnit d) ≠ some 0x2D := by decide
  cases n with
  | zero => exact hdigit 0
  | positive d more => exact hdigit d.succ

/-- **A written number is read back** when what follows does not continue it. -/
theorem lexNumber_text (n : NumberLiteral) {rest : Utf16} (hrest : EndsNumber rest) :
    lexNumber (n.text ++ rest) = some (n, rest) := by
  obtain ⟨negative, integer, fraction, exponent⟩ := n
  obtain ⟨hdigit, hpoint⟩ := head_exponentText exponent hrest
  have hinteger := lexInteger_text integer (head_fractionText fraction hdigit)
  have hfraction := lexFraction_text fraction hdigit hpoint
  have hexponent := lexExponent_text exponent hrest
  cases negative with
  | true =>
    simp only [NumberLiteral.text, if_true, List.append_assoc, List.cons_append, List.nil_append,
      lexNumber, List.head?_cons, List.tail_cons, hinteger, hfraction, hexponent,
      Option.bind_eq_bind, Option.bind_some, Option.pure_def, decide_true]
  | false =>
    have hsign :=
      head?_integerText integer (fractionText fraction ++ (exponentText exponent ++ rest))
    simp only [NumberLiteral.text, Bool.false_eq_true, if_false, List.append_assoc, List.nil_append,
      lexNumber, hsign, hinteger, hfraction, hexponent, Option.bind_eq_bind, Option.bind_some,
      Option.pure_def, decide_false]

/-! ## Progress -/

theorem expect_length {u : UInt16} {cs rest : Utf16} (h : expect u cs = some rest) :
    rest.length < cs.length := by
  cases cs with
  | nil => cases h
  | cons c cs =>
    obtain ⟨-, heq⟩ := Option.ite_none_right_eq_some.mp h
    cases heq
    exact Nat.lt_succ_self _

theorem lexString_length {cs s rest : Utf16} (h : lexString cs = some (s, rest)) :
    rest.length < cs.length := by
  -- What follows a character is at most as long as what follows the escape for it.
  have hread : ∀ {o : Option UInt16} {cs' s rest : Utf16},
      (o.bind fun u ↦ (lexString cs').map fun r ↦ (u :: r.1, r.2)) = some (s, rest) →
        ∃ s', lexString cs' = some (s', rest) := by
    intro o cs' s rest h
    obtain ⟨u, -, h⟩ := Option.bind_eq_some_iff.mp h
    obtain ⟨r, hr, heq⟩ := Option.map_eq_some_iff.mp h
    cases heq
    exact ⟨r.1, hr⟩
  fun_induction lexString cs generalizing s with
  | case1 | case5 | case6 => cases h
  | case2 =>
    cases h
    exact Nat.lt_succ_self _
  | case3 a b c d cs _ ih | case4 e cs _ _ ih =>
    obtain ⟨s', hs'⟩ := hread h
    have hlt := ih hs'
    simp only [List.length_cons]
    omega
  | case7 c cs _ _ _ ih =>
    obtain ⟨r, hr, heq⟩ := Option.map_eq_some_iff.mp h
    cases heq
    exact (ih hr).trans (Nat.lt_succ_self _)

theorem lexDigits_length (cs : Utf16) : (lexDigits cs).2.length ≤ cs.length := by
  induction cs with
  | nil => exact le_rfl
  | cons c cs ih =>
    rw [lexDigits]
    split
    · exact ih.trans (Nat.le_succ _)
    · exact le_rfl

theorem lexDigits1_length {cs rest : Utf16} {ds : Digits} (h : lexDigits1 cs = some (ds, rest)) :
    rest.length ≤ cs.length := by
  have hle := lexDigits_length cs
  unfold lexDigits1 at h
  split at h
  · rename_i d ds rest' heq
    cases h
    rwa [heq] at hle
  · cases h

theorem lexInteger_length {cs rest : Utf16} {n : IntegerPart}
    (h : lexInteger cs = some (n, rest)) : rest.length < cs.length := by
  cases cs with
  | nil => cases h
  | cons c cs =>
    have hle := lexDigits_length cs
    rw [lexInteger] at h
    split at h <;> cases h
    · exact Nat.lt_succ_self _
    · exact Nat.lt_succ_of_le hle

theorem lexFraction_length {cs rest : Utf16} {f : Option Digits}
    (h : lexFraction cs = some (f, rest)) : rest.length ≤ cs.length := by
  cases cs with
  | nil =>
    cases h
    exact le_rfl
  | cons c cs =>
    rw [lexFraction] at h
    split at h
    · obtain ⟨r, hr, heq⟩ := Option.map_eq_some_iff.mp h
      cases heq
      exact (lexDigits1_length hr).trans (Nat.le_succ _)
    · cases h
      exact le_rfl

theorem lexSign_length (cs : Utf16) : (lexSign cs).2.length ≤ cs.length := by
  cases cs with
  | nil => exact le_rfl
  | cons c cs =>
    rw [lexSign]
    split_ifs <;> simp

theorem lexExponent_length {cs rest : Utf16} {e : Option Exponent}
    (h : lexExponent cs = some (e, rest)) : rest.length ≤ cs.length := by
  cases cs with
  | nil =>
    cases h
    exact le_rfl
  | cons c cs =>
    rw [lexExponent] at h
    split at h
    · obtain ⟨r, hr, heq⟩ := Option.map_eq_some_iff.mp h
      cases heq
      exact ((lexDigits1_length hr).trans (lexSign_length cs)).trans (Nat.le_succ _)
    · cases h
      exact le_rfl

theorem lexNumber_length {cs rest : Utf16} {n : NumberLiteral}
    (h : lexNumber cs = some (n, rest)) : rest.length < cs.length := by
  simp only [lexNumber, Option.bind_eq_bind, Option.bind_eq_some_iff, Option.pure_def,
    Option.some.injEq, Prod.exists, Prod.mk.injEq] at h
  obtain ⟨integer, cs₁, hinteger, fraction, cs₂, hfraction, exponent, cs₃, hexponent, -, rfl⟩ := h
  have htail : (if cs.head? = some 0x2D then cs.tail else cs).length ≤ cs.length := by
    split_ifs <;> simp
  have h₁ := lexInteger_length hinteger
  have h₂ := lexFraction_length hfraction
  have h₃ := lexExponent_length hexponent
  omega

end Json
