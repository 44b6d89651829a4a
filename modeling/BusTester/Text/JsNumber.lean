import BusTester.Numbers.NearestEven
import BusTester.Numbers.ShortestDecimal
import BusTester.Text.JsonLexer
import Mathlib.Data.List.DropRight
import Mathlib.Data.Nat.Digits.Lemmas

/-!
# Numbers of JSON and of JavaScript

A number of a JSON text denotes a rational, `NumberLiteral.value`. `JSON.parse` rounds it to
binary64 and `JSON.stringify` writes what it has rounded with as few digits as tell it from its
neighbours (`Number::toString` of ECMA-262), so the rational that is written may be another one.
`NumberLiteral.exact_iff` says when it is the same.

Signs of zero and of infinities are of no consequence for what is written and are not told apart.
-/

namespace Json

open NearestEven ShortestDecimal

/-! ## What a literal denotes -/

/-- The number that the digits denote. -/
def digitsValue (ds : List (Fin 10)) : ℕ := Nat.ofDigits 10 (ds.map Fin.val).reverse

def Digits.toList (ds : Digits) : List (Fin 10) := ds.first :: ds.more

def IntegerPart.digits : IntegerPart → List (Fin 10)
  | zero => [0]
  | positive predFirst more => predFirst.succ :: more

def fractionDigits : Option Digits → List (Fin 10)
  | none => []
  | some ds => ds.toList

def exponentValue : Option Exponent → ℤ
  | none => 0
  | some e =>
    if e.sign = some true then -digitsValue e.digits.toList else digitsValue e.digits.toList

namespace NumberLiteral

def magnitude (n : NumberLiteral) : ℚ :=
  digitsValue (n.integer.digits ++ fractionDigits n.fraction)
    * 10 ^ (exponentValue n.exponent - (fractionDigits n.fraction).length)

/-- The decimal value of the literal. -/
def value (n : NumberLiteral) : ℚ := if n.negative then -n.magnitude else n.magnitude

theorem magnitude_nonneg (n : NumberLiteral) : 0 ≤ n.magnitude :=
  mul_nonneg (Nat.cast_nonneg _) (ten_zpow_pos _).le

end NumberLiteral

/-! ## binary64 -/

def binary64 : Format := ⟨53, -1074⟩

/-- A finite number. -/
structure Binary64 where
  negative : Bool
  magnitude : ℚ
  nonneg : 0 ≤ magnitude
  representable : magnitude ≠ 0 → binary64.nearest magnitude = magnitude

/-- The numbers that `JSON.parse` returns. -/
inductive JsNumber where
  | finite (x : Binary64)
  | infinite

def Binary64.zero : Binary64 := ⟨false, 0, le_rfl, fun h ↦ absurd rfl h⟩

/-- The value of a literal, rounded to binary64. -/
def NumberLiteral.toNumber (n : NumberLiteral) : JsNumber :=
  if h : n.magnitude = 0 then .finite .zero
  else
    have hpos : 0 < n.magnitude := n.magnitude_nonneg.lt_of_ne' h
    if binary64.nearest n.magnitude < 2 ^ 1024 then
      .finite {
        negative := n.negative
        magnitude := binary64.nearest n.magnitude
        nonneg := Format.nearest_nonneg hpos
        representable := fun _ ↦ Format.nearest_nearest (by decide) hpos }
    else .infinite

/-! ## Writing a number -/

/-- The digits before the point; the first one is not a zero. -/
def integerPart : List (Fin 10) → IntegerPart
  | [] => .zero
  | d :: more => if h : d = 0 then .zero else .positive (d.pred h) more

def someDigits : List (Fin 10) → Option Digits
  | [] => none
  | d :: more => some ⟨d, more⟩

/-- The digits of a number, the most significant one first. -/
def naturalDigits (n : ℕ) : List (Fin 10) := ((Nat.digits 10 n).map (Fin.ofNat 10)).reverse

/-- The exponent as it is written, with its sign. -/
def exponentOf (e : ℤ) : Option Exponent :=
  (someDigits (naturalDigits e.natAbs)).map fun digits ↦ ⟨false, some (decide (e < 0)), digits⟩

/-- The formats of `Number::toString`, for the digits of a number and the place of its point among
them. -/
def format (ds : List (Fin 10)) (point : ℤ) : NumberLiteral :=
  if ds.length ≤ point ∧ point ≤ 21 then
    ⟨false, integerPart (ds ++ List.replicate (point - ds.length).toNat 0), none, none⟩
  else if 0 < point ∧ point ≤ 21 then
    ⟨false, integerPart (ds.take point.toNat), someDigits (ds.drop point.toNat), none⟩
  else if -6 < point ∧ point ≤ 0 then
    ⟨false, .zero, someDigits (List.replicate (-point).toNat 0 ++ ds), none⟩
  else ⟨false, integerPart (ds.take 1), someDigits (ds.drop 1), exponentOf (point - 1)⟩

/-- The digits of `s` without the zeros at its end. -/
def significantDigits (s : ℕ) : List (Fin 10) := (naturalDigits s).rdropWhile fun d ↦ d = 0

/-- `s * 10 ^ j` as a literal. -/
def decimalLiteral (s : ℕ) (j : ℤ) : NumberLiteral :=
  format (significantDigits s) (j + (naturalDigits s).length)

theorem Binary64.rounds (x : Binary64) (h : x.magnitude ≠ 0) :
    Rounds binary64.nearest x.magnitude where
  pos := x.nonneg.lt_of_ne' h
  mono := fun _ _ ha hab ↦ Format.nearest_mono (by decide) ha hab
  fixed := x.representable h

theorem Binary64.exists_fits (x : Binary64) (h : x.magnitude ≠ 0) :
    ∃ k, Fits binary64.nearest x.magnitude k := by
  have hr := x.rounds h
  obtain ⟨m, e, hme⟩ := Format.exists_dyadic (f := binary64) hr.pos
  obtain ⟨s, j, hsj⟩ := exists_decimal_of_dyadic m e
  exact hr.exists_fits (hr.fixed.symm.trans (hme.trans hsj))

/-- **`Number::toString`**, as the literal that it writes for a finite number. -/
def Binary64.numeral (x : Binary64) : NumberLiteral :=
  if h : x.magnitude = 0 then ⟨false, .zero, none, none⟩
  else
    { decimalLiteral (significand (x.exists_fits h))
        (exponent x.magnitude (digitCount (x.exists_fits h))) with negative := x.negative }

/-! ## The value of what is written -/

variable {ds ds' : List (Fin 10)} {point : ℤ} {s : ℕ} {j : ℤ}

theorem digitsValue_append :
    digitsValue (ds ++ ds') = digitsValue ds * 10 ^ ds'.length + digitsValue ds' := by
  rw [digitsValue, List.map_append, List.reverse_append, Nat.ofDigits_append, List.length_reverse,
    List.length_map, digitsValue, digitsValue]
  ring

theorem digitsValue_replicate_zero (n : ℕ) : digitsValue (List.replicate n 0) = 0 := by
  rw [digitsValue, List.map_replicate, List.reverse_replicate]
  exact Nat.ofDigits_replicate_zero

theorem digits_integerPart {d : Fin 10} {more : List (Fin 10)} (hd : d ≠ 0) :
    (integerPart (d :: more)).digits = d :: more := by
  rw [integerPart, dif_neg hd, IntegerPart.digits, Fin.succ_pred]

theorem fractionDigits_someDigits (ds : List (Fin 10)) : fractionDigits (someDigits ds) = ds := by
  cases ds <;> rfl

theorem digitsValue_naturalDigits (n : ℕ) : digitsValue (naturalDigits n) = n := by
  have hlt : (Nat.digits 10 n).map (fun d ↦ (Fin.ofNat 10 d).val) = Nat.digits 10 n := by
    refine (List.map_congr_left fun d hd ↦ ?_).trans (List.map_id _)
    exact Nat.mod_eq_of_lt (Nat.digits_lt_base (by norm_num) hd)
  rw [digitsValue, naturalDigits, List.map_reverse, List.reverse_reverse, List.map_map]
  exact (congrArg _ hlt).trans (Nat.ofDigits_digits 10 n)

theorem exponentValue_exponentOf (e : ℤ) : exponentValue (exponentOf e) = e := by
  have hvalue := digitsValue_naturalDigits e.natAbs
  rw [exponentOf]
  cases hdigits : naturalDigits e.natAbs with
  | nil =>
    rw [hdigits] at hvalue
    exact (Int.natAbs_eq_zero.mp hvalue.symm).symm
  | cons d more =>
    rw [hdigits] at hvalue
    change (if some (decide (e < 0)) = some true then -(digitsValue (d :: more) : ℤ)
      else digitsValue (d :: more)) = e
    rw [hvalue]
    by_cases he : e < 0
    · rw [decide_eq_true he, if_pos rfl]
      omega
    · rw [decide_eq_false he, if_neg (by simp)]
      omega

/-- The value of a literal by its digits, without regard to the point. -/
theorem magnitude_eq {n : NumberLiteral} {l : ℕ}
    (hdigits : n.integer.digits ++ fractionDigits n.fraction = ds)
    (hlength : (fractionDigits n.fraction).length = l)
    (hexponent : exponentValue n.exponent - l = point) :
    n.magnitude = digitsValue ds * 10 ^ point := by
  rw [NumberLiteral.magnitude, hdigits, hlength, hexponent]

/-- **Each format has the value of its digits**, with the point where it was wanted. -/
theorem magnitude_format {d : Fin 10} {more : List (Fin 10)} (hd : d ≠ 0) (point : ℤ) :
    (format (d :: more) point).magnitude
      = digitsValue (d :: more) * 10 ^ (point - (d :: more).length) := by
  unfold format
  split_ifs with hinteger hpoint hsmall
  · obtain ⟨n, hn⟩ := Int.eq_ofNat_of_zero_le (show 0 ≤ point - (d :: more).length by omega)
    rw [hn, Int.toNat_natCast]
    have hdigits : (integerPart (d :: (more ++ List.replicate n 0))).digits ++ fractionDigits none
        = d :: (more ++ List.replicate n 0) := by
      rw [digits_integerPart hd]
      exact List.append_nil _
    refine (magnitude_eq (l := 0) hdigits rfl rfl).trans ?_
    rw [← List.cons_append, digitsValue_append, digitsValue_replicate_zero,
      List.length_replicate, zpow_natCast]
    change (_ : ℚ) * 10 ^ (0 - ((0 : ℕ) : ℤ)) = _
    simp
  · have hlt : point.toNat < (d :: more).length := by omega
    obtain ⟨n, hn⟩ := Nat.exists_eq_add_one.mpr (show 0 < point.toNat by omega)
    refine magnitude_eq (l := (d :: more).length - point.toNat) ?_ ?_ ?_
    · rw [hn, List.take_succ_cons, digits_integerPart hd, fractionDigits_someDigits,
        List.drop_succ_cons, List.cons_append, List.take_append_drop]
    · rw [fractionDigits_someDigits, List.length_drop]
    · change (0 : ℤ) - _ = _
      omega
  · have hzeros : digitsValue (0 :: (List.replicate (-point).toNat 0 ++ d :: more))
        = digitsValue (d :: more) := by
      rw [← List.cons_append, ← List.replicate_succ, digitsValue_append,
        digitsValue_replicate_zero, zero_mul, zero_add]
    rw [← hzeros]
    refine magnitude_eq (l := (-point).toNat + (d :: more).length) ?_ ?_ ?_
    · rw [fractionDigits_someDigits]
      rfl
    · rw [fractionDigits_someDigits, List.length_append, List.length_replicate]
    · change (0 : ℤ) - _ = _
      omega
  · refine magnitude_eq (l := more.length) ?_ ?_ ?_
    · rw [List.take_succ_cons, List.take_zero, digits_integerPart hd, fractionDigits_someDigits]
      rfl
    · rw [fractionDigits_someDigits]
      rfl
    · rw [exponentValue_exponentOf, List.length_cons]
      push_cast
      ring

theorem naturalDigits_eq (s : ℕ) : ∃ n, naturalDigits s
    = significantDigits s ++ List.replicate n 0 := by
  refine ⟨((naturalDigits s).rtakeWhile fun d ↦ d = 0).length, ?_⟩
  have hzeros : (naturalDigits s).rtakeWhile (fun d ↦ d = 0)
      = List.replicate ((naturalDigits s).rtakeWhile fun d ↦ d = 0).length 0 :=
    List.eq_replicate_of_mem fun d hd ↦ by simpa using List.mem_rtakeWhile_imp hd
  rw [← hzeros]
  exact List.rdropWhile_append_rtakeWhile.symm

theorem head_naturalDigits (hs : s ≠ 0) : ∃ d more, naturalDigits s = d :: more ∧ d ≠ 0 := by
  have hne : Nat.digits 10 s ≠ [] := Nat.digits_ne_nil_iff_ne_zero.mpr hs
  refine ⟨Fin.ofNat 10 ((Nat.digits 10 s).getLast hne),
    (((Nat.digits 10 s).dropLast).map (Fin.ofNat 10)).reverse, ?_, fun hzero ↦ ?_⟩
  · conv_lhs => rw [naturalDigits, ← List.dropLast_append_getLast hne]
    rw [List.map_append, List.reverse_append]
    rfl
  · have hlt := Nat.digits_lt_base (b := 10) (by norm_num) (List.getLast_mem hne)
    have hval := congrArg Fin.val hzero
    rw [Fin.val_ofNat, Nat.mod_eq_of_lt hlt] at hval
    exact Nat.getLast_digit_ne_zero 10 hs hval

theorem exists_significantDigits (hs : s ≠ 0) :
    ∃ d more, significantDigits s = d :: more ∧ d ≠ 0 := by
  obtain ⟨d, more, hdigits, hd⟩ := head_naturalDigits hs
  obtain ⟨n, hn⟩ := naturalDigits_eq s
  cases hsig : significantDigits s with
  | nil =>
    rw [hsig, List.nil_append, hdigits] at hn
    have hmem : d ∈ List.replicate n 0 := hn ▸ List.mem_cons_self
    exact absurd (List.eq_of_mem_replicate hmem) hd
  | cons d' more' =>
    rw [hsig, hdigits, List.cons_append] at hn
    exact ⟨d', more', rfl, (List.cons.inj hn).1 ▸ hd⟩

theorem magnitude_decimalLiteral (hs : s ≠ 0) : (decimalLiteral s j).magnitude = s * 10 ^ j := by
  obtain ⟨d, more, hdigits, hd⟩ := exists_significantDigits hs
  obtain ⟨n, hn⟩ := naturalDigits_eq s
  have hvalue := digitsValue_naturalDigits s
  rw [hn, digitsValue_append, digitsValue_replicate_zero, List.length_replicate, add_zero] at hvalue
  have hcast : (s : ℚ) = digitsValue (significantDigits s) * 10 ^ n := by exact_mod_cast hvalue.symm
  rw [decimalLiteral, hn, hdigits, magnitude_format hd, ← hdigits, hcast, mul_assoc,
    ten_pow_eq_zpow, ← zpow_add₀ (by norm_num), List.length_append, List.length_replicate]
  congr 2
  push_cast
  ring

/-! ## What is written has the value of the literal -/

/-- The literal stands for zero, or it is the shortest decimal of the number it is rounded to, and
that is neither zero nor infinite. -/
def NumberLiteral.Exact (n : NumberLiteral) : Prop :=
  n.magnitude = 0 ∨ (binary64.nearest n.magnitude ≠ 0 ∧ binary64.nearest n.magnitude < 2 ^ 1024 ∧
    ∃ k, IsShortest binary64.nearest (binary64.nearest n.magnitude) n.magnitude k)

/-- **`Number::toString` writes the shortest decimal.** -/
theorem Binary64.magnitude_numeral (x : Binary64) (h : x.magnitude ≠ 0) :
    x.numeral.magnitude = decimal (x.exists_fits h) ∧ x.numeral.negative = x.negative := by
  have hpos : 0 < decimal (x.exists_fits h) := (isShortest_decimal (x.rounds h) _).pos
  have hs : significand (x.exists_fits h) ≠ 0 := by
    intro hzero
    rw [decimal, hzero, Nat.cast_zero, zero_mul] at hpos
    exact lt_irrefl 0 hpos
  rw [numeral, dif_neg h]
  exact ⟨magnitude_decimalLiteral hs, rfl⟩

theorem Binary64.value_numeral_of_zero {x : Binary64} (h : x.magnitude = 0) :
    x.numeral.value = 0 := by
  rw [numeral, dif_pos h]
  simp [NumberLiteral.value, NumberLiteral.magnitude, IntegerPart.digits, fractionDigits,
    digitsValue]

namespace NumberLiteral

variable {n n' : NumberLiteral}

theorem value_eq_zero_iff : n.value = 0 ↔ n.magnitude = 0 := by
  unfold value
  split_ifs
  · exact neg_eq_zero
  · exact Iff.rfl

theorem value_eq_iff (h : n.negative = n'.negative) :
    n.value = n'.value ↔ n.magnitude = n'.magnitude := by
  unfold value
  rw [h]
  split_ifs
  · exact neg_inj
  · exact Iff.rfl

/-- A number is written with a value other than zero if that is its shortest decimal. -/
theorem value_numeral_iff {x : Binary64} (hnegative : x.negative = n.negative)
    (hn : n.magnitude ≠ 0) : x.numeral.value = n.value ↔
      x.magnitude ≠ 0 ∧ ∃ k, IsShortest binary64.nearest x.magnitude n.magnitude k := by
  by_cases hx : x.magnitude = 0
  · refine iff_of_false (fun h ↦ hn (value_eq_zero_iff.mp ?_)) fun h ↦ h.1 hx
    rw [← h, Binary64.value_numeral_of_zero hx]
  · obtain ⟨hmagnitude, hsign⟩ := x.magnitude_numeral hx
    rw [value_eq_iff (hsign.trans hnegative), hmagnitude, and_iff_right hx,
      exists_isShortest_iff (x.rounds hx) (x.exists_fits hx), eq_comm]

/-- **When the value survives.** -/
theorem exact_iff (n : NumberLiteral) : n.Exact ↔
    ∃ x, n.toNumber = .finite x ∧ x.numeral.value = n.value := by
  unfold Exact toNumber
  by_cases hzero : n.magnitude = 0
  · rw [dif_pos hzero]
    refine iff_of_true (Or.inl hzero) ⟨.zero, rfl, ?_⟩
    rw [Binary64.value_numeral_of_zero rfl, value_eq_zero_iff.mpr hzero]
  rw [dif_neg hzero]
  split_ifs with hfinite
  · simp only [JsNumber.finite.injEq, exists_eq_left', hzero, false_or, hfinite, true_and]
    exact (value_numeral_iff (x := ⟨n.negative, _, _, _⟩) rfl hzero).symm
  · refine iff_of_false ?_ ?_
    · rintro (h | ⟨-, h, -⟩)
      · exact hzero h
      · exact hfinite h
    · rintro ⟨x, ⟨⟩, -⟩

end NumberLiteral

end Json
