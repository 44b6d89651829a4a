import Mathlib.Algebra.Order.Floor.Ring
import Mathlib.Algebra.Order.Round
import Mathlib.Data.Int.Log
import Mathlib.Data.Rat.Floor
import Mathlib.Tactic.Linarith
import Mathlib.Tactic.Positivity

/-!
# Rounding to nearest, ties to even

A floating-point format without an upper bound: the numbers with at most `precision` binary digits,
whose last digit is not below `minQuantum`. `nearest` rounds a positive rational to such a number.
It is computed by rounding to an integer at the quantum that the size of the argument asks for, so
the two facts used about it, that it is monotone and that it leaves its own results alone, have to
look at arguments whose quanta differ.
-/

namespace NearestEven

/-- Round to an integer, and half way between two of them to the even one. -/
def roundEven (x : ℚ) : ℤ :=
  if Int.fract x < 1 / 2 then ⌊x⌋
  else if 1 / 2 < Int.fract x then ⌊x⌋ + 1
  else if Even ⌊x⌋ then ⌊x⌋
  else ⌊x⌋ + 1

theorem floor_le_roundEven (x : ℚ) : ⌊x⌋ ≤ roundEven x := by
  unfold roundEven
  split_ifs <;> omega

theorem roundEven_le_floor_add_one (x : ℚ) : roundEven x ≤ ⌊x⌋ + 1 := by
  unfold roundEven
  split_ifs <;> omega

@[simp] theorem roundEven_intCast (n : ℤ) : roundEven n = n := by
  rw [roundEven, Int.fract_intCast, if_pos (by norm_num), Int.floor_intCast]

theorem roundEven_mono {x y : ℚ} (hxy : x ≤ y) : roundEven x ≤ roundEven y := by
  rcases (Int.floor_mono hxy).lt_or_eq with hlt | heq
  · calc roundEven x ≤ ⌊x⌋ + 1 := roundEven_le_floor_add_one x
      _ ≤ ⌊y⌋ := hlt
      _ ≤ roundEven y := floor_le_roundEven y
  · have hfract : Int.fract x ≤ Int.fract y := by
      rw [Int.fract, Int.fract, heq]
      linarith
    unfold roundEven
    rw [heq]
    split_ifs <;> first | omega | (exfalso; linarith)

/-- A binary format: the number of digits and the least quantum. -/
structure Format where
  precision : ℕ
  minQuantum : ℤ

namespace Format

variable (f : Format) {x y : ℚ}

/-- The weight, as an exponent of 2, of the last digit of a number of the size of `x`. -/
def quantum (x : ℚ) : ℤ := max (Int.log 2 x + 1 - f.precision) f.minQuantum

/-- **The nearest number of the format**, ties to even. -/
def nearest (x : ℚ) : ℚ := roundEven (x / 2 ^ f.quantum x) * 2 ^ f.quantum x

theorem two_zpow_pos (e : ℤ) : (0 : ℚ) < 2 ^ e := zpow_pos (by norm_num) e

variable {f}

theorem nearest_eq_self {m e : ℤ} (hx : x = m * 2 ^ e) (he : f.quantum x ≤ e) :
    f.nearest x = x := by
  have hpos := two_zpow_pos (f.quantum x)
  obtain ⟨n, hn⟩ : ∃ n : ℤ, x / 2 ^ f.quantum x = n := by
    refine ⟨m * 2 ^ (e - f.quantum x).toNat, ?_⟩
    have hexp : ((e - f.quantum x).toNat : ℤ) = e - f.quantum x := Int.toNat_of_nonneg (by omega)
    rw [div_eq_iff hpos.ne']
    push_cast
    rw [← zpow_natCast, hexp, mul_assoc, ← zpow_add₀ two_ne_zero, sub_add_cancel, hx]
  rw [nearest, hn, roundEven_intCast, ← hn, div_mul_cancel₀ _ hpos.ne']

theorem quantum_mono (hx : 0 < x) (hxy : x ≤ y) : f.quantum x ≤ f.quantum y :=
  max_le_max (by linarith [Int.log_mono_right (b := 2) hx hxy]) le_rfl

/-- A power of 2 between the quantum of `x` and a larger exponent, in units of the quantum. -/
theorem zpow_div_quantum {e : ℤ} (he : f.quantum x ≤ e) :
    ∃ n : ℤ, (2 : ℚ) ^ e / 2 ^ f.quantum x = n := by
  refine ⟨2 ^ (e - f.quantum x).toNat, ?_⟩
  have hexp : ((e - f.quantum x).toNat : ℤ) = e - f.quantum x := Int.toNat_of_nonneg (by omega)
  push_cast
  rw [← zpow_natCast, hexp, zpow_sub₀ two_ne_zero]

/-- Rounding does not step over a power of 2. -/
theorem nearest_le_zpow {e : ℤ} (hx : x ≤ 2 ^ e) (he : f.quantum x ≤ e) : f.nearest x ≤ 2 ^ e := by
  have hpos := two_zpow_pos (f.quantum x)
  obtain ⟨n, hn⟩ := zpow_div_quantum he
  have hle : roundEven (x / 2 ^ f.quantum x) ≤ n := by
    rw [← roundEven_intCast n, ← hn]
    exact roundEven_mono (div_le_div_of_nonneg_right hx hpos.le)
  rw [nearest, ← le_div_iff₀ hpos, hn]
  exact_mod_cast hle

theorem zpow_le_nearest {e : ℤ} (hx : 2 ^ e ≤ x) (he : f.quantum x ≤ e) : 2 ^ e ≤ f.nearest x := by
  have hpos := two_zpow_pos (f.quantum x)
  obtain ⟨n, hn⟩ := zpow_div_quantum he
  have hle : n ≤ roundEven (x / 2 ^ f.quantum x) := by
    rw [← roundEven_intCast n, ← hn]
    exact roundEven_mono (div_le_div_of_nonneg_right hx hpos.le)
  rw [nearest, ← div_le_iff₀ hpos, hn]
  exact_mod_cast hle

/-- **Rounding is monotone.** Where the quanta differ, a power of 2 lies in between. -/
theorem nearest_mono (hf : 1 ≤ f.precision) (hx : 0 < x) (hxy : x ≤ y) :
    f.nearest x ≤ f.nearest y := by
  rcases (quantum_mono (f := f) hx hxy).eq_or_lt with heq | hlt
  · have hpos := two_zpow_pos (f.quantum y)
    rw [nearest, nearest, heq]
    refine mul_le_mul_of_nonneg_right ?_ hpos.le
    exact_mod_cast roundEven_mono (div_le_div_of_nonneg_right hxy hpos.le)
  · have hy : 0 < y := hx.trans_le hxy
    have hquantum : f.quantum y = Int.log 2 y + 1 - f.precision := by
      have hmin : f.minQuantum ≤ f.quantum x := le_max_right _ _
      have hmax : f.quantum y = max (Int.log 2 y + 1 - f.precision) f.minQuantum := rfl
      omega
    have hbelow : x < 2 ^ Int.log 2 y := by
      have hlog : Int.log 2 x + 1 - f.precision ≤ f.quantum x := le_max_left _ _
      exact_mod_cast (Int.lt_zpow_iff_log_lt (b := 2) one_lt_two hx).mpr (by omega)
    have habove : (2 : ℚ) ^ Int.log 2 y ≤ y := by
      exact_mod_cast Int.zpow_log_le_self (b := 2) one_lt_two hy
    calc f.nearest x ≤ 2 ^ Int.log 2 y := nearest_le_zpow hbelow.le (by omega)
      _ ≤ f.nearest y := zpow_le_nearest habove (by omega)

/-- What was rounded has finitely many binary digits. -/
theorem exists_dyadic (hx : 0 < x) : ∃ (m : ℕ) (e : ℤ), f.nearest x = m * 2 ^ e := by
  have hpos := two_zpow_pos (f.quantum x)
  have hnonneg : 0 ≤ roundEven (x / 2 ^ f.quantum x) :=
    (Int.floor_nonneg.mpr (div_pos hx hpos).le).trans (floor_le_roundEven _)
  obtain ⟨m, hm⟩ := Int.eq_ofNat_of_zero_le hnonneg
  exact ⟨m, f.quantum x, by rw [nearest, hm, Int.cast_natCast]⟩

theorem nearest_nonneg (hx : 0 < x) : 0 ≤ f.nearest x := by
  obtain ⟨m, e, hme⟩ := exists_dyadic (f := f) hx
  rw [hme]
  exact mul_nonneg (Nat.cast_nonneg m) (two_zpow_pos e).le

/-- **What was rounded stays as it is.** -/
theorem nearest_nearest (hf : 1 ≤ f.precision) (hx : 0 < x) :
    f.nearest (f.nearest x) = f.nearest x := by
  set e := max (Int.log 2 x + 1) (f.quantum x) with he
  have hle : f.nearest x ≤ 2 ^ e := by
    refine nearest_le_zpow ?_ (le_max_right _ _)
    calc x ≤ 2 ^ (Int.log 2 x + 1) := by
          exact_mod_cast (Int.lt_zpow_succ_log_self (b := 2) one_lt_two x).le
      _ ≤ 2 ^ e := zpow_le_zpow_right₀ one_le_two (le_max_left _ _)
  have hmin : f.minQuantum ≤ f.quantum x := le_max_right _ _
  rcases (nearest_nonneg (f := f) hx).eq_or_lt with hzero | hpos
  · exact nearest_eq_self (m := 0) (by rw [← hzero, Int.cast_zero, zero_mul]) le_rfl
  rcases hle.eq_or_lt with heq | hlt
  · refine nearest_eq_self (m := 1) (e := e) (by rw [heq, Int.cast_one, one_mul]) ?_
    have hlog : Int.log 2 (f.nearest x) = e := by
      rw [heq]
      exact_mod_cast Int.log_zpow (R := ℚ) (b := 2) one_lt_two e
    rw [quantum, hlog]
    omega
  · refine nearest_eq_self (m := roundEven (x / 2 ^ f.quantum x)) (e := f.quantum x) rfl ?_
    have hlog : Int.log 2 (f.nearest x) < e :=
      (Int.lt_zpow_iff_log_lt (b := 2) one_lt_two hpos).mp (by exact_mod_cast hlt)
    have hquantum : f.quantum x = max (Int.log 2 x + 1 - f.precision) f.minQuantum := rfl
    rw [quantum]
    omega

end Format

end NearestEven
