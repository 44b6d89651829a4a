import Mathlib.Algebra.Order.Floor.Ring
import Mathlib.Algebra.Order.Floor.Semiring
import Mathlib.Data.Int.Log
import Mathlib.Data.Nat.Find
import Mathlib.Data.Rat.Floor
import Mathlib.Tactic.Linarith

/-!
# The shortest decimal of a rounded number

Let `r` be a monotone rounding and `x` a number that it leaves alone. Of the decimals that `r` takes
to `x`, one with the fewest digits is wanted, the nearest to `x` of these, and the one with an even
last digit where two are equally near: `IsShortest` says so. Between `below` and `above`, the two
neighbours of `x` with `k` digits, there is no other decimal with `k` digits; so it is enough to try
the two for one `k` after the other, and `decimal` does this.
-/

namespace ShortestDecimal

/-- The decimal can be written with `k` digits and a power of 10. -/
def HasDigits (k : ℕ) (d : ℚ) : Prop := ∃ (s : ℕ) (j : ℤ), s < 10 ^ k ∧ d = s * 10 ^ j

/-! ## The neighbours with a given number of digits -/

section Neighbours

variable (x : ℚ) (k : ℕ)

/-- The exponent of the last of `k` digits of a number of the size of `x`. -/
def exponent : ℤ := Int.log 10 x + 1 - k

/-- The first `k` digits of `x`. -/
def lower : ℕ := ⌊x / 10 ^ exponent x k⌋₊

def below : ℚ := lower x k * 10 ^ exponent x k

def above : ℚ := (lower x k + 1 : ℕ) * 10 ^ exponent x k

variable {x k} {d : ℚ}

theorem ten_zpow_pos (e : ℤ) : (0 : ℚ) < 10 ^ e := zpow_pos (by norm_num) e

theorem ten_pow_eq_zpow (n : ℕ) : (10 : ℚ) ^ n = 10 ^ (n : ℤ) := (zpow_natCast 10 n).symm

theorem below_le (hx : 0 < x) : below x k ≤ x := by
  have hpos := ten_zpow_pos (exponent x k)
  rw [below, ← le_div_iff₀ hpos]
  exact Nat.floor_le (div_pos hx hpos).le

theorem lt_above : x < above x k := by
  have hpos := ten_zpow_pos (exponent x k)
  rw [above, ← div_lt_iff₀ hpos]
  push_cast
  exact Nat.lt_floor_add_one _

theorem zpow_log_le (hx : 0 < x) : (10 : ℚ) ^ Int.log 10 x ≤ x := by
  exact_mod_cast Int.zpow_log_le_self (b := 10) (by norm_num) hx

theorem lt_zpow_log : x < (10 : ℚ) ^ (Int.log 10 x + 1) := by
  exact_mod_cast Int.lt_zpow_succ_log_self (b := 10) (by norm_num) x

theorem lower_lt (hx : 0 < x) : lower x k < 10 ^ k := by
  have hpos := ten_zpow_pos (exponent x k)
  rw [lower, Nat.floor_lt (div_pos hx hpos).le, div_lt_iff₀ hpos]
  push_cast
  rw [ten_pow_eq_zpow, ← zpow_add₀ (by norm_num), exponent]
  exact lt_zpow_log.trans_eq (by congr 1; ring)

theorem pow_le_lower (hx : 0 < x) : 10 ^ k ≤ lower x (k + 1) := by
  have hpos := ten_zpow_pos (exponent x (k + 1))
  rw [lower, Nat.le_floor_iff (div_pos hx hpos).le, le_div_iff₀ hpos]
  push_cast
  rw [ten_pow_eq_zpow, ← zpow_add₀ (by norm_num), exponent]
  exact (zpow_log_le hx).trans_eq' (by congr 1; push_cast; ring)

theorem hasDigits_below (hx : 0 < x) : HasDigits k (below x k) :=
  ⟨lower x k, exponent x k, lower_lt hx, rfl⟩

/-- The upper neighbour may be the next power of 10. -/
theorem hasDigits_above (hx : 0 < x) (hk : 1 ≤ k) : HasDigits k (above x k) := by
  rcases (Nat.succ_le_of_lt (lower_lt (k := k) hx)).lt_or_eq with hlt | heq
  · exact ⟨lower x k + 1, exponent x k, hlt, rfl⟩
  · refine ⟨1, Int.log 10 x + 1, Nat.one_lt_pow (by omega) (by norm_num), ?_⟩
    rw [above, show lower x k + 1 = 10 ^ k from heq]
    push_cast
    rw [ten_pow_eq_zpow, ← zpow_add₀ (by norm_num), one_mul, exponent]
    congr 1
    ring

theorem zpow_log_le_below (hx : 0 < x) (hk : 1 ≤ k) : 10 ^ Int.log 10 x ≤ below x k := by
  obtain ⟨k, rfl⟩ := Nat.exists_eq_add_one.mpr hk
  have hle : ((10 ^ k : ℕ) : ℚ) ≤ lower x (k + 1) := by exact_mod_cast pow_le_lower hx
  calc (10 : ℚ) ^ Int.log 10 x = (10 ^ k : ℕ) * 10 ^ exponent x (k + 1) := by
        push_cast
        rw [ten_pow_eq_zpow, ← zpow_add₀ (by norm_num), exponent]
        congr 1
        push_cast
        ring
    _ ≤ below x (k + 1) := mul_le_mul_of_nonneg_right hle (ten_zpow_pos _).le

theorem below_pos (hx : 0 < x) (hk : 1 ≤ k) : 0 < below x k :=
  (ten_zpow_pos _).trans_le (zpow_log_le_below hx hk)

/-- A decimal with `k` digits is a multiple of the last digit, or smaller than `x` by an order of
magnitude. -/
theorem HasDigits.multiple_or_lt (hd : HasDigits k d) :
    (∃ n : ℕ, d = n * 10 ^ exponent x k) ∨ d < 10 ^ Int.log 10 x := by
  obtain ⟨s, j, hs, rfl⟩ := hd
  rcases le_or_gt (exponent x k) j with hj | hj
  · refine Or.inl ⟨s * 10 ^ (j - exponent x k).toNat, ?_⟩
    have hexp : ((j - exponent x k).toNat : ℤ) = j - exponent x k := Int.toNat_of_nonneg (by omega)
    push_cast
    rw [ten_pow_eq_zpow, hexp, mul_assoc, ← zpow_add₀ (by norm_num), sub_add_cancel]
  · refine Or.inr ?_
    have hs' : (s : ℚ) < 10 ^ k := by exact_mod_cast hs
    calc (s : ℚ) * 10 ^ j < 10 ^ k * 10 ^ j := mul_lt_mul_of_pos_right hs' (ten_zpow_pos j)
      _ = 10 ^ ((k : ℤ) + j) := by rw [ten_pow_eq_zpow, ← zpow_add₀ (by norm_num)]
      _ ≤ 10 ^ Int.log 10 x := by
          refine zpow_le_zpow_right₀ (by norm_num) ?_
          rw [exponent] at hj
          omega

/-- **No decimal with `k` digits lies between the two neighbours.** -/
theorem le_below (hx : 0 < x) (hk : 1 ≤ k) (hd : HasDigits k d) (hdx : d ≤ x) : d ≤ below x k := by
  rcases hd.multiple_or_lt (x := x) with ⟨n, rfl⟩ | hlt
  · have hpos := ten_zpow_pos (exponent x k)
    have hn : n ≤ lower x k := by
      rw [lower, Nat.le_floor_iff (div_pos hx hpos).le, le_div_iff₀ hpos]
      exact hdx
    rw [below]
    exact mul_le_mul_of_nonneg_right (by exact_mod_cast hn) hpos.le
  · exact hlt.le.trans (zpow_log_le_below hx hk)

theorem above_le (hx : 0 < x) (hd : HasDigits k d) (hxd : x < d) : above x k ≤ d := by
  rcases hd.multiple_or_lt (x := x) with ⟨n, rfl⟩ | hlt
  · have hpos := ten_zpow_pos (exponent x k)
    have hn : lower x k < n := by
      rw [lower, Nat.floor_lt (div_pos hx hpos).le, div_lt_iff₀ hpos]
      exact hxd
    rw [above]
    exact mul_le_mul_of_nonneg_right (by exact_mod_cast hn) hpos.le
  · exact absurd (hlt.trans_le (zpow_log_le hx)) hxd.not_gt

theorem floor_below : ⌊below x k / 10 ^ exponent x k⌋₊ = lower x k := by
  rw [below, mul_div_cancel_right₀ _ (ten_zpow_pos _).ne', Nat.floor_natCast]

theorem floor_above : ⌊above x k / 10 ^ exponent x k⌋₊ = lower x k + 1 := by
  rw [above, mul_div_cancel_right₀ _ (ten_zpow_pos _).ne', Nat.floor_natCast]

end Neighbours

/-! ## The choice -/

section Choice

/-- One of the two neighbours with `k` digits is rounded to `x`. -/
def Fits (r : ℚ → ℚ) (x : ℚ) (k : ℕ) : Prop := 1 ≤ k ∧ (r (below x k) = x ∨ r (above x k) = x)

instance (r : ℚ → ℚ) (x : ℚ) : DecidablePred (Fits r x) := fun k ↦
  inferInstanceAs (Decidable (1 ≤ k ∧ (r (below x k) = x ∨ r (above x k) = x)))

/-- Of two neighbours that are rounded to `x` the lower one is taken when it is nearer, or as near
and even. -/
def TakesBelow (r : ℚ → ℚ) (x : ℚ) (k : ℕ) : Prop :=
  r (below x k) = x ∧ (r (above x k) = x →
    x - below x k < above x k - x ∨ (x - below x k = above x k - x ∧ Even (lower x k)))

instance (r : ℚ → ℚ) (x : ℚ) : DecidablePred (TakesBelow r x) := fun k ↦
  inferInstanceAs (Decidable (r (below x k) = x ∧ (r (above x k) = x →
    x - below x k < above x k - x ∨ (x - below x k = above x k - x ∧ Even (lower x k)))))

variable {r : ℚ → ℚ} {x : ℚ}

/-- The number of digits: the smallest for which a neighbour is rounded to `x`. -/
def digitCount (h : ∃ k, Fits r x k) : ℕ := Nat.find h

/-- The digits, as a number. -/
def significand (h : ∃ k, Fits r x k) : ℕ :=
  if TakesBelow r x (digitCount h) then lower x (digitCount h) else lower x (digitCount h) + 1

/-- **The shortest decimal.** -/
def decimal (h : ∃ k, Fits r x k) : ℚ := significand h * 10 ^ exponent x (digitCount h)

theorem decimal_eq (h : ∃ k, Fits r x k) : decimal h =
    if TakesBelow r x (digitCount h) then below x (digitCount h) else above x (digitCount h) := by
  rw [decimal, significand]
  split_ifs <;> rfl

/-- **The decimal that stands for `x`**, with `k` digits. -/
structure IsShortest (r : ℚ → ℚ) (x d : ℚ) (k : ℕ) : Prop where
  pos : 0 < d
  hasDigits : HasDigits k d
  rounds : r d = x
  fewest : ∀ k' d', 0 < d' → HasDigits k' d' → r d' = x → k ≤ k'
  nearest : ∀ d', 0 < d' → HasDigits k d' → r d' = x → |x - d| ≤ |x - d'|
  /-- The last of the `k` digits. -/
  even : ∀ d', 0 < d' → HasDigits k d' → r d' = x → d' ≠ d → |x - d'| = |x - d| →
    Even ⌊d / 10 ^ exponent x k⌋₊

/-- A rounding whose results it leaves alone, as far as `x` goes. -/
structure Rounds (r : ℚ → ℚ) (x : ℚ) : Prop where
  pos : 0 < x
  mono : ∀ a b, 0 < a → a ≤ b → r a ≤ r b
  fixed : r x = x

variable {d : ℚ} {k : ℕ}

/-- What lies between two numbers that are rounded to `x` is rounded to `x`. -/
theorem Rounds.convex (hr : Rounds r x) {a b c : ℚ} (ha : 0 < a) (hab : a ≤ b) (hbc : b ≤ c)
    (hra : r a = x) (hrc : r c = x) : r b = x :=
  le_antisymm ((hr.mono b c (ha.trans_le hab) hbc).trans_eq hrc)
    (hra.symm.trans_le (hr.mono a b ha hab))

theorem HasDigits.one_le (hd : HasDigits k d) (hpos : 0 < d) : 1 ≤ k := by
  obtain ⟨s, j, hs, rfl⟩ := hd
  by_contra hk
  obtain rfl : k = 0 := by omega
  rw [pow_zero, Nat.lt_one_iff] at hs
  simp [hs] at hpos

/-- A decimal below `x` that is rounded to `x` takes the lower neighbour with it. -/
theorem Rounds.below_of_le (hr : Rounds r x) (hpos : 0 < d) (hd : HasDigits k d) (hrd : r d = x)
    (hdx : d ≤ x) : d ≤ below x k ∧ r (below x k) = x := by
  have hle := le_below hr.pos (hd.one_le hpos) hd hdx
  exact ⟨hle, hr.convex hpos hle (below_le hr.pos) hrd hr.fixed⟩

theorem Rounds.above_of_lt (hr : Rounds r x) (hd : HasDigits k d) (hrd : r d = x)
    (hxd : x < d) : above x k ≤ d ∧ r (above x k) = x := by
  have hle := above_le hr.pos hd hxd
  exact ⟨hle, hr.convex hr.pos lt_above.le hle hr.fixed hrd⟩

/-- It is enough to try the two neighbours. -/
theorem Rounds.fits_of_hasDigits (hr : Rounds r x) (hpos : 0 < d) (hd : HasDigits k d)
    (hrd : r d = x) : Fits r x k := by
  refine ⟨hd.one_le hpos, ?_⟩
  rcases le_or_gt d x with hdx | hxd
  · exact Or.inl (hr.below_of_le hpos hd hrd hdx).2
  · exact Or.inr (hr.above_of_lt hd hrd hxd).2

theorem abs_sub_of_le {a b : ℚ} (h : b ≤ a) : |a - b| = a - b := abs_of_nonneg (by linarith)

theorem abs_sub_of_ge {a b : ℚ} (h : a ≤ b) : |a - b| = b - a := by
  rw [abs_sub_comm, abs_sub_of_le h]

theorem fewest_digitCount (hr : Rounds r x) (h : ∃ k, Fits r x k) {k' : ℕ} {d' : ℚ}
    (hpos : 0 < d') (hd : HasDigits k' d') (hrd : r d' = x) : digitCount h ≤ k' :=
  Nat.find_min' h (hr.fits_of_hasDigits hpos hd hrd)

theorem isShortest_below (hr : Rounds r x) (hk : 1 ≤ k) (htakes : TakesBelow r x k)
    (hfewest : ∀ k' d', 0 < d' → HasDigits k' d' → r d' = x → k ≤ k') :
    IsShortest r x (below x k) k := by
  have hbelow : below x k ≤ x := below_le hr.pos
  refine ⟨below_pos hr.pos hk, hasDigits_below hr.pos, htakes.1, hfewest,
    fun d' hpos hd hrd ↦ ?_, fun d' hpos hd hrd hne hdist ↦ ?_⟩
  · rw [abs_sub_of_le hbelow]
    rcases le_or_gt d' x with hdx | hxd
    · have hle := (hr.below_of_le hpos hd hrd hdx).1
      rw [abs_sub_of_le hdx]
      linarith
    · obtain ⟨hle, hra⟩ := hr.above_of_lt hd hrd hxd
      rw [abs_sub_of_ge hxd.le]
      rcases htakes.2 hra with hlt | ⟨heq, -⟩ <;> linarith
  · rw [floor_below]
    rw [abs_sub_of_le hbelow] at hdist
    rcases le_or_gt d' x with hdx | hxd
    · rw [abs_sub_of_le hdx] at hdist
      exact absurd (by linarith) hne
    · obtain ⟨hle, hra⟩ := hr.above_of_lt hd hrd hxd
      rw [abs_sub_of_ge hxd.le] at hdist
      rcases htakes.2 hra with hlt | ⟨-, heven⟩
      · linarith
      · exact heven

/-- Where the lower neighbour is rounded to `x` and not taken, there is a reason. -/
theorem le_of_not_takesBelow (hnot : ¬TakesBelow r x k) (hrb : r (below x k) = x) :
    above x k - x ≤ x - below x k ∧ (x - below x k = above x k - x → ¬Even (lower x k)) := by
  refine ⟨?_, fun heq heven ↦ hnot ⟨hrb, fun _ ↦ Or.inr ⟨heq, heven⟩⟩⟩
  by_contra hlt
  exact hnot ⟨hrb, fun _ ↦ Or.inl (not_le.mp hlt)⟩

theorem isShortest_above (hr : Rounds r x) (hfits : Fits r x k) (hnot : ¬TakesBelow r x k)
    (hfewest : ∀ k' d', 0 < d' → HasDigits k' d' → r d' = x → k ≤ k') :
    IsShortest r x (above x k) k := by
  have habove : x < above x k := lt_above
  have hra : r (above x k) = x := by
    by_contra hra
    rcases hfits.2 with hrb | hra'
    · exact hnot ⟨hrb, fun hra' ↦ absurd hra' hra⟩
    · exact hra hra'
  refine ⟨hr.pos.trans habove, hasDigits_above hr.pos hfits.1, hra, hfewest,
    fun d' hpos hd hrd ↦ ?_, fun d' hpos hd hrd hne hdist ↦ ?_⟩
  · rw [abs_sub_of_ge habove.le]
    rcases le_or_gt d' x with hdx | hxd
    · obtain ⟨hle, hrb⟩ := hr.below_of_le hpos hd hrd hdx
      rw [abs_sub_of_le hdx]
      linarith [(le_of_not_takesBelow hnot hrb).1]
    · have hle := (hr.above_of_lt hd hrd hxd).1
      rw [abs_sub_of_ge hxd.le]
      linarith
  · rw [floor_above]
    rw [abs_sub_of_ge habove.le] at hdist
    rcases le_or_gt d' x with hdx | hxd
    · obtain ⟨hle, hrb⟩ := hr.below_of_le hpos hd hrd hdx
      rw [abs_sub_of_le hdx] at hdist
      obtain ⟨hnear, hodd⟩ := le_of_not_takesBelow hnot hrb
      exact Nat.even_add_one.mpr (hodd (by linarith))
    · rw [abs_sub_of_ge hxd.le] at hdist
      exact absurd (by linarith) hne

/-- **What is computed is the shortest decimal.** -/
theorem isShortest_decimal (hr : Rounds r x) (h : ∃ k, Fits r x k) :
    IsShortest r x (decimal h) (digitCount h) := by
  have hfits : Fits r x (digitCount h) := Nat.find_spec h
  rw [decimal_eq]
  split_ifs with htakes
  · exact isShortest_below hr hfits.1 htakes fun _ _ ↦ fewest_digitCount hr h
  · exact isShortest_above hr hfits htakes fun _ _ ↦ fewest_digitCount hr h

/-- Two shortest decimals would be the two neighbours, both with an even last digit. -/
theorem IsShortest.not_above {d' : ℚ} (hr : Rounds r x) (hd : IsShortest r x d k)
    (hd' : IsShortest r x d' k) : ¬d < d' := by
  intro hlt
  have hdist : |x - d| = |x - d'| :=
    le_antisymm (hd.nearest d' hd'.pos hd'.hasDigits hd'.rounds)
      (hd'.nearest d hd.pos hd.hasDigits hd.rounds)
  have hdx : d ≤ x := by
    by_contra hxd
    rw [abs_sub_of_ge (not_le.mp hxd).le, abs_sub_of_ge ((not_le.mp hxd).trans hlt).le] at hdist
    linarith
  have hxd' : x < d' := by
    by_contra hd'x
    rw [abs_sub_of_le hdx, abs_sub_of_le (not_lt.mp hd'x)] at hdist
    linarith
  have hk : 1 ≤ k := hd.hasDigits.one_le hd.pos
  have hbelow : d = below x k := by
    obtain ⟨hle, hrb⟩ := hr.below_of_le hd.pos hd.hasDigits hd.rounds hdx
    have hnear := hd.nearest _ (below_pos hr.pos hk) (hasDigits_below hr.pos) hrb
    rw [abs_sub_of_le hdx, abs_sub_of_le (below_le hr.pos)] at hnear
    linarith
  have habove : d' = above x k := by
    obtain ⟨hle, hra⟩ := hr.above_of_lt hd'.hasDigits hd'.rounds hxd'
    have hnear := hd'.nearest _ (hr.pos.trans lt_above) (hasDigits_above hr.pos hk) hra
    rw [abs_sub_of_ge hxd'.le, abs_sub_of_ge lt_above.le] at hnear
    linarith
  have heven := hd.even d' hd'.pos hd'.hasDigits hd'.rounds hlt.ne' hdist.symm
  have heven' := hd'.even d hd.pos hd.hasDigits hd.rounds hlt.ne hdist
  rw [hbelow, floor_below] at heven
  rw [habove, floor_above] at heven'
  exact (Nat.even_add_one.mp heven') heven

/-- **There is only one shortest decimal.** -/
theorem IsShortest.unique {d' : ℚ} {k' : ℕ} (hr : Rounds r x) (hd : IsShortest r x d k)
    (hd' : IsShortest r x d' k') : d = d' := by
  obtain rfl : k = k' := le_antisymm (hd.fewest k' d' hd'.pos hd'.hasDigits hd'.rounds)
    (hd'.fewest k d hd.pos hd.hasDigits hd.rounds)
  exact le_antisymm (not_lt.mp (hd'.not_above hr hd)) (not_lt.mp (hd.not_above hr hd'))

/-- The shortest decimal, said without the computation. -/
theorem exists_isShortest_iff (hr : Rounds r x) (h : ∃ k, Fits r x k) :
    (∃ k, IsShortest r x d k) ↔ d = decimal h := by
  constructor
  · rintro ⟨k, hd⟩
    exact hd.unique hr (isShortest_decimal hr h)
  · rintro rfl
    exact ⟨_, isShortest_decimal hr h⟩

/-- A number that is a decimal itself has a shortest one. -/
theorem Rounds.exists_fits (hr : Rounds r x) {s : ℕ} {j : ℤ} (hx : x = s * 10 ^ j) :
    ∃ k, Fits r x k :=
  ⟨s, hr.fits_of_hasDigits hr.pos ⟨s, j, Nat.lt_pow_self (by norm_num), hx⟩ hr.fixed⟩

/-- Finitely many binary digits make finitely many decimal ones. -/
theorem exists_decimal_of_dyadic (m : ℕ) (e : ℤ) :
    ∃ (s : ℕ) (j : ℤ), (m * 2 ^ e : ℚ) = s * 10 ^ j := by
  obtain ⟨n, rfl | rfl⟩ := e.eq_nat_or_neg
  · exact ⟨m * 2 ^ n, 0, by push_cast; rw [zpow_natCast, mul_one]⟩
  · refine ⟨m * 5 ^ n, -n, ?_⟩
    push_cast
    rw [zpow_neg, zpow_neg, zpow_natCast, zpow_natCast, show (10 : ℚ) = 2 * 5 by norm_num, mul_pow]
    field_simp

end Choice

end ShortestDecimal
