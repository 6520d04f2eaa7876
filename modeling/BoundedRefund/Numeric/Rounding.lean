import Mathlib.Data.Int.Log
import Mathlib.Data.Rat.Floor

/-!
# Rounding to a binary floating-point format

The value of a correctly rounded floating-point operation is the exact rational
result rounded to the nearest number with `p` significant binary digits, ties to
the one with the even last digit.  `roundBinary p` is that rounding for numbers
inside the exponent range, so an arithmetic expression over floats can be read as
an expression over `ℚ` with one rounding for each operation.
-/

namespace Numeric

/-- The nearest integer, ties to the even one. -/
def roundHalfEven (x : ℚ) : ℤ :=
  if x - ⌊x⌋ < 1 / 2 then ⌊x⌋
  else if 1 / 2 < x - ⌊x⌋ then ⌊x⌋ + 1
  else if ⌊x⌋ % 2 = 0 then ⌊x⌋
  else ⌊x⌋ + 1

/-- The exponent of the last of the `p` significant binary digits of `x`. -/
def lastPlace (p : ℕ) (x : ℚ) : ℤ :=
  Int.log 2 |x| - (p - 1)

/-- The nearest number with `p` significant binary digits, ties to even. -/
def roundBinary (p : ℕ) (x : ℚ) : ℚ :=
  if x = 0 then 0
  else roundHalfEven (x / 2 ^ lastPlace p x) * 2 ^ lastPlace p x

/-- The IEEE double nearest to `x`. -/
def roundDouble (x : ℚ) : ℚ := roundBinary 53 x

/-! ## Rounding to an integer -/

/-- Rounding moves to one of the two neighbours, the nearer one. -/
theorem roundHalfEven_cases (x : ℚ) :
    (roundHalfEven x = ⌊x⌋ ∧ x - ⌊x⌋ ≤ 1 / 2) ∨
      (roundHalfEven x = ⌊x⌋ + 1 ∧ 1 / 2 ≤ x - ⌊x⌋) := by
  unfold roundHalfEven
  split_ifs with h₁ h₂ h₃
  · exact .inl ⟨rfl, h₁.le⟩
  · exact .inr ⟨rfl, h₂.le⟩
  · exact .inl ⟨rfl, not_lt.mp h₂⟩
  · exact .inr ⟨rfl, not_lt.mp h₁⟩

/-- An integer is not rounded. -/
@[simp] theorem roundHalfEven_intCast (n : ℤ) : roundHalfEven n = n := by
  simp [roundHalfEven]

/-- Rounding keeps the order. -/
theorem roundHalfEven_mono {x y : ℚ} (hxy : x ≤ y) : roundHalfEven x ≤ roundHalfEven y := by
  rcases (Int.floor_le_floor hxy).eq_or_lt with hfloor | hfloor
  · -- between the same two integers, only the distance to the lower one decides
    unfold roundHalfEven
    rw [← hfloor]
    split_ifs <;> first | omega | linarith
  · have hx : roundHalfEven x ≤ ⌊x⌋ + 1 := by
      rcases roundHalfEven_cases x with ⟨h, -⟩ | ⟨h, -⟩ <;> omega
    have hy : ⌊y⌋ ≤ roundHalfEven y := by
      rcases roundHalfEven_cases y with ⟨h, -⟩ | ⟨h, -⟩ <;> omega
    omega

/-! ## Rounding to `p` binary digits

Inside one binade the grid is fixed and rounding is monotone because rounding to an
integer is; a binade is closed under rounding, its upper end included, so binades
stay in order. -/

/-- What is above a grid point stays above it. -/
theorem le_round_scaled {n e : ℤ} {x : ℚ} (h : n * 2 ^ e ≤ x) :
    n * 2 ^ e ≤ (roundHalfEven (x / 2 ^ e) : ℚ) * 2 ^ e := by
  have hpos : (0 : ℚ) < 2 ^ e := zpow_pos (by norm_num) e
  have hround : n ≤ roundHalfEven (x / 2 ^ e) := by
    simpa using roundHalfEven_mono ((le_div_iff₀ hpos).mpr h)
  exact mul_le_mul_of_nonneg_right (by exact_mod_cast hround) hpos.le

/-- What is below a grid point stays below it. -/
theorem round_scaled_le {n e : ℤ} {x : ℚ} (h : x ≤ n * 2 ^ e) :
    (roundHalfEven (x / 2 ^ e) : ℚ) * 2 ^ e ≤ n * 2 ^ e := by
  have hpos : (0 : ℚ) < 2 ^ e := zpow_pos (by norm_num) e
  have hround : roundHalfEven (x / 2 ^ e) ≤ n := by
    simpa using roundHalfEven_mono ((div_le_iff₀ hpos).mpr h)
  exact mul_le_mul_of_nonneg_right (by exact_mod_cast hround) hpos.le

variable {p : ℕ} {x y : ℚ}

/-- The ends of a binade, on the grid of its last place. -/
theorem binade_lower (hp : 0 < p) (x : ℚ) :
    ((2 ^ (p - 1) : ℤ) : ℚ) * 2 ^ lastPlace p x = 2 ^ Int.log 2 |x| := by
  push_cast
  rw [← zpow_natCast, ← zpow_add₀ (by norm_num : (2 : ℚ) ≠ 0)]
  congr 1
  simp only [lastPlace]
  omega

/-- The largest number of a binade is a grid point. -/
theorem binade_upper (p : ℕ) (x : ℚ) :
    ((2 ^ p : ℤ) : ℚ) * 2 ^ lastPlace p x = 2 ^ (Int.log 2 |x| + 1) := by
  push_cast
  rw [← zpow_natCast, ← zpow_add₀ (by norm_num : (2 : ℚ) ≠ 0)]
  congr 1
  simp only [lastPlace]
  omega

/-- A number is rounded to a multiple of its last place. -/
theorem roundBinary_of_ne (hx : x ≠ 0) :
    roundBinary p x = roundHalfEven (x / 2 ^ lastPlace p x) * 2 ^ lastPlace p x := by
  simp [roundBinary, hx]

/-- A positive number is rounded inside its binade. -/
theorem roundBinary_pos_bounds (hp : 0 < p) (hx : 0 < x) :
    2 ^ Int.log 2 |x| ≤ roundBinary p x ∧ roundBinary p x ≤ 2 ^ (Int.log 2 |x| + 1) := by
  have hlow : (2 : ℚ) ^ Int.log 2 |x| ≤ x := by
    simpa [abs_of_pos hx] using Int.zpow_log_le_self (b := 2) (by norm_num) hx
  have hhigh : x ≤ (2 : ℚ) ^ (Int.log 2 |x| + 1) := by
    simpa [abs_of_pos hx] using (Int.lt_zpow_succ_log_self (b := 2) (by norm_num) x).le
  rw [roundBinary_of_ne hx.ne', ← binade_lower hp x, ← binade_upper p x]
  rw [← binade_lower hp x] at hlow
  rw [← binade_upper p x] at hhigh
  exact ⟨le_round_scaled hlow, round_scaled_le hhigh⟩

/-- A negative number is rounded inside its binade. -/
theorem roundBinary_neg_bounds (hp : 0 < p) (hx : x < 0) :
    -2 ^ (Int.log 2 |x| + 1) ≤ roundBinary p x ∧ roundBinary p x ≤ -2 ^ Int.log 2 |x| := by
  have hlow : (2 : ℚ) ^ Int.log 2 |x| ≤ |x| := by
    simpa using Int.zpow_log_le_self (b := 2) (by norm_num) (abs_pos.mpr hx.ne)
  have hhigh : |x| ≤ (2 : ℚ) ^ (Int.log 2 |x| + 1) := by
    simpa using (Int.lt_zpow_succ_log_self (b := 2) (by norm_num) |x|).le
  rw [roundBinary_of_ne hx.ne, ← binade_lower hp x, ← binade_upper p x]
  rw [← binade_lower hp x] at hlow
  rw [← binade_upper p x] at hhigh
  have habs : |x| = -x := abs_of_neg hx
  constructor
  · have hround := le_round_scaled (n := -2 ^ p) (e := lastPlace p x) (x := x)
      (by push_cast at hhigh ⊢; linarith)
    push_cast at hround ⊢
    linarith
  · have hround := round_scaled_le (n := -2 ^ (p - 1)) (e := lastPlace p x) (x := x)
      (by push_cast at hlow ⊢; linarith)
    push_cast at hround ⊢
    linarith

/-- Inside one binade the grid does not change. -/
theorem roundBinary_le_of_log_eq (hx : x ≠ 0) (hy : y ≠ 0) (hxy : x ≤ y)
    (hlog : Int.log 2 |x| = Int.log 2 |y|) : roundBinary p x ≤ roundBinary p y := by
  have hplace : lastPlace p x = lastPlace p y := by simp [lastPlace, hlog]
  have hpos : (0 : ℚ) < 2 ^ lastPlace p y := zpow_pos (by norm_num) _
  rw [roundBinary_of_ne hx, roundBinary_of_ne hy, hplace]
  have hround : roundHalfEven (x / 2 ^ lastPlace p y) ≤ roundHalfEven (y / 2 ^ lastPlace p y) :=
    roundHalfEven_mono (div_le_div_of_nonneg_right hxy hpos.le)
  exact mul_le_mul_of_nonneg_right (by exact_mod_cast hround) hpos.le

/-- **Rounding is monotone.** -/
theorem roundBinary_mono (hp : 0 < p) : Monotone (roundBinary p) := by
  have hpow : ∀ {m n : ℤ}, m ≤ n → (2 : ℚ) ^ m ≤ 2 ^ n := fun h =>
    zpow_le_zpow_right₀ (by norm_num) h
  have hnonneg : ∀ n : ℤ, (0 : ℚ) ≤ 2 ^ n := fun n => (zpow_pos (by norm_num) n).le
  intro x y hxy
  rcases lt_trichotomy x 0 with hx | rfl | hx
  · have hxr := roundBinary_neg_bounds hp hx
    rcases lt_trichotomy y 0 with hy | rfl | hy
    · -- the binade of `y` is that of `x` or nearer to zero
      have hlog : Int.log 2 |y| ≤ Int.log 2 |x| := by
        refine Int.log_mono_right (abs_pos.mpr hy.ne) ?_
        rw [abs_of_neg hx, abs_of_neg hy]
        linarith
      rcases hlog.eq_or_lt with heq | hlt
      · exact roundBinary_le_of_log_eq hx.ne hy.ne hxy heq.symm
      · have hyr := roundBinary_neg_bounds hp hy
        exact hxr.2.trans ((neg_le_neg (hpow hlt)).trans hyr.1)
    · have := hnonneg (Int.log 2 |x|)
      simp only [roundBinary, if_true] at *
      linarith
    · have hyr := roundBinary_pos_bounds hp hy
      have := hnonneg (Int.log 2 |x|)
      have := hnonneg (Int.log 2 |y|)
      linarith
  · rcases hxy.eq_or_lt with rfl | hy
    · exact le_refl _
    · have hyr := roundBinary_pos_bounds hp hy
      have := hnonneg (Int.log 2 |y|)
      have hzero : roundBinary p 0 = 0 := by simp [roundBinary]
      linarith
  · have hy : 0 < y := hx.trans_le hxy
    have hlog : Int.log 2 |x| ≤ Int.log 2 |y| := by
      refine Int.log_mono_right (abs_pos.mpr hx.ne') ?_
      rwa [abs_of_pos hx, abs_of_pos hy]
    rcases hlog.eq_or_lt with heq | hlt
    · exact roundBinary_le_of_log_eq hx.ne' hy.ne' hxy heq
    · exact (roundBinary_pos_bounds hp hx).2.trans
        ((hpow hlt).trans (roundBinary_pos_bounds hp hy).1)

/-- A number with at most `p` binary digits is its own rounding. -/
theorem roundBinary_of_representable {n e : ℤ} (hn : |n| < 2 ^ p) :
    roundBinary p (n * 2 ^ e) = n * 2 ^ e := by
  rcases eq_or_ne n 0 with rfl | hne
  · simp [roundBinary]
  have hx : (n : ℚ) * 2 ^ e ≠ 0 :=
    mul_ne_zero (by exact_mod_cast hne) (zpow_ne_zero _ (by norm_num))
  -- the last place is no coarser than `2 ^ e`
  have hplace : lastPlace p ((n : ℚ) * 2 ^ e) ≤ e := by
    have hlt : |(n : ℚ) * 2 ^ e| < ((2 : ℕ) : ℚ) ^ (p + e) := by
      rw [abs_mul, abs_of_pos (zpow_pos (by norm_num : (0 : ℚ) < 2) e), Nat.cast_ofNat,
        zpow_add₀ (by norm_num : (2 : ℚ) ≠ 0), zpow_natCast]
      exact mul_lt_mul_of_pos_right (by exact_mod_cast hn) (zpow_pos (by norm_num) e)
    have := (Int.lt_zpow_iff_log_lt (by norm_num) (abs_pos.mpr hx)).mp hlt
    simp only [lastPlace]
    omega
  have hscaled : (n : ℚ) * 2 ^ e / 2 ^ lastPlace p ((n : ℚ) * 2 ^ e) =
      ((n * 2 ^ (e - lastPlace p ((n : ℚ) * 2 ^ e)).toNat : ℤ) : ℚ) := by
    push_cast
    rw [← zpow_natCast, Int.toNat_of_nonneg (by omega), mul_div_assoc,
      ← zpow_sub₀ (by norm_num : (2 : ℚ) ≠ 0)]
  rw [roundBinary_of_ne hx, hscaled, roundHalfEven_intCast, ← hscaled,
    div_mul_cancel₀ _ (zpow_ne_zero _ (by norm_num))]

/-- Doubles keep the order. -/
theorem roundDouble_mono : Monotone roundDouble := roundBinary_mono (by norm_num)

/-! ## Arithmetic that rounds -/

/-- Results are rounded, numbers with at most `p` binary digits excepted. -/
structure Arithmetic (p : ℕ) where
  round : ℚ → ℚ
  mono : Monotone round
  fixes : ∀ {n e : ℤ}, |n| < 2 ^ p → round (n * 2 ^ e) = n * 2 ^ e

namespace Arithmetic

/-- The arithmetic of IEEE doubles. -/
def double : Arithmetic 53 where
  round := roundDouble
  mono := roundDouble_mono
  fixes := roundBinary_of_representable

variable {p : ℕ} (arith : Arithmetic p)

/-- A number rounded to `k` decimals, ties to even. -/
def roundDecimals (k : ℕ) (x : ℚ) : ℚ :=
  arith.round (roundHalfEven (x * 10 ^ k) / 10 ^ k)

/-- A short binary fraction is not rounded. -/
theorem round_dyadic {n : ℤ} (hn : |n| < 2 ^ p) (e : ℕ) :
    arith.round (n / 2 ^ e) = n / 2 ^ e := by
  have hfix := arith.fixes (n := n) (e := -e) hn
  rwa [zpow_neg, zpow_natCast, ← div_eq_mul_inv] at hfix

/-- What does not exceed a number of the format is not rounded beyond it. -/
theorem round_le {x : ℚ} {n : ℤ} {e : ℕ} (hn : |n| < 2 ^ p) (h : x ≤ n / 2 ^ e) :
    arith.round x ≤ n / 2 ^ e :=
  (arith.mono h).trans_eq (arith.round_dyadic hn e)

/-- What is above a short binary fraction stays above it. -/
theorem le_round {x : ℚ} {n : ℤ} {e : ℕ} (hn : |n| < 2 ^ p) (h : n / 2 ^ e ≤ x) :
    n / 2 ^ e ≤ arith.round x :=
  (arith.round_dyadic hn e).symm.trans_le (arith.mono h)

/-- Rounding to decimals keeps the order. -/
theorem roundDecimals_mono (k : ℕ) : Monotone (arith.roundDecimals k) := by
  intro x y hxy
  have hpos : (0 : ℚ) < 10 ^ k := by positivity
  have hround : roundHalfEven (x * 10 ^ k) ≤ roundHalfEven (y * 10 ^ k) :=
    roundHalfEven_mono (mul_le_mul_of_nonneg_right hxy hpos.le)
  exact arith.mono (div_le_div_of_nonneg_right (by exact_mod_cast hround) hpos.le)

end Arithmetic

end Numeric
