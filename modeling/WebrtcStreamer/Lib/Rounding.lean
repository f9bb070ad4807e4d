import Mathlib.Algebra.Order.Round
import Mathlib.Data.Int.Log
import Mathlib.Data.Rat.Floor
import Mathlib.Tactic.FieldSimp
import Mathlib.Tactic.Linarith
import Mathlib.Tactic.Positivity

/-!
# `Lib.Rounding` — the arithmetic of binary floating point, by its rounding

An operation on floating-point numbers is the exact operation followed by one rounding, to the nearest
number of `p` significant bits and to the even one of two. Here that rounding is a function on the
non-negative rationals, so that an expression of a program is its own value with `roundTo` at each operation.
There is no largest exponent and no smallest: results that overflow or are subnormal are outside.

## Contents
- **Integers.** `nearestEven`, its monotonicity and its error.
- **`p` bits.** `unit`, `roundTo`; `roundTo_mono`, `roundTo_natCast` (what fits is exact),
  `abs_roundTo_sub_le` (half a unit) and `abs_roundTo_sub_le_mul` (relative to the number).
- **Quotients.** `ceil_roundTo_div`: the ceiling of a quotient does not notice that the quotient was rounded.
-/

namespace Rounding

/-! ## To an integer -/

/-- The nearest integer, the even one of two. -/
def nearestEven (q : ℚ) : ℤ :=
  if Int.fract q < 1 / 2 then ⌊q⌋
  else if 1 / 2 < Int.fract q then ⌊q⌋ + 1
  else if Even ⌊q⌋ then ⌊q⌋
  else ⌊q⌋ + 1

theorem nearestEven_intCast (n : ℤ) : nearestEven n = n := by
  unfold nearestEven
  rw [Int.fract_intCast, if_pos (by norm_num), Int.floor_intCast]

theorem floor_le_nearestEven (q : ℚ) : ⌊q⌋ ≤ nearestEven q := by
  unfold nearestEven
  split_ifs <;> omega

theorem nearestEven_le_floor_add_one (q : ℚ) : nearestEven q ≤ ⌊q⌋ + 1 := by
  unfold nearestEven
  split_ifs <;> omega

theorem abs_nearestEven_sub_le (q : ℚ) : |(nearestEven q : ℚ) - q| ≤ 1 / 2 := by
  have hq : q = ⌊q⌋ + Int.fract q := (Int.floor_add_fract q).symm
  have hnonneg := Int.fract_nonneg q
  have hlt := Int.fract_lt_one q
  unfold nearestEven
  rw [abs_le]
  split_ifs with hlow hhigh heven <;> push_cast <;> constructor <;> linarith

theorem nearestEven_mono {q q' : ℚ} (h : q ≤ q') : nearestEven q ≤ nearestEven q' := by
  rcases (Int.floor_mono h).lt_or_eq with hlt | heq
  · exact (nearestEven_le_floor_add_one q).trans ((Int.add_one_le_of_lt hlt).trans (floor_le_nearestEven q'))
  · -- within one unit the fractions decide
    have hfract : Int.fract q ≤ Int.fract q' := by
      rw [Int.fract, Int.fract, heq]
      linarith
    unfold nearestEven
    rw [heq]
    split_ifs <;> first | omega | (exfalso; linarith)

/-! ## To `p` bits -/

/-- The unit in the last place of `q`, when it is written with `p` bits. -/
def unit (p : ℕ) (q : ℚ) : ℚ := 2 ^ (Int.log 2 q + 1 - p)

/-- The nearest number of `p` bits, the even one of two. -/
def roundTo (p : ℕ) (q : ℚ) : ℚ := nearestEven (q / unit p q) * unit p q

theorem unit_pos (p : ℕ) (q : ℚ) : 0 < unit p q := zpow_pos (by norm_num) _

theorem unit_eq (p : ℕ) (q : ℚ) : unit p q * 2 ^ p = 2 ^ (Int.log 2 q + 1) := by
  unfold unit
  rw [← zpow_natCast, ← zpow_add₀ (by norm_num)]
  congr 1
  ring

theorem lt_two_pow_log (q : ℚ) : q < 2 ^ (Int.log 2 q + 1) := by
  simpa using Int.lt_zpow_succ_log_self (b := 2) (by norm_num) q

theorem two_pow_log_le {q : ℚ} (hq : 0 < q) : (2 : ℚ) ^ Int.log 2 q ≤ q := by
  simpa using Int.zpow_log_le_self (b := 2) (by norm_num) hq

/-- A number is less than `2 ^ p` of its units. -/
theorem div_unit_lt (p : ℕ) (q : ℚ) : q / unit p q < 2 ^ p := by
  rw [div_lt_iff₀ (unit_pos p q), mul_comm, unit_eq]
  exact lt_two_pow_log q

theorem unit_le (p : ℕ) {q : ℚ} (hq : 0 < q) : unit p q * 2 ^ p ≤ 2 * q := by
  rw [unit_eq, zpow_add₀ (by norm_num), zpow_one]
  linarith [two_pow_log_le hq]

theorem roundTo_zero (p : ℕ) : roundTo p 0 = 0 := by
  unfold roundTo
  have h : nearestEven (0 / unit p 0) = 0 := by
    rw [zero_div]
    exact_mod_cast nearestEven_intCast 0
  rw [h, Int.cast_zero, zero_mul]

theorem roundTo_nonneg (p : ℕ) {q : ℚ} (hq : 0 ≤ q) : 0 ≤ roundTo p q := by
  refine mul_nonneg ?_ (unit_pos p q).le
  have hdiv : (0 : ℚ) ≤ q / unit p q := div_nonneg hq (unit_pos p q).le
  exact_mod_cast (Int.floor_nonneg.mpr hdiv).trans (floor_le_nearestEven _)

/-- **Half a unit** is the error of a rounding. -/
theorem abs_roundTo_sub_le (p : ℕ) (q : ℚ) : |roundTo p q - q| ≤ unit p q / 2 := by
  have hu := unit_pos p q
  have herr := abs_nearestEven_sub_le (q / unit p q)
  have hmul : roundTo p q - q = (nearestEven (q / unit p q) - q / unit p q) * unit p q := by
    rw [sub_mul, div_mul_cancel₀ _ hu.ne']
    rfl
  rw [hmul, abs_mul, abs_of_pos hu]
  calc |(nearestEven (q / unit p q) : ℚ) - q / unit p q| * unit p q
      ≤ 1 / 2 * unit p q := mul_le_mul_of_nonneg_right herr hu.le
    _ = unit p q / 2 := by ring

/-- The error relative to the number. -/
theorem abs_roundTo_sub_le_mul (p : ℕ) {q : ℚ} (hq : 0 ≤ q) : |roundTo p q - q| * 2 ^ p ≤ q := by
  rcases hq.eq_or_lt with rfl | hq
  · rw [roundTo_zero]
    simp
  · have herr := abs_roundTo_sub_le p q
    have hunit := unit_le p hq
    have hpow : (0 : ℚ) < 2 ^ p := by positivity
    calc |roundTo p q - q| * 2 ^ p ≤ unit p q / 2 * 2 ^ p := mul_le_mul_of_nonneg_right herr hpow.le
      _ ≤ q := by linarith

/-- A number that is a whole number of its units is its own rounding. -/
theorem roundTo_eq_self {p : ℕ} {q : ℚ} {n : ℤ} (h : q = n * unit p q) : roundTo p q = q := by
  have hdiv : q / unit p q = n := by
    rw [div_eq_iff (unit_pos p q).ne']
    exact h
  unfold roundTo
  rw [hdiv, nearestEven_intCast]
  exact h.symm

/-- A power of two has one bit. -/
theorem roundTo_two_zpow {p : ℕ} (hp : 0 < p) (k : ℤ) : roundTo p (2 ^ k) = 2 ^ k := by
  have hlog : Int.log 2 ((2 : ℚ) ^ k) = k := by simpa using Int.log_zpow (R := ℚ) (b := 2) (by norm_num) k
  refine roundTo_eq_self (n := 2 ^ (p - 1)) ?_
  unfold unit
  rw [hlog]
  push_cast
  rw [← zpow_natCast, ← zpow_add₀ (by norm_num)]
  congr 1
  omega

/-- Within a binade the roundings are those of the integers. -/
theorem roundTo_mono_of_log_eq (p : ℕ) {q q' : ℚ} (h : q ≤ q') (hlog : Int.log 2 q = Int.log 2 q') :
    roundTo p q ≤ roundTo p q' := by
  have hunit : unit p q = unit p q' := by rw [unit, unit, hlog]
  unfold roundTo
  rw [hunit]
  refine mul_le_mul_of_nonneg_right ?_ (unit_pos p q').le
  exact_mod_cast nearestEven_mono (div_le_div_of_nonneg_right h (unit_pos p q').le)

/-- The rounding of a number stays in its binade, or is the power of two at its end. -/
theorem roundTo_le_two_zpow (p : ℕ) (q : ℚ) : roundTo p q ≤ 2 ^ (Int.log 2 q + 1) := by
  rw [← unit_eq p q, mul_comm]
  refine mul_le_mul_of_nonneg_right ?_ (unit_pos p q).le
  have hpow : (2 : ℚ) ^ p = ((2 ^ p : ℤ) : ℚ) := by push_cast; rfl
  rw [hpow]
  have hle := nearestEven_mono (div_unit_lt p q).le
  rw [hpow, nearestEven_intCast] at hle
  exact_mod_cast hle

theorem two_zpow_le_roundTo {p : ℕ} (hp : 0 < p) {q : ℚ} (hq : 0 < q) :
    (2 : ℚ) ^ Int.log 2 q ≤ roundTo p q := by
  have hlog : Int.log 2 ((2 : ℚ) ^ Int.log 2 q) = Int.log 2 q := by
    simpa using Int.log_zpow (R := ℚ) (b := 2) (by norm_num) (Int.log 2 q)
  calc (2 : ℚ) ^ Int.log 2 q = roundTo p (2 ^ Int.log 2 q) := (roundTo_two_zpow hp _).symm
    _ ≤ roundTo p q := roundTo_mono_of_log_eq p (two_pow_log_le hq) hlog

/-- **Rounding is monotone.** -/
theorem roundTo_mono {p : ℕ} (hp : 0 < p) {q q' : ℚ} (hq : 0 ≤ q) (h : q ≤ q') :
    roundTo p q ≤ roundTo p q' := by
  rcases hq.eq_or_lt with rfl | hq
  · rw [roundTo_zero]
    exact roundTo_nonneg p h
  · rcases (Int.log_mono_right (b := 2) hq h).lt_or_eq with hlt | heq
    · -- a binade apart: the power of two between them
      calc roundTo p q ≤ 2 ^ (Int.log 2 q + 1) := roundTo_le_two_zpow p q
        _ ≤ 2 ^ Int.log 2 q' := zpow_le_zpow_right₀ (by norm_num) hlt
        _ ≤ roundTo p q' := two_zpow_le_roundTo hp (hq.trans_le h)
    · exact roundTo_mono_of_log_eq p h heq

/-- **What fits is exact.** -/
theorem roundTo_natCast {p : ℕ} (hp : 0 < p) {n : ℕ} (h : n ≤ 2 ^ p) : roundTo p n = n := by
  rcases Nat.eq_zero_or_pos n with rfl | hpos
  · exact_mod_cast roundTo_zero p
  · rcases h.lt_or_eq with hlt | rfl
    · -- no digit after the point is needed: the unit divides one
      have hlog : Int.log 2 (n : ℚ) < p := by
        rw [← Int.lt_zpow_iff_log_lt (by norm_num) (by exact_mod_cast hpos)]
        exact_mod_cast hlt
      obtain ⟨k, hk⟩ := Int.eq_ofNat_of_zero_le (a := p - 1 - Int.log 2 (n : ℚ)) (by omega)
      refine roundTo_eq_self (n := n * 2 ^ k) ?_
      have hzero : (k : ℤ) + (Int.log 2 (n : ℚ) + 1 - p) = 0 := by omega
      unfold unit
      push_cast
      rw [mul_assoc, ← zpow_natCast, ← zpow_add₀ (by norm_num), hzero, zpow_zero, mul_one]
    · exact_mod_cast roundTo_two_zpow hp p

/-! ## Quotients -/

/-- **A rounded quotient has the same ceiling**, when the dividend fits. -/
theorem ceil_roundTo_div {p : ℕ} (hp : 0 < p) {a : ℕ} (ha : a < 2 ^ p) (b : ℕ) :
    ⌈roundTo p (a / b)⌉₊ = ⌈(a / b : ℚ)⌉₊ := by
  rcases Nat.eq_zero_or_pos b with rfl | hb
  · rw [Nat.cast_zero, div_zero, roundTo_zero]
  · have hbq : (0 : ℚ) < b := by exact_mod_cast hb
    have hq : (0 : ℚ) ≤ a / b := by positivity
    have hle : ⌈(a / b : ℚ)⌉₊ ≤ a := by
      rw [Nat.ceil_le, div_le_iff₀ hbq]
      exact_mod_cast Nat.le_mul_of_pos_right a hb
    apply le_antisymm
    · -- the ceiling itself fits
      rw [Nat.ceil_le]
      calc roundTo p (a / b) ≤ roundTo p ⌈(a / b : ℚ)⌉₊ := roundTo_mono hp hq (Nat.le_ceil _)
        _ = ⌈(a / b : ℚ)⌉₊ := roundTo_natCast hp (hle.trans ha.le)
    · -- the error is less than the distance `1 / b` to the next integer below
      by_contra hlt
      rw [not_le, Nat.lt_ceil, lt_div_iff₀ hbq] at hlt
      have hstep : ⌈roundTo p (a / b)⌉₊ * b + 1 ≤ a := by exact_mod_cast hlt
      have hbelow : roundTo p (a / b) ≤ ⌈roundTo p (a / b)⌉₊ := Nat.le_ceil _
      have herr := abs_roundTo_sub_le_mul p hq
      have hneg := neg_abs_le (roundTo p (a / b) - a / b)
      have hpow : (a : ℚ) < 2 ^ p := by exact_mod_cast ha
      have hstep' : ((⌈roundTo p (a / b)⌉₊ : ℚ) * b + 1) ≤ a := by exact_mod_cast hstep
      have hquot : (a / b : ℚ) * b = a := div_mul_cancel₀ _ hbq.ne'
      have hdist : 1 ≤ |roundTo p (a / b) - a / b| * b := by nlinarith
      have hover : (a : ℚ) < a := by
        calc (a : ℚ) < 2 ^ p := hpow
          _ ≤ |roundTo p (a / b) - a / b| * b * 2 ^ p := le_mul_of_one_le_left (by positivity) hdist
          _ = |roundTo p (a / b) - a / b| * 2 ^ p * b := by ring
          _ ≤ (a / b : ℚ) * b := mul_le_mul_of_nonneg_right herr hbq.le
          _ = a := hquot
      exact absurd hover (lt_irrefl _)

end Rounding
