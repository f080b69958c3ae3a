import Mathlib.Algebra.Order.Floor.Ring
import Mathlib.Data.Int.Log
import Mathlib.Tactic.FieldSimp
import Mathlib.Tactic.Linarith
import Mathlib.Tactic.NormNum
import Mathlib.Tactic.Positivity
import Mathlib.Tactic.Ring

/-!
# Rounding to a significand

A number is rounded to a binary significand of `p` digits: to the nearest such number, and of two
that are equally near to the one with the even significand. The exponent has no bounds, so the
rounding of a format with bounded exponents is this one for as long as no number leaves its normal
range.

An algorithm takes its rounding as a parameter through which every result of its arithmetic passes.
With `id` it is the algorithm over exact numbers.

## Main definitions

* `nearestEven`: the nearest integer, on a tie the even one.
* `spacing`, `roundTo`: the distance of the numbers around a number, and its rounding.
* `InBinades`: zero, or a magnitude between two powers of two.

## Main results

* `roundTo_mono`, `roundTo_eq_self`, `abs_roundTo_sub_le`: order, exact values and the error.
* `roundTo_lt_iff`: which numbers are rounded to less than a given one.
-/

variable {K : Type*} [Field K] [LinearOrder K] [IsStrictOrderedRing K] {p : ℕ} {m n e : ℤ}
  {x y : K}

/-! ## Powers of two -/

/-- Zero, or a magnitude between two powers of two. -/
def InBinades (k : ℕ) (x : K) : Prop := x = 0 ∨ (2 : K) ^ (-k : ℤ) ≤ |x| ∧ |x| ≤ 2 ^ (k : ℤ)

namespace InBinades
variable {k l : ℕ}

theorem mono (hx : InBinades k x) (h : k ≤ l) : InBinades l x := by
  refine hx.imp_right fun ⟨hlow, hhigh⟩ => ⟨?_, ?_⟩
  · exact (zpow_le_zpow_right₀ one_le_two (by omega)).trans hlow
  · exact hhigh.trans (zpow_le_zpow_right₀ one_le_two (by omega))

theorem abs_le (hx : InBinades k x) : |x| ≤ 2 ^ k := by
  rcases hx with rfl | ⟨-, hle⟩
  · rw [abs_zero]
    positivity
  · rwa [zpow_natCast] at hle

theorem intCast (h : |n| ≤ 2 ^ k) : InBinades k (n : K) := by
  rcases eq_or_ne n 0 with rfl | hne
  · exact .inl Int.cast_zero
  refine .inr ⟨?_, ?_⟩
  · have hone : (1 : K) ≤ |(n : K)| := by exact_mod_cast Int.one_le_abs hne
    exact (zpow_le_one_of_nonpos₀ one_le_two (by omega)).trans hone
  · rw [zpow_natCast]
    exact_mod_cast h

theorem mul (hx : InBinades k x) (hy : InBinades l y) : InBinades (k + l) (x * y) := by
  rcases hx with rfl | ⟨hxlow, hxhigh⟩
  · exact .inl (zero_mul y)
  rcases hy with rfl | ⟨hylow, hyhigh⟩
  · exact .inl (mul_zero x)
  refine .inr ⟨?_, ?_⟩
  · have hsplit : (-(k + l : ℕ) : ℤ) = -k + -l := by
      push_cast
      ring
    rw [abs_mul, hsplit, zpow_add₀ two_ne_zero]
    exact mul_le_mul hxlow hylow (zpow_pos two_pos _).le (abs_nonneg x)
  · rw [abs_mul, Nat.cast_add, zpow_add₀ two_ne_zero]
    exact mul_le_mul hxhigh hyhigh (abs_nonneg y) (zpow_pos two_pos _).le

theorem inv (hx : InBinades k x) : InBinades k x⁻¹ := by
  rcases hx with rfl | ⟨hlow, hhigh⟩
  · exact .inl inv_zero
  have hpos : 0 < |x| := (zpow_pos two_pos _).trans_le hlow
  refine .inr ⟨?_, ?_⟩
  · rw [abs_inv, zpow_neg]
    exact inv_anti₀ hpos hhigh
  · rw [abs_inv, ← inv_inv ((2 : K) ^ (k : ℤ)), ← zpow_neg]
    exact inv_anti₀ (zpow_pos two_pos _) hlow

theorem div (hx : InBinades k x) (hy : InBinades l y) : InBinades (k + l) (x / y) := by
  rw [div_eq_mul_inv]
  exact hx.mul hy.inv

end InBinades

variable [FloorRing K]

/-! ## The nearest integer -/

/-- The nearest integer, and of two that are equally near the even one. -/
def nearestEven (x : K) : ℤ :=
  if Int.fract x < 1 / 2 ∨ Int.fract x = 1 / 2 ∧ Even ⌊x⌋ then ⌊x⌋ else ⌊x⌋ + 1

/-- No integer is nearer, and no even one is as near as an odd one. -/
structure IsNearest (x : K) (n : ℤ) : Prop where
  low : n - 1 / 2 ≤ x
  high : x ≤ n + 1 / 2
  tie : x = n - 1 / 2 ∨ x = n + 1 / 2 → Even n

theorem isNearest_nearestEven (x : K) : IsNearest x (nearestEven x) := by
  have hsplit := Int.floor_add_fract x
  have hlow := Int.fract_nonneg x
  have hhigh := Int.fract_lt_one x
  unfold nearestEven
  split_ifs with hdown
  · refine ⟨by linarith, ?_, ?_⟩
    · rcases hdown with hlt | ⟨heq, -⟩ <;> linarith
    · rintro (h | h)
      · linarith
      · rcases hdown with hlt | ⟨-, heven⟩
        · linarith
        · exact heven
  · rw [not_or, not_lt, not_and] at hdown
    obtain ⟨hup, hodd⟩ := hdown
    refine ⟨by push_cast; linarith, by push_cast; linarith, ?_⟩
    push_cast
    rintro (h | h)
    · exact Int.even_add_one.mpr (hodd (by linarith))
    · linarith

/-- Nearest integers are in the order of the numbers. -/
theorem IsNearest.le (hm : IsNearest x m) (hn : IsNearest y n) (h : x ≤ y) : m ≤ n := by
  by_contra hlt
  rw [not_le, ← Int.add_one_le_iff] at hlt
  have hcast : (n : K) + 1 ≤ m := by exact_mod_cast hlt
  have hlow := hm.low
  have hhigh := hn.high
  have heq : m = n + 1 := le_antisymm (by
    have hle : (m : K) ≤ n + 1 := by linarith
    exact_mod_cast hle) hlt
  have hmeven : Even m := hm.tie (.inl (by linarith))
  have hneven : Even n := hn.tie (.inr (by linarith))
  rw [heq, Int.even_add_one] at hmeven
  exact hmeven hneven

theorem IsNearest.eq (h : IsNearest x n) : nearestEven x = n :=
  le_antisymm ((isNearest_nearestEven x).le h le_rfl) (h.le (isNearest_nearestEven x) le_rfl)

theorem nearestEven_mono (h : x ≤ y) : nearestEven x ≤ nearestEven y :=
  (isNearest_nearestEven x).le (isNearest_nearestEven y) h

@[simp] theorem nearestEven_intCast (n : ℤ) : nearestEven (n : K) = n := by
  refine IsNearest.eq ⟨by linarith, by linarith, ?_⟩
  rintro (h | h) <;> linarith

@[simp] theorem nearestEven_neg (x : K) : nearestEven (-x) = -nearestEven x := by
  obtain ⟨hlow, hhigh, htie⟩ := isNearest_nearestEven x
  refine IsNearest.eq ⟨?_, ?_, ?_⟩
  · push_cast
    linarith
  · push_cast
    linarith
  · push_cast
    rintro (h | h)
    · exact (htie (.inr (by linarith))).neg
    · exact (htie (.inl (by linarith))).neg

theorem abs_nearestEven_sub_le (x : K) : |(nearestEven x : K) - x| ≤ 1 / 2 := by
  obtain ⟨hlow, hhigh, -⟩ := isNearest_nearestEven x
  rw [abs_le]
  constructor <;> linarith

/-- A tie below an even integer is rounded to it. -/
theorem nearestEven_lt_iff (hn : Even n) : nearestEven x < n ↔ x < n - 1 / 2 := by
  obtain ⟨hlow, hhigh, htie⟩ := isNearest_nearestEven x
  constructor
  · intro h
    have hle : (nearestEven x : K) + 1 ≤ n := by exact_mod_cast h
    refine lt_of_le_of_ne (by linarith) fun heq => ?_
    have hnext : (nearestEven x : K) + 1 = n := by linarith
    have hnext : nearestEven x + 1 = n := by exact_mod_cast hnext
    rw [← hnext, Int.even_add_one] at hn
    exact hn (htie (.inr (by linarith)))
  · intro h
    have hlt : (nearestEven x : K) < n := by linarith
    exact_mod_cast hlt

/-! ## Rounding -/

/-- The distance of the numbers with `p` digits around a number. -/
def spacing (p : ℕ) (x : K) : K := 2 ^ (Int.log 2 |x| + 1 - p)

/-- The nearest number with `p` digits, and of two that are equally near the one with an even
significand. -/
def roundTo (p : ℕ) (x : K) : K := nearestEven (x / spacing p x) * spacing p x

theorem spacing_pos (p : ℕ) (x : K) : 0 < spacing p x := zpow_pos two_pos _

@[simp] theorem roundTo_zero (p : ℕ) : roundTo p (0 : K) = 0 := by
  rw [roundTo, zero_div, ← Int.cast_zero, nearestEven_intCast, Int.cast_zero, zero_mul]

@[simp] theorem roundTo_neg (p : ℕ) (x : K) : roundTo p (-x) = -roundTo p x := by
  rw [roundTo, roundTo, spacing, abs_neg, ← spacing, neg_div, nearestEven_neg, Int.cast_neg,
    neg_mul]

theorem two_zpow_log_le (hx : 0 < x) : (2 : K) ^ Int.log 2 x ≤ x := by
  exact_mod_cast Int.zpow_log_le_self (R := K) (b := 2) (by norm_num) hx

theorem lt_two_zpow_log (x : K) : x < (2 : K) ^ (Int.log 2 x + 1) := by
  exact_mod_cast Int.lt_zpow_succ_log_self (R := K) (b := 2) (by norm_num) x

/-- The exponent of a number is that of the powers of two around it. -/
theorem log_eq (hlow : (2 : K) ^ e ≤ x) (hhigh : x < 2 ^ (e + 1)) : Int.log 2 x = e := by
  have hpos : 0 < x := (zpow_pos two_pos e).trans_le hlow
  have hle : e ≤ Int.log 2 x := by
    rw [← Int.zpow_le_iff_le_log (by norm_num) hpos]
    exact_mod_cast hlow
  have hlt : Int.log 2 x < e + 1 := by
    rw [← Int.lt_zpow_iff_log_lt (by norm_num) hpos]
    exact_mod_cast hhigh
  omega

/-- A number with at most `p` digits is its own rounding. -/
theorem roundTo_eq_self (hm : |m| < 2 ^ p) (hx : x = m * 2 ^ e) : roundTo p x = x := by
  rcases eq_or_ne x 0 with rfl | hne
  · exact roundTo_zero p
  have hlt : |x| < 2 ^ (e + p) := by
    have hpos : (0 : K) < 2 ^ e := zpow_pos two_pos e
    rw [hx, abs_mul, abs_of_pos hpos, zpow_add₀ two_ne_zero, mul_comm, zpow_natCast]
    refine mul_lt_mul_of_pos_left ?_ hpos
    exact_mod_cast hm
  have hlog : Int.log 2 |x| + 1 - p ≤ e := by
    have hexp : Int.log 2 |x| < e + p := by
      rw [← Int.lt_zpow_iff_log_lt (by norm_num) (abs_pos.mpr hne)]
      exact_mod_cast hlt
    omega
  obtain ⟨d, hd⟩ := Int.eq_ofNat_of_zero_le (sub_nonneg.mpr hlog)
  have hmul : x / spacing p x = (m * 2 ^ d : ℤ) := by
    have he : e = (Int.log 2 |x| + 1 - p) + d := by omega
    have hsplit : (2 : K) ^ e = spacing p x * 2 ^ d := by
      rw [spacing, ← zpow_natCast, ← zpow_add₀ two_ne_zero]
      exact congrArg _ he
    rw [div_eq_iff (spacing_pos p x).ne']
    push_cast
    calc x = m * (spacing p x * 2 ^ d) := by rw [← hsplit, ← hx]
      _ = m * 2 ^ d * spacing p x := by ring
  rw [roundTo, hmul, nearestEven_intCast, ← hmul, div_mul_cancel₀ _ (spacing_pos p x).ne']

theorem roundTo_intCast (h : |n| < 2 ^ p) : roundTo p (n : K) = n :=
  roundTo_eq_self (e := 0) h (by simp)

/-- The error is at most half the spacing. -/
theorem abs_roundTo_sub_le_spacing (p : ℕ) (x : K) : |roundTo p x - x| ≤ spacing p x / 2 := by
  have hpos := spacing_pos p x
  have herror : roundTo p x - x =
      (nearestEven (x / spacing p x) - x / spacing p x) * spacing p x := by
    rw [sub_mul, div_mul_cancel₀ _ hpos.ne', roundTo]
  rw [herror, abs_mul, abs_of_pos hpos]
  have hle := mul_le_mul_of_nonneg_right (abs_nearestEven_sub_le (x / spacing p x)) hpos.le
  linarith

/-- The error is at most that of the last digit. -/
theorem abs_roundTo_sub_le (p : ℕ) (x : K) : |roundTo p x - x| ≤ |x| / 2 ^ p := by
  rcases eq_or_ne x 0 with rfl | hne
  · simp
  have hspacing : spacing p x / 2 ≤ |x| / 2 ^ p := by
    have hsplit : spacing p x = 2 ^ Int.log 2 |x| * 2 / 2 ^ p := by
      rw [spacing, zpow_sub₀ two_ne_zero, zpow_add_one₀ two_ne_zero, zpow_natCast]
    rw [hsplit, mul_div_right_comm, mul_div_cancel_right₀ _ two_ne_zero]
    have hlog := two_zpow_log_le (abs_pos.mpr hne)
    gcongr
  exact (abs_roundTo_sub_le_spacing p x).trans hspacing

/-- A number is rounded within the powers of two around it. -/
theorem roundTo_binade (hp : 0 < p) (hx : 0 < x) :
    2 ^ Int.log 2 x ≤ roundTo p x ∧ roundTo p x ≤ 2 ^ (Int.log 2 x + 1) := by
  have hpos := spacing_pos p x
  obtain ⟨q, rfl⟩ : ∃ q, p = q + 1 := ⟨p - 1, by omega⟩
  have hlow : (2 : K) ^ Int.log 2 x = (2 ^ q : ℤ) * spacing (q + 1) x := by
    rw [spacing, abs_of_pos hx, Int.cast_pow, Int.cast_ofNat, ← zpow_natCast,
      ← zpow_add₀ two_ne_zero]
    congr 1
    push_cast
    ring
  have hhigh : (2 : K) ^ (Int.log 2 x + 1) = (2 ^ (q + 1) : ℤ) * spacing (q + 1) x := by
    rw [zpow_add_one₀ two_ne_zero, hlow]
    push_cast
    ring
  have hxlow := two_zpow_log_le hx
  have hxhigh := (lt_two_zpow_log x).le
  rw [hlow, ← le_div_iff₀ hpos] at hxlow
  rw [hhigh, ← div_le_iff₀ hpos] at hxhigh
  rw [hlow, hhigh, roundTo]
  have hmlow := nearestEven_mono hxlow
  have hmhigh := nearestEven_mono hxhigh
  rw [nearestEven_intCast] at hmlow hmhigh
  exact ⟨mul_le_mul_of_nonneg_right (by exact_mod_cast hmlow) hpos.le,
    mul_le_mul_of_nonneg_right (by exact_mod_cast hmhigh) hpos.le⟩

theorem roundTo_pos (hp : 0 < p) (hx : 0 < x) : 0 < roundTo p x :=
  (zpow_pos two_pos _).trans_le (roundTo_binade hp hx).1

/-- Rounding keeps the order of positive numbers. -/
theorem roundTo_le_of_pos (hp : 0 < p) (hx : 0 < x) (h : x ≤ y) : roundTo p x ≤ roundTo p y := by
  have hy := hx.trans_le h
  rcases (Int.log_mono_right (b := 2) hx h).lt_or_eq with hlog | hlog
  · calc roundTo p x ≤ 2 ^ (Int.log 2 x + 1) := (roundTo_binade hp hx).2
      _ ≤ 2 ^ Int.log 2 y := zpow_le_zpow_right₀ one_le_two hlog
      _ ≤ roundTo p y := (roundTo_binade hp hy).1
  · have hspacing : spacing p x = spacing p y := by
      rw [spacing, spacing, abs_of_pos hx, abs_of_pos hy, hlog]
    rw [roundTo, roundTo, hspacing]
    have hpos := spacing_pos p y
    have hmono := nearestEven_mono (div_le_div_of_nonneg_right h hpos.le)
    exact mul_le_mul_of_nonneg_right (by exact_mod_cast hmono) hpos.le

/-- Rounding keeps the order. -/
theorem roundTo_mono (hp : 0 < p) (h : x ≤ y) : roundTo p x ≤ roundTo p y := by
  rcases lt_trichotomy x 0 with hx | rfl | hx
  · rcases lt_trichotomy y 0 with hy | rfl | hy
    · have hneg := roundTo_le_of_pos hp (neg_pos.mpr hy) (neg_le_neg h)
      rwa [roundTo_neg, roundTo_neg, neg_le_neg_iff] at hneg
    · have hneg := roundTo_pos hp (neg_pos.mpr hx)
      rw [roundTo_neg] at hneg
      rw [roundTo_zero]
      exact (neg_pos.mp hneg).le
    · have hneg := roundTo_pos hp (neg_pos.mpr hx)
      rw [roundTo_neg] at hneg
      exact ((neg_pos.mp hneg).trans (roundTo_pos hp hy)).le
  · rw [roundTo_zero]
    rcases h.lt_or_eq with hy | rfl
    · exact (roundTo_pos hp hy).le
    · rw [roundTo_zero]
  · exact roundTo_le_of_pos hp hx h

theorem abs_roundTo (hp : 0 < p) (x : K) : |roundTo p x| = roundTo p |x| := by
  have hnonneg : ∀ y : K, 0 ≤ y → 0 ≤ roundTo p y := by
    intro y hy
    rw [← roundTo_zero (K := K) p]
    exact roundTo_mono hp hy
  rcases le_total 0 x with hx | hx
  · rw [abs_of_nonneg hx, abs_of_nonneg (hnonneg x hx)]
  · rw [abs_of_nonpos hx, ← abs_neg, ← roundTo_neg]
    exact abs_of_nonneg (hnonneg (-x) (neg_nonneg.mpr hx))

theorem roundTo_two_zpow (hp : 0 < p) (e : ℤ) : roundTo p ((2 : K) ^ e) = 2 ^ e :=
  roundTo_eq_self (m := 1) (e := e) (by rw [abs_one]; exact one_lt_pow₀ one_lt_two hp.ne')
    (by simp)

/-- Rounding does not leave the powers of two. -/
theorem InBinades.rounded {k : ℕ} (hx : InBinades k x) (hp : 0 < p) :
    InBinades k (roundTo p x) := by
  rcases hx with rfl | ⟨hlow, hhigh⟩
  · exact .inl (roundTo_zero p)
  refine .inr ⟨?_, ?_⟩
  · rw [abs_roundTo hp, ← roundTo_two_zpow hp]
    exact roundTo_mono hp hlow
  · rw [abs_roundTo hp, ← roundTo_two_zpow hp]
    exact roundTo_mono hp hhigh

/-- Less than a number with an even significand, that is no power of two, is what is not rounded
up to it. -/
theorem roundTo_lt_iff (hm : Even m) (hlow : 2 ^ p < m) (hhigh : m < 2 ^ (p + 1)) :
    roundTo (p + 1) x < m * 2 ^ e ↔ x < (m - 1 / 2) * 2 ^ e := by
  have hpos : (0 : K) < 2 ^ e := zpow_pos two_pos e
  have hbase : (2 : K) ^ (e + p) = 2 ^ p * 2 ^ e := by
    rw [zpow_add₀ two_ne_zero, zpow_natCast, mul_comm]
  have hlowK : (2 : K) ^ p + 1 ≤ m := by exact_mod_cast hlow
  have hhighK : (m : K) < 2 ^ p * 2 := by
    rw [← pow_succ]
    exact_mod_cast hhigh
  by_cases hsmall : x < 2 ^ (e + p)
  · have hround : roundTo (p + 1) x ≤ 2 ^ (e + p) := by
      rw [← roundTo_two_zpow p.succ_pos (e + p)]
      exact roundTo_mono p.succ_pos hsmall.le
    rw [hbase] at hsmall hround
    exact iff_of_true (by nlinarith) (by nlinarith)
  rw [not_lt] at hsmall
  by_cases hlarge : 2 ^ (e + p + 1) ≤ x
  · have hround : 2 ^ (e + p + 1) ≤ roundTo (p + 1) x := by
      rw [← roundTo_two_zpow p.succ_pos (e + p + 1)]
      exact roundTo_mono p.succ_pos hlarge
    rw [zpow_add_one₀ two_ne_zero, hbase] at hlarge hround
    exact iff_of_false (by nlinarith) (by nlinarith)
  have hx : 0 < x := (zpow_pos two_pos _).trans_le hsmall
  have hspacing : spacing (p + 1) x = 2 ^ e := by
    rw [spacing, abs_of_pos hx, log_eq hsmall (not_le.mp hlarge)]
    congr 1
    push_cast
    ring
  rw [roundTo, hspacing, mul_lt_mul_iff_left₀ hpos, Int.cast_lt, nearestEven_lt_iff hm,
    div_lt_iff₀ hpos]

/-! ## Fractions -/

/-- The next integer after a rounded fraction is not below the fraction: it could only be a whole
part of the denominator below it, and the error is less than that. -/
theorem div_le_ceil_roundTo (hm : 0 ≤ m) (hmp : m < 2 ^ p) (hn : 0 < n) :
    (m / n : K) ≤ ⌈roundTo p (m / n : K)⌉ := by
  by_contra hlt
  rw [not_le] at hlt
  have hnK : (0 : K) < n := by exact_mod_cast hn
  have hmK : (0 : K) ≤ m := by exact_mod_cast hm
  have hmpK : (m : K) < 2 ^ p := by exact_mod_cast hmp
  have herror : (m / n : K) - ⌈roundTo p (m / n : K)⌉ ≤ m / n / 2 ^ p := by
    have hceil := Int.le_ceil (roundTo p (m / n : K))
    have habs := (abs_le.mp (abs_roundTo_sub_le p (m / n : K))).1
    rw [abs_of_nonneg (div_nonneg hmK hnK.le)] at habs
    linarith
  rw [lt_div_iff₀ hnK] at hlt
  have hpart : (⌈roundTo p (m / n : K)⌉ * n : K) + 1 ≤ m := by exact_mod_cast hlt
  have hdigit : (m / n / 2 ^ p : K) * n < 1 := by
    rw [div_right_comm, div_mul_cancel₀ _ hnK.ne', div_lt_one (by positivity)]
    exact hmpK
  have hscaled := mul_le_mul_of_nonneg_right herror hnK.le
  rw [sub_mul, div_mul_cancel₀ _ hnK.ne'] at hscaled
  linarith
