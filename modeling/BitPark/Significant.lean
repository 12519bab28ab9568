import Mathlib

namespace BitPark.Significant

/-! Rounding to a number of significant digits, in any base. -/

/-- The nearest integer, the even one of two. -/
def roundEven (x : ℚ) : ℤ :=
  if x - ⌊x⌋ < 1 / 2 then ⌊x⌋
  else if 1 / 2 < x - ⌊x⌋ then ⌊x⌋ + 1
  else if ⌊x⌋ % 2 = 0 then ⌊x⌋ else ⌊x⌋ + 1

theorem abs_sub_roundEven (x : ℚ) : |x - roundEven x| ≤ 1 / 2 := by
  have h0 := Int.floor_le x
  have h1 := Int.lt_floor_add_one x
  rw [roundEven, abs_le]
  split_ifs
  · constructor <;> linarith
  · push_cast
    constructor <;> linarith
  · constructor <;> linarith
  · push_cast
    constructor <;> linarith

theorem roundEven_of_near (x : ℚ) (n : ℤ) (h : |x - n| < 1 / 2) : roundEven x = n := by
  have hr := abs_sub_roundEven x
  have hlt : |((roundEven x - n : ℤ) : ℚ)| < 1 := by
    have htri := abs_sub_le (roundEven x : ℚ) x n
    rw [abs_sub_comm (roundEven x : ℚ) x] at htri
    push_cast
    linarith
  rw [← Int.cast_abs] at hlt
  have hz : |roundEven x - n| < 1 := by exact_mod_cast hlt
  rw [Int.abs_lt_one_iff] at hz
  omega

section

variable (β p : ℕ)

/-- The exponent of the last of the significant digits. -/
def lastPlace (x : ℚ) : ℤ := Int.log β |x| - p + 1

/-- The weight of that digit. -/
def unit (x : ℚ) : ℚ := (β : ℚ) ^ lastPlace β p x

def roundDigits (x : ℚ) : ℚ := roundEven (x / unit β p x) * unit β p x

/-- A number with no more significant digits than so many. -/
def Fits (x : ℚ) : Prop := ∃ m k : ℤ, |m| < (β : ℤ) ^ p ∧ x = m * (β : ℚ) ^ k

variable (hβ : 1 < β)
include hβ

theorem unit_pos (x : ℚ) : 0 < unit β p x := zpow_pos (by exact_mod_cast hβ.pos) _

theorem lt_unit (x : ℚ) : |x| < (β : ℚ) ^ p * unit β p x := by
  have h0 : (β : ℚ) ≠ 0 := by exact_mod_cast hβ.ne_zero
  rw [unit, lastPlace, ← zpow_natCast, ← zpow_add₀ h0, show (p : ℤ) + (Int.log β |x| - p + 1) = Int.log β |x| + 1 by ring]
  exact Int.lt_zpow_succ_log_self hβ |x|

theorem unit_le (x : ℚ) (hx : x ≠ 0) : (β : ℚ) ^ p * unit β p x ≤ β * |x| := by
  have h0 : (β : ℚ) ≠ 0 := by exact_mod_cast hβ.ne_zero
  have hlog := Int.zpow_log_le_self (r := |x|) hβ (abs_pos.mpr hx)
  rw [unit, lastPlace, ← zpow_natCast, ← zpow_add₀ h0,
    show (p : ℤ) + (Int.log β |x| - p + 1) = 1 + Int.log β |x| by ring, zpow_add₀ h0, zpow_one]
  exact mul_le_mul_of_nonneg_left hlog (by positivity)

theorem abs_sub_roundDigits (x : ℚ) : |x - roundDigits β p x| ≤ unit β p x / 2 := by
  have hu := unit_pos β p hβ x
  have hr := mul_le_mul_of_nonneg_right (abs_sub_roundEven (x / unit β p x)) hu.le
  have heq : x - roundDigits β p x = (x / unit β p x - roundEven (x / unit β p x)) * unit β p x := by
    rw [roundDigits, sub_mul, div_mul_cancel₀ _ hu.ne']
  rw [heq, abs_mul, abs_of_pos hu]
  linarith

/-- The relative error. -/
theorem abs_sub_roundDigits_le (x : ℚ) (hx : x ≠ 0) : 2 * (β : ℚ) ^ p * |x - roundDigits β p x| ≤ β * |x| := by
  have hu := unit_le β p hβ x hx
  have hpow : (0 : ℚ) ≤ (β : ℚ) ^ p := by positivity
  have hr := mul_le_mul_of_nonneg_left (abs_sub_roundDigits β p hβ x) hpow
  linarith

/-- A multiple of the unit of the rounded number that is nearer than its half. -/
theorem roundDigits_of_multiple (x v : ℚ) (n : ℤ) (hv : v = n * unit β p x) (hn : |x - v| < unit β p x / 2) :
    roundDigits β p x = v := by
  have hu := unit_pos β p hβ x
  have heq : x / unit β p x - n = (x - v) / unit β p x := by
    rw [hv, sub_div, mul_div_cancel_right₀ _ hu.ne']
  rw [roundDigits, roundEven_of_near _ n, hv]
  rw [heq, abs_div, abs_of_pos hu, div_lt_iff₀ hu]
  linarith

/-- A number that fits is a multiple of every unit that is not larger than its own. -/
theorem fits_multiple (v : ℚ) (hv : v ≠ 0) (h : Fits β p v) (k : ℤ) (hk : k ≤ lastPlace β p v) :
    ∃ n : ℤ, v = n * (β : ℚ) ^ k := by
  have h0 : (β : ℚ) ≠ 0 := by exact_mod_cast hβ.ne_zero
  obtain ⟨m, j, hm, rfl⟩ := h
  have hpow : (0 : ℚ) < (β : ℚ) ^ j := zpow_pos (by exact_mod_cast hβ.pos) j
  have hlt : |m * (β : ℚ) ^ j| < (β : ℚ) ^ (p + j) := by
    have hm' : |(m : ℚ)| < (β : ℚ) ^ p := by exact_mod_cast hm
    rw [abs_mul, abs_of_pos hpow, zpow_add₀ h0, zpow_natCast]
    exact mul_lt_mul_of_pos_right hm' hpow
  have hlog := (Int.lt_zpow_iff_log_lt hβ (abs_pos.mpr hv)).mp hlt
  have hkj : k ≤ j := by
    rw [lastPlace] at hk
    omega
  obtain ⟨d, hd⟩ := Int.le.dest hkj
  refine ⟨m * (β : ℤ) ^ d, ?_⟩
  rw [← hd, zpow_add₀ h0, zpow_natCast]
  push_cast
  ring

theorem roundDigits_of_fits (v : ℚ) (h : Fits β p v) : roundDigits β p v = v := by
  by_cases hv : v = 0
  · rw [hv, roundDigits, zero_div]
    simp [roundEven]
  · obtain ⟨n, hn⟩ := fits_multiple β p hβ v hv h _ le_rfl
    have hu := unit_pos β p hβ v
    apply roundDigits_of_multiple β p hβ v v n hn
    rw [sub_self, abs_zero]
    exact half_pos hu

theorem roundDigits_nonneg (x : ℚ) (hx : 0 ≤ x) : 0 ≤ roundDigits β p x := by
  have hu := unit_pos β p hβ x
  have hfloor : 0 ≤ ⌊x / unit β p x⌋ := Int.floor_nonneg.mpr (div_nonneg hx hu.le)
  have heven : 0 ≤ roundEven (x / unit β p x) := by
    rw [roundEven]
    split_ifs <;> omega
  exact mul_nonneg (by exact_mod_cast heven) hu.le

omit hβ in
theorem fits_natCast (n : ℕ) (hn : n < β ^ p) : Fits β p n := by
  refine ⟨n, 0, ?_, by simp⟩
  rw [Nat.abs_cast]
  exact_mod_cast hn

theorem fits_roundDigits (hp : 0 < p) (x : ℚ) : Fits β p (roundDigits β p x) := by
  have hu := unit_pos β p hβ x
  have h0 : (β : ℚ) ≠ 0 := by exact_mod_cast hβ.ne_zero
  have hle : |roundEven (x / unit β p x)| ≤ (β : ℤ) ^ p := by
    have hx : |x / unit β p x| < (β : ℚ) ^ p := by
      rw [abs_div, abs_of_pos hu, div_lt_iff₀ hu]
      exact lt_unit β p hβ x
    have hr := abs_sub_roundEven (x / unit β p x)
    have htri := abs_sub_abs_le_abs_sub (roundEven (x / unit β p x) : ℚ) (x / unit β p x)
    rw [abs_sub_comm] at htri
    have hlt : |(roundEven (x / unit β p x) : ℚ)| < (β : ℚ) ^ p + 1 := by linarith
    rw [← Int.cast_abs] at hlt
    have hz : |roundEven (x / unit β p x)| < (β : ℤ) ^ p + 1 := by exact_mod_cast hlt
    omega
  rcases hle.lt_or_eq with hlt | heq
  · exact ⟨_, _, hlt, rfl⟩
  · -- a number of nines is rounded up to a power of the base
    have hsign := abs_eq (by positivity) |>.mp heq
    have hpow : (β : ℚ) ^ p * unit β p x = ((1 : ℤ) : ℚ) * (β : ℚ) ^ (p + lastPlace β p x) := by
      rw [Int.cast_one, one_mul, zpow_add₀ h0, zpow_natCast]
      rfl
    have hone : (1 : ℤ) < (β : ℤ) ^ p := one_lt_pow₀ (by exact_mod_cast hβ) hp.ne'
    rcases hsign with h | h
    · refine ⟨1, p + lastPlace β p x, by simpa using hone, ?_⟩
      rw [← hpow, roundDigits, h]
      push_cast
      rfl
    · refine ⟨-1, p + lastPlace β p x, by simpa using hone, ?_⟩
      rw [Int.cast_neg, neg_mul, ← hpow, roundDigits, h]
      push_cast
      ring

/-- A number that fits is what everything close to it is rounded to. -/
theorem roundDigits_of_near (x v : ℚ) (hv : 0 < v) (hx : 0 < x) (h : Fits β p v) (hnv : 2 * (β : ℚ) ^ p * |x - v| < v)
    (hnx : 2 * (β : ℚ) ^ p * |x - v| < x) : roundDigits β p x = v := by
  have hpow : (0 : ℚ) < (β : ℚ) ^ p := pow_pos (by exact_mod_cast hβ.pos) p
  have hlog : Int.log β x ≤ Int.log β v := by
    by_contra hlt
    rw [not_le] at hlt
    -- the next power of the base would lie between them, a whole unit above the number
    have hle : (β : ℚ) ^ p * unit β p v ≤ x := by
      have h0 : (β : ℚ) ≠ 0 := by exact_mod_cast hβ.ne_zero
      rw [unit, lastPlace, abs_of_pos hv, ← zpow_natCast, ← zpow_add₀ h0,
        show (p : ℤ) + (Int.log β v - p + 1) = Int.log β v + 1 by ring]
      exact (Int.zpow_le_iff_le_log hβ hx).mpr hlt
    have hu := unit_pos β p hβ v
    obtain ⟨n, hn⟩ := fits_multiple β p hβ v hv.ne' h _ le_rfl
    change v = n * unit β p v at hn
    have hvlt := lt_unit β p hβ v
    rw [abs_of_pos hv] at hvlt
    have hnlt : (n : ℚ) < (β : ℚ) ^ p := lt_of_mul_lt_mul_right (hn ▸ hvlt) hu.le
    have hn1 : n + 1 ≤ (β : ℤ) ^ p := by
      have : n < (β : ℤ) ^ p := by exact_mod_cast hnlt
      omega
    have hn1' : ((n : ℚ) + 1) * unit β p v ≤ (β : ℚ) ^ p * unit β p v :=
      mul_le_mul_of_nonneg_right (by exact_mod_cast hn1) hu.le
    have hgap : unit β p v ≤ |x - v| := by
      refine le_trans ?_ (le_abs_self _)
      linarith
    have hbig := mul_le_mul_of_nonneg_left hgap hpow.le
    linarith
  obtain ⟨n, hn⟩ := fits_multiple β p hβ v hv.ne' h (lastPlace β p x) (by
    rw [lastPlace, lastPlace, abs_of_pos hv, abs_of_pos hx]
    omega)
  refine roundDigits_of_multiple β p hβ x v n hn ?_
  have hlt := lt_unit β p hβ x
  rw [abs_of_pos hx] at hlt
  have hlt' : (β : ℚ) ^ p * (2 * |x - v|) < (β : ℚ) ^ p * unit β p x := by linarith
  have := lt_of_mul_lt_mul_left hlt' hpow.le
  linarith

end

end BitPark.Significant
