import Mathlib

namespace BitPark.Rounding

/-- The number of units an amount of time is charged for. -/
def units (x u : ℤ) : ℤ := ⌈(x : ℚ) / u⌉

/-- The time that is missing to the end of the last unit. -/
def missing (x u : ℤ) : ℤ := u * units x u - x

/-- Two kinds of time, each with its unit and rate. The first kind completes
its last unit at the expense of the second. -/
def twoRate (u : ℤ) (r : ℚ) (v : ℤ) (s : ℚ) (x y : ℤ) : ℚ :=
  units x u * r + units (max 0 (y - missing x u)) v * s

/-- One unit of the first kind costs at least what it can take off the second. -/
def Balanced (u : ℤ) (r : ℚ) (v : ℤ) (s : ℚ) : Prop := units (u - 1) v * s ≤ r

theorem units_bounds (x u : ℤ) (hu : 0 < u) : u * (units x u - 1) < x ∧ x ≤ u * units x u := by
  have hq : (0 : ℚ) < u := by exact_mod_cast hu
  obtain ⟨h1, h2⟩ := Int.ceil_eq_iff.mp (rfl : units x u = ⌈(x : ℚ) / u⌉).symm
  rw [lt_div_iff₀ hq, mul_comm] at h1
  rw [div_le_iff₀ hq, mul_comm] at h2
  exact ⟨by exact_mod_cast h1, by exact_mod_cast h2⟩

theorem units_eq (x u n : ℤ) (hu : 0 < u) (h1 : u * (n - 1) < x) (h2 : x ≤ u * n) : units x u = n := by
  obtain ⟨g1, g2⟩ := units_bounds x u hu
  have hlt : units x u - 1 < n := lt_of_mul_lt_mul_left (g1.trans_le h2) hu.le
  have hgt : n - 1 < units x u := lt_of_mul_lt_mul_left (h1.trans_le g2) hu.le
  omega

theorem units_le_iff (x u n : ℤ) (hu : 0 < u) : units x u ≤ n ↔ x ≤ u * n := by
  have hq : (0 : ℚ) < u := by exact_mod_cast hu
  rw [units]
  rw [Int.ceil_le, div_le_iff₀ hq, mul_comm]
  exact_mod_cast Iff.rfl

theorem units_mono (x y u : ℤ) (hu : 0 < u) (h : x ≤ y) : units x u ≤ units y u :=
  (units_le_iff x u _ hu).mpr (h.trans (units_bounds y u hu).2)

theorem units_add_le (x y u : ℤ) (hu : 0 < u) : units (x + y) u ≤ units x u + units y u := by
  have hx := (units_bounds x u hu).2
  have hy := (units_bounds y u hu).2
  rw [units_le_iff _ _ _ hu, mul_add]
  omega

theorem missing_bounds (x u : ℤ) (hu : 0 < u) : 0 ≤ missing x u ∧ missing x u ≤ u - 1 := by
  obtain ⟨h1, h2⟩ := units_bounds x u hu
  rw [missing]
  rw [mul_sub, mul_one] at h1
  omega

theorem units_completed (x u : ℤ) (hu : 0 < u) : units (x + missing x u) u = units x u := by
  have hx : x + missing x u = u * units x u := by unfold missing; ring
  rw [hx]
  refine units_eq _ u _ hu ?_ le_rfl
  rw [mul_sub, mul_one]
  omega

/-- The units of both kinds together cover the time of both, and exceed it by
less than one unit. -/
theorem twoUnits_bounds (x y u v : ℤ) (hu : 0 < u) (hv : 0 < v) (hx : 0 ≤ x) (hy : 0 ≤ y) :
    0 ≤ units x u ∧ 0 ≤ units (max 0 (y - missing x u)) v ∧
      x + y ≤ units x u * u + units (max 0 (y - missing x u)) v * v ∧
      units x u * u + units (max 0 (y - missing x u)) v * v < x + y + max u v := by
  obtain ⟨hm0, hm1⟩ := missing_bounds x u hu
  obtain ⟨hl, hh⟩ := units_bounds (max 0 (y - missing x u)) v hv
  have hx' : units x u * u = x + missing x u := by
    rw [missing]
    ring
  have hpos : ∀ z w : ℤ, 0 < w → 0 ≤ z → 0 ≤ units z w := by
    intro z w hw hz
    by_contra h
    have hb := (units_bounds z w hw).2
    have hneg : w * units z w < 0 := mul_neg_of_pos_of_neg hw (not_le.mp h)
    omega
  refine ⟨hpos x u hu hx, hpos _ v hv (le_max_left _ _), ?_, ?_⟩
  · rw [hx', mul_comm _ v]
    omega
  · rw [hx', mul_comm _ v]
    rw [mul_sub, mul_one] at hl
    rcases le_total (missing x u) y with h | h
    · omega
    · -- the second kind is used up, and no unit of it is left
      rw [max_eq_left (by omega)] at hl hh ⊢
      have hz : units 0 v = 0 := units_eq 0 v 0 hv (by omega) (by omega)
      rw [hz]
      omega

/-- More time of either kind never costs less, if the rates are balanced:
what a further unit of the first kind takes off the second is at most what it adds. -/
theorem twoRate_mono (u : ℤ) (r : ℚ) (v : ℤ) (s : ℚ) (hu : 0 < u) (hv : 0 < v) (hr : 0 ≤ r) (hs : 0 ≤ s)
    (hb : Balanced u r v s) (x x' y y' : ℤ) (hx : x ≤ x') (hy : y ≤ y') :
    twoRate u r v s x y ≤ twoRate u r v s x' y' := by
  obtain ⟨hc0, -⟩ := missing_bounds x u hu
  obtain ⟨hc0', hc1'⟩ := missing_bounds x' u hu
  unfold twoRate
  rcases (units_mono x x' u hu hx).eq_or_lt with he | hlt
  · -- no further unit: the first kind borrows less than before
    have hm : missing x' u ≤ missing x u := by unfold missing; rw [he]; omega
    have hle := units_mono (max 0 (y - missing x u)) (max 0 (y' - missing x' u)) v hv (by omega)
    have hle' : (units (max 0 (y - missing x u)) v : ℚ) ≤ units (max 0 (y' - missing x' u)) v := by
      exact_mod_cast hle
    rw [he]
    have := mul_le_mul_of_nonneg_right hle' hs
    linarith
  · have h1 : units (max 0 (y - missing x u)) v ≤ units (max 0 (y' - missing x' u) + (u - 1)) v :=
      units_mono _ _ v hv (by omega)
    have h2 := h1.trans (units_add_le _ _ v hv)
    have h2' : (units (max 0 (y - missing x u)) v : ℚ) ≤
        units (max 0 (y' - missing x' u)) v + units (u - 1) v := by exact_mod_cast h2
    have h3 : (units x u : ℚ) + 1 ≤ units x' u := by exact_mod_cast hlt
    have h4 := mul_le_mul_of_nonneg_right h2' hs
    have h5 := mul_le_mul_of_nonneg_right h3 hr
    unfold Balanced at hb
    rw [add_mul] at h4 h5
    linarith

end BitPark.Rounding
